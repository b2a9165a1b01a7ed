import Mathlib.Data.List.Perm.Basic
import PluginSurface.Proofs.Typing.Members

/-!
# Lists that are the same under each name

Properties under one name are collected in their order, and what is collected under one name does
not depend on the properties and members under others. So the order matters only among those of one
name: two lists are exchanged for each other if they are the same under each name. Then one is a
permutation of the other.
-/

namespace PluginSurface

/-- The name under which a resolved member is collected. -/
def Member.key? : Member → Option String
  | .property name .. | .method name .. | .getter name _ | .setter name _ => some name
  | .call _ | .construct _ | .index _ => none

/-- The name under which a member is collected. -/
def TypeMember.key? : TypeMember → Option String
  | .property name .. | .method name .. | .getter name _ | .setter name _ => some name.key
  | .call _ | .construct _ | .index _ => none

/-- Under each name the members are the same, in the same order. -/
def TypeMember.SameByKey (ms ms' : List TypeMember) : Prop :=
  ∀ key : String, ms.filter (·.key? == some key) = ms'.filter (·.key? == some key)

theorem eq_of_perm_of_length_le_one {α : Type*} {l l' : List α} (h : l.Perm l')
    (hl : l.length ≤ 1) : l = l' := by
  match l with
  | [] => exact h.nil_eq
  | [a] => exact (List.singleton_perm.mp h).symm ▸ rfl

/-- Entries with distinct keys are the same under each key in any order. -/
theorem filter_key?_of_perm {α : Type*} {key? : α → Option String} {l l' : List α}
    (h : l.Perm l') (hkeys : (l.filterMap key?).Nodup) (key : String) :
    l.filter (key? · == some key) = l'.filter (key? · == some key) := by
  refine eq_of_perm_of_length_le_one (h.filter _) ?_
  have hcount : (l.filter (key? · == some key)).length = (l.filterMap key?).count key := by
    rw [← List.countP_eq_length_filter, List.count, List.countP_filterMap]
    refine List.countP_congr fun m _ ↦ ?_
    cases key? m <;> simp
  rw [hcount]
  exact List.nodup_iff_count.mp hkeys key

/-- Members with distinct names are the same under each name in any order. -/
theorem TypeMember.sameByKey_of_perm {ms ms' : List TypeMember} (h : ms.Perm ms')
    (hkeys : (ms.filterMap key?).Nodup) : SameByKey ms ms' := filter_key?_of_perm h hkeys

namespace Members

/-- Under each name the properties are the same, in the same order. -/
def SameByName (ps qs : List Property) : Prop :=
  ∀ name : String, ps.filter (·.name == name) = qs.filter (·.name == name)

namespace SameByName

variable {ps qs : List Property}

theorem refl (ps : List Property) : SameByName ps ps := fun _ ↦ rfl

/-- Properties with distinct names are the same under each name in any order. -/
theorem of_perm (h : ps.Perm qs) (hps : Distinct ps) : SameByName ps qs := by
  have hnames : (ps.filterMap fun p ↦ some p.name).Nodup := by rwa [List.filterMap_eq_map']
  exact fun name ↦ by simpa using filter_key?_of_perm h hnames name

theorem symm (h : SameByName ps qs) : SameByName qs ps := fun name ↦ (h name).symm

theorem perm (h : SameByName ps qs) : ps.Perm qs := by
  classical
  refine List.perm_iff_count.mpr fun p ↦ ?_
  have hcount (rs : List Property) : (rs.filter (·.name == p.name)).count p = rs.count p :=
    List.count_filter (beq_self_eq_true p.name)
  rw [← hcount ps, h, hcount]

theorem find?_eq (h : SameByName ps qs) (name : String) :
    ps.find? (·.name == name) = qs.find? (·.name == name) := by
  rw [← List.head?_filter, h, List.head?_filter]

theorem append {ps' qs' : List Property} (h : SameByName ps qs) (h' : SameByName ps' qs') :
    SameByName (ps ++ ps') (qs ++ qs') := by
  intro name
  rw [List.filter_append, List.filter_append, h, h']

theorem flatten {pss qss : List (List Property)} (h : List.Forall₂ SameByName pss qss) :
    SameByName pss.flatten qss.flatten := by
  induction h with
  | nil => exact refl []
  | cons h _ ih => exact h.append ih

end SameByName

/-! ## Collecting -/

/-- A change under one name changes what is under that name, and nothing else. -/
theorem filter_change {f : Property → Property} (hf : ∀ p, (f p).name = p.name) (new : Property)
    (ps : List Property) (name : String) :
    (change f new ps).filter (·.name == name) =
      if new.name == name then change f new (ps.filter (·.name == name))
      else ps.filter (·.name == name) := by
  let g (p : Property) := if p.name == new.name then f p else p
  have hg (p : Property) : (g p).name = p.name := by
    unfold g
    split
    · exact hf p
    · rfl
  have hmap : (ps.map g).filter (·.name == name) = (ps.filter (·.name == name)).map g := by
    rw [List.filter_map]
    exact congrArg (List.map g ·) (List.filter_congr fun p _ ↦ by simp [hg])
  by_cases hname : new.name = name
  · subst hname
    have hhas : has new.name (ps.filter (·.name == new.name)) = has new.name ps := by
      simp [has, List.any_filter]
    simp only [change, hhas, beq_self_eq_true, if_true]
    split
    · exact hmap
    · simp
  · rw [if_neg (by simpa using hname)]
    unfold change
    split
    · refine hmap.trans ?_
      conv_rhs => rw [← List.map_id (ps.filter (·.name == name))]
      refine List.map_congr_left fun p hp ↦ ?_
      have hp : p.name = name := by simpa using (List.mem_filter.mp hp).2
      have : ¬p.name = new.name := fun h ↦ hname (h ▸ hp)
      simp [g, this]
    · simp [hname]

variable {α : Type} {add : List Property → α → List Property} {under : α → String → Bool}

/-- Where adding changes only what is under one name, what is under it in the end comes from those
that were added under it. -/
theorem filter_foldl (hadd : ∀ ps a name, (add ps a).filter (·.name == name) =
      if under a name then add (ps.filter (·.name == name)) a else ps.filter (·.name == name))
    (as : List α) (ps : List Property) (name : String) :
    (as.foldl add ps).filter (·.name == name) =
      (as.filter (under · name)).foldl add (ps.filter (·.name == name)) := by
  induction as generalizing ps with
  | nil => rfl
  | cons a rest ih =>
      rw [List.foldl_cons, ih, hadd, List.filter_cons]
      split <;> rfl

theorem SameByName.foldl (hadd : ∀ ps a name, (add ps a).filter (·.name == name) =
      if under a name then add (ps.filter (·.name == name)) a else ps.filter (·.name == name))
    {as as' : List α} (has : ∀ name, as.filter (under · name) = as'.filter (under · name))
    {ps ps' : List Property} (hps : SameByName ps ps') :
    SameByName (as.foldl add ps) (as'.foldl add ps') := by
  intro name
  rw [filter_foldl hadd, filter_foldl hadd, has, hps]

theorem filter_addNew (ps : List Property) (p : Property) (name : String) :
    (addNew ps p).filter (·.name == name) =
      if p.name == name then addNew (ps.filter (·.name == name)) p
      else ps.filter (·.name == name) := filter_change (fun _ ↦ rfl) p ps name

theorem filter_addMeet (ps : List Property) (p : Property) (name : String) :
    (addMeet ps p).filter (·.name == name) =
      if p.name == name then addMeet (ps.filter (·.name == name)) p
      else ps.filter (·.name == name) := filter_change (name_meet p) p ps name

theorem filter_addMember (ps : List Property) (m : Member) (name : String) :
    (addMember ps m).filter (·.name == name) =
      if m.key? == some name then addMember (ps.filter (·.name == name)) m
      else ps.filter (·.name == name) := by
  cases m with
  | property key optional readonly type => exact filter_change (fun _ ↦ rfl) _ ps name
  | method key optional f => exact filter_change (fun p ↦ name_overload p f) _ ps name
  | getter key type => exact filter_change (name_withGetter type) _ ps name
  | setter key type => exact filter_change name_withSetter _ ps name
  | call f | construct f | index i => rfl

variable {ps ps' qs qs' : List Property}

theorem SameByName.addNew (h : SameByName ps ps') (hqs : SameByName qs qs') :
    SameByName (qs.foldl Members.addNew ps) (qs'.foldl Members.addNew ps') :=
  h.foldl filter_addNew hqs

theorem SameByName.addMeet (h : SameByName ps ps') (hqs : SameByName qs qs') :
    SameByName (qs.foldl Members.addMeet ps) (qs'.foldl Members.addMeet ps') :=
  h.foldl filter_addMeet hqs

theorem SameByName.addMember (h : SameByName ps ps') {ms ms' : List Member}
    (hms : ∀ name, ms.filter (·.key? == some name) = ms'.filter (·.key? == some name)) :
    SameByName (ms.foldl Members.addMember ps) (ms'.foldl Members.addMember ps') :=
  h.foldl filter_addMember hms

end Members

end PluginSurface
