import Mathlib.Data.List.Induction
import PluginSurface.Proofs.Typing.DeclaredMembers

/-!
# Members in two parts

The members of a declaration can be collected in two parts, of which the second adds only what is
new. The properties are the same up to whether they can be written, if no member of the second part
changes the type of what the first part declares: only methods and getters can. Main statement:
`Typing.sameTypes_objectAt_append`.
-/

namespace PluginSurface

def Member.isMethod : Member → Bool
  | .method .. => true
  | _ => false

def TypeMember.isMethod : TypeMember → Bool
  | .method .. => true
  | _ => false

/-- Whether the member changes the type of one of the properties, if it is collected with them: a
method does so as a further signature of a method, and a getter always. -/
def Member.changes (ps : List Property) : Member → Bool
  | .method name .. => (ps.find? (·.name == name)).any (·.isMethod)
  | .getter name _ => Members.has name ps
  | _ => false

/-- Whether the member changes the type of what the members before it declare. The first member of a
name says whether it is a method. -/
def TypeMember.changes (before : List TypeMember) : TypeMember → Bool
  | .method name .. => (before.find? (·.key? == some name.key)).any TypeMember.isMethod
  | .getter name _ => before.any (·.key? == some name.key)
  | _ => false

/-- The property as one that can be written. -/
def Property.writable (p : Property) : Property := { p with readonly := false }

namespace Members

/-- The properties are the same up to whether they can be written. -/
def SameTypes (ps qs : List Property) : Prop := ps.map Property.writable = qs.map Property.writable

/-! ## Collecting without regard to what can be written -/

theorem has_writable (name : String) (ps : List Property) :
    has name (ps.map Property.writable) = has name ps := List.any_map

theorem find?_writable (name : String) (ps : List Property) :
    (ps.map Property.writable).find? (·.name == name) =
      (ps.find? (·.name == name)).map Property.writable := List.find?_map

theorem change_writable {f g : Property → Property} (h : ∀ p, (f p).writable = g p.writable)
    (new : Property) (ps : List Property) :
    (change f new ps).map Property.writable = change g new.writable (ps.map Property.writable) := by
  have hname : new.writable.name = new.name := rfl
  unfold change
  rw [hname, has_writable]
  split
  · rw [List.map_map, List.map_map]
    refine List.map_congr_left fun p _ ↦ ?_
    simp only [Function.comp_apply, apply_ite Property.writable, h]
    rfl
  · rw [List.map_append]
    rfl

theorem addNew_writable (ps : List Property) (p : Property) :
    (addNew ps p).map Property.writable = addNew (ps.map Property.writable) p.writable :=
  change_writable (f := id) (fun _ ↦ rfl) p ps

theorem addMeet_writable (ps : List Property) (p : Property) :
    (addMeet ps p).map Property.writable = addMeet (ps.map Property.writable) p.writable :=
  change_writable (f := p.meet) (fun _ ↦ rfl) p ps

theorem overload_writable (p : Property) (f : FunctionTy) :
    (p.overload f).writable = p.writable.overload f := by
  unfold Property.overload
  have hmethod : p.writable.isMethod = p.isMethod := rfl
  have htype : p.writable.type = p.type := rfl
  rw [hmethod, htype]
  cases p.isMethod with
  | false => rfl
  | true => cases p.type <;> rfl

theorem foldl_writable {add : List Property → Property → List Property}
    (h : ∀ ps p, (add ps p).map Property.writable = add (ps.map Property.writable) p.writable)
    (qs ps : List Property) : (qs.foldl add ps).map Property.writable =
      (qs.map Property.writable).foldl add (ps.map Property.writable) := by
  induction qs generalizing ps with
  | nil => rfl
  | cons q rest ih => rw [List.foldl_cons, ih, h, List.map_cons, List.foldl_cons]

namespace SameTypes

variable {ps qs ps' qs' : List Property}

theorem refl (ps : List Property) : SameTypes ps ps := rfl

theorem trans {rs : List Property} (h : SameTypes ps qs) (h' : SameTypes qs rs) : SameTypes ps rs :=
  Eq.trans h h'

/-- What does not depend on whether a property can be written is the same of both. -/
theorem map_eq {α : Type} (h : SameTypes ps qs) (f : Property → α)
    (hf : ∀ p, f p.writable = f p) : ps.map f = qs.map f := by
  have hmap (rs : List Property) : rs.map f = (rs.map Property.writable).map f := by
    rw [List.map_map]
    exact List.map_congr_left fun p _ ↦ (hf p).symm
  rw [hmap, h, ← hmap]

/-- A property is found in both under its name, with the same type. -/
theorem map_type_find? (h : SameTypes ps qs) (name : String) :
    (ps.find? (·.name == name)).map Property.type =
      (qs.find? (·.name == name)).map Property.type := by
  have hfind (rs : List Property) : (rs.find? (·.name == name)).map Property.type =
      ((rs.map Property.writable).find? (·.name == name)).map Property.type := by
    rw [find?_writable, Option.map_map]
    rfl
  rw [hfind, h, ← hfind]

theorem flatten {pss qss : List (List Property)} (h : List.Forall₂ SameTypes pss qss) :
    SameTypes pss.flatten qss.flatten := by
  induction h with
  | nil => rfl
  | cons h _ ih => exact (List.map_append).trans ((congrArg₂ _ h ih).trans List.map_append.symm)

theorem addNew (h : SameTypes ps ps') (hqs : SameTypes qs qs') :
    SameTypes (qs.foldl Members.addNew ps) (qs'.foldl Members.addNew ps') := by
  unfold SameTypes
  rw [foldl_writable addNew_writable, foldl_writable addNew_writable, h, hqs]

theorem addMeet (hqs : SameTypes qs qs') :
    SameTypes (qs.foldl Members.addMeet []) (qs'.foldl Members.addMeet []) := by
  unfold SameTypes
  rw [foldl_writable addMeet_writable, foldl_writable addMeet_writable, hqs]

theorem change {f : Property → Property} (hf : ∀ p, (f p).writable = f p.writable)
    (h : SameTypes ps ps') (new : Property) :
    SameTypes (change f new ps) (Members.change f new ps') := by
  unfold SameTypes
  rw [change_writable hf, change_writable hf, h]

theorem addMember (h : SameTypes ps ps') (m : Member) :
    SameTypes (addMember ps m) (Members.addMember ps' m) := by
  cases m with
  | property name optional readonly type => exact h.change (f := id) (fun _ ↦ rfl) _
  | method name optional f => exact h.change (fun p ↦ overload_writable p f) _
  | getter name type => exact h.change (f := .withGetter type) (fun _ ↦ rfl) _
  | setter name type => exact h.change (f := .withSetter) (fun _ ↦ rfl) _
  | call | construct | index => exact h

theorem foldl_addMember (h : SameTypes ps ps') (ms : List Member) :
    SameTypes (ms.foldl Members.addMember ps) (ms.foldl Members.addMember ps') := by
  induction ms generalizing ps ps' with
  | nil => exact h
  | cons m rest ih => exact ih (h.addMember m)

end SameTypes

/-! ## Adding what is new -/

/-- Of properties with different names, those are added whose names are new. -/
theorem foldl_addNew_distinct {qs : List Property} (h : Distinct qs) (ps : List Property) :
    qs.foldl addNew ps = ps ++ qs.filter fun q ↦ !has q.name ps := by
  induction qs generalizing ps with
  | nil => exact (List.append_nil ps).symm
  | cons q rest ih =>
      obtain ⟨hq, hrest⟩ := List.nodup_cons.mp h
      rw [List.foldl_cons, ih hrest, List.filter_cons]
      cases hps : has q.name ps with
      | true => rw [addNew_of_has hps]; rfl
      | false =>
          have hkept : (rest.filter fun r ↦ !has r.name (ps ++ [q])) =
              rest.filter fun r ↦ !has r.name ps := by
            refine List.filter_congr fun r hr ↦ ?_
            have hne : q.name ≠ r.name := fun heq ↦ hq (heq ▸ List.mem_map_of_mem hr)
            rw [has_append, has, has, List.any_cons, beq_false_of_ne hne]
            simp
          rw [addNew_of_not_has hps, hkept, List.append_assoc]
          rfl

/-- It does not matter whether what is new among the second ones is added to the
first ones before. -/
theorem foldl_addNew_assoc (ps qs rs : List Property) :
    (rs.foldl addNew qs).foldl addNew ps = rs.foldl addNew (qs.foldl addNew ps) := by
  induction rs generalizing qs with
  | nil => rfl
  | cons r rest ih =>
      rw [List.foldl_cons, ih, List.foldl_cons]
      congr 1
      cases hr : has r.name qs with
      | true =>
          rw [addNew_of_has hr, addNew_of_has]
          rw [addsUnder_addNew.foldl.has, List.any_eq_true.mpr, Bool.or_true]
          exact List.any_eq_true.mp hr
      | false => rw [addNew_of_not_has hr, List.foldl_append, List.foldl_cons, List.foldl_nil]

theorem find?_of_mem {ps : List Property} (h : Distinct ps) {p : Property} (hp : p ∈ ps)
    {name : String} (hname : p.name = name) : ps.find? (·.name == name) = some p := by
  subst hname
  induction ps with
  | nil => cases hp
  | cons q rest ih =>
      obtain ⟨hq, hrest⟩ := List.nodup_cons.mp h
      rw [List.find?_cons]
      rcases List.mem_cons.mp hp with rfl | hp
      · rw [beq_self_eq_true]
      · have hne : q.name ≠ p.name := fun heq ↦ hq (heq ▸ List.mem_map_of_mem hp)
        rw [beq_false_of_ne hne]
        exact ih hrest hp

/-- A change beside the first properties can be made before the others are added to them, if it
leaves the types of the first ones alone. -/
theorem change_foldl_addNew {f : Property → Property} (hf : ∀ p, (f p).name = p.name)
    {ps qs : List Property} {new : Property} (hqs : Distinct qs)
    (hps : ∀ p ∈ ps, p.name = new.name → (f p).writable = p.writable) :
    SameTypes ((change f new qs).foldl addNew ps) (change f new (qs.foldl addNew ps)) := by
  let g (p : Property) : Property := if p.name == new.name then f p else p
  let isNew (q : Property) : Bool := !has q.name ps
  have hg (p : Property) : (g p).name = p.name := by
    unfold g
    split
    · exact hf p
    · rfl
  have hchange (rs : List Property) : change f new rs =
      if has new.name rs then rs.map g else rs ++ [new] := rfl
  have hothers {rs : List Property} (hrs : ∀ r ∈ rs, r.name ≠ new.name) : rs.map g = rs :=
    (List.map_congr_left fun r hr ↦ by simp [g, hrs r hr]).trans (List.map_id rs)
  have hmap (rs : List Property) : (rs.map g).filter isNew = (rs.filter isNew).map g := by
    rw [List.filter_map]
    exact congrArg (List.map g ·) (List.filter_congr fun q _ ↦ by simp [isNew, hg])
  rw [foldl_addNew_distinct (distinct_change hf new hqs), foldl_addNew_distinct hqs, hchange,
    hchange, has_append]
  change SameTypes (ps ++ List.filter isNew _) (if _ then (ps ++ qs.filter isNew).map g else _)
  cases hnew : has new.name ps with
  | true =>
      -- What is under the name among the others is not new, before the change and after it.
      have hkept : (qs.filter isNew).map g = qs.filter isNew :=
        hothers fun r hr heq ↦ by simpa [isNew, heq, hnew] using (List.mem_filter.mp hr).2
      have hfilter : (if has new.name qs then qs.map g else qs ++ [new]).filter isNew =
          qs.filter isNew := by
        split
        · rw [hmap, hkept]
        · simp [isNew, hnew]
      have hpart : (ps.map g).map Property.writable = ps.map Property.writable := by
        rw [List.map_map]
        refine List.map_congr_left fun p hp ↦ ?_
        by_cases hname : p.name = new.name
        · simp [g, hname, hps p hp hname]
        · simp [g, hname]
      rw [Bool.true_or, if_pos rfl, hfilter, List.map_append, hkept]
      unfold SameTypes
      rw [List.map_append, List.map_append, hpart]
  | false =>
      have hkept : ps.map g = ps := hothers fun r hr heq ↦
        Bool.false_ne_true (hnew.symm.trans (has_iff.mpr (heq ▸ List.mem_map_of_mem hr)))
      have hhas : has new.name (qs.filter isNew) = has new.name qs := by
        unfold has
        rw [List.any_filter]
        refine congrArg (List.any qs) (funext fun q ↦ ?_)
        cases hname : q.name == new.name with
        | true => simp [isNew, eq_of_beq hname, hnew]
        | false => exact Bool.and_false _
      rw [Bool.false_or, hhas]
      split
      · rw [hmap, List.map_append, hkept]
        rfl
      · rw [List.filter_append, List.append_assoc]
        simp [isNew, hnew, SameTypes]

/-- A member is collected beside the first properties as it is beside the others alone. -/
theorem addMember_foldl_addNew {ps qs : List Property} (hqs : Distinct qs) (hps : Distinct ps)
    {m : Member} (hm : m.changes ps = false) :
    SameTypes ((addMember qs m).foldl addNew ps) (addMember (qs.foldl addNew ps) m) := by
  have hhas {name : String} (h : has name ps = false) (p : Property) (hp : p ∈ ps) :
      p.name ≠ name :=
    fun heq ↦
      Bool.false_ne_true (h.symm.trans (List.any_eq_true.mpr ⟨p, hp, beq_iff_eq.mpr heq⟩))
  cases m with
  | property name optional readonly type =>
      exact change_foldl_addNew (f := id) (fun _ ↦ rfl) hqs fun _ _ _ ↦ rfl
  | method name optional f =>
      refine change_foldl_addNew (fun p ↦ name_overload p f) hqs fun p hp hname ↦ ?_
      have hmethod : p.isMethod = false := by
        change (ps.find? (·.name == name)).any (·.isMethod) = false at hm
        rwa [find?_of_mem hps hp hname, Option.any_some] at hm
      rw [Property.overload, hmethod]
      rfl
  | getter name type =>
      exact change_foldl_addNew (name_withGetter type) hqs fun p hp hname ↦
        absurd hname (hhas hm p hp)
  | setter name type =>
      exact change_foldl_addNew name_withSetter hqs fun _ _ _ ↦ rfl
  | call | construct | index => rfl

/-- Members that change no type of what is collected before add what they are collected to alone. -/
theorem foldl_addMember_apart {ps : List Property} (hps : Distinct ps) {ms : List Member}
    (hms : ∀ m ∈ ms, m.changes ps = false) :
    SameTypes ((ms.foldl addMember []).foldl addNew ps) (ms.foldl addMember ps) := by
  induction ms using List.reverseRecOn with
  | nil => rfl
  | append_singleton ms m ih =>
      rw [List.foldl_append, List.foldl_append]
      have hm := hms m (List.mem_append_right _ (List.mem_singleton_self m))
      refine (addMember_foldl_addNew (distinct_toObject ms) hps hm).trans ?_
      exact (ih fun m hm ↦ hms m (List.mem_append_left _ hm)).addMember m

theorem sameTypes_toObject_append {xs ys : List Member}
    (h : ∀ m ∈ ys, m.changes (toObject xs).properties = false) (ps : List Property) :
    SameTypes ((toObject (xs ++ ys)).properties.foldl addNew ps)
      ((toObject ys).properties.foldl addNew ((toObject xs).properties.foldl addNew ps)) := by
  have hboth := foldl_addMember_apart (distinct_toObject xs) h
  rw [← foldl_addNew_assoc]
  refine (SameTypes.refl ps).addNew ?_
  change SameTypes ((xs ++ ys).foldl addMember []) _
  rw [List.foldl_append]
  exact hboth.symm

/-! ## Written members -/

/-- Whether the first property of a name is a method, if there is one. -/
def methodUnder? (name : String) (ps : List Property) : Option Bool :=
  (ps.find? (·.name == name)).map (·.isMethod)

theorem methodUnder?_change {f : Property → Property} (hf : ∀ p, (f p).name = p.name)
    (hmethod : ∀ p, (f p).isMethod = p.isMethod) (new : Property) (ps : List Property)
    (name : String) : methodUnder? name (change f new ps) =
      (methodUnder? name ps).or (if new.name == name then some new.isMethod else none) := by
  unfold change methodUnder?
  split
  next hnew =>
    have hname (p : Property) : (if p.name == new.name then f p else p).name = p.name := by
      split
      · exact hf p
      · rfl
    have hsame (p : Property) : (if p.name == new.name then f p else p).isMethod = p.isMethod := by
      split
      · exact hmethod p
      · rfl
    simp only [List.find?_map, Option.map_map, Function.comp_def, hname, hsame]
    cases hfound : ps.find? (·.name == name) with
    | some p => rfl
    | none =>
        rw [if_neg]
        · rfl
        · intro heq
          obtain ⟨p, hp, hpname⟩ := List.any_eq_true.mp hnew
          exact List.find?_eq_none.mp hfound p hp (eq_of_beq heq ▸ hpname)
  · rw [List.find?_append, Option.map_or, List.find?_cons]
    cases new.name == name <;> rfl

theorem methodUnder?_addMember (ps : List Property) (m : Member) (name : String) :
    methodUnder? name (addMember ps m) =
      (methodUnder? name ps).or (if m.key? == some name then some m.isMethod else none) := by
  have hmethod (f : FunctionTy) (p : Property) : (p.overload f).isMethod = p.isMethod := by
    unfold Property.overload
    split
    · split <;> rfl
    · rfl
  cases m with
  | property key optional readonly type =>
      exact methodUnder?_change (f := id) (fun _ ↦ rfl) (fun _ ↦ rfl) _ ps name
  | method key optional f =>
      exact methodUnder?_change (fun p ↦ name_overload p f) (hmethod f) _ ps name
  | getter key type =>
      exact methodUnder?_change (name_withGetter type) (fun _ ↦ rfl) _ ps name
  | setter key type => exact methodUnder?_change name_withSetter (fun _ ↦ rfl) _ ps name
  | call | construct | index => exact (Option.or_none).symm

/-- The first member of a name says whether the property is a method. -/
theorem methodUnder?_foldl (ms : List Member) (ps : List Property) (name : String) :
    methodUnder? name (ms.foldl addMember ps) =
      (methodUnder? name ps).or ((ms.find? (·.key? == some name)).map Member.isMethod) := by
  induction ms generalizing ps with
  | nil => exact (Option.or_none).symm
  | cons m rest ih =>
      rw [List.foldl_cons, ih, methodUnder?_addMember, Option.or_assoc, List.find?_cons]
      cases m.key? == some name <;> rfl

end Members

namespace Typing

open Members

variable (c : Checker) (ask : TypeRules) (trail : TypeTrail) (env : TypeEnv)

theorem isMethod_memberRule (m : TypeMember) :
    (memberRule c ask trail env m).isMethod = m.isMethod := by
  cases m with
  | index i =>
      cases i
      rw [memberRule]
      rfl
  | _ =>
      rw [memberRule]
      rfl

/-- A resolved member changes the type of resolved members before it if the written one does. -/
theorem changes_memberRule (xs : List TypeMember) (m : TypeMember) :
    (memberRule c ask trail env m).changes
      (toObject (memberRules c ask trail env xs)).properties = m.changes xs := by
  have hmethod (name : String) :
      (((toObject (memberRules c ask trail env xs)).properties.find? (·.name == name)).any
        (·.isMethod)) = (xs.find? (·.key? == some name)).any TypeMember.isMethod := by
    have hany {α : Type} (f : α → Bool) (found : Option α) :
        found.any f = (found.map f).getD false := by
      cases found <;> rfl
    have hunder := methodUnder?_foldl (memberRules c ask trail env xs) [] name
    conv_rhs at hunder => rw [memberRules_eq_map, List.find?_map]
    simp only [Function.comp_def, key?_memberRule, Option.map_map, isMethod_memberRule] at hunder
    rw [hany, hany]
    exact congrArg (Option.getD · false) hunder
  have hhas (name : String) : has name (toObject (memberRules c ask trail env xs)).properties =
      xs.any (·.key? == some name) := by
    rw [has_toObject, memberRules_eq_map, List.any_map]
    simp only [Function.comp_def, key?_memberRule]
  cases m with
  | method name optional signature =>
      rw [memberRule]
      exact hmethod name.key
  | getter name type =>
      rw [memberRule]
      exact hhas name.key
  | index i =>
      cases i
      rw [memberRule]
      rfl
  | _ =>
      rw [memberRule]
      rfl

theorem sameTypes_objectAt_append {xs ys : List TypeMember} (h : ∀ m ∈ ys, m.changes xs = false)
    (ps : List Property) :
    SameTypes (((rules c ask).objectAt trail env (xs ++ ys)).properties.foldl addNew ps)
      (((rules c ask).objectAt trail env ys).properties.foldl addNew
        (((rules c ask).objectAt trail env xs).properties.foldl addNew ps)) := by
  change SameTypes
    ((toObject (memberRules c ask trail env (xs ++ ys))).properties.foldl addNew ps) _
  rw [memberRules_eq_map, List.map_append, ← memberRules_eq_map, ← memberRules_eq_map]
  refine sameTypes_toObject_append (fun m hm ↦ ?_) ps
  rw [memberRules_eq_map] at hm
  obtain ⟨m, hm', rfl⟩ := List.mem_map.mp hm
  exact (changes_memberRule c ask trail env xs m).trans (h m hm')

end Typing

end PluginSurface
