import PluginSurface.Proofs.Typing.Invariant

/-!
# Collected members

Collecting changes a property or adds one under a new name, so each name stands once in the list,
whatever is collected. The types in the list are those of the members, overloads of methods, and
intersections.
-/

namespace PluginSurface.Members

/-! ## Names -/

/-- Each name stands once. -/
def Distinct (ps : List Property) : Prop := (ps.map Property.name).Nodup

theorem distinct_nil : Distinct [] := List.nodup_nil

theorem has_iff {name : String} {ps : List Property} :
    has name ps = true ↔ name ∈ ps.map Property.name := by
  simp [has]

/-- A change that keeps the name of the property keeps the list of names or adds one to it. -/
theorem names_change {f : Property → Property} (hf : ∀ p, (f p).name = p.name) (new : Property)
    (ps : List Property) : (change f new ps).map Property.name =
      if new.name ∈ ps.map Property.name then ps.map Property.name
      else ps.map Property.name ++ [new.name] := by
  unfold change
  by_cases hnew : has new.name ps = true
  · rw [if_pos hnew, if_pos (has_iff.mp hnew), List.map_map]
    refine List.map_congr_left fun p _ ↦ ?_
    by_cases hp : p.name = new.name <;> simp [hp, hf]
  · rw [if_neg hnew, if_neg (mt has_iff.mpr hnew)]
    simp

theorem distinct_change {f : Property → Property} (hf : ∀ p, (f p).name = p.name)
    (new : Property) {ps : List Property} (h : Distinct ps) : Distinct (change f new ps) := by
  unfold Distinct
  rw [names_change hf]
  split
  next => exact h
  next hnew =>
    refine List.nodup_append.mpr ⟨h, by simp, fun a ha b hb hab ↦ hnew ?_⟩
    rwa [← List.mem_singleton.mp hb, ← hab]

theorem name_overload (p : Property) (f : FunctionTy) : (p.overload f).name = p.name := by
  unfold Property.overload
  split
  · split <;> rfl
  · rfl

theorem name_withGetter (t : Ty) (p : Property) : (p.withGetter t).name = p.name := rfl

theorem name_withSetter (p : Property) : p.withSetter.name = p.name := rfl

theorem name_meet (q p : Property) : (q.meet p).name = p.name := rfl

theorem distinct_addNew {ps : List Property} (h : Distinct ps) (p : Property) :
    Distinct (addNew ps p) := distinct_change (fun _ ↦ rfl) p h

theorem distinct_addMeet {ps : List Property} (h : Distinct ps) (p : Property) :
    Distinct (addMeet ps p) := distinct_change (name_meet p) p h

theorem distinct_addMember {ps : List Property} (h : Distinct ps) (m : Member) :
    Distinct (addMember ps m) := by
  cases m with
  | property name optional readonly type => exact distinct_addNew h _
  | method name optional f => exact distinct_change (fun p ↦ name_overload p f) _ h
  | getter name type => exact distinct_change (name_withGetter type) _ h
  | setter name type => exact distinct_change name_withSetter _ h
  | call f => exact h
  | construct f => exact h
  | index i => exact h

theorem distinct_foldl {α : Type} {add : List Property → α → List Property}
    (hadd : ∀ ps, Distinct ps → ∀ a, Distinct (add ps a)) (as : List α) {ps : List Property}
    (h : Distinct ps) : Distinct (as.foldl add ps) := by
  induction as generalizing ps with
  | nil => exact h
  | cons a rest ih => exact ih (hadd ps h a)

theorem distinct_toObject (ms : List Member) : Distinct (toObject ms).properties :=
  distinct_foldl (fun _ h m ↦ distinct_addMember h m) ms distinct_nil

/-! ## Types -/

variable {c : Checker} {named : Nat → Prop} {P : Ty → Prop}

theorem Everywhere.change {f : Property → Property} {new : Property} {ps : List Property}
    (h : Everywhere P ps) (hf : ∀ p, p.type.Everywhere P → (f p).type.Everywhere P)
    (hnew : new.type.Everywhere P) : Everywhere P (change f new ps) := by
  intro p hp
  unfold Members.change at hp
  split at hp
  · obtain ⟨q, hq, rfl⟩ := List.mem_map.mp hp
    split
    · exact hf q (h q hq)
    · exact h q hq
  · rcases List.mem_append.mp hp with hp | hp
    · exact h p hp
    · exact List.mem_singleton.mp hp ▸ hnew

theorem Everywhere.addNew {ps : List Property} (h : Everywhere P ps) {p : Property}
    (hp : p.type.Everywhere P) : Everywhere P (addNew ps p) :=
  h.change (fun _ hq ↦ hq) hp

theorem Everywhere.foldl_addNew {ps qs : List Property} (h : Everywhere P ps)
    (hqs : Everywhere P qs) : Everywhere P (qs.foldl Members.addNew ps) := by
  induction qs generalizing ps with
  | nil => exact h
  | cons q rest ih =>
      exact ih (h.addNew (hqs q List.mem_cons_self)) fun p hp ↦ hqs p (List.mem_cons_of_mem q hp)

theorem Everywhere.foldl_addMeet (hP : Typing.InvariantFor c named P) {ps qs : List Property}
    (h : Everywhere P ps) (hqs : Everywhere P qs) :
    Everywhere P (qs.foldl addMeet ps) := by
  induction qs generalizing ps with
  | nil => exact h
  | cons q rest ih =>
      have hq := hqs q List.mem_cons_self
      refine ih (h.change (fun p hp ↦ ?_) hq) fun p hp ↦ hqs p (List.mem_cons_of_mem q hp)
      exact hP.everywhere_meet (by simp [hp, hq])

theorem everywhere_overload (hP : Typing.InvariantFor c named P) {p : Property} {f : FunctionTy}
    (hp : p.type.Everywhere P) (hf : (Ty.function f).Everywhere P) :
    (p.overload f).type.Everywhere P := by
  unfold Property.overload
  split
  · split
    next first hfirst =>
      exact hP.everywhere_overloads (by simpa [hf] using hfirst ▸ hp)
    next o ho =>
      rw [ho] at hp
      cases hp with
      | object _ _ calls _ _ _ =>
          refine hP.everywhere_overloads fun g hg ↦ ?_
          rcases List.mem_append.mp hg with hg | hg
          · exact calls g hg
          · exact List.mem_singleton.mp hg ▸ hf
    next => exact hp
  · exact hp

theorem Everywhere.addMember (hP : Typing.InvariantFor c named P) {ps : List Property}
    (h : Everywhere P ps) {m : Member} (hm : m.Everywhere P) : Everywhere P (addMember ps m) := by
  cases m with
  | property name optional readonly type => exact h.addNew hm
  | method name optional f => exact h.change (fun p hp ↦ everywhere_overload hP hp hm) hm
  | getter name type => exact h.change (fun _ _ ↦ hm) hm
  | setter name type => exact h.change (fun _ hp ↦ hp) hm
  | call f => exact h
  | construct f => exact h
  | index i => exact h

theorem Everywhere.foldl_addMember (hP : Typing.InvariantFor c named P) {ps : List Property}
    (h : Everywhere P ps) {ms : List Member} (hms : ∀ m ∈ ms, m.Everywhere P) :
    Everywhere P (ms.foldl Members.addMember ps) := by
  induction ms generalizing ps with
  | nil => exact h
  | cons m rest ih =>
      exact ih (h.addMember hP (hms m List.mem_cons_self))
        fun m' hm' ↦ hms m' (List.mem_cons_of_mem m hm')

theorem everywhere_toObject (hP : Typing.InvariantFor c named P) {ms : List Member}
    (hms : ∀ m ∈ ms, m.Everywhere P) : (Ty.object (toObject ms)).Everywhere P := by
  refine .object (hP.object ms) (Everywhere.foldl_addMember hP (by simp [Everywhere]) hms)
    ?_ ?_ ?_ ?_
  · intro f hf
    obtain ⟨m, hm, hmf⟩ := List.mem_filterMap.mp hf
    cases m <;> simp [call?] at hmf
    exact hmf ▸ hms _ hm
  · intro f hf
    obtain ⟨m, hm, hmf⟩ := List.mem_filterMap.mp hf
    cases m <;> simp [construct?] at hmf
    exact hmf ▸ hms _ hm
  · intro i hi
    obtain ⟨m, hm, hmi⟩ := List.mem_filterMap.mp hi
    cases m <;> simp [index?] at hmi
    exact hmi ▸ (hms _ hm).1
  · intro i hi
    obtain ⟨m, hm, hmi⟩ := List.mem_filterMap.mp hi
    cases m <;> simp [index?] at hmi
    exact hmi ▸ (hms _ hm).2

end PluginSurface.Members
