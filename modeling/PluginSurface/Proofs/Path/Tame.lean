import Mathlib.Data.List.Forall2
import PluginSurface.Proofs.Path.Components

/-!
# Tame paths

A tame path has dots at two kinds of places only: two dots at the root, which lead nowhere, and
two dots that lead from the published declarations back to the `node_modules` around them.
Paths with the same components are alike; joining, going up and normalizing lead from alike
tame paths to such paths.
-/

namespace PluginSurface.Path

/-- Names, and detours through the published declarations. -/
inductive TameParts : List Component → Prop
  | nil : TameParts []
  | name (n : String) {cs : List Component} (h : TameParts cs) : TameParts (.name n :: cs)
  | detour {cs : List Component} (h : TameParts cs) :
      TameParts (.name "node_modules" :: .name "@types" :: .parent :: cs)

namespace TameParts

variable {cs ds : List Component}

theorem append (h : TameParts cs) (h' : TameParts ds) : TameParts (cs ++ ds) := by
  induction h with
  | nil => exact h'
  | name n _ ih => exact .name n ih
  | detour _ ih => exact .detour ih

theorem names (names : List String) : TameParts (names.map .name) := by
  induction names with
  | nil => exact .nil
  | cons n rest ih => exact .name n ih

theorem of_prefix (h : TameParts cs) (hfront : ds <+: cs) : TameParts ds := by
  induction h generalizing ds with
  | nil => exact List.prefix_nil.mp hfront ▸ .nil
  | name n _ ih =>
      rcases List.prefix_cons_iff.mp hfront with rfl | ⟨more, rfl, hmore⟩
      · exact .nil
      · exact .name n (ih hmore)
  | detour _ ih =>
      rcases List.prefix_cons_iff.mp hfront with rfl | ⟨inner, rfl, hinner⟩
      · exact .nil
      rcases List.prefix_cons_iff.mp hinner with rfl | ⟨behind, rfl, hbehind⟩
      · exact names ["node_modules"]
      rcases List.prefix_cons_iff.mp hbehind with rfl | ⟨more, rfl, hmore⟩
      · exact names ["node_modules", "@types"]
      · exact .detour (ih hmore)

end TameParts

/-- The components of a tame path. -/
def IsTame (cs : List Component) : Prop :=
  ∃ parts, TameParts parts ∧ (cs = .root :: parts ∨ cs = .root :: .parent :: parts)

namespace IsTame

variable {cs parts : List Component}

theorem append (h : IsTame cs) (hparts : TameParts parts) : IsTame (cs ++ parts) := by
  obtain ⟨front, hfront, hcs⟩ := h
  refine ⟨front ++ parts, hfront.append hparts, hcs.imp ?_ ?_⟩ <;> rintro rfl <;> rfl

theorem of_prefix (h : IsTame cs) (hfront : .root :: parts <+: cs) : IsTame (.root :: parts) := by
  obtain ⟨whole, hwhole, rfl | rfl⟩ := h
  · exact ⟨parts, hwhole.of_prefix ((List.prefix_cons_inj _).mp hfront), .inl rfl⟩
  · rcases List.prefix_cons_iff.mp ((List.prefix_cons_inj _).mp hfront)
      with rfl | ⟨more, rfl, h⟩
    · exact ⟨[], .nil, .inl rfl⟩
    · exact ⟨more, hwhole.of_prefix h, .inr rfl⟩

end IsTame

theorem IsNormal.isTame {cs : List Component} (h : IsNormal cs) : IsTame cs := by
  obtain ⟨names, -, hcs⟩ := h
  exact ⟨_, .names names, hcs⟩

/-- Two ways to write a tame path. -/
structure Alike (p q : Path) : Prop where
  first : p.isAbsolute = true
  second : q.isAbsolute = true
  same : p.components = q.components
  tame : IsTame p.components

namespace Alike

variable {p q : Path}

theorem left (h : Alike p q) : Alike p p := ⟨h.first, h.first, rfl, h.tame⟩

theorem symm (h : Alike p q) : Alike q p := ⟨h.second, h.first, h.same.symm, h.same ▸ h.tame⟩

theorem trans {r : Path} (h : Alike p q) (h' : Alike q r) : Alike p r :=
  ⟨h.first, h'.second, h.same.trans h'.same, h.tame⟩

theorem join (h : Alike p q) {text : String} (htext : TameParts (partsOf text)) :
    Alike (p.join ⟨text⟩) (q.join ⟨text⟩) := by
  cases habsolute : (⟨text⟩ : Path).isAbsolute with
  | true =>
      rw [Path.join, Path.join, if_pos habsolute, if_pos habsolute]
      exact ⟨habsolute, habsolute, rfl, _, htext, .inl (components_absolute habsolute)⟩
  | false =>
      refine ⟨isAbsolute_join h.first _, isAbsolute_join h.second _, ?_, ?_⟩
      · rw [components_join h.first habsolute, components_join h.second habsolute, h.same]
      · rw [components_join h.first habsolute]
        exact h.tame.append htext

theorem join_name (h : Alike p q) {name : String} (hname : IsName name) :
    Alike (p.join ⟨name⟩) (q.join ⟨name⟩) :=
  h.join (partsOf_name hname ▸ .names [name])

theorem of_mem_ancestors (h : Alike p q) {a : Path} (ha : a ∈ p.ancestors) : Alike a a := by
  have habsolute := isAbsolute_of_mem_ancestors h.first ha
  obtain ⟨cs, hcs, hfront⟩ := exists_of_mem_ancestors h.first ha
  exact ⟨habsolute, habsolute, rfl, hcs ▸ h.tame.of_prefix hfront⟩

theorem ancestors (h : Alike p q) : List.Forall₂ Alike p.ancestors q.ancestors := by
  have hmap : p.ancestors.map components = q.ancestors.map components := by
    rw [Path.ancestors, Path.ancestors, List.map_cons, List.map_cons, components_parents h.first,
      components_parents h.second, h.same]
  have hsame :
      List.Forall₂ (fun a b ↦ a.components = b.components) p.ancestors q.ancestors := by
    rw [← List.forall₂_map_left_iff (R := fun a b ↦ a = components b),
      ← List.forall₂_map_right_iff, List.forall₂_eq_eq_eq]
    exact hmap
  have hright :=
    ((List.forall₂_and_left _ _).mpr ⟨fun b ↦ h.symm.of_mem_ancestors, hsame.flip⟩).flip
  refine ((List.forall₂_and_left _ _).mpr ⟨fun a ↦ h.of_mem_ancestors, hright⟩).imp
    fun a b hab ↦ ?_
  obtain ⟨ha, hb, hsame⟩ := hab
  exact ⟨ha.first, hb.first, hsame, ha.tame⟩

/-- The directory of what is not the root. -/
theorem directory (h : Alike p q) (hroot : p.components ≠ [.root]) :
    Alike p.directory q.directory := by
  have hcomponents := components_parents h.first
  have hancestors := h.ancestors
  unfold Path.ancestors at hancestors
  unfold Path.directory Path.parent?
  cases hancestors with
  | cons _ hparents =>
      generalize q.parents = qs at hparents
      generalize p.parents = ps at hparents hcomponents
      cases hparents with
      | nil =>
          refine absurd ?_ hroot
          rw [components_eq h.first] at hcomponents ⊢
          generalize (stretches p.text.toList).filterMap component? = cs at hcomponents ⊢
          rcases List.eq_nil_or_concat' cs with rfl | ⟨front, last, rfl⟩
          · rfl
          · simp [uppers] at hcomponents
      | cons hab _ => exact hab

end Alike

theorem alike_normalize {p : Path} (h : p.isAbsolute = true) : Alike p.normalize p.normalize := by
  obtain ⟨habsolute, hnormal⟩ := isNormal_normalize h
  exact ⟨habsolute, habsolute, rfl, hnormal.isTame⟩

end PluginSurface.Path
