import PluginSurface.Program.Load
import PluginSurface.Proofs.Syntax.Nesting

/-!
# The units of a loaded program

What holds of every file as it is read holds of all units of a program. Above all, the tree of a
unit is the one of its text.
-/

namespace PluginSurface.Program

variable {readJson : String → Option Json} {tree : FileTree} {options : CompilerOptions}
  {P : SourceUnit → Prop}

/-- All units loaded so far satisfy `P`. -/
def Loading.All (P : SourceUnit → Prop) (loading : Loading) : Prop :=
  ∀ u ∈ loading.units, P u

section

variable {visit : Loading → Path → Except LoadError Loading} {K : Loading → Prop}
    {paths : List Path}
  (hvisit : ∀ l path l', path ∈ paths → K l → visit l path = .ok l' → K l')

include hvisit

/-- What each visit keeps is kept by visits one after the other. -/
theorem keeps_of_foldlM {l l' : Loading} (hl : K l) (h : paths.foldlM visit l = .ok l') : K l' := by
  induction paths generalizing l with
  | nil =>
      cases h
      exact hl
  | cons path rest ih =>
      rw [List.foldlM_cons, except_bind_eq_ok] at h
      obtain ⟨next, hnext, h⟩ := h
      exact ih (fun m other m' hother ↦ hvisit m other m' (List.mem_cons_of_mem _ hother))
        (hvisit l path next List.mem_cons_self hl hnext) h

theorem exists_of_foldlM_error {l : Loading} (hl : K l) {e : LoadError}
    (h : paths.foldlM visit l = .error e) :
    ∃ l' path, K l' ∧ path ∈ paths ∧ visit l' path = .error e := by
  induction paths generalizing l with
  | nil => cases h
  | cons path rest ih =>
      rw [List.foldlM_cons] at h
      cases hfirst : visit l path with
      | error first =>
          rw [hfirst] at h
          cases h
          exact ⟨l, path, hl, List.mem_cons_self, hfirst⟩
      | ok next =>
          rw [hfirst] at h
          obtain ⟨l', other, hl', hother, herror⟩ :=
            ih (fun m other m' hother ↦ hvisit m other m' (List.mem_cons_of_mem _ hother))
              (hvisit l path next List.mem_cons_self hl hfirst) h
          exact ⟨l', other, hl', List.mem_cons_of_mem _ hother, herror⟩

end

theorem all_of_visit (hread : ∀ path u, readUnit readJson tree options path = .ok u → P u)
    (rounds : Nat) (loading : Loading) (path : Path) (loading' : Loading) (hall : loading.All P)
    (h : visit readJson tree options rounds loading path = .ok loading') : loading'.All P := by
  induction rounds generalizing loading path loading' with
  | zero =>
      unfold visit at h
      split at h
      · cases h
        exact hall
      · cases h
  | succ more ih =>
      unfold visit at h
      split at h
      · cases h
        exact hall
      obtain ⟨unit, hunit, h⟩ := except_bind_eq_ok.mp h
      obtain ⟨inner, hinner, h⟩ := except_bind_eq_ok.mp h
      cases h
      have hseen : Loading.All P { loading with seen := path :: loading.seen } := hall
      have hinner' : inner.All P :=
        keeps_of_foldlM (fun l path l' _ ↦ ih l path l') hseen hinner
      intro u hu
      rcases Array.mem_push.mp hu with hu | rfl
      · exact hinner' u hu
      · exact hread path u hunit

theorem forall_units_of_load
    (hread : ∀ path u, readUnit readJson tree options path = .ok u → P u)
    {entry : Path} {p : Program} (h : load readJson tree options entry = .ok p) :
    ∀ u ∈ p.units, P u := by
  unfold load at h
  split at h
  · obtain ⟨loading, hvisit, h⟩ := except_bind_eq_ok.mp h
    cases h
    exact all_of_visit hread _ _ _ _ (fun _ hu ↦ absurd hu (Array.not_mem_empty _)) hvisit
  · cases h

/-- The tree of a unit is that of its text. -/
theorem ofSource_of_load {entry : Path} {p : Program} (h : load readJson tree options entry = .ok p)
    {u : SourceUnit} (hu : u ∈ p.units) : SourceFile.ofSource u.text = .ok u.tree := by
  refine forall_units_of_load (P := fun u ↦ SourceFile.ofSource u.text = .ok u.tree) ?_ h u hu
  intro path u hread
  unfold readUnit at hread
  split at hread
  · obtain ⟨file, hfile, hread⟩ := except_bind_eq_ok.mp hread
    cases hread
    exact mapError_eq_ok.mp hfile
  · cases hread

theorem nodup_ids_of_load {entry : Path} {p : Program}
    (h : load readJson tree options entry = .ok p)
    {u : SourceUnit} (hu : u ∈ p.units) : (u.tree.allStatements.map Statement.id).Nodup :=
  SourceFile.nodup_ids (ofSource_of_load h hu)

end PluginSurface.Program
