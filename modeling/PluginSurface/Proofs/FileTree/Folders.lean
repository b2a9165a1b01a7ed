import PluginSurface.FileTree
import PluginSurface.Proofs.Path.Routes

/-!
# Looking into a directory

What stands at the end of a route into a directory depends on the node of the directory alone, not
on where the directory is.
-/

namespace PluginSurface.FileTree

namespace Trail

/-- One step, by the component that the stretch stands for. -/
theorem step_eq (t : Trail) (s : List Char) :
    t.step s = if t.node.isDirectoryNode = false then none else
      match Path.component? s with
      | some .parent => some { t with steps := t.steps.tail }
      | some (.name n) =>
        (t.node.child? n).map fun node ↦ { t with steps := (n, node) :: t.steps }
      | _ => some t := by
  unfold step Path.component?
  split
  next h => rw [if_pos (by simpa using h)]
  next h =>
    rw [if_neg (by simpa using h)]
    split <;> simp_all

theorem root_step {t t' : Trail} {s : List Char} (h : t.step s = some t') : t'.root = t.root := by
  rw [step_eq] at h
  split at h
  · cases h
  · split at h
    · cases h
      rfl
    · obtain ⟨node, -, rfl⟩ := Option.map_eq_some_iff.mp h
      rfl
    · cases h
      rfl

theorem root_foldlM {parts : List (List Char)} {t t' : Trail} (h : parts.foldlM step t = some t') :
    t'.root = t.root := by
  induction parts generalizing t with
  | nil =>
      cases h
      rfl
  | cons s rest ih =>
      obtain ⟨next, hnext, h⟩ := Option.bind_eq_some_iff.mp h
      exact (ih h).trans (root_step hnext)

/-- The names on the way are those that it was asked for. -/
theorem names_foldlM {names : List String} (hnames : ∀ n ∈ names, Path.IsName n) {t t' : Trail}
    (h : (names.map String.toList).foldlM step t = some t') :
    t'.steps.reverse.map (·.1) = t.steps.reverse.map (·.1) ++ names := by
  induction names generalizing t with
  | nil =>
      cases h
      simp
  | cons n rest ih =>
      rw [List.map_cons, List.foldlM_cons] at h
      obtain ⟨next, hnext, h⟩ := Option.bind_eq_some_iff.mp h
      have hsteps := ih (fun m hm ↦ hnames m (List.mem_cons_of_mem _ hm)) h
      rw [step_eq, (hnames n List.mem_cons_self).2] at hnext
      split at hnext
      · cases hnext
      · obtain ⟨node, -, rfl⟩ := Option.map_eq_some_iff.mp hnext
        rw [hsteps]
        simp

theorem isName_step {t t' : Trail} {s : List Char} (hs : '/' ∉ s)
    (ht : ∀ n ∈ t.steps.map (·.1), Path.IsName n) (h : t.step s = some t') :
    ∀ n ∈ t'.steps.map (·.1), Path.IsName n := by
  rw [step_eq] at h
  split at h
  · cases h
  · split at h
    · cases h
      intro n hn
      rw [List.map_tail] at hn
      exact ht n (List.mem_of_mem_tail hn)
    next n hn =>
      obtain ⟨node, -, rfl⟩ := Option.map_eq_some_iff.mp h
      rintro m hm
      rcases List.mem_cons.mp hm with rfl | hm
      · exact Path.isName_of_component? hs hn
      · exact ht m hm
    · cases h
      exact ht

theorem isName_foldlM {parts : List (List Char)} (hparts : ∀ s ∈ parts, '/' ∉ s)
    {t t' : Trail} (ht : ∀ n ∈ t.steps.map (·.1), Path.IsName n)
    (h : parts.foldlM step t = some t') :
    ∀ n ∈ t'.steps.map (·.1), Path.IsName n := by
  induction parts generalizing t with
  | nil =>
      cases h
      exact ht
  | cons s rest ih =>
      obtain ⟨next, hnext, h⟩ := Option.bind_eq_some_iff.mp h
      exact ih (fun u hu ↦ hparts u (List.mem_cons_of_mem _ hu))
        (isName_step (hparts s List.mem_cons_self) ht hnext) h

/-- The trail begun further up, behind other steps. -/
def behind (root : FileTree) (base : List (String × FileTree)) (t : Trail) : Trail :=
  ⟨root, t.steps ++ base⟩

variable {root tree : FileTree} {base : List (String × FileTree)}
  (hbase : base.head?.map (·.2) = some tree)

include hbase

theorem node_behind (steps : List (String × FileTree)) :
    (behind root base ⟨tree, steps⟩).node = (⟨tree, steps⟩ : Trail).node := by
  cases steps with
  | nil =>
      cases base with
      | nil => cases hbase
      | cons first rest => exact Option.some.inj hbase
  | cons first rest => rfl

theorem step_behind {steps : List (String × FileTree)} {s : List Char} {depth : Nat}
    (h : Path.depthBehind steps.length s = some depth) :
    (behind root base ⟨tree, steps⟩).step s =
      ((⟨tree, steps⟩ : Trail).step s).map (behind root base) := by
  rw [step_eq, step_eq, node_behind hbase]
  split
  · rfl
  · unfold Path.depthBehind at h
    rcases Path.component?_cases s with hc | hc | hc <;> rw [hc] at h ⊢
    · rfl
    · cases steps with
      | nil => cases h
      | cons first rest => rfl
    · simp [behind, Function.comp_def]

omit hbase in
theorem length_step {t t' : Trail} {s : List Char} {depth : Nat}
    (h : Path.depthBehind t.steps.length s = some depth) (hstep : t.step s = some t') :
    t'.steps.length = depth := by
  rw [step_eq] at hstep
  split at hstep
  · cases hstep
  · unfold Path.depthBehind at h
    rcases Path.component?_cases s with hc | hc | hc <;> rw [hc] at h hstep <;> dsimp only at h
    · cases hstep
      exact Option.some.inj h
    · cases hstep
      split at h
      · cases h
      · rw [List.length_tail]
        exact Option.some.inj h
    · obtain ⟨node, -, rfl⟩ := Option.map_eq_some_iff.mp hstep
      exact Option.some.inj h

/-- A walk that does not leave its beginning goes the same way further up. -/
theorem foldlM_behind {parts : List (List Char)} {steps : List (String × FileTree)}
    (h : (Path.depth? steps.length parts).isSome) :
    parts.foldlM step (behind root base ⟨tree, steps⟩) =
      (parts.foldlM step ⟨tree, steps⟩).map (behind root base) := by
  induction parts generalizing steps with
  | nil => rfl
  | cons s rest ih =>
      obtain ⟨deep, hdeep⟩ := Option.isSome_iff_exists.mp h
      obtain ⟨depth, hdepth, hrest⟩ := Option.bind_eq_some_iff.mp hdeep
      rw [List.foldlM_cons, List.foldlM_cons, step_behind hbase hdepth]
      cases hstep : (⟨tree, steps⟩ : Trail).step s with
      | none => rfl
      | some t =>
          obtain ⟨root', steps'⟩ := t
          obtain rfl : root' = tree := root_step hstep
          refine ih ?_
          rw [length_step hdepth hstep]
          exact Option.isSome_iff_exists.mpr ⟨deep, hrest⟩

end Trail

/-! ## From the root -/

/-- The trail of a route. -/
def walk? (tree : FileTree) (r : Route) : Option Trail :=
  r.stretches.foldlM Trail.step ⟨tree, []⟩

variable {root tree : FileTree} {F : Folder} (h : root.node? F.top = some tree)

include h

theorem follow?_path : ∃ base : List (String × FileTree),
    base.head?.map (·.2) = some tree ∧ base.reverse.map (·.1) = F.names ∧
      ∀ r, root.follow? (F.path r) = (tree.walk? r).map (Trail.behind root base) := by
  obtain ⟨⟨root', base⟩, htop, hnode⟩ := Option.map_eq_some_iff.mp h
  have hfollow (r : Route) : root.follow? (F.path r) =
      ([] :: F.parts).foldlM Trail.step ⟨root, []⟩ >>= fun t ↦
      r.stretches.foldlM Trail.step t := by
    unfold follow?
    rw [Folder.path, if_pos (Path.isAbsolute_rooted (F.append_ne_nil r)),
      Path.stretches_rooted (F.single_append r), ← List.cons_append, List.foldlM_append]
  have hbegin : ([] :: F.parts).foldlM Trail.step ⟨root, []⟩ = some ⟨root', base⟩ := by
    rw [← F.path_here, hfollow] at htop
    simpa [Route.here] using htop
  obtain ⟨t, ht, hnames⟩ := Option.bind_eq_some_iff.mp hbegin
  obtain rfl : ⟨root, []⟩ = t := by
    rw [Trail.step_eq] at ht
    split at ht
    · cases ht
    · exact Option.some.inj ht
  have hbase := Trail.names_foldlM F.isName hnames
  obtain rfl : root' = root := Trail.root_foldlM hnames
  have hhead : base.head?.map (·.2) = some tree := by
    cases base with
    | nil => exact absurd hbase (by simpa using F.nonempty.symm)
    | cons first rest => exact congrArg some hnode
  refine ⟨base, hhead, by simpa using hbase, fun r ↦ ?_⟩
  rw [hfollow, hbegin]
  exact Trail.foldlM_behind hhead (show (Path.depth? ([] : List _).length _).isSome from r.inside)

theorem node?_path (r : Route) : root.node? (F.path r) = (tree.walk? r).map Trail.node := by
  obtain ⟨base, hhead, -, hfollow⟩ := follow?_path h
  rw [node?, hfollow, Option.map_map]
  refine Option.map_congr fun t ht ↦ ?_
  obtain ⟨root', steps⟩ := t
  obtain rfl : root' = tree := Trail.root_foldlM ht
  exact Trail.node_behind hhead steps

omit h in
/-- The path without dots to what stands at the end of a route is again one of a route, and the same
one wherever the directory is. -/
theorem exists_canonical (tree : FileTree) (r : Route) :
    ∃ r' : Route, ∀ (root : FileTree) (F : Folder),
    root.node? F.top = some tree → root.canonical (F.path r) = F.path r' := by
  cases hwalk : tree.walk? r with
  | none =>
      refine ⟨r.settled, fun root F h ↦ ?_⟩
      obtain ⟨base, -, -, hfollow⟩ := follow?_path h
      rw [canonical, hfollow, hwalk]
      exact F.normalize_path r
  | some t =>
      have hnames : ∀ n ∈ t.steps.reverse.map (·.1), Path.IsName n := fun n hn ↦
        Trail.isName_foldlM r.single (fun _ hn ↦ absurd hn List.not_mem_nil) hwalk n
          (by simpa using hn)
      refine ⟨.ofNames _ hnames, fun root F h ↦ ?_⟩
      obtain ⟨base, -, hbase, hfollow⟩ := follow?_path h
      have htext : "/" ++ "/".intercalate (F.names ++ t.steps.reverse.map (·.1)) =
          (F.path (.ofNames _ hnames)).text := by
        rw [Folder.path, Path.rooted, ← Path.slash_intercalate (F.append_ne_nil _),
          ← String.toList_inj]
        simp [Folder.parts, Route.ofNames]
      have hsteps : (Trail.behind root base t).steps.reverse.map (·.1) =
          F.names ++ t.steps.reverse.map (·.1) := by
        rw [Trail.behind, List.reverse_append, List.map_append, hbase]
      rw [canonical, hfollow, hwalk, Option.map_some]
      change Trail.path _ = _
      rw [Trail.path, hsteps]
      exact congrArg Path.mk htext

/-- A file does not stand at the end of a route that leads nowhere. -/
theorem exists_not_blank (htree : tree.isDirectoryNode = true) {r : Route}
    (hfile : root.isFile (F.path r) = true) : ∃ s ∈ r.stretches, Path.isBlank s = false := by
  by_contra hblank
  have hstay (parts : List (List Char)) (hparts : ∀ s ∈ parts, Path.isBlank s = true) :
      parts.foldlM Trail.step ⟨tree, []⟩ = some ⟨tree, []⟩ := by
    induction parts with
    | nil => rfl
    | cons s rest ih =>
        have hs : Path.component? s = none :=
          Option.isNone_iff_eq_none.mp (hparts s List.mem_cons_self)
        have hnode : ¬(⟨tree, []⟩ : Trail).node.isDirectoryNode = false := by
          simp [Trail.node, htree]
        rw [List.foldlM_cons, Trail.step_eq, if_neg hnode, hs]
        exact ih fun t ht ↦ hparts t (List.mem_cons_of_mem _ ht)
  have hwalk := hstay r.stretches fun s hs ↦ by
    by_contra hs'
    exact hblank ⟨s, hs, Bool.eq_false_iff.mpr hs'⟩
  rw [isFile, node?_path h, walk?, hwalk] at hfile
  cases tree with
  | file text => cases htree
  | directory entries => cases hfile

end PluginSurface.FileTree
