import Mathlib.Data.List.Perm.Subperm
import PluginSurface.Proofs.FileTree.Folders
import PluginSurface.Proofs.Path.Tame

/-!
# Ways down a tree

What stands at the end of a path can be told from its components, except that a path with a slash at
the end does not lead to a file. So the files that tame paths lead to are spelled in as many ways as
there are ways down the tree, and as many again with two dots at the root.
-/

namespace PluginSurface.FileTree

open PluginSurface.Path

namespace Trail

/-- Follows one component of a path. -/
def follow (t : Trail) (c : Component) : Option Trail :=
  if t.node.isDirectoryNode = false then none else
    match c with
    | .parent => some { t with steps := t.steps.tail }
    | .name n => (t.node.child? n).map fun node ↦ { t with steps := (n, node) :: t.steps }
    | _ => some t

variable {t t' : Trail} {s : List Char} {c : Component}

theorem step_of_component? (h : component? s = some c) : t.step s = t.follow c := by
  unfold follow
  rw [step_eq, h]
  rcases component?_cases s with hc | hc | hc <;> rw [hc] at h <;> cases h <;> rfl

theorem step_of_isBlank (h : isBlank s = true) :
    t.step s = if t.node.isDirectoryNode = false then none else some t := by
  rw [step_eq, Option.isNone_iff_eq_none.mp h]

/-- What stands before the first slash of an absolute path is the root. -/
theorem step_nil : t.step [] = t.follow .root := step_of_isBlank rfl

theorem isDirectoryNode_of_follow (h : t.follow c = some t') : t.node.isDirectoryNode = true := by
  unfold follow at h
  split at h
  · cases h
  next hnode => exact Bool.of_not_eq_false hnode

theorem foldlM_follow {parts : List (List Char)} (h : parts.foldlM step t = some t') :
    (parts.filterMap component?).foldlM follow t = some t' := by
  induction parts generalizing t with
  | nil => exact h
  | cons s rest ih =>
      obtain ⟨next, hnext, h⟩ := Option.bind_eq_some_iff.mp h
      cases hs : component? s with
      | none =>
          rw [step_of_isBlank (Option.isNone_iff_eq_none.mpr hs)] at hnext
          split at hnext
          · cases hnext
          · cases hnext
            rw [List.filterMap_cons, hs]
            exact ih h
      | some c =>
          rw [step_of_component? hs] at hnext
          rw [List.filterMap_cons, hs]
          exact Option.bind_eq_some_iff.mpr ⟨next, hnext, ih h⟩

/-- The last of the stretches leads somewhere. -/
def LeadsOn (parts : List (List Char)) : Prop :=
  ∀ back, back <:+ parts → back ≠ [] → back.filterMap component? ≠ []

/-- Stretches that lead nowhere do not stand in the way of a directory. -/
theorem foldlM_step {parts : List (List Char)}
    (h : (parts.filterMap component?).foldlM follow t = some t')
    (hend : t'.node.isDirectoryNode = true ∨ LeadsOn parts) : parts.foldlM step t = some t' := by
  induction parts generalizing t with
  | nil => exact h
  | cons s rest ih =>
      have hrest : t'.node.isDirectoryNode = true ∨ LeadsOn rest :=
        hend.imp_right fun hon back hback ↦ hon back (hback.trans (List.suffix_cons s rest))
      cases hs : component? s with
      | none =>
          rw [List.filterMap_cons, hs] at h
          have hnode : t.node.isDirectoryNode = true := by
            cases hparts : rest.filterMap component? with
            | nil =>
                rcases hend with hend | hon
                · rw [hparts] at h
                  cases h
                  exact hend
                · refine absurd ?_ (hon _ (List.suffix_refl _) (List.cons_ne_nil _ _))
                  rw [List.filterMap_cons, hs]
                  exact hparts
            | cons c more =>
                rw [hparts] at h
                obtain ⟨next, hnext, -⟩ := Option.bind_eq_some_iff.mp h
                exact isDirectoryNode_of_follow hnext
          rw [List.foldlM_cons, step_of_isBlank (Option.isNone_iff_eq_none.mpr hs), hnode]
          exact ih h hrest
      | some c =>
          rw [List.filterMap_cons, hs] at h
          obtain ⟨next, hnext, h⟩ := Option.bind_eq_some_iff.mp h
          rw [List.foldlM_cons, step_of_component? hs]
          exact Option.bind_eq_some_iff.mpr ⟨next, hnext, ih h hrest⟩

end Trail

/-! ## Paths that are alike -/

variable {root : FileTree} {p q : Path} {t : Trail}

theorem stretches_absolute (h : p.isAbsolute = true) :
    ∃ parts, parts ≠ [] ∧ stretches p.text.toList = [] :: parts := by
  obtain ⟨s, rest, hrest⟩ := isAbsolute_iff.mp h
  exact ⟨s :: rest, List.cons_ne_nil _ _, hrest⟩

/-- The trail of a path goes through its components. -/
theorem foldlM_components (h : root.follow? p = some t) :
    p.components.foldlM Trail.follow ⟨root, []⟩ = some t := by
  unfold follow? at h
  split at h
  next habsolute =>
    obtain ⟨parts, -, hparts⟩ := stretches_absolute habsolute
    rw [components_eq habsolute]
    rw [hparts] at h ⊢
    obtain ⟨next, hnext, h⟩ := Option.bind_eq_some_iff.mp h
    have hfollow := Trail.foldlM_follow h
    exact Option.bind_eq_some_iff.mpr ⟨next, Trail.step_nil ▸ hnext, hfollow⟩
  next => cases h

theorem follow?_of_components (habsolute : p.isAbsolute = true)
    (h : p.components.foldlM Trail.follow ⟨root, []⟩ = some t)
    (hend : t.node.isDirectoryNode = true ∨ Trail.LeadsOn (stretches p.text.toList).tail) :
    root.follow? p = some t := by
  obtain ⟨parts, -, hparts⟩ := stretches_absolute habsolute
  rw [components_eq habsolute, hparts] at h
  obtain ⟨next, hnext, h⟩ := Option.bind_eq_some_iff.mp h
  rw [follow?, if_pos habsolute, hparts]
  rw [hparts] at hend
  exact Option.bind_eq_some_iff.mpr ⟨next, Trail.step_nil ▸ hnext, Trail.foldlM_step h hend⟩

theorem isDirectory_iff (habsolute : p.isAbsolute = true) : root.isDirectory p = true ↔
    ∃ t, p.components.foldlM Trail.follow ⟨root, []⟩ = some t ∧
    t.node.isDirectoryNode = true := by
  have hdirectory : root.isDirectory p = true ↔
      ∃ t, root.follow? p = some t ∧ t.node.isDirectoryNode = true := by
    unfold isDirectory node?
    cases root.follow? p with
    | none => simp
    | some t => cases h : t.node <;> simp [h, isDirectoryNode]
  rw [hdirectory]
  exact exists_congr fun t ↦ and_congr_left fun hnode ↦
    ⟨foldlM_components, fun h ↦ follow?_of_components habsolute h (.inl hnode)⟩

theorem isDirectory_eq (h : p.Alike q) : root.isDirectory p = root.isDirectory q := by
  rw [Bool.eq_iff_iff, isDirectory_iff h.first, isDirectory_iff h.second, h.same]

/-- The text of the path ends in the name of what it leads to. -/
def EndsInName (p : Path) : Prop := Trail.LeadsOn (stretches p.text.toList).tail

theorem node?_eq (h : p.Alike q) (hp : EndsInName p) (hq : EndsInName q) :
    root.node? p = root.node? q := by
  have hfollow : root.follow? p = root.follow? q := by
    refine Option.ext fun t ↦ ⟨fun ht ↦ ?_, fun ht ↦ ?_⟩
    · exact follow?_of_components h.second (h.same ▸ foldlM_components ht) (.inr hq)
    · exact follow?_of_components h.first (h.same ▸ foldlM_components ht) (.inr hp)
  rw [node?, node?, hfollow]

/-! ## Counting -/

mutual

/-- The components by which tame paths lead down to files. -/
def spellings : FileTree → List (List Component)
  | file _ => [[]]
  | directory entries => spellingsIn entries

def spellingsIn : List (String × FileTree) → List (List Component)
  | [] => []
  | (name, tree) :: rest =>
    tree.spellings.map (.name name :: ·) ++
      (if name == "node_modules" && (tree.child? "@types").any isDirectoryNode then
        tree.spellings.map ([.name name, .name "@types", .parent] ++ ·) else []) ++
      spellingsIn rest

end

mutual

theorem length_spellings (tree : FileTree) : tree.spellings.length = tree.ways := by
  cases tree with
  | file text => rfl
  | directory entries => exact length_spellingsIn entries

theorem length_spellingsIn (entries : List (String × FileTree)) :
    (spellingsIn entries).length = waysIn entries := by
  cases entries with
  | nil => rfl
  | cons entry rest =>
      obtain ⟨name, tree⟩ := entry
      have htree := length_spellings tree
      have hrest := length_spellingsIn rest
      rw [spellingsIn, waysIn, List.length_append, List.length_append,
        List.length_map, hrest, htree]
      split
      · rw [List.length_map, htree]
        omega
      · rw [List.length_nil]
        omega

end

theorem mem_spellingsIn {entries : List (String × FileTree)} {name : String} {sub : FileTree}
    (h : (name, sub) ∈ entries) {cs : List Component} (hcs : cs ∈ sub.spellings) :
    .name name :: cs ∈ spellingsIn entries ∧
      (name = "node_modules" → (sub.child? "@types").any isDirectoryNode = true →
        .name name :: .name "@types" :: .parent :: cs ∈ spellingsIn entries) := by
  induction entries with
  | nil => cases h
  | cons entry rest ih =>
      obtain ⟨first, tree⟩ := entry
      rw [spellingsIn]
      rcases List.mem_cons.mp h with heq | h
      · cases heq
        refine ⟨?_, fun hname htypes ↦ ?_⟩
        · exact List.mem_append_left _ (List.mem_append_left _ (List.mem_map_of_mem hcs))
        · refine List.mem_append_left _ (List.mem_append_right _ ?_)
          rw [hname, htypes]
          exact List.mem_map_of_mem hcs
      · obtain ⟨hplain, hdetour⟩ := ih h
        exact ⟨List.mem_append_right _ hplain,
          fun hname htypes ↦ List.mem_append_right _ (hdetour hname htypes)⟩

theorem mem_spellings {tree sub : FileTree} {name : String} (h : tree.child? name = some sub)
    {cs : List Component} (hcs : cs ∈ sub.spellings) :
    .name name :: cs ∈ tree.spellings ∧
      (name = "node_modules" → (sub.child? "@types").any isDirectoryNode = true →
        .name name :: .name "@types" :: .parent :: cs ∈ tree.spellings) := by
  cases tree with
  | file text => cases h
  | directory entries =>
      obtain ⟨⟨found, sub⟩, hfind, rfl⟩ := Option.map_eq_some_iff.mp h
      have hname := List.find?_some hfind
      obtain rfl : found = name := beq_iff_eq.mp hname
      exact mem_spellingsIn (List.mem_of_find?_eq_some hfind) hcs

theorem follow_name {n : String} {t' : Trail} (h : t.follow (.name n) = some t') :
    t.node.child? n = some t'.node ∧ t'.root = t.root ∧ t'.steps.tail = t.steps := by
  unfold Trail.follow at h
  split at h
  · cases h
  · obtain ⟨node, hnode, rfl⟩ := Option.map_eq_some_iff.mp h
    exact ⟨hnode, rfl, rfl⟩

theorem follow_parent {t' : Trail} (h : t.follow .parent = some t') :
    t.node.isDirectoryNode = true ∧ t' = { t with steps := t.steps.tail } := by
  refine ⟨Trail.isDirectoryNode_of_follow h, ?_⟩
  unfold Trail.follow at h
  split at h
  · cases h
  · exact (Option.some.inj h).symm

/-- A file at the end of tame parts is spelled by them. -/
theorem mem_spellings_of_tame {parts : List Component} (hparts : TameParts parts) {t t' : Trail}
    (h : parts.foldlM Trail.follow t = some t') {text : Option String}
    (hfile : t'.node = .file text) : parts ∈ t.node.spellings := by
  induction hparts generalizing t with
  | nil =>
      cases h
      rw [hfile]
      exact List.mem_singleton.mpr rfl
  | name n _ ih =>
      obtain ⟨inner, hinner, h⟩ := Option.bind_eq_some_iff.mp h
      exact (mem_spellings (follow_name hinner).1 (ih h)).1
  | detour _ ih =>
      obtain ⟨modules, hmodules, hrest⟩ := Option.bind_eq_some_iff.mp h
      obtain ⟨published, hpublished, hrest⟩ := Option.bind_eq_some_iff.mp hrest
      obtain ⟨back, hback, hrest⟩ := Option.bind_eq_some_iff.mp hrest
      obtain ⟨hchild, hroot, hsteps⟩ := follow_name hpublished
      obtain ⟨hnode, hback⟩ := follow_parent hback
      have hsame : back = modules := by
        obtain ⟨root, steps⟩ := modules
        rw [hback, hroot, hsteps]
      rw [hsame] at hrest
      refine (mem_spellings (follow_name hmodules).1 (ih hrest)).2 rfl ?_
      rw [hchild]
      exact hnode

/-- The ways in which tame paths lead to files. -/
def fileSpellings (root : FileTree) : List (List Component) :=
  root.spellings.map (.root :: ·) ++ root.spellings.map (.root :: .parent :: ·)

theorem length_fileSpellings (root : FileTree) : root.fileSpellings.length = 2 * root.ways := by
  rw [fileSpellings, List.length_append, List.length_map, List.length_map, length_spellings]
  omega

theorem follow_root {t t' : Trail} (h : t.follow .root = some t') : t' = t := by
  unfold Trail.follow at h
  split at h
  · cases h
  · exact (Option.some.inj h).symm

theorem components_mem_fileSpellings (htame : IsTame p.components) (hfile : root.isFile p = true) :
    p.components ∈ root.fileSpellings := by
  obtain ⟨t, ht, text, hnode⟩ :
      ∃ t, root.follow? p = some t ∧ ∃ text, t.node = .file text := by
    unfold isFile node? at hfile
    cases hfollow : root.follow? p with
    | none =>
        rw [hfollow] at hfile
        cases hfile
    | some t =>
        refine ⟨t, rfl, ?_⟩
        rw [hfollow, Option.map_some] at hfile
        cases hnode : t.node with
        | file text => exact ⟨text, rfl⟩
        | directory entries =>
            rw [hnode] at hfile
            cases hfile
  have ht := foldlM_components ht
  obtain ⟨parts, hparts, hcomponents⟩ := htame
  rcases hcomponents with hcomponents | hcomponents <;> rw [hcomponents] at ht ⊢
  · obtain ⟨first, hfirst, ht⟩ := Option.bind_eq_some_iff.mp ht
    rw [follow_root hfirst] at ht
    exact List.mem_append_left _ (List.mem_map_of_mem (mem_spellings_of_tame hparts ht hnode))
  · obtain ⟨first, hfirst, ht⟩ := Option.bind_eq_some_iff.mp ht
    obtain ⟨second, hsecond, ht⟩ := Option.bind_eq_some_iff.mp ht
    rw [(follow_parent hsecond).2, follow_root hfirst] at ht
    exact List.mem_append_right _ (List.mem_map_of_mem (mem_spellings_of_tame hparts ht hnode))

/-- Files that tame paths lead to, each of them by other components, are no more than twice the ways
down. -/
theorem length_le_of_distinct {ps : List Path}
    (hps : ∀ p ∈ ps, IsTame p.components ∧ root.isFile p = true)
    (hdistinct : ps.Pairwise fun p q ↦ p.components ≠ q.components) :
    ps.length ≤ 2 * root.ways := by
  have hnodup : (ps.map components).Nodup := List.pairwise_map.mpr hdistinct
  have hsubset : ps.map components ⊆ root.fileSpellings := by
    intro cs hcs
    obtain ⟨p, hp, rfl⟩ := List.mem_map.mp hcs
    exact components_mem_fileSpellings (hps p hp).1 (hps p hp).2
  have hlength := (List.subperm_of_subset hnodup hsubset).length_le
  rwa [List.length_map, length_fileSpellings] at hlength

end PluginSurface.FileTree
