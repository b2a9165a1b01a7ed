import PluginSurface.Proofs.FileTree.Ways
import PluginSurface.Proofs.Path.Clean

/-!
# The files of a tree

Whatever a path leads to is part of the tree, and the canonical path leads to it as well.
-/

namespace PluginSurface.FileTree

open PluginSurface.Path

mutual

/-- The texts of the files in a tree. -/
def texts : FileTree → List String
  | file text => text.toList
  | directory entries => textsIn entries

def textsIn : List (String × FileTree) → List String
  | [] => []
  | (_, tree) :: rest => tree.texts ++ textsIn rest

end

theorem texts_subset_textsIn {entries : List (String × FileTree)} {name : String} {tree : FileTree}
    (h : (name, tree) ∈ entries) : tree.texts ⊆ textsIn entries := by
  induction entries with
  | nil => cases h
  | cons entry rest ih =>
      rw [textsIn]
      rcases List.mem_cons.mp h with rfl | h
      · exact List.subset_append_left _ _
      · exact List.subset_append_of_subset_right _ (ih h)

theorem texts_subset_of_child? {tree child : FileTree} {name : String}
    (h : tree.child? name = some child) : child.texts ⊆ tree.texts := by
  cases tree with
  | file text => cases h
  | directory entries =>
      obtain ⟨entry, hentry, rfl⟩ := Option.map_eq_some_iff.mp h
      exact texts_subset_textsIn (List.mem_of_find?_eq_some hentry)

namespace Trail

variable {t t' : Trail} {s : List Char}

/-- What a trail leads through: each node is the child of the one before, by its name. -/
structure IsPart (t : Trail) : Prop where
  texts : ∀ step ∈ t.steps, step.2.texts ⊆ t.root.texts
  isName : ∀ n ∈ t.steps.map (·.1), IsName n
  leads : (t.steps.reverse.map (·.1.toList)).foldlM step ⟨t.root, []⟩ = some t

theorem isPart_start (root : FileTree) : IsPart ⟨root, []⟩ :=
  ⟨nofun, nofun, rfl⟩

theorem IsPart.texts_node (h : t.IsPart) : t.node.texts ⊆ t.root.texts := by
  obtain ⟨root, steps⟩ := t
  cases steps with
  | nil => exact List.Subset.refl _
  | cons first rest => exact h.texts first List.mem_cons_self

/-- The trail without its last step. -/
theorem IsPart.up (h : t.IsPart) : IsPart { t with steps := t.steps.tail } := by
  obtain ⟨root, steps⟩ := t
  cases steps with
  | nil => exact h
  | cons first rest =>
      refine ⟨fun s hs ↦ h.texts s (List.mem_cons_of_mem _ hs),
        fun n hn ↦ h.isName n (List.mem_cons_of_mem _ hn), ?_⟩
      have hleads := h.leads
      rw [List.reverse_cons, List.map_append, List.foldlM_append] at hleads
      obtain ⟨before, hbefore, hlast⟩ := Option.bind_eq_some_iff.mp hleads
      obtain ⟨next, hnext, hlast⟩ := Option.bind_eq_some_iff.mp hlast
      cases hlast
      rw [step_of_component? (h.isName first.1 List.mem_cons_self).2] at hnext
      obtain ⟨-, hroot, hsteps⟩ := follow_name hnext
      obtain ⟨root', steps'⟩ := before
      obtain rfl : root = root' := hroot
      obtain rfl : rest = steps' := hsteps
      exact hbefore

theorem IsPart.step (h : t.IsPart) (hs : '/' ∉ s) (hstep : t.step s = some t') : t'.IsPart := by
  have hfollow := hstep
  rw [step_eq] at hstep
  split at hstep
  · cases hstep
  · split at hstep
    · cases hstep
      exact h.up
    next n hn =>
      obtain ⟨child, hchild, rfl⟩ := Option.map_eq_some_iff.mp hstep
      refine ⟨?_, isName_step hs h.isName hfollow, ?_⟩
      · rintro step hmem
        rcases List.mem_cons.mp hmem with rfl | hmem
        · exact List.Subset.trans (texts_subset_of_child? hchild) h.texts_node
        · exact h.texts step hmem
      · rw [step_of_component? hn, ← step_of_component?
          (isName_of_component? hs hn).2] at hfollow
        rw [List.reverse_cons, List.map_append, List.foldlM_append]
        refine Option.bind_eq_some_iff.mpr ⟨t, h.leads, ?_⟩
        exact Option.bind_eq_some_iff.mpr ⟨_, hfollow, rfl⟩
    · cases hstep
      exact h

theorem IsPart.foldlM {parts : List (List Char)} (hparts : ∀ s ∈ parts, '/' ∉ s)
    (h : t.IsPart) (hfold : parts.foldlM Trail.step t = some t') : t'.IsPart := by
  induction parts generalizing t with
  | nil =>
      cases hfold
      exact h
  | cons s rest ih =>
      obtain ⟨next, hnext, hfold⟩ := Option.bind_eq_some_iff.mp hfold
      exact ih (fun s hs ↦ hparts s (List.mem_cons_of_mem _ hs))
        (h.step (hparts s List.mem_cons_self) hnext) hfold

end Trail

variable {tree : FileTree} {p : Path} {t : Trail}

theorem isPart_of_follow? (h : tree.follow? p = some t) : t.IsPart ∧ t.root = tree := by
  unfold follow? at h
  split at h
  · exact ⟨(Trail.isPart_start tree).foldlM (fun _ ↦ not_mem_of_mem_stretches) h,
      Trail.root_foldlM h⟩
  · cases h

/-- What is read is the text of a file in the tree. -/
theorem mem_texts_of_read? {text : String} (h : tree.read? p = some text) :
    text ∈ tree.texts := by
  unfold read? node? at h
  split at h
  next text' hmap =>
    obtain ⟨t, ht, hnode⟩ := Option.map_eq_some_iff.mp hmap
    obtain ⟨hpart, rfl⟩ := isPart_of_follow? ht
    refine hpart.texts_node ?_
    rw [hnode, texts, h]
    exact List.mem_singleton.mpr rfl
  next => cases h

theorem isFile_of_read? {text : String} (h : tree.read? p = some text) : tree.isFile p = true := by
  unfold read? at h
  split at h
  next hnode => rw [isFile, hnode]
  next => cases h

/-! ## Canonical paths -/

theorem path_eq_fromRoot (t : Trail) : t.path = fromRoot (t.steps.reverse.map (·.1.toList)) := by
  unfold Trail.path fromRoot
  split
  next hnil =>
    have hsteps : t.steps = [] := by simpa using hnil
    rw [hsteps]
    rfl
  next hne =>
    refine congrArg Path.mk ?_
    rw [← slash_intercalate hne, ← String.toList_inj]
    simp [Function.comp_def]

/-- The canonical path leads to what the path leads to. -/
theorem node?_canonical (h : tree.follow? p = some t) :
    tree.node? (tree.canonical p) = tree.node? p := by
  obtain ⟨hpart, rfl⟩ := isPart_of_follow? h
  have hleads := hpart.leads
  have hdirectory : (⟨t.root, []⟩ : Trail).node.isDirectoryNode = true := by
    unfold follow? at h
    split at h
    next habsolute =>
      obtain ⟨parts, -, hparts⟩ := stretches_absolute habsolute
      rw [hparts] at h
      obtain ⟨next, hnext, -⟩ := Option.bind_eq_some_iff.mp h
      exact Trail.isDirectoryNode_of_follow (Trail.step_nil ▸ hnext)
    next => cases h
  have hfirst (s : List Char) (hs : isBlank s = true) :
      (⟨t.root, []⟩ : Trail).step s = some ⟨t.root, []⟩ := by
    rw [Trail.step_of_isBlank hs, hdirectory]
    rfl
  have hsingle : ∀ s ∈ t.steps.reverse.map (·.1.toList), '/' ∉ s := by
    intro s hs
    obtain ⟨step, hstep, rfl⟩ := List.mem_map.mp hs
    exact (hpart.isName step.1 (List.mem_map_of_mem (List.mem_reverse.mp hstep))).1
  have hcanonical : t.root.follow? t.path = some t := by
    rw [path_eq_fromRoot, follow?, if_pos (isAbsolute_fromRoot _), fromRoot]
    split
    next hnil =>
      rw [hnil] at hleads
      rw [stretches_rooted (by simp)]
      exact Option.bind_eq_some_iff.mpr ⟨_, hfirst [] rfl,
        Option.bind_eq_some_iff.mpr ⟨_, hfirst [] rfl, hleads⟩⟩
    next =>
      rw [stretches_rooted hsingle]
      exact Option.bind_eq_some_iff.mpr ⟨_, hfirst [] rfl, hleads⟩
  rw [node?, node?, canonical, h, hcanonical]

/-- The names on the way to what a path leads to, which its canonical path is made of. -/
theorem canonical_of_follow? (h : tree.follow? p = some t) :
    (∀ n ∈ t.steps.reverse.map (·.1), IsName n) ∧
      tree.canonical p = fromRoot ((t.steps.reverse.map (·.1)).map String.toList) := by
  obtain ⟨hpart, rfl⟩ := isPart_of_follow? h
  refine ⟨fun n hn ↦ hpart.isName n (by simpa using hn), ?_⟩
  rw [canonical, h, List.map_map]
  exact path_eq_fromRoot t

theorem isClean_canonical (h : tree.follow? p = some t) : (tree.canonical p).IsClean := by
  obtain ⟨hnames, hpath⟩ := canonical_of_follow? h
  exact hpath ▸ isClean_fromRoot hnames

/-- The canonical path of a file is tame. -/
theorem alike_canonical (h : tree.follow? p = some t) :
    Alike (tree.canonical p) (tree.canonical p) := by
  have hclean := isClean_canonical h
  exact ⟨hclean.absolute, hclean.absolute, rfl, hclean.normal.isTame⟩

theorem Trail.names_follow {names : List String} {t t' : Trail}
    (h : (names.map Component.name).foldlM Trail.follow t = some t') :
    t'.steps.reverse.map (·.1) = t.steps.reverse.map (·.1) ++ names := by
  induction names generalizing t with
  | nil =>
      cases h
      simp
  | cons n rest ih =>
      obtain ⟨next, hnext, h⟩ := Option.bind_eq_some_iff.mp h
      unfold Trail.follow at hnext
      split at hnext
      · cases hnext
      · obtain ⟨node, -, rfl⟩ := Option.map_eq_some_iff.mp hnext
        rw [ih h]
        simp

/-- The canonical path of a clean path is the path itself, but for two dots at the root. -/
theorem components_canonical (hp : p.IsClean) (h : tree.follow? p = some t) :
    ∃ names : List String, (tree.canonical p).components = .root :: names.map .name ∧
      (p.components = .root :: names.map .name ∨
        p.components = .root :: .parent :: names.map .name) := by
  obtain ⟨hnames, hpath⟩ := canonical_of_follow? h
  have hcanonical := components_names hnames
  rw [← hpath] at hcanonical
  obtain ⟨names, -, hcs⟩ := hp.normal
  have hfollow := foldlM_components h
  refine ⟨names, ?_, hcs⟩
  rcases hcs with hcs | hcs <;> rw [hcs] at hfollow
  · obtain ⟨first, hfirst, hfollow⟩ := Option.bind_eq_some_iff.mp hfollow
    rw [hcanonical, Trail.names_follow hfollow, follow_root hfirst]
    rfl
  · obtain ⟨first, hfirst, hfollow⟩ := Option.bind_eq_some_iff.mp hfollow
    obtain ⟨second, hsecond, hfollow⟩ := Option.bind_eq_some_iff.mp hfollow
    rw [hcanonical, Trail.names_follow hfollow, (follow_parent hsecond).2, follow_root hfirst]
    rfl

/-- Two clean paths to one file have the same components, unless exactly one of them has two dots at
the root. -/
theorem isAboveRoot_of_canonical {q : Path} {t' : Trail} (hp : p.IsClean) (hq : q.IsClean)
    (ht : tree.follow? p = some t) (ht' : tree.follow? q = some t')
    (hcanonical : tree.canonical p = tree.canonical q) (hne : p.components ≠ q.components) :
    p.IsAboveRoot ↔ ¬q.IsAboveRoot := by
  obtain ⟨names, hnames, hpcs⟩ := components_canonical hp ht
  obtain ⟨names', hnames', hqcs⟩ := components_canonical hq ht'
  rw [hcanonical, hnames', List.cons.injEq] at hnames
  rw [hnames.2] at hqcs
  rcases hpcs with hpcs | hpcs <;> rcases hqcs with hqcs | hqcs
  · exact absurd (hpcs.trans hqcs.symm) hne
  · exact iff_of_false (not_isAboveRoot hpcs) (not_not_intro ⟨_, hqcs⟩)
  · exact iff_of_true ⟨_, hpcs⟩ (not_isAboveRoot hqcs)
  · exact absurd (hpcs.trans hqcs.symm) hne

end PluginSurface.FileTree
