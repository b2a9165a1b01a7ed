import Mathlib.Data.List.Infix
import PluginSurface.Proofs.FileTree.Ways

/-!
# Trees that agree outside a folder

What is at the end of a path depends on the way there alone. So if trees differ in one folder only,
they look the same along each path that does not lead through it, not even to come back by two dots.
-/

namespace PluginSurface

namespace Path

/-- The names behind a component, when `names` are those of the directory before it. -/
def namesBehind (names : List String) : Component → List String
  | .parent => names.dropLast
  | .name n => names ++ [n]
  | _ => names

/-- The names of what components lead to, from the root on. -/
def destination (cs : List Component) : List String := cs.foldl namesBehind []

/-- The names of what a path leads to. -/
def names (p : Path) : List String := destination p.components

/-- The path leads to the folder with these names or to something inside it, be it on the way. -/
def LeadsThrough (p : Path) (folder : List String) : Prop :=
  ∃ cs, cs <+: p.components ∧ folder <+: destination cs

instance (p : Path) (folder : List String) : Decidable (p.LeadsThrough folder) :=
  decidable_of_iff (∃ cs ∈ p.components.inits, folder <+: destination cs) <| by
    simp only [LeadsThrough, List.mem_inits]

theorem destination_concat (cs : List Component) (c : Component) :
    destination (cs ++ [c]) = namesBehind (destination cs) c := by
  rw [destination, List.foldl_append]
  rfl

theorem leadsThrough_iff {p : Path} {folder : List String} {cs : List Component} {c : Component}
    (h : p.components = cs ++ [c]) : p.LeadsThrough folder ↔
      (∃ ds, ds <+: cs ∧ folder <+: destination ds) ∨
      folder <+: namesBehind (destination cs) c := by
  unfold LeadsThrough
  simp only [h, List.prefix_concat_iff, or_and_right, exists_or, exists_eq_left,
    destination_concat]
  exact or_comm

variable {p q : Path} {cs : List Component} {outer : List String} {last name : String}

/-- A path does not lead through a folder by a name that is not that of the folder. -/
theorem not_leadsThrough_concat (hp : ¬ p.LeadsThrough (outer ++ [last]))
    (hcs : cs <+: p.components) (hq : q.components = cs ++ [.name name]) (hne : name ≠ last) :
    ¬ q.LeadsThrough (outer ++ [last]) := by
  rw [leadsThrough_iff hq]
  rintro (⟨ds, hds, hfolder⟩ | hfolder)
  · exact hp ⟨ds, hds.trans hcs, hfolder⟩
  · rcases List.prefix_concat_iff.mp hfolder with heq | hfolder
    · exact hne (by simpa using (congrArg List.getLast? heq).symm)
    · exact hp ⟨cs, hcs, hfolder⟩

theorem not_leadsThrough_join (hp : ¬ p.LeadsThrough (outer ++ [last]))
    (habsolute : p.isAbsolute = true) (hname : IsName name) (hne : name ≠ last) :
    ¬ (p.join ⟨name⟩).LeadsThrough (outer ++ [last]) := by
  refine not_leadsThrough_concat hp (List.prefix_refl _) ?_ hne
  rw [components_join habsolute hname.not_isAbsolute, partsOf_name hname]

end Path

namespace FileTree

open PluginSurface.Path

/-- What is at the end of names. -/
def at? : FileTree → List String → Option FileTree
  | tree, [] => some tree
  | tree, n :: names => (tree.child? n).bind (at? · names)

theorem at?_append (tree : FileTree) (names more : List String) :
    tree.at? (names ++ more) = (tree.at? names).bind (at? · more) := by
  induction names generalizing tree with
  | nil => rfl
  | cons n names ih =>
      rw [List.cons_append, at?, at?, Option.bind_assoc]
      exact congrArg _ (funext fun child ↦ ih child)

theorem at?_concat (tree : FileTree) (names : List String) (n : String) :
    tree.at? (names ++ [n]) = (tree.at? names).bind (child? n) := by
  rw [at?_append]
  refine congrArg _ (funext fun child ↦ ?_)
  rw [at?]
  cases child.child? n <;> rfl

/-- What a path shows of what it leads to: the text of a file, and of a directory that it is one. -/
def face : FileTree → Option (Option String)
  | file text => some text
  | directory _ => none

theorem isDirectoryNode_iff {tree : FileTree} :
    tree.isDirectoryNode = true ↔ tree.face = none := by
  cases tree <;> simp [isDirectoryNode, face]

/-- The trees look the same at all names but those in the folder. -/
def AgreeOutside (folder : List String) (tree tree' : FileTree) : Prop :=
  ∀ names, ¬ folder <+: names → (tree.at? names).map face = (tree'.at? names).map face

theorem AgreeOutside.trans {folder : List String} {tree tree' tree'' : FileTree}
    (h : AgreeOutside folder tree tree') (h' : AgreeOutside folder tree' tree'') :
    AgreeOutside folder tree tree'' :=
  fun names hnames ↦ (h names hnames).trans (h' names hnames)

/-! ## Adding to a folder -/

theorem child?_insert (tree : FileTree) (name : String) (names : List String) (node : FileTree)
    (htree : tree.isDirectoryNode = true) (n : String) :
    (tree.insert (name :: names) node).child? n =
      if n = name then some (((tree.child? name).getD (directory [])).insert names node)
      else tree.child? n := by
  cases tree with
  | file => cases htree
  | directory entries =>
      rw [insert, child?]
      split
      next heq =>
        rw [heq, List.find?_append, List.find?_eq_none.mpr]
        · simp
        · intro e he
          simpa using (List.mem_filter.mp he).2
      next hne =>
        rw [List.find?_append, List.find?_filter]
        have hfind : entries.find? (fun e ↦ decide ((e.1 != name) = true ∧ (e.1 == n) = true)) =
            entries.find? (·.1 == n) := by
          refine congrArg (entries.find? ·) (funext fun e ↦ ?_)
          by_cases he : e.1 = n <;> simp [he, hne]
        rw [hfind]
        change _ = (entries.find? (·.1 == n)).map (·.2)
        cases entries.find? (·.1 == n) <;> simp [Ne.symm hne]

/-- What is added to a folder shows only in it, if the directory that holds the folder is there. -/
theorem agreeOutside_insert {tree holder : FileTree} {names : List String} (last : String)
    (hholder : tree.at? names = some holder) (hdirectory : holder.isDirectoryNode = true)
    (more : List String) (node : FileTree) :
    AgreeOutside (names ++ [last]) tree (tree.insert (names ++ [last] ++ more) node) := by
  have hface (tree : FileTree) (htree : tree.isDirectoryNode = true) (name : String)
      (names : List String) : (tree.insert (name :: names) node).face = tree.face := by
    rw [isDirectoryNode_iff.mp htree]
    rfl
  induction names generalizing tree with
  | nil =>
      cases hholder
      intro others hothers
      cases others with
      | nil => exact congrArg some (hface holder hdirectory last more).symm
      | cons n others =>
          have hne : n ≠ last := fun heq ↦ hothers (heq ▸ ⟨others, rfl⟩)
          rw [at?, at?, List.nil_append, List.singleton_append,
            child?_insert holder last more node hdirectory, if_neg hne]
  | cons name names ih =>
      obtain ⟨child, hchild, hat⟩ := Option.bind_eq_some_iff.mp hholder
      have htree : tree.isDirectoryNode = true := by
        cases tree with
        | file => cases hchild
        | directory => rfl
      intro others hothers
      rw [List.cons_append, List.cons_append]
      cases others with
      | nil => exact congrArg some (hface tree htree name _).symm
      | cons n others =>
          rw [at?, at?, child?_insert tree name _ node htree]
          by_cases hn : n = name
          · subst hn
            rw [if_pos rfl, hchild, Option.getD_some, Option.bind_some, Option.bind_some]
            exact ih hat others fun hprefix ↦ hothers ((List.prefix_cons_inj n).mpr hprefix)
          · rw [if_neg hn]

/-- Files with their names in a folder, added to it one after the other. -/
def addTo (folder : List String) (tree : FileTree) (files : List (List String × Option String)) :
    FileTree :=
  files.foldl (fun tree added ↦ tree.insert (folder ++ added.1) (file added.2)) tree

theorem agreeOutside_addTo {tree holder : FileTree} {names : List String} (last : String)
    (hholder : tree.at? names = some holder) (hdirectory : holder.isDirectoryNode = true)
    (files : List (List String × Option String)) :
    AgreeOutside (names ++ [last]) tree (tree.addTo (names ++ [last]) files) := by
  induction files generalizing tree holder with
  | nil => exact fun _ _ ↦ rfl
  | cons added files ih =>
      have hfirst := agreeOutside_insert last hholder hdirectory added.1 (file added.2)
      -- The directory that holds the folder is outside of it, so it is still there.
      have hstays := hfirst names fun hprefix ↦ by
        simpa [Nat.not_succ_le_self] using hprefix.length_le
      rw [hholder, Option.map_some, isDirectoryNode_iff.mp hdirectory] at hstays
      obtain ⟨holder', hholder', hface⟩ := Option.map_eq_some_iff.mp hstays.symm
      exact hfirst.trans (ih hholder' (isDirectoryNode_iff.mpr hface))

/-! ## Following a path -/

namespace Trail

/-- The nodes on the way are those at the names on the way. -/
inductive Along (root : FileTree) : List String → List (String × FileTree) → Prop
  | start : Along root [] []
  | down {names : List String} {steps : List (String × FileTree)} {n : String} {node : FileTree}
      (h : Along root names steps) (hat : root.at? (names ++ [n]) = some node) :
      Along root (names ++ [n]) ((n, node) :: steps)

variable {root tree tree' : FileTree} {names folder : List String} {t t' : Trail}

theorem Along.at? (h : Along t.root names t.steps) : t.root.at? names = some t.node := by
  obtain ⟨root, steps⟩ := t
  cases h with
  | start => rfl
  | down _ hat => exact hat

theorem Along.up {steps : List (String × FileTree)} (h : Along root names steps) :
    Along root names.dropLast steps.tail := by
  cases h with
  | start => exact .start
  | down h _ => rwa [List.dropLast_concat]

/-- The names behind a stretch. -/
def namesPast (names : List String) (s : List Char) : List String :=
  ((component? s).map (namesBehind names)).getD names

theorem Along.step (h : Along t.root names t.steps) {s : List Char} (hstep : t.step s = some t') :
    Along t'.root (namesPast names s) t'.steps := by
  unfold namesPast
  rw [step_eq] at hstep
  split at hstep
  · cases hstep
  split at hstep
  next hc =>
    cases hstep
    rw [hc]
    exact h.up
  next n hc =>
    obtain ⟨node, hnode, rfl⟩ := Option.map_eq_some_iff.mp hstep
    rw [hc]
    refine .down h ?_
    rw [at?_concat, h.at?, Option.bind_some, hnode]
  next hparent hname =>
    cases hstep
    rcases component?_cases s with hc | hc | hc
    · rwa [hc]
    · exact absurd hc hparent
    · exact absurd hc (hname _)

theorem foldl_namesBehind (names : List String) (parts : List (List Char)) :
    (parts.filterMap component?).foldl namesBehind names = parts.foldl namesPast names := by
  induction parts generalizing names with
  | nil => rfl
  | cons s parts ih =>
      rw [List.foldl_cons, ← ih, List.filterMap_cons, namesPast]
      cases component? s <;> rfl

theorem Along.foldlM (h : Along t.root names t.steps) {parts : List (List Char)}
    (hfold : parts.foldlM Trail.step t = some t') :
    Along t'.root (parts.foldl namesPast names) t'.steps := by
  induction parts generalizing names t with
  | nil =>
      cases hfold
      exact h
  | cons s parts ih =>
      obtain ⟨next, hnext, hfold⟩ := Option.bind_eq_some_iff.mp hfold
      exact ih (h.step hnext) hfold

variable (h : Along t.root names t.steps) (h' : Along t'.root names t'.steps)
  (hagree : AgreeOutside folder t.root t'.root)

include h h' hagree

theorem face_node_eq (hnames : ¬ folder <+: names) : t.node.face = t'.node.face := by
  simpa [h.at?, h'.at?] using hagree names hnames

/-- A step that stays outside of the folder is possible in both trees or in neither. -/
theorem isSome_step_eq (hnames : ¬ folder <+: names) {s : List Char}
    (hnext : ¬ folder <+: namesPast names s) : (t.step s).isSome = (t'.step s).isSome := by
  have hdirectory : t.node.isDirectoryNode = t'.node.isDirectoryNode := by
    rw [Bool.eq_iff_iff, isDirectoryNode_iff, isDirectoryNode_iff, face_node_eq h h' hagree hnames]
  rw [step_eq, step_eq, hdirectory]
  split
  · rfl
  split
  · rfl
  next n hc =>
    rw [namesPast, hc] at hnext
    have hchild := congrArg Option.isSome (hagree (names ++ [n]) hnext)
    rw [at?_concat, at?_concat, h.at?, h'.at?] at hchild
    simpa using hchild
  · rfl

/-- Stretches that do not lead through the folder lead to what looks the same. -/
theorem face_foldlM_eq {parts : List (List Char)}
    (hparts : ∀ front, front <+: parts → ¬ folder <+: front.foldl namesPast names) :
    (parts.foldlM Trail.step t).map (face ∘ node) =
      (parts.foldlM Trail.step t').map (face ∘ node) := by
  induction parts generalizing names t t' with
  | nil => exact congrArg some (face_node_eq h h' hagree (hparts [] (List.prefix_refl _)))
  | cons s parts ih =>
      have hsome := isSome_step_eq h h' hagree (hparts [] List.nil_prefix)
        (hparts [s] ((List.prefix_cons_inj s).mpr List.nil_prefix))
      rw [List.foldlM_cons, List.foldlM_cons]
      cases hu : t.step s with
      | none =>
          cases hu' : t'.step s with
          | none => rfl
          | some u' => simp [hu, hu'] at hsome
      | some u =>
          cases hu' : t'.step s with
          | none => simp [hu, hu'] at hsome
          | some u' =>
              exact ih (h.step hu) (h'.step hu') (root_step hu ▸ root_step hu' ▸ hagree)
                fun front hfront ↦ hparts (s :: front) ((List.prefix_cons_inj s).mpr hfront)

end Trail

variable {folder : List String} {tree tree' : FileTree} {p : Path}

theorem isFile_eq_face (tree : FileTree) (p : Path) :
    tree.isFile p = ((tree.node? p).map face).any Option.isSome := by
  unfold isFile
  rcases tree.node? p with _ | ⟨_ | _⟩ <;> rfl

theorem isDirectory_eq_face (tree : FileTree) (p : Path) :
    tree.isDirectory p = ((tree.node? p).map face).any Option.isNone := by
  unfold isDirectory
  rcases tree.node? p with _ | ⟨_ | _⟩ <;> rfl

theorem read?_eq_face (tree : FileTree) (p : Path) :
    tree.read? p = ((tree.node? p).map face).join.join := by
  unfold read?
  rcases tree.node? p with _ | ⟨_ | _⟩ <;> rfl

namespace AgreeOutside

variable (h : AgreeOutside folder tree tree') (hp : ¬ p.LeadsThrough folder)

include h hp

/-- A path that does not lead through the folder leads to what looks the same. -/
theorem face_node?_eq : (tree.node? p).map face = (tree'.node? p).map face := by
  unfold FileTree.node? follow?
  split
  next habsolute =>
    rw [Option.map_map, Option.map_map]
    refine Trail.face_foldlM_eq (t := ⟨tree, []⟩) (.start : Trail.Along tree [] []) .start h
      fun front hfront hfolder ↦ hp ⟨.root :: front.filterMap component?, ?_, ?_⟩
    · rw [components_eq habsolute]
      exact (List.prefix_cons_inj _).mpr (hfront.filterMap component?)
    · rwa [← Trail.foldl_namesBehind] at hfolder
  next => rfl

theorem isFile_eq : tree.isFile p = tree'.isFile p := by
  rw [isFile_eq_face, isFile_eq_face, h.face_node?_eq hp]

theorem isDirectory_eq : tree.isDirectory p = tree'.isDirectory p := by
  rw [isDirectory_eq_face, isDirectory_eq_face, h.face_node?_eq hp]

theorem read?_eq : tree.read? p = tree'.read? p := by
  rw [read?_eq_face, read?_eq_face, h.face_node?_eq hp]

end AgreeOutside

/-- What is at the end of a path is at its names. -/
theorem at?_names {t : Trail} (h : tree.follow? p = some t) : tree.at? p.names = some t.node := by
  unfold follow? at h
  split at h
  next habsolute =>
    have halong := Trail.Along.foldlM (t := ⟨tree, []⟩) .start h
    rw [← Trail.foldl_namesBehind] at halong
    have hat := halong.at?
    rw [Trail.root_foldlM h] at hat
    rw [names, destination, components_eq habsolute]
    exact hat
  next => cases h

end FileTree

end PluginSurface
