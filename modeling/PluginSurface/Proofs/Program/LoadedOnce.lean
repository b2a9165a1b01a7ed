import PluginSurface.Proofs.Program.CleanLookups
import PluginSurface.Proofs.Program.Outcomes

/-!
# Files are loaded once

Two paths that were met are never the same, whatever the tree. If the names of packages are plain,
all paths that are met are clean, so that they also differ when dots are taken out of them, and two
of them lead to one file only if one of the two begins with two dots at the root. As clean paths to
a file are few, loading ends.
-/

namespace PluginSurface.Program

open PluginSurface.Path

variable {readJson : String → Option Json} {tree : FileTree} {options : CompilerOptions}
  {entry : Path}

variable (readJson tree options) in
/-- What loading goes through while a path is visited: the state it starts from, the one in which
the path was met, those of the visits to what it leads to, and the state at the end. -/
inductive Passes : Nat → Loading → Path → Loading → Prop
  | start {rounds : Nat} {l : Loading} {path : Path} : Passes rounds l path l
  | opened {more : Nat} {l : Loading} {path : Path} (hnew : ¬l.Met path) :
      Passes (more + 1) l path { l with seen := path :: l.seen }
  | inside {more : Nat} {l mid l' : Loading} {path target : Path} {u : SourceUnit}
      {front back : List Path} (hnew : ¬l.Met path)
      (hread : readUnit readJson tree options path = .ok u)
      (htargets : dependencies readJson tree options u = front ++ target :: back)
      (hfront : front.foldlM (visit readJson tree options more) { l with seen :=
        path :: l.seen } = .ok mid)
      (h : Passes more mid target l') : Passes (more + 1) l path l'
  | finish {rounds : Nat} {l l' : Loading} {path : Path}
      (h : visit readJson tree options rounds l path = .ok l') : Passes rounds l path l'

variable (readJson tree options entry) in
/-- A state that loading the program of an entry goes through. -/
def Loading.IsPoint (l : Loading) : Prop :=
  tree.isFile entry = true ∧
    Passes readJson tree options (chainLimit tree) ⟨[], #[]⟩ (tree.canonical entry) l

/-! ## Paths that were met -/

namespace Loading

variable {n : Nat} {l l' : Loading} {path : Path}

variable (readJson tree options entry) in
/-- The paths that were met are reached from the entry and not the same; there are at
least so many. -/
structure Apart (n : Nat) (l : Loading) : Prop where
  reached : ∀ p ∈ l.seen, Reached readJson tree options entry p
  loaded : ∀ u ∈ l.units, Reached readJson tree options entry u.path
  distinct : l.seen.Pairwise fun p q ↦ p.same q = false
  length_le : n ≤ l.seen.length

namespace Apart

theorem empty : Apart readJson tree options entry 0 ⟨[], #[]⟩ :=
  ⟨nofun, by simp, .nil, Nat.le_refl 0⟩

theorem of_succ (h : l.Apart readJson tree options entry (n + 1)) :
    l.Apart readJson tree options entry n :=
  ⟨h.reached, h.loaded, h.distinct, Nat.le_of_succ_le h.length_le⟩

/-- A path is met that was not met before. -/
theorem opened (h : l.Apart readJson tree options entry n) (hnew : ¬l.Met path)
    (hpath : Reached readJson tree options entry path) :
    Apart readJson tree options entry (n + 1) { l with seen := path :: l.seen } := by
  refine ⟨List.forall_mem_cons.mpr ⟨hpath, h.reached⟩, h.loaded,
    List.pairwise_cons.mpr ⟨?_, h.distinct⟩, Nat.succ_le_succ h.length_le⟩
  intro q hq
  refine Bool.eq_false_iff.mpr fun hsame ↦ hnew (List.any_eq_true.mpr ⟨q, hq, ?_⟩)
  exact same_iff.mpr (same_iff.mp hsame).symm

/-- The unit at a path that was reached is loaded. -/
theorem loading (h : l.Apart readJson tree options entry n) {u : SourceUnit}
    (hu : Reached readJson tree options entry u.path) :
    Apart readJson tree options entry n { l with units := l.units.push u } := by
  refine ⟨h.reached, fun v hv ↦ ?_, h.distinct, h.length_le⟩
  rcases Array.mem_push.mp hv with hv | rfl
  · exact h.loaded v hv
  · exact hu

theorem visit (rounds : Nat) (h : l.Apart readJson tree options entry n)
    (hpath : Reached readJson tree options entry path)
    (hvisit : visit readJson tree options rounds l path = .ok l') :
    l'.Apart readJson tree options entry n := by
  induction rounds generalizing n l path l' with
  | zero =>
      unfold Program.visit at hvisit
      split at hvisit
      · cases hvisit
        exact h
      · cases hvisit
  | succ more ih =>
      unfold Program.visit at hvisit
      split at hvisit
      · cases hvisit
        exact h
      next hnew =>
        obtain ⟨u, hread, hvisit⟩ := except_bind_eq_ok.mp hvisit
        obtain ⟨next, hfold, hvisit⟩ := except_bind_eq_ok.mp hvisit
        cases hvisit
        have hnext := keeps_of_foldlM (fun m target m' htarget hm hok ↦
          ih hm (hpath.step hread ((mem_dependencies hread).mp htarget)) hok)
          (h.opened hnew hpath) hfold
        exact hnext.of_succ.loading ((readUnit_eq_ok hread).1 ▸ hpath)

theorem passes {rounds : Nat} (hpasses : Passes readJson tree options rounds l path l')
    (h : l.Apart readJson tree options entry n) (hpath : Reached readJson tree options entry path) :
    l'.Apart readJson tree options entry n := by
  induction hpasses generalizing n with
  | start => exact h
  | opened hnew => exact (h.opened hnew hpath).of_succ
  | @inside more l mid l' path target u front back hnew hread htargets hfront _ ih =>
      have htarget (other : Path) (hother : other ∈ front ++ target :: back) :
          Reached readJson tree options entry other :=
        hpath.step hread ((mem_dependencies hread).mp (htargets ▸ hother))
      have hmid := keeps_of_foldlM (fun m other m' hother hm hok ↦
        hm.visit more (htarget other (List.mem_append_left _ hother)) hok)
        (h.opened hnew hpath) hfront
      exact (ih hmid (htarget target (by simp))).of_succ
  | finish hvisit => exact h.visit _ hpath hvisit

end Apart

end Loading

/-! ## Clean paths -/

section

variable (hplain : ∀ path u, Reached readJson tree options entry path →
    readUnit readJson tree options path = .ok u →
  u.tree.IsPlain) (hentry : tree.IsCleanFile entry)

include hplain hentry

theorem isCleanFile_of_reached {path : Path} (h : Reached readJson tree options entry path) :
    tree.IsCleanFile path := by
  induction h with
  | entry => exact hentry
  | @step path target u hpath hread htarget ih =>
      have hfile := hplain path u hpath hread
      obtain ⟨rfl, -, -, -⟩ := readUnit_eq_ok hread
      rcases htarget with ⟨r, hr, htarget⟩ | ⟨s, hs, htarget⟩
      · exact Resolve.findsClean_reference? (hfile.references r hr) ih.directory target htarget
      · exact Resolve.findsClean_module? (hfile.specifiers s hs) ih.directory target htarget

theorem Loading.Apart.length_seen_le {n : Nat} {l : Loading}
    (h : l.Apart readJson tree options entry n) : n ≤ 2 * tree.ways := by
  refine h.length_le.trans (FileTree.length_le_of_distinct (fun p hp ↦ ?_) (h.distinct.imp ?_))
  · have hclean := isCleanFile_of_reached hplain hentry (h.reached p hp)
    exact ⟨hclean.normal.isTame, hclean.isFile⟩
  · exact fun {p q} hpq heq ↦ Bool.eq_false_iff.mp hpq (same_iff.mpr heq)

theorem visit_ne_endless (rounds : Nat) {n : Nat} {l : Loading} {path : Path}
    (h : l.Apart readJson tree options entry n) (hpath : Reached readJson tree options entry path)
    (hroom : 2 * tree.ways < n + rounds) (other : Path) :
    visit readJson tree options rounds l path ≠ .error (.endless other) := by
  intro hvisit
  induction rounds generalizing n l path with
  | zero =>
      have hle := h.length_seen_le hplain hentry
      omega
  | succ more ih =>
      unfold visit at hvisit
      split at hvisit
      · cases hvisit
      next hnew =>
        cases hread : readUnit readJson tree options path with
        | error fault =>
            rw [hread] at hvisit
            cases hvisit
            exact (readUnit_eq_error hread).2 other rfl
        | ok u =>
            rw [hread] at hvisit
            have htargets (target : Path)
                (htarget : target ∈ dependencies readJson tree options u) :
                Reached readJson tree options entry target :=
              hpath.step hread ((mem_dependencies hread).mp htarget)
            cases hfold :
              (dependencies readJson tree options u).foldlM (visit readJson tree options more)
                { l with seen := path :: l.seen } with
            | ok next =>
                simp only [bind, Except.bind, hfold] at hvisit
                cases hvisit
            | error fault =>
                simp only [bind, Except.bind, hfold] at hvisit
                cases hvisit
                obtain ⟨m, target, hm, htarget, herror⟩ := exists_of_foldlM_error
                  (fun m target m' htarget hm hok ↦
                    hm.visit more (htargets target htarget) hok) (h.opened hnew hpath) hfold
                exact ih hm (htargets target htarget) (by omega) herror

end

/-! ## Loading -/

/-- Two paths that differ also without dots; they lead to one file only if one of them begins with
two dots at the root and the other does not. -/
def FilesApart (tree : FileTree) (p q : Path) : Prop :=
  p.normalize.same q.normalize = false ∧
    (tree.canonical p = tree.canonical q → (p.IsAboveRoot ↔ ¬q.IsAboveRoot))

theorem filesApart_of_isCleanFile {p q : Path} (hp : tree.IsCleanFile p) (hq : tree.IsCleanFile q)
    (hne : p.same q = false) : FilesApart tree p q := by
  have hcomponents : p.components ≠ q.components := fun heq ↦
    Bool.eq_false_iff.mp hne (same_iff.mpr heq)
  refine ⟨Bool.eq_false_iff.mpr fun hsame ↦ hcomponents ?_, fun hcanonical ↦ ?_⟩
  · rw [← hp.components_normalize, ← hq.components_normalize]
    exact same_iff.mp hsame
  · obtain ⟨t, -, ht, -⟩ := FileTree.exists_of_isFile hp.isFile
    obtain ⟨t', -, ht', -⟩ := FileTree.exists_of_isFile hq.isFile
    exact FileTree.isAboveRoot_of_canonical hp.toIsClean hq.toIsClean ht ht' hcanonical hcomponents

theorem isCleanFile_canonical (h : tree.isFile entry = true) :
    tree.IsCleanFile (tree.canonical entry) := by
  obtain ⟨t, -, ht, -⟩ := FileTree.exists_of_isFile h
  exact ⟨FileTree.isClean_canonical ht, (alikeFiles_canonical h).second_isFile⟩

theorem IsClosure.distinct {p : Program} (h : p.IsClosure readJson tree options entry) :
    p.units.toList.Pairwise fun u v ↦ u.path.same v.path = false := by
  refine List.pairwise_iff_getElem.mpr fun i j hi hj hlt ↦ ?_
  have hplace := h.place j _ (Array.getElem?_eq_getElem (by simpa using hj))
  obtain ⟨_, _, hbefore⟩ := Array.findIdx?_eq_some_iff_getElem.mp hplace
  simpa using hbefore i hlt

theorem isPlain_of_readUnit (h : tree.IsPlain) {path : Path} {u : SourceUnit}
    (hread : readUnit readJson tree options path = .ok u) : u.tree.IsPlain := by
  obtain ⟨-, htext, hparsed, -⟩ := readUnit_eq_ok hread
  exact h u.text (FileTree.mem_texts_of_read? htext) u.tree (by rw [hparsed]; rfl)

/-- No two paths that loading meets are the same. If the names of packages are plain in all files
that the entry leads to, they lead to different files, but for two dots at the root; loading ends,
and its units are different files in this sense. -/
theorem pairwise_seen (readJson : String → Option Json) (tree : FileTree)
    (options : CompilerOptions) (entry : Path) :
    (∀ l : Loading, l.IsPoint readJson tree options entry → l.seen.Pairwise fun p q ↦
      p.same q = false) ∧
      ((∀ path u, Reached readJson tree options (tree.canonical entry) path →
          readUnit readJson tree options path = .ok u → u.tree.IsPlain) →
        (∀ l : Loading, l.IsPoint readJson tree options entry →
          l.seen.Pairwise (FilesApart tree)) ∧
          (∀ path, load readJson tree options entry ≠ .error (.endless path)) ∧
          ∀ p, load readJson tree options entry = .ok p →
            p.units.toList.Pairwise fun u v ↦ FilesApart tree u.path v.path) := by
  have hpoint (l : Loading) (hl : l.IsPoint readJson tree options entry) :
      l.Apart readJson tree options (tree.canonical entry) 0 :=
    Loading.Apart.passes hl.2 .empty .entry
  refine ⟨fun l hl ↦ (hpoint l hl).distinct, fun hplain ↦
    ⟨fun l hl ↦ ?_, fun path hload ↦ ?_,
    fun p hload ↦ ?_⟩⟩
  · have hentry := isCleanFile_canonical hl.1
    have hl := hpoint l hl
    refine hl.distinct.imp_of_mem fun {p q} hp hq hne ↦ ?_
    exact filesApart_of_isCleanFile (isCleanFile_of_reached hplain hentry (hl.reached p hp))
      (isCleanFile_of_reached hplain hentry (hl.reached q hq)) hne
  · unfold load at hload
    split at hload
    next hfile =>
      have hends := visit_ne_endless hplain (isCleanFile_canonical hfile) (chainLimit tree) .empty
        .entry (by unfold chainLimit; omega) path
      cases hvisit :
        visit readJson tree options (chainLimit tree) ⟨[], #[]⟩ (tree.canonical entry) with
      | ok l =>
          rw [hvisit] at hload
          cases hload
      | error fault =>
          rw [hvisit] at hload hends
          cases hload
          exact hends rfl
    next => cases hload
  · have hdistinct := (isClosure_of_load hload).distinct
    unfold load at hload
    split at hload
    next hfile =>
      obtain ⟨l, hvisit, hload⟩ := except_bind_eq_ok.mp hload
      cases hload
      have hentry := isCleanFile_canonical hfile
      have hl := hpoint l ⟨hfile, .finish hvisit⟩
      have hclean (u : SourceUnit) (hu : u ∈ l.units.toList) : tree.IsCleanFile u.path :=
        isCleanFile_of_reached hplain hentry (hl.loaded u (Array.mem_def.mpr hu))
      exact hdistinct.imp_of_mem fun {u v} hu hv ↦
        filesApart_of_isCleanFile (hclean u hu) (hclean v hv)
    next => cases hload

/-- A package that is found under two spellings, and a file that is found behind two dots at
the root as well. -/
def detoured : FileTree := .directory [
  ("a.ts", .file (some
    "import 'p/./sub'\nimport './node_modules/p/lib/../sub'\nimport '../b'\nimport './b'")),
  ("b.ts", .file (some "")),
  ("node_modules", .directory [("p", .directory [
    ("lib", .directory []), ("sub.d.ts", .file (some ""))])])]

theorem pairwise_seen_detoured : detoured.IsPlain ∧
    (∀ l : Loading, l.IsPoint (fun _ ↦ none) detoured .default ⟨"/a.ts"⟩ →
      l.seen.Pairwise (FilesApart detoured)) ∧
      (∀ path, load (fun _ ↦ none) detoured .default ⟨"/a.ts"⟩ ≠
        .error (.endless path)) ∧
      (∀ p, load (fun _ ↦ none) detoured .default ⟨"/a.ts"⟩ = .ok p →
        p.units.toList.Pairwise fun u v ↦ FilesApart detoured u.path v.path) ∧
      (load (fun _ ↦ none) detoured .default ⟨"/a.ts"⟩).toOption.map
        (fun p ↦ p.units.map (·.path.text)) =
        some #["/node_modules/p/./sub.d.ts", "/../b.ts", "/b.ts", "/a.ts"] := by
  have hplain : detoured.IsPlain := by decide +kernel
  obtain ⟨hseen, hends, hunits⟩ :=
    (pairwise_seen (fun _ ↦ none) detoured .default ⟨"/a.ts"⟩).2
    fun _ _ _ hread ↦ isPlain_of_readUnit hplain hread
  exact ⟨hplain, hseen, hends, hunits, by decide +kernel⟩

/-- The subpath of a package is not normalized, so that two dots in it give the file
a second path. -/
example :
    let tree : FileTree := .directory [
      ("a.ts", .file (some "import 'p/sub'\nimport 'p/lib/../sub'")),
      ("node_modules", .directory [("p", .directory [
        ("lib", .directory []), ("sub.d.ts", .file (some ""))])])]
    (load (fun _ ↦ none) tree .default ⟨"/a.ts"⟩).toOption.map
      (fun p ↦ p.units.map (·.path.text)) =
      some #["/node_modules/p/sub.d.ts", "/node_modules/p/lib/../sub.d.ts", "/a.ts"] := by
  decide +kernel

end PluginSurface.Program
