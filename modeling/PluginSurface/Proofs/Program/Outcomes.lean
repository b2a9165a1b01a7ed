import PluginSurface.Proofs.FileTree.Files
import PluginSurface.Proofs.Program.DepthFirst
import PluginSurface.Proofs.Program.Lookups

/-!
# How loading ends

In a tidy tree all files that an entry leads to have tame paths, and what a file leads to does not
depend on how its path is written. There are no more tame ways to a file than the length up to which
chains are followed, so no chain is cut off: loading fails only where a file is at fault.
-/

namespace PluginSurface

open PluginSurface.Path

/-- Names of packages, in specifiers and directives, are tidy. -/
structure SourceFile.IsTidy (file : SourceFile) : Prop where
  specifiers : ∀ s ∈ file.specifiers, Resolve.isRelative s = false → Tidy s
  references : ∀ r ∈ file.references, r.IsTidy

/-- All source files of the tree are tidy. -/
def FileTree.IsTidy (tree : FileTree) : Prop :=
  ∀ text ∈ tree.texts, ∀ file ∈ (SourceFile.ofSource text).toOption, file.IsTidy

instance (name : String) : Decidable (Tidy name) :=
  inferInstanceAs (Decidable (∀ s ∈ stretches name.toList, _))

instance (r : Reference) : Decidable r.IsTidy :=
  match r with
  | .path _ => .isTrue trivial
  | .types name => inferInstanceAs (Decidable (Tidy name))

instance (file : SourceFile) : Decidable file.IsTidy :=
  decidable_of_iff ((∀ s ∈ file.specifiers, Resolve.isRelative s = false → Tidy s) ∧
    ∀ r ∈ file.references, r.IsTidy) ⟨fun h ↦ ⟨h.1, h.2⟩, fun h ↦
      ⟨h.specifiers, h.references⟩⟩

instance (tree : FileTree) : Decidable tree.IsTidy :=
  inferInstanceAs (Decidable
    (∀ text ∈ tree.texts, ∀ file ∈ (SourceFile.ofSource text).toOption, _))

/-- There is no text at the path, or it does not parse. -/
def FileTree.IsFaulty (tree : FileTree) (path : Path) : Prop :=
  ∀ text, tree.read? path = some text → ∃ fault, SourceFile.ofSource text = .error fault

namespace Program

variable {readJson : String → Option Json} {tree : FileTree} {options : CompilerOptions}
  {entry path target : Path}

/-- The files that an entry leads to through files that were read. -/
inductive Reached (readJson : String → Option Json) (tree : FileTree) (options : CompilerOptions)
    (entry : Path) : Path → Prop
  | entry : Reached readJson tree options entry entry
  | step {path target : Path} {u : SourceUnit} (h : Reached readJson tree options entry path)
      (hread : readUnit readJson tree options path = .ok u)
      (htarget : u.Targets readJson tree options target) :
      Reached readJson tree options entry target

theorem readUnit_eq_error {e : LoadError} (h : readUnit readJson tree options path = .error e) :
    tree.IsFaulty path ∧ ∀ other, e ≠ .endless other := by
  unfold readUnit at h
  split at h
  next text hread =>
    cases hfile : SourceFile.ofSource text with
    | error fault =>
        rw [hfile] at h
        cases h
        refine ⟨fun other hother ↦ ⟨fault, ?_⟩, fun _ ↦ nofun⟩
        rw [hread] at hother
        cases hother
        exact hfile
    | ok file =>
        rw [hfile] at h
        cases h
  next hread =>
    cases h
    exact ⟨fun text htext ↦ (hread text htext).elim, fun _ ↦ nofun⟩

/-! ## Units with tame paths -/

theorem isAbsolute_of_same {p q : Path} (hp : p.isAbsolute = true) (h : p.same q = true) :
    q.isAbsolute = true := by
  have hsame := same_iff.mp h
  rw [components_eq hp] at hsame
  by_contra hq
  have hroot : Component.root ∈ q.components := hsame ▸ List.mem_cons_self
  rw [components, if_neg hq] at hroot
  rcases List.mem_append.mp hroot with hmem | hmem
  · split at hmem <;> simp at hmem
  · rcases isPart_of_mem_filterMap hmem with hpart | ⟨n, hpart, -⟩ <;> cases hpart

theorem alikeFiles_of_same {p q : Path} (h : tree.AlikeFiles p p) (hsame : p.same q = true)
    (hq : tree.isFile q = true) : tree.AlikeFiles p q :=
  ⟨⟨h.first, isAbsolute_of_same h.first hsame, same_iff.mp hsame, h.tame⟩,
    h.first_isFile, hq⟩

/-- The unit is a file of the tree. -/
structure IsUnit (tree : FileTree) (u : SourceUnit) : Prop where
  read : tree.read? u.path = some u.text
  parsed : SourceFile.ofSource u.text = .ok u.tree

theorem isUnit_of_readUnit {u : SourceUnit} (h : readUnit readJson tree options path = .ok u) :
    IsUnit tree u := by
  obtain ⟨rfl, hread, hparsed, -⟩ := readUnit_eq_ok h
  exact ⟨hread, hparsed⟩

theorem exists_of_rel {α β : Type} {R : α → β → Prop} {a : α} {o : Option β}
    (h : Option.Rel R (some a) o) : ∃ b, o = some b ∧ R a b := by
  cases h with
  | some h => exact ⟨_, rfl, h⟩

section

variable (htidy : tree.IsTidy)

include htidy

/-- What a file leads to, it leads to under any spelling of its path. -/
theorem exists_alike_target {u v : SourceUnit} (hu : IsUnit tree u) (htree : v.tree = u.tree)
    (h : tree.AlikeFiles u.path v.path) (htarget : u.Targets readJson tree options target) :
    ∃ target', tree.AlikeFiles target target' ∧ v.Targets readJson tree options target' := by
  have hfile : u.tree.IsTidy := htidy u.text (FileTree.mem_texts_of_read? hu.read) u.tree (by
    rw [hu.parsed]
    rfl)
  rcases htarget with ⟨r, hr, htarget⟩ | ⟨s, hs, htarget⟩
  · have hrel : Option.Rel tree.AlikeFiles (reference? readJson tree options u.path.directory r)
        (reference? readJson tree options v.path.directory r) :=
      FileTree.alike_reference? (hfile.references r hr) h.directory
    rw [htarget] at hrel
    obtain ⟨target', htarget', halike⟩ := exists_of_rel hrel
    exact ⟨target', halike, .inl ⟨r, htree ▸ hr, htarget'⟩⟩
  · have hrel :
        Option.Rel tree.AlikeFiles (Resolve.module? readJson tree options s u.path.directory)
        (Resolve.module? readJson tree options s v.path.directory) :=
      FileTree.alike_module? (hfile.specifiers s hs) h.directory
    rw [htarget] at hrel
    obtain ⟨target', htarget', halike⟩ := exists_of_rel hrel
    exact ⟨target', halike, .inr ⟨s, htree ▸ hs, htarget'⟩⟩

theorem alike_of_target {u : SourceUnit} (hu : IsUnit tree u)
    (h : tree.AlikeFiles u.path u.path) (htarget : u.Targets readJson tree options target) :
    tree.AlikeFiles target target := by
  obtain ⟨target', halike, -⟩ := exists_alike_target htidy hu rfl h htarget
  exact ⟨halike.toAlike.left, halike.first_isFile, halike.first_isFile⟩

theorem alike_of_reaches {units : List SourceUnit} (hunits : ∀ u ∈ units, IsUnit tree u)
    {u v : SourceUnit} (h : u.Reaches readJson tree options units v)
    (hu : tree.AlikeFiles u.path u.path) : tree.AlikeFiles v.path v.path := by
  induction h with
  | refl => exact hu
  | tail _ hstep ih =>
      obtain ⟨hfrom, hto, path, htarget, hsame⟩ := hstep
      have hpath := alike_of_target htidy (hunits _ hfrom) ih htarget
      have hfile := FileTree.isFile_of_read? (hunits _ hto).read
      have halike := alikeFiles_of_same hpath hsame hfile
      exact ⟨halike.toAlike.symm.left, hfile, hfile⟩

/-! ## Faults -/

namespace Loading

variable {outermost : SourceUnit} {opened : List SourceUnit} {l : Loading}

omit htidy in
theorem Sound.foldlM_error {visit : Loading → Path → Except LoadError Loading}
    {inner : SourceUnit}
    (hvisit : ∀ l path l', l.Sound readJson tree options outermost opened →
      inner.Targets readJson tree options path →
      visit l path = .ok l' → l'.Sound readJson tree options outermost opened ∧
      l.Grows l' ∧ l'.Met path)
    {paths : List Path} (hpaths : ∀ path ∈ paths, inner.Targets readJson tree options path)
    (h : l.Sound readJson tree options outermost opened) {e : LoadError}
    (hfold : paths.foldlM visit l = .error e) :
    ∃ l' path, l'.Sound readJson tree options outermost opened ∧ path ∈ paths ∧
    visit l' path = .error e :=
  exists_of_foldlM_error
    (fun l path l' hpath hl hok ↦ (hvisit l path l' hl (hpaths path hpath) hok).1) h hfold

/-- The open units are different files with tame paths, so there cannot be many. -/
theorem Sound.length_opened_le (h : l.Sound readJson tree options outermost opened)
    (hfirst : tree.AlikeFiles outermost.path outermost.path) :
    opened.length ≤ 2 * tree.ways := by
  have hunits : ∀ u ∈ l.known opened, IsUnit tree u :=
    fun u hu ↦ isUnit_of_readUnit (h.read u hu)
  have hopened : (opened.map (·.path)).length ≤ 2 * tree.ways := by
    refine FileTree.length_le_of_distinct ?_ ?_
    · intro path hpath
      obtain ⟨u, hu, rfl⟩ := List.mem_map.mp hpath
      have halike :=
        alike_of_reaches htidy hunits (h.reached u (List.mem_append_left _ hu)) hfirst
      exact ⟨halike.tame, halike.first_isFile⟩
    · refine List.pairwise_map.mpr (h.distinct.sublist (List.sublist_append_left _ _) |>.imp ?_)
      exact fun {u v} hdistinct hsame ↦ Bool.eq_false_iff.mp hdistinct (same_iff.mpr hsame)
  rwa [List.length_map] at hopened

/-- A visit that fails comes to a file at fault, as long as there is room for all open units. -/
theorem exists_of_visit_error (rounds : Nat) {inner : SourceUnit}
    (h : l.Sound readJson tree options outermost opened)
    (hfirst : tree.AlikeFiles outermost.path outermost.path) (hinner : opened.head? = some inner)
    (hreached : Reached readJson tree options entry inner.path)
    (htarget : inner.Targets readJson tree options path)
    (hroom : 2 * tree.ways < opened.length + rounds) {e : LoadError}
    (hvisit : visit readJson tree options rounds l path = .error e) :
    ∃ faulty, Reached readJson tree options entry faulty ∧
    readUnit readJson tree options faulty = .error e := by
  have hmem : inner ∈ l.known opened := List.mem_append_left _ (List.mem_of_head? hinner)
  have hpath := hreached.step (h.read inner hmem) htarget
  induction rounds generalizing opened l path inner with
  | zero =>
      have hle := h.length_opened_le htidy hfirst
      omega
  | succ more ih =>
      unfold visit at hvisit
      split at hvisit
      · cases hvisit
      next hnew =>
        cases hread : readUnit readJson tree options path with
        | error fault =>
            rw [hread] at hvisit
            cases hvisit
            exact ⟨path, hpath, hread⟩
        | ok u =>
            rw [hread] at hvisit
            have hopen := h.opening hnew hinner htarget hread
            obtain ⟨hupath, -, -, -⟩ := readUnit_eq_ok hread
            subst hupath
            cases hfold :
              (dependencies readJson tree options u).foldlM (visit readJson tree options more)
                { l with seen := u.path :: l.seen } with
            | ok next =>
                simp only [bind, Except.bind, hfold] at hvisit
                cases hvisit
            | error fault =>
                simp only [bind, Except.bind, hfold] at hvisit
                cases hvisit
                obtain ⟨l', other, hl', hother, herror⟩ := hopen.foldlM_error
                  (fun _ _ _ hl htarget ↦ sound_of_visit more hl rfl htarget)
                  (fun path hpath ↦ (mem_dependencies hread).mp hpath) hfold
                have hother := (mem_dependencies hread).mp hother
                refine ih hl' rfl hpath hother ?_ herror ?_ ?_
                · rw [List.length_cons]
                  omega
                · exact List.mem_append_left _ List.mem_cons_self
                · exact hpath.step hread hother

end Loading

omit htidy in
theorem alikeFiles_canonical (h : tree.isFile entry = true) :
    tree.AlikeFiles (tree.canonical entry) (tree.canonical entry) := by
  obtain ⟨t, -, ht, -⟩ := FileTree.exists_of_isFile h
  have hfile : tree.isFile (tree.canonical entry) = true := by
    rw [FileTree.isFile, FileTree.node?_canonical ht]
    exact h
  exact ⟨FileTree.alike_canonical ht, hfile, hfile⟩

theorem load_eq_error {e : LoadError} (h : load readJson tree options entry = .error e) :
    (tree.isFile entry = false ∧ e = .entryNotFound entry) ∨
      ∃ faulty, Reached readJson tree options (tree.canonical entry) faulty ∧
        readUnit readJson tree options faulty = .error e := by
  unfold load at h
  split at h
  next hfile =>
    refine .inr ?_
    obtain ⟨rounds, hrounds⟩ : ∃ rounds, chainLimit tree = rounds + 1 :=
      Nat.exists_eq_succ_of_ne_zero (by simp [chainLimit])
    have hroom : 2 * tree.ways < 1 + rounds := by
      unfold chainLimit at hrounds
      omega
    cases hvisit :
      visit readJson tree options (chainLimit tree) ⟨[], #[]⟩ (tree.canonical entry) with
    | ok l =>
        rw [hvisit] at h
        cases h
    | error fault =>
        rw [hvisit] at h
        cases h
        rw [hrounds] at hvisit
        unfold visit at hvisit
        cases hread : readUnit readJson tree options (tree.canonical entry) with
        | error other =>
            rw [hread] at hvisit
            cases hvisit
            exact ⟨_, .entry, hread⟩
        | ok u =>
            rw [hread] at hvisit
            have hpath := (readUnit_eq_ok hread).1
            have hfirst : tree.AlikeFiles u.path u.path := hpath ▸ alikeFiles_canonical hfile
            have hreached : Reached readJson tree options (tree.canonical entry) u.path :=
              hpath ▸ .entry
            cases hfold :
              (dependencies readJson tree options u).foldlM (visit readJson tree options rounds)
                ⟨[tree.canonical entry], #[]⟩ with
            | ok next =>
                simp only [bind, Except.bind, List.any_nil, hfold] at hvisit
                cases hvisit
            | error other =>
                simp only [bind, Except.bind, List.any_nil, hfold] at hvisit
                cases hvisit
                obtain ⟨l', target, hl', htarget, herror⟩ :=
                  (Loading.sound_first hread).foldlM_error
                  (fun _ _ _ hl htarget ↦ Loading.sound_of_visit rounds hl rfl htarget)
                  (fun path hpath ↦ (mem_dependencies hread).mp hpath) hfold
                exact Loading.exists_of_visit_error htidy rounds hl' hfirst rfl hreached
                  ((mem_dependencies hread).mp htarget) hroom herror
  next hfile =>
    cases h
    exact .inl ⟨Bool.eq_false_iff.mpr hfile, rfl⟩

/-- Whatever is reached from the entry of a loaded program is one of its units. -/
theorem IsClosure.exists_unit {p : Program} (h : p.IsClosure readJson tree options entry)
    (hentry : Alike entry entry) (hreached : Reached readJson tree options entry path) :
    ∃ v ∈ p.units, tree.AlikeFiles path v.path := by
  have hunits : ∀ u ∈ p.units.toList, IsUnit tree u := fun u hu ↦
    ⟨(h.read u (Array.mem_def.mpr hu)).1, (h.read u (Array.mem_def.mpr hu)).2⟩
  obtain ⟨first, hfirst, hpath, hreaches⟩ := h.last
  have hmem : first ∈ p.units := Array.mem_of_back? hfirst
  have hfile := FileTree.isFile_of_read? (h.read first hmem).1
  have hstart : tree.AlikeFiles first.path first.path := ⟨hpath ▸ hentry, hfile, hfile⟩
  induction hreached with
  | entry => exact ⟨first, hmem, hpath ▸ hstart⟩
  | step _ hread htarget ih =>
      obtain ⟨v, hv, halike⟩ := ih
      obtain ⟨hupath, huread, huparsed, -⟩ := readUnit_eq_ok hread
      subst hupath
      have hvunit := hunits v (Array.mem_def.mp hv)
      have htext := hvunit.read
      rw [← halike.read?_eq, huread] at htext
      have hparsed := hvunit.parsed
      rw [← Option.some.inj htext, huparsed] at hparsed
      obtain ⟨target', htarget', hv'⟩ := exists_alike_target htidy ⟨huread, huparsed⟩
        (Except.ok.inj hparsed).symm halike htarget
      obtain ⟨i, hi⟩ := Option.isSome_iff_exists.mp (h.closed v hv target' hv')
      obtain ⟨hlt, hsame, -⟩ := Array.findIdx?_eq_some_iff_getElem.mp hi
      have hw : p.units[i] ∈ p.units := Array.getElem_mem hlt
      have hback : target'.same p.units[i].path = true :=
        same_iff.mpr (same_iff.mp hsame).symm
      have hother := alikeFiles_of_same
        ⟨htarget'.toAlike.symm.left, htarget'.second_isFile, htarget'.second_isFile⟩ hback
        (FileTree.isFile_of_read? (h.read _ hw).1)
      exact ⟨_, hw, htarget'.toAlike.trans hother.toAlike, htarget'.first_isFile,
        hother.second_isFile⟩

omit htidy in
theorem not_isFaulty {p : Program} (h : p.IsClosure readJson tree options entry) {v : SourceUnit}
    (hv : v ∈ p.units) (halike : tree.AlikeFiles path v.path) : ¬tree.IsFaulty path := by
  intro hfaulty
  obtain ⟨hread, hparsed⟩ := h.read v hv
  obtain ⟨fault, hfault⟩ := hfaulty v.text (halike.read?_eq ▸ hread)
  rw [hparsed] at hfault
  cases hfault

end

/-- In a tidy tree loading ends. It gives the files that the entry leads to, in their order, unless
the entry is no file or one of these files is at fault. -/
theorem load_outcome (htidy : tree.IsTidy) (options : CompilerOptions) (entry : Path) :
    (∀ p, load readJson tree options entry = .ok p →
        p.IsClosure readJson tree options (tree.canonical entry)) ∧
      (∀ path, load readJson tree options entry ≠ .error (.endless path)) ∧
      ((∃ e, load readJson tree options entry = .error e) ↔ tree.isFile entry = false ∨
        ∃ path, Reached readJson tree options (tree.canonical entry) path ∧
        tree.IsFaulty path) := by
  refine ⟨fun p ↦ isClosure_of_load, fun path hendless ↦ ?_, fun ⟨e, he⟩ ↦
    ?_, fun hfault ↦ ?_⟩
  · rcases load_eq_error htidy hendless with ⟨-, he⟩ | ⟨faulty, -, he⟩
    · cases he
    · exact (readUnit_eq_error he).2 path rfl
  · rcases load_eq_error htidy he with ⟨hfile, -⟩ | ⟨faulty, hreached, he⟩
    · exact .inl hfile
    · exact .inr ⟨faulty, hreached, (readUnit_eq_error he).1⟩
  · cases hload : load readJson tree options entry with
    | error e => exact ⟨e, rfl⟩
    | ok p =>
        have hclosure := isClosure_of_load hload
        have hfile : tree.isFile entry = true := by
          by_contra hfile
          rw [load, if_neg hfile] at hload
          cases hload
        rcases hfault with hnone | ⟨path, hreached, hfaulty⟩
        · rw [hfile] at hnone
          cases hnone
        · obtain ⟨v, hv, halike⟩ :=
            hclosure.exists_unit htidy (alikeFiles_canonical hfile).toAlike hreached
          exact absurd hfaulty (not_isFaulty hclosure hv halike)

/-- Two files that import each other, and one of them itself as well and a package. -/
def around : FileTree := .directory [
  ("a.ts", .file (some
    "/// <reference types='p' />\nimport './b'\nimport './a'\nimport 'p/sub'")),
  ("b.ts", .file (some "import './a'")),
  ("node_modules", .directory [("p", .directory [
    ("index.d.ts", .file (some "")), ("sub.d.ts", .file (some ""))])])]

theorem load_outcome_around : around.IsTidy ∧
    ((∀ p, load (fun _ ↦ none) around .default ⟨"/a.ts"⟩ = .ok p →
        p.IsClosure (fun _ ↦ none) around .default (around.canonical ⟨"/a.ts"⟩)) ∧
      (∀ path, load (fun _ ↦ none) around .default ⟨"/a.ts"⟩ ≠ .error (.endless path)) ∧
      ((∃ e, load (fun _ ↦ none) around .default ⟨"/a.ts"⟩ = .error e) ↔
        around.isFile ⟨"/a.ts"⟩ = false ∨
        ∃ path, Reached (fun _ ↦ none) around .default (around.canonical ⟨"/a.ts"⟩) path ∧
          around.IsFaulty path)) ∧
    (load (fun _ ↦ none) around .default ⟨"/a.ts"⟩).toOption.map
      (fun p ↦ p.units.map (·.path.text)) =
        some #["/node_modules/p/index.d.ts", "/b.ts", "/node_modules/p/sub.d.ts", "/a.ts"] := by
  have htidy : around.IsTidy := by decide +kernel
  exact ⟨htidy, load_outcome htidy .default ⟨"/a.ts"⟩, by decide +kernel⟩

end Program

end PluginSurface
