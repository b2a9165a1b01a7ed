import PluginSurface.Proofs.FileTree.Files
import PluginSurface.Proofs.Program.Lookups

/-!
# Looking for files from a clean directory

Relative specifiers, typings, export maps and path directives are normalized, so they lead to clean
paths from any directory; the subpath of a package and the name in a `types` directive are joined as
they are written, so they lead to clean paths if they are level.
-/

namespace PluginSurface

open PluginSurface.Path

/-- No stretch of the name of a package is two dots, or becomes two dots in the name under which the
declarations for it are published. -/
def Resolve.IsPlain (name : String) : Prop :=
  ∀ s ∈ stretches name.toList, s ≠ ['.', '.'] ∧ s ≠ ['@', '.', '.']

/-- The name in a `types` directive is plain. -/
def Reference.IsPlain : Reference → Prop
  | path _ => True
  | types name => Resolve.IsPlain name

/-- Names of packages, in specifiers and directives, are plain. -/
structure SourceFile.IsPlain (file : SourceFile) : Prop where
  specifiers : ∀ s ∈ file.specifiers, Resolve.isRelative s = false → Resolve.IsPlain s
  references : ∀ r ∈ file.references, r.IsPlain

/-- All source files of the tree have plain names of packages. -/
def FileTree.IsPlain (tree : FileTree) : Prop :=
  ∀ text ∈ tree.texts, ∀ file ∈ (SourceFile.ofSource text).toOption, file.IsPlain

instance (name : String) : Decidable (Resolve.IsPlain name) :=
  inferInstanceAs (Decidable (∀ s ∈ stretches name.toList, _))

instance (r : Reference) : Decidable r.IsPlain :=
  match r with
  | .path _ => .isTrue trivial
  | .types name => inferInstanceAs (Decidable (Resolve.IsPlain name))

instance (file : SourceFile) : Decidable file.IsPlain :=
  decidable_of_iff ((∀ s ∈ file.specifiers, Resolve.isRelative s = false →
    Resolve.IsPlain s) ∧
    ∀ r ∈ file.references, r.IsPlain) ⟨fun h ↦ ⟨h.1, h.2⟩, fun h ↦
      ⟨h.specifiers, h.references⟩⟩

instance (tree : FileTree) : Decidable tree.IsPlain :=
  inferInstanceAs (Decidable
    (∀ text ∈ tree.texts, ∀ file ∈ (SourceFile.ofSource text).toOption, _))

namespace Resolve

/-! ## Plain names -/

theorem IsPlain.isLevel {name : String} (h : IsPlain name) : IsLevel name := fun s hs ↦ (h s hs).1

theorem isPlain_splitPackage {name : String} (h : IsPlain name) :
    IsPlain (splitPackage name).1 ∧ ∀ sub ∈ (splitPackage name).2, IsLevel sub := by
  obtain ⟨front, back, hstretches, hfront, hback⟩ := stretches_splitPackage name
  rw [IsPlain, hstretches] at h
  refine ⟨?_, fun sub hsub ↦ ?_⟩
  · rw [IsPlain, hfront]
    exact fun s hs ↦ h s (List.mem_append_left _ hs)
  · rw [IsLevel, hback sub hsub]
    exact fun s hs ↦ (h s (List.mem_append_right _ hs)).1

theorem isLevel_typesName {name : String} (h : IsPlain name) : IsLevel (typesName name) := by
  intro s hs
  rcases typesName_cases name with hsame | ⟨rest, hrest, hname, htypes⟩ |
    ⟨scope, package, more, hstretches, htypes⟩
  · rw [hsame] at hs
    exact (h s hs).1
  · rw [htypes, String.toList_ofList, stretches_of_not_mem hrest, List.mem_singleton] at hs
    have hwhole : '@' :: rest ∈ stretches name.toList := by
      rw [hname, stretches_of_not_mem (by simp [hrest])]
      exact List.mem_singleton_self _
    rw [hs]
    rintro rfl
    exact (h _ hwhole).2 rfl
  · rw [htypes] at hs
    rcases List.mem_cons.mp hs with rfl | hs
    · intro hdots
      have hmem : '_' ∈ ['.', '.'] := hdots ▸ by simp
      exact absurd hmem (by decide)
    · exact (h s (hstretches ▸ by simp [hs])).1

end Resolve

/-! ## Files that are found -/

/-- A clean path to a file. -/
structure FileTree.IsCleanFile (tree : FileTree) (p : Path) : Prop extends p.IsClean where
  isFile : tree.isFile p = true

namespace FileTree.IsCleanFile

variable {tree : FileTree} {p : Path}

theorem alike (h : tree.IsCleanFile p) : tree.AlikeFiles p p :=
  ⟨⟨h.absolute, h.absolute, rfl, h.normal.isTame⟩, h.isFile, h.isFile⟩

theorem directory (h : tree.IsCleanFile p) : p.directory.IsClean := by
  have habsolute := h.alike.directory.first
  unfold Path.directory Path.parent? at habsolute ⊢
  cases hparents : p.parents with
  | nil =>
      rw [hparents] at habsolute
      cases habsolute
  | cons q rest => exact h.of_mem_ancestors (by simp [ancestors, hparents])

end FileTree.IsCleanFile

namespace Resolve

/-- If a file is found, its path is clean. -/
def FindsClean (tree : FileTree) (found : Option Path) : Prop := ∀ p ∈ found, tree.IsCleanFile p

variable {readJson : String → Option Json} {tree : FileTree} {options : CompilerOptions}
  {p : Path}

namespace FindsClean

variable {found other : Option Path}

theorem orElse (h : FindsClean tree found) (h' : FindsClean tree other) :
    FindsClean tree (found <|> other) := by
  cases found with
  | none => exact h'
  | some p => exact h

theorem bind {α : Type} {o : Option α} {f : α → Option Path}
    (h : ∀ a, FindsClean tree (f a)) : FindsClean tree (o >>= f) := by
  cases o with
  | none => exact nofun
  | some a => exact h a

theorem findSome? {ps : List Path} {f : Path → Option Path}
    (h : ∀ p ∈ ps, FindsClean tree (f p)) : FindsClean tree (ps.findSome? f) := by
  intro q hq
  obtain ⟨p, hp, hq⟩ := List.exists_of_findSome?_eq_some hq
  exact h p hp q hq

theorem find? {ps : List Path} (h : ∀ p ∈ ps, p.IsClean) :
    FindsClean tree (ps.find? tree.isFile) :=
  fun q hq ↦ ⟨h q (List.mem_of_find?_eq_some hq), List.find?_some hq⟩

end FindsClean

theorem isClean_of_mem_fileCandidates (hp : p.IsClean) : ∀ q ∈ fileCandidates p, q.IsClean := by
  obtain ⟨parts, hne, hparts, hpath⟩ := exists_rooted hp.absolute
  obtain ⟨front, last, rfl⟩ := (List.eq_nil_or_concat' parts).resolve_left hne
  have hfront : ∀ s ∈ front, '/' ∉ s := fun s hs ↦ hparts s (List.mem_append_left _ hs)
  have hlast : '/' ∉ last := hparts last (by simp)
  intro q hq
  rw [hpath, ← String.toList_ofList (l := last), fileCandidates_rooted] at hq
  obtain ⟨c, hc, rfl⟩ := List.mem_map.mp hq
  exact hp.rooted_concat hfront hlast hpath
    (isName_of_mem_fileCandidates (String.toList_ofList.symm ▸ hlast) hc)

theorem findsClean_file? (hp : p.IsClean) : FindsClean tree (file? tree p) :=
  .find? (isClean_of_mem_fileCandidates hp)

theorem findsClean_index? (hp : p.IsClean) : FindsClean tree (index? tree p) := by
  refine .find? fun q hq ↦ ?_
  obtain ⟨e, he, rfl⟩ := List.mem_map.mp hq
  have hlevel : ∀ e ∈ endings, IsLevel ("index" ++ e) := by decide
  exact hp.join (hlevel e he)

theorem findsClean_exported? (hp : p.isAbsolute = true) (subpath : String) :
    FindsClean tree (exported? readJson tree options p subpath) :=
  .bind fun _ ↦ .bind fun _ ↦ .bind fun _ ↦ .bind fun _ ↦
    findsClean_file? (isClean_normalize (isAbsolute_join hp _))

theorem findsClean_typings? (hp : p.isAbsolute = true) (manifest : Json) :
    FindsClean tree (typings? tree p manifest) := by
  refine .bind fun typings ↦ ?_
  have htarget := isClean_normalize (isAbsolute_join hp ⟨typings⟩)
  exact .orElse (findsClean_file? htarget) (findsClean_index? htarget)

theorem findsClean_directory? (hp : p.IsClean) :
    FindsClean tree (directory? readJson tree options p) :=
  .bind fun _ ↦ .orElse
    (.bind fun manifest ↦
      .orElse (findsClean_exported? hp.absolute ".") (findsClean_typings? hp.absolute manifest))
    (findsClean_index? hp)

theorem findsClean_inPackage? (hp : p.IsClean) {subpath : Option String}
    (hsub : ∀ sub ∈ subpath, IsLevel sub) :
    FindsClean tree (inPackage? readJson tree options p subpath) := by
  refine .bind fun _ ↦ ?_
  cases subpath with
  | none => exact findsClean_directory? hp
  | some sub =>
      have htarget := hp.join (hsub sub rfl)
      exact .orElse (findsClean_exported? hp.absolute _)
        (.orElse (findsClean_file? htarget) (findsClean_directory? htarget))

theorem isClean_published (hp : p.IsClean) {name : String} (hname : IsPlain name) :
    (((p.join ⟨"node_modules"⟩).join ⟨"@types"⟩).join ⟨typesName name⟩).IsClean :=
  ((hp.join (by decide)).join (by decide)).join (isLevel_typesName hname)

theorem findsClean_packageAt? {name : String} (hname : IsPlain name) (hp : p.IsClean) :
    FindsClean tree (packageAt? readJson tree options name p) := by
  obtain ⟨hpackage, hsub⟩ := isPlain_splitPackage hname
  rw [packageAt?_eq]
  split
  · have hmodules : (p.join ⟨"node_modules"⟩).IsClean := hp.join (by decide)
    exact .orElse (findsClean_inPackage? (hmodules.join hpackage.isLevel) hsub)
      (findsClean_inPackage? (isClean_published hp hpackage) hsub)
  · exact nofun

theorem findsClean_package? {name : String} (hname : IsPlain name) (hp : p.IsClean) :
    FindsClean tree (package? readJson tree options name p) :=
  .findSome? fun _ hdir ↦ findsClean_packageAt? hname (hp.of_mem_ancestors hdir)

theorem findsClean_module? {specifier : String}
    (hs : isRelative specifier = false → IsPlain specifier) (hp : p.IsClean) :
    FindsClean tree (module? readJson tree options specifier p) := by
  unfold module?
  split
  · have hbase := isClean_normalize (isAbsolute_join hp.absolute ⟨specifier⟩)
    exact .orElse (findsClean_file? hbase) (findsClean_directory? hbase)
  next hrelative => exact findsClean_package? (hs (Bool.eq_false_iff.mpr hrelative)) hp

theorem findsClean_types? {name : String} (hname : IsPlain name) (hp : p.IsClean) :
    FindsClean tree (types? readJson tree options name p) :=
  .orElse
    (.findSome? fun _ hdir ↦
      findsClean_directory? (isClean_published (hp.of_mem_ancestors hdir) hname))
    (findsClean_package? hname hp)

theorem findsClean_reference? {reference : Reference} (hr : reference.IsPlain) (hp : p.IsClean) :
    FindsClean tree (Program.reference? readJson tree options p reference) := by
  cases reference with
  | path value =>
      unfold Program.reference?
      dsimp only
      split
      next hfile =>
        rintro _ ⟨⟩
        exact ⟨isClean_normalize (isAbsolute_join hp.absolute _), hfile⟩
      next => exact nofun
  | types name => exact findsClean_types? hr hp

end Resolve

end PluginSurface
