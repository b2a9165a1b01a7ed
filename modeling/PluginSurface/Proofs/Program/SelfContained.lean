import PluginSurface.Program.Load
import PluginSurface.Proofs.Program.Manifests

/-!
# Folders that need nothing from outside

A folder encloses a specifier if whatever it stands for is looked for in the folder only, or if
there is nothing that it stands for. In two copies of a folder such specifiers stand for twins.
-/

namespace PluginSurface

open PluginSurface.Path

/-! ## Names of packages -/

namespace Resolve

theorem stretches_slashed {parts : List (List Char)} (hne : parts ≠ [])
    (hparts : ∀ s ∈ parts, '/' ∉ s) : stretches (slashed parts).toList = parts := by
  have h := stretches_append_flatMap hparts []
  rw [List.nil_append, ← slash_intercalate hne] at h
  simpa [slashed, stretches] using h

/-- The stretches of a specifier are those of the package and those inside it. -/
theorem splitPackage_cases (name : String) : ∃ front back : List (List Char), front ≠ [] ∧
    stretches name.toList = front ++ back ∧
      splitPackage name = (slashed front, if back = [] then none else some (slashed back)) := by
  have hsplit (n : Nat) (hn : n ≠ 0) : ∃ front back : List (List Char), front ≠ [] ∧
      stretches name.toList = front ++ back ∧
        (slashed ((stretches name.toList).take n), if (stretches name.toList).length ≤ n then none
          else some (slashed ((stretches name.toList).drop n))) =
        (slashed front, if back = [] then none else some (slashed back)) := by
    refine ⟨_, _, ?_, (List.take_append_drop n _).symm, ?_⟩
    · simp [hn, stretches_ne_nil]
    · simp only [List.drop_eq_nil_iff]
  unfold splitPackage
  dsimp only
  split <;> exact hsplit _ (by decide)

theorem stretches_splitPackage (name : String) : ∃ front back : List (List Char),
    stretches name.toList = front ++ back ∧ stretches (splitPackage name).1.toList = front ∧
      ∀ sub ∈ (splitPackage name).2, stretches sub.toList = back := by
  obtain ⟨front, back, hne, hstretches, hsplit⟩ := splitPackage_cases name
  have hsingle : ∀ s ∈ front ++ back, '/' ∉ s := fun s hs ↦
    not_mem_of_mem_stretches (hstretches ▸ hs)
  rw [hsplit]
  refine ⟨front, back, hstretches, ?_, fun sub hsub ↦ ?_⟩
  · exact stretches_slashed hne fun s hs ↦ hsingle s (List.mem_append_left _ hs)
  · split at hsub
    · cases hsub
    next hback =>
      cases hsub
      exact stretches_slashed hback fun s hs ↦ hsingle s (List.mem_append_right _ hs)

/-- A name leads nowhere up from where packages are, and not to the root. -/
structure LeadsDown (name : String) : Prop where
  relative : (⟨name⟩ : Path).isAbsolute = false
  subpath : ∀ sub ∈ (splitPackage name).2, (⟨sub⟩ : Path).isAbsolute = false
  inside : (depth? 0 (stretches name.toList)).isSome

/-- The published name is the name itself, or the name without its sign, or the scope and the
name in one stretch. -/
theorem typesName_cases (name : String) :
    typesName name = name ∨
      (∃ rest, '/' ∉ rest ∧ name.toList = '@' :: rest ∧ typesName name = .ofList rest) ∨
      ∃ (scope package : List Char) (more : List (List Char)),
        stretches name.toList = ('@' :: scope) :: package :: more ∧
          stretches (typesName name).toList = (scope ++ '_' :: '_' :: package) :: more := by
  unfold typesName
  split
  next rest hname =>
    have hstretches {s : List Char} {more : List (List Char)} (h : stretches rest = s :: more) :
        stretches name.toList = ('@' :: s) :: more := by
      rw [hname, stretches, h]
      exact if_neg (by decide)
    split
    next scope package more hrest =>
      have hmem (s : List Char) (hs : s ∈ scope :: package :: more) : '/' ∉ s :=
        not_mem_of_mem_stretches (hrest ▸ hs)
      refine .inr (.inr ⟨scope, package, more, hstretches hrest, ?_⟩)
      have hslashed : (slashed (package :: more)).toList =
          package ++ more.flatMap ('/' :: ·) := by
        have h := slash_intercalate (List.cons_ne_nil package more)
        rw [List.flatMap_cons, List.cons_append] at h
        rw [slashed, String.toList_ofList]
        exact (List.cons.inj h).2
      have hjoined : '/' ∉ scope ++ '_' :: '_' :: package := by
        simp [hmem scope, hmem package]
      rw [String.toList_append, String.toList_ofList, hslashed, ← List.append_assoc,
        stretches_append_flatMap fun s hs ↦ hmem s (by simp [hs]), List.append_assoc]
      exact congrArg (· ++ more) (stretches_of_not_mem hjoined)
    next hrest =>
      refine .inr (.inl ⟨rest, ?_, hname, rfl⟩)
      intro hslash
      obtain ⟨front, back, rfl⟩ := List.append_of_mem hslash
      rw [stretches_append_slash] at hrest
      obtain ⟨s, more, hs⟩ := List.exists_cons_of_ne_nil (stretches_ne_nil front)
      obtain ⟨t, others, ht⟩ := List.exists_cons_of_ne_nil (stretches_ne_nil back)
      rw [hs, ht] at hrest
      cases more <;> exact hrest _ _ _ rfl
  next => exact .inl rfl

theorem not_isAbsolute_typesName {name : String} (h : (⟨name⟩ : Path).isAbsolute = false) :
    (⟨typesName name⟩ : Path).isAbsolute = false := by
  rcases typesName_cases name with hsame | ⟨rest, hrest, -, hname⟩ | ⟨scope, package,
    more, -, hname⟩
  · rw [hsame, h]
  · rw [Bool.eq_false_iff, ne_eq, isAbsolute_iff, hname, String.toList_ofList,
      stretches_of_not_mem hrest]
    rintro ⟨s, more, hmore⟩
    cases hmore
  · rw [Bool.eq_false_iff, ne_eq, isAbsolute_iff, hname]
    rintro ⟨t, others, hothers⟩
    simp at hothers

/-- Among the published names there is room for what a name leads up. -/
theorem inside_typesName {name : String} {more : List (List Char)}
    (h : (depth? 0 (stretches name.toList ++ more)).isSome) :
    (depth? 2 (stretches (typesName name).toList ++ more)).isSome := by
  rcases typesName_cases name with hsame | ⟨rest, hrest, hname, htypes⟩ |
    ⟨scope, package, others, hname, htypes⟩
  · rw [hsame]
    exact depth?_mono h (Nat.zero_le 2)
  · have hsign : '/' ∉ '@' :: rest := by simp [hrest]
    rw [hname, stretches_of_not_mem hsign] at h
    rw [htypes, String.toList_ofList, stretches_of_not_mem hrest]
    obtain ⟨next, hnext, h⟩ := isSome_depth?_cons.mp h
    obtain ⟨behind, hbehind⟩ := exists_depthBehind_succ 1 rest
    have hle := (depthBehind_le hnext).1
    have hge := (depthBehind_le hbehind).2
    exact isSome_depth?_cons.mpr ⟨behind, hbehind, depth?_mono h (by omega)⟩
  · rw [hname] at h
    rw [htypes]
    obtain ⟨first, hfirst, h⟩ := isSome_depth?_cons.mp h
    obtain ⟨second, hsecond, h⟩ := isSome_depth?_cons.mp h
    have hle := (depthBehind_le hfirst).1
    have hle' := (depthBehind_le hsecond).1
    have hbehind := depthBehind_of_mem (s := scope ++ '_' :: '_' :: package) (c := '_') (by simp)
      (by decide) 2
    exact isSome_depth?_cons.mpr ⟨3, hbehind, depth?_mono h (by omega)⟩

theorem packageAt?_eq (readJson : String → Option Json) (tree : FileTree)
    (options : CompilerOptions) (name : String) (dir : Path) :
    packageAt? readJson tree options name dir =
      if tree.isDirectory (dir.join ⟨"node_modules"⟩) then
        inPackage? readJson tree options ((dir.join ⟨"node_modules"⟩).join
          ⟨(splitPackage name).1⟩)
            (splitPackage name).2 <|>
          inPackage? readJson tree options
            (((dir.join ⟨"node_modules"⟩).join ⟨"@types"⟩).join
            ⟨typesName (splitPackage name).1⟩) (splitPackage name).2
      else none := by
  unfold packageAt?
  dsimp only
  cases tree.isDirectory (dir.join ⟨"node_modules"⟩) <;> rfl

end Resolve

/-! ## Packages in a folder -/

theorem isName_modules : IsName "node_modules" := by decide

theorem isName_published : IsName "@types" := by decide

namespace Route

variable (r : Route)

/-- The packages of a directory. -/
def modules : Route := r.join "node_modules" (r.inside_append isName_modules.isSome_depth?)

/-- The declarations of a directory that are published for packages. -/
def published : Route :=
  r.modules.join "@types" (r.modules.inside_append isName_published.isSome_depth?)

theorem inside_published {ws : List (List Char)} (hws : (depth? 2 ws).isSome) :
    (depth? 0 (r.published.stretches ++ ws)).isSome := by
  obtain ⟨depth, hdepth⟩ := Option.isSome_iff_exists.mp r.inside
  rw [published, depth?_join, isName_published.stretches, List.append_assoc, modules, depth?_join,
    isName_modules.stretches, List.append_assoc, depth?_append, hdepth]
  refine isSome_depth?_cons.mpr ⟨_, isName_modules.depthBehind depth, ?_⟩
  exact isSome_depth?_cons.mpr ⟨_, isName_published.depthBehind _, depth?_mono hws (by omega)⟩

end Route

namespace Folder

variable (F : Folder) (r : Route)

theorem join_modules : (F.path r).join ⟨"node_modules"⟩ = F.path r.modules :=
  F.path_join r isName_modules.not_isAbsolute _

theorem join_published : (F.path r.modules).join ⟨"@types"⟩ = F.path r.published :=
  F.path_join r.modules isName_published.not_isAbsolute _

end Folder

namespace FileTree.Copies

open Folder Resolve

variable {readJson : String → Option Json} {root tree : FileTree} {F F' : Folder}
  {options : CompilerOptions}
  (h : root.Copies F F' tree) (hm : F.EnclosesManifests readJson root options)
  (hm' : F'.EnclosesManifests readJson root options)

include h hm hm'

theorem twin_inPackage? {r : Route} {subpath : Option String}
    (hsub : ∀ sub ∈ subpath, (⟨sub⟩ : Path).isAbsolute = false ∧
      (depth? 0 (r.stretches ++ stretches sub.toList)).isSome) :
    Option.Rel (Twin F F') (inPackage? readJson root options (F.path r) subpath)
      (inPackage? readJson root options (F'.path r) subpath) := by
  unfold inPackage?
  rw [h.isDirectory_twin (.path r)]
  refine rel_bind _ fun _ _ ↦ ?_
  cases subpath with
  | none => exact h.twin_directory? hm hm' r
  | some sub =>
      obtain ⟨hrelative, hinside⟩ := hsub sub rfl
      dsimp only
      rw [F.path_join r hrelative hinside, F'.path_join r hrelative hinside]
      exact rel_orElse (h.twin_exported? hm hm' r _)
        (rel_orElse (h.twin_file? (r.join_ne_nil _)) (h.twin_directory? hm hm' _))

/-- A package in the `node_modules` of a directory of the folder. -/
theorem twin_packageAt? {name : String} (hname : LeadsDown name) (r : Route) :
    Option.Rel (Twin F F') (packageAt? readJson root options name (F.path r))
      (packageAt? readJson root options name (F'.path r)) := by
  obtain ⟨front, back, hstretches, hfront, hback⟩ := stretches_splitPackage name
  have hinside : (depth? 0 (front ++ back)).isSome := hstretches ▸ hname.inside
  have hpackage : (⟨(splitPackage name).1⟩ : Path).isAbsolute = false := by
    refine Bool.eq_false_iff.mpr fun habsolute ↦ ?_
    obtain ⟨s, rest, hrest⟩ := isAbsolute_iff.mp habsolute
    rw [hfront] at hrest
    refine Bool.eq_false_iff.mp hname.relative (isAbsolute_iff.mpr ⟨s, rest ++ back, ?_⟩)
    rw [hstretches, hrest]
    rfl
  have hsub (q : Route) (hq : (depth? 0 (q.stretches ++ back)).isSome) :
      ∀ sub ∈ (splitPackage name).2, (⟨sub⟩ : Path).isAbsolute = false ∧
        (depth? 0 (q.stretches ++ stretches sub.toList)).isSome := by
    intro sub hsub
    exact ⟨hname.subpath sub hsub, by rwa [hback sub hsub]⟩
  have hmodules : (depth? 0 (r.modules.stretches ++
      stretches (splitPackage name).1.toList ++ back)).isSome := by
    rw [hfront, List.append_assoc]
    exact r.modules.inside_append hinside
  have hpublished : (depth? 0 (r.published.stretches ++
      stretches (typesName (splitPackage name).1).toList ++ back)).isSome := by
    rw [List.append_assoc]
    exact r.inside_published (inside_typesName (hfront.symm ▸ hinside))
  have hfirst := isSome_depth?_left hmodules
  have hsecond := isSome_depth?_left hpublished
  have hpath (F : Folder) := F.path_join r.modules hpackage hfirst
  have hpath' (F : Folder) := F.path_join r.published (not_isAbsolute_typesName hpackage) hsecond
  rw [packageAt?_eq, packageAt?_eq, join_modules, join_modules,
    join_published, join_published, hpath F, hpath F', hpath' F, hpath' F',
    h.isDirectory_twin (.path r.modules)]
  split
  · refine rel_orElse (h.twin_inPackage? hm hm' (hsub _ ?_))
      (h.twin_inPackage? hm hm' (hsub _ ?_))
    · rwa [Route.depth?_join]
    · rwa [Route.depth?_join]
  · exact .none

end FileTree.Copies

/-! ## Specifiers and references -/

theorem eq_none_of_orElse {α : Type} {o o' : Option α} (h : (o <|> o') = none) :
    o = none ∧ o' = none := by
  cases o with
  | none => exact ⟨rfl, h⟩
  | some a => cases h

namespace Folder

variable (F : Folder)

theorem ancestors_path (r : Route) :
    (F.path r).ancestors = (r :: r.above).map F.path ++ F.top.parents := by
  rw [ancestors, parents_path]
  rfl

theorem mem_ancestors_path {r : Route} {dir : Path} (h : dir ∈ F.top.parents) :
    dir ∈ (F.path r).ancestors := by
  rw [ancestors_path]
  exact List.mem_append_right _ h

variable (readJson : String → Option Json) (tree : FileTree) (options : CompilerOptions)

/-- In the directory at the end of a route, what a specifier stands for is looked for in the folder
alone, or there is nothing that it stands for. A package must not be found above the folder. -/
inductive Encloses (r : Route) (specifier : String) : Prop
  | missing (h : Resolve.module? readJson tree options specifier (F.path r) = none)
  | relative (hrelative : Resolve.isRelative specifier = true) (hkept : F.Keeps tree r specifier)
  | package (hrelative : Resolve.isRelative specifier = false) (hname : Resolve.LeadsDown specifier)
      (habove : ∀ dir ∈ F.top.parents, Resolve.packageAt? readJson tree options
        specifier dir = none)

/-- The published declarations for a package in the `node_modules` of one directory. -/
def published? (name : String) (dir : Path) : Option Path :=
  Resolve.directory? readJson tree options
    (((dir.join ⟨"node_modules"⟩).join ⟨"@types"⟩).join ⟨Resolve.typesName name⟩)

/-- The same for a reference directive. -/
inductive EnclosesReference (r : Route) : Reference → Prop
  | missing {reference : Reference}
      (h : Program.reference? readJson tree options (F.path r) reference = none) :
      EnclosesReference r reference
  | path {value : String} (habsolute : (⟨value⟩ : Path).isAbsolute = false)
      (hinside : (depth? 0 (r.stretches ++ stretches value.toList)).isSome) :
      EnclosesReference r (.path value)
  | types {name : String} (hname : Resolve.LeadsDown name)
      (hpublished : ∀ dir ∈ F.top.parents, published? readJson tree options name dir = none)
      (habove : ∀ dir ∈ F.top.parents, Resolve.packageAt? readJson tree options
        name dir = none) :
      EnclosesReference r (.types name)

variable {F readJson tree options} {r : Route} {specifier : String}

namespace Encloses

theorem beside (h : F.Encloses readJson tree options r specifier)
    (hrelative : Resolve.isRelative specifier = true)
    (htop : ((F.path r).join ⟨specifier⟩).normalize = F.top) :
    Resolve.file? tree F.top = none := by
  cases h with
  | missing h =>
      rw [Resolve.module?, if_pos hrelative, htop] at h
      exact (eq_none_of_orElse h).1
  | relative _ hkept => exact hkept.beside htop
  | package h => exact absurd (hrelative.symm.trans h) (by decide)

theorem above (h : F.Encloses readJson tree options r specifier)
    (hrelative : Resolve.isRelative specifier = false) :
    ∀ dir ∈ F.top.parents, Resolve.packageAt? readJson tree options specifier dir = none := by
  cases h with
  | missing h =>
      rw [Resolve.module?, if_neg (by simp [hrelative]), Resolve.package?,
        List.findSome?_eq_none_iff] at h
      exact fun dir hdir ↦ h dir (F.mem_ancestors_path hdir)
  | relative h => exact absurd (hrelative.symm.trans h) (by decide)
  | package _ _ habove => exact habove

end Encloses

/-- Above the folder nothing is found for a `types` directive. -/
theorem EnclosesReference.above {name : String}
    (h : F.EnclosesReference readJson tree options r (.types name)) :
    ∀ dir ∈ F.top.parents, published? readJson tree options name dir = none ∧
      Resolve.packageAt? readJson tree options name dir = none := by
  cases h with
  | missing h =>
      obtain ⟨hpublished, habove⟩ := eq_none_of_orElse h
      exact fun dir hdir ↦
        ⟨List.findSome?_eq_none_iff.mp hpublished dir (F.mem_ancestors_path hdir),
          List.findSome?_eq_none_iff.mp habove dir (F.mem_ancestors_path hdir)⟩
  | types _ hpublished habove => exact fun dir hdir ↦ ⟨hpublished dir hdir, habove dir hdir⟩

end Folder

namespace FileTree.Copies

open Folder Resolve

variable {readJson : String → Option Json} {root tree : FileTree} {F F' : Folder}
  {options : CompilerOptions} {r : Route}

theorem twin_findSome?_ancestors {f : Path → Option Path}
    (hf : ∀ r, Option.Rel (Twin F F') (f (F.path r)) (f (F'.path r)))
    (habove : ∀ dir ∈ F.top.parents, f dir = none)
    (habove' : ∀ dir ∈ F'.top.parents, f dir = none) (r : Route) :
    Option.Rel (Twin F F') ((F.path r).ancestors.findSome? f)
      ((F'.path r).ancestors.findSome? f) := by
  rw [ancestors_path, ancestors_path, List.findSome?_append, List.findSome?_append,
    List.findSome?_eq_none_iff.mpr habove, List.findSome?_eq_none_iff.mpr habove', Option.or_none,
    Option.or_none]
  have hbelow :
      List.Forall₂ (Twin F F') ((r :: r.above).map F.path) ((r :: r.above).map F'.path) := by
    rw [List.forall₂_map_left_iff, List.forall₂_map_right_iff, List.forall₂_same]
    exact fun r _ ↦ .path r
  refine rel_findSome? hbelow ?_
  rintro p p' ⟨r, rfl, rfl⟩
  exact hf r

variable (h : root.Copies F F' tree) (hm : F.EnclosesManifests readJson root options)
  (hm' : F'.EnclosesManifests readJson root options)

include h hm hm'

theorem twin_relative? {specifier : String}
    (habsolute : (⟨specifier⟩ : Path).isAbsolute = false)
    (hinside : (depth? 0 (r.stretches ++ stretches specifier.toList)).isSome)
    (hrelative : isRelative specifier = true)
    (hbeside : ((F.path r).join ⟨specifier⟩).normalize = F.top → file? root F.top = none)
    (hbeside' : ((F'.path r).join ⟨specifier⟩).normalize = F'.top →
      file? root F'.top = none) :
    Option.Rel (Twin F F') (module? readJson root options specifier (F.path r))
      (module? readJson root options specifier (F'.path r)) := by
  rw [module?, module?, if_pos hrelative, if_pos hrelative]
  refine rel_orElse (h.twin_file?_normalize habsolute hinside hbeside hbeside') ?_
  rw [normalize_join F habsolute hinside, normalize_join F' habsolute hinside]
  exact h.twin_directory? hm hm' _

theorem twin_module? {specifier : String} (hs : F.Encloses readJson root options r specifier)
    (hs' : F'.Encloses readJson root options r specifier) :
    Option.Rel (Twin F F') (module? readJson root options specifier (F.path r))
      (module? readJson root options specifier (F'.path r)) := by
  have hrelative (hrelative : isRelative specifier = true)
      (habsolute : (⟨specifier⟩ : Path).isAbsolute = false)
      (hinside : (depth? 0 (r.stretches ++ stretches specifier.toList)).isSome) :
      Option.Rel (Twin F F') (module? readJson root options specifier (F.path r))
        (module? readJson root options specifier (F'.path r)) :=
    h.twin_relative? hm hm' habsolute hinside hrelative (hs.beside hrelative)
      (hs'.beside hrelative)
  have hpackage (hrelative : isRelative specifier = false) (hname : LeadsDown specifier) :
      Option.Rel (Twin F F') (module? readJson root options specifier (F.path r))
        (module? readJson root options specifier (F'.path r)) := by
    rw [module?, module?, if_neg (by simp [hrelative]), if_neg (by simp [hrelative])]
    exact twin_findSome?_ancestors (h.twin_packageAt? hm hm' hname) (hs.above hrelative)
      (hs'.above hrelative) r
  cases hs with
  | missing hnone =>
      cases hs' with
      | missing hnone' =>
          rw [hnone, hnone']
          exact .none
      | relative hr hkept => exact hrelative hr hkept.relative hkept.inside
      | package hr hname => exact hpackage hr hname
  | relative hr hkept => exact hrelative hr hkept.relative hkept.inside
  | package hr hname => exact hpackage hr hname

theorem twin_published? {name : String} (hname : LeadsDown name) (r : Route) :
    Option.Rel (Twin F F') (published? readJson root options name (F.path r))
      (published? readJson root options name (F'.path r)) := by
  have hinside :
      (depth? 0 (r.published.stretches ++ stretches (typesName name).toList)).isSome := by
    have hroom : (depth? 2 (stretches (typesName name).toList ++ [])).isSome :=
      inside_typesName (by simpa using hname.inside)
    exact r.inside_published (by simpa using hroom)
  have hpath (F : Folder) :=
    F.path_join r.published (not_isAbsolute_typesName hname.relative) hinside
  rw [published?, published?, join_modules, join_modules, join_published, join_published, hpath F,
    hpath F']
  exact h.twin_directory? hm hm' _

theorem twin_reference? {reference : Reference}
    (hs : F.EnclosesReference readJson root options r reference)
    (hs' : F'.EnclosesReference readJson root options r reference) :
    Option.Rel (Twin F F') (Program.reference? readJson root options (F.path r) reference)
      (Program.reference? readJson root options (F'.path r) reference) := by
  have hpath {value : String} (habsolute : (⟨value⟩ : Path).isAbsolute = false)
      (hinside : (depth? 0 (r.stretches ++ stretches value.toList)).isSome) :
      Option.Rel (Twin F F') (Program.reference? readJson root options (F.path r) (.path value))
        (Program.reference? readJson root options (F'.path r) (.path value)) := by
    unfold Program.reference?
    dsimp only
    rw [F.path_join r habsolute hinside, F'.path_join r habsolute hinside, F.normalize_path,
      F'.normalize_path, h.isFile (.path _)]
    split
    · exact .some (.path _)
    · exact .none
  have htypes {name : String} (hname : LeadsDown name)
      (habove : ∀ dir ∈ F.top.parents, published? readJson root options name dir = none ∧
        packageAt? readJson root options name dir = none)
      (habove' : ∀ dir ∈ F'.top.parents, published? readJson root options name dir = none ∧
        packageAt? readJson root options name dir = none) :
      Option.Rel (Twin F F') (Program.reference? readJson root options (F.path r) (.types name))
        (Program.reference? readJson root options (F'.path r) (.types name)) :=
    rel_orElse
      (twin_findSome?_ancestors (h.twin_published? hm hm' hname)
        (fun dir hdir ↦ (habove dir hdir).1) (fun dir hdir ↦ (habove' dir hdir).1) r)
      (twin_findSome?_ancestors (h.twin_packageAt? hm hm' hname)
        (fun dir hdir ↦ (habove dir hdir).2) (fun dir hdir ↦ (habove' dir hdir).2) r)
  have hcases := hs
  cases hs with
  | missing hnone =>
      cases hs' with
      | missing hnone' =>
          rw [hnone, hnone']
          exact .none
      | path habsolute hinside => exact hpath habsolute hinside
      | types hname hpublished habove =>
          exact htypes hname hcases.above fun dir hdir ↦
            ⟨hpublished dir hdir, habove dir hdir⟩
  | path habsolute hinside => exact hpath habsolute hinside
  | types hname => exact htypes hname hcases.above hs'.above

end FileTree.Copies

end PluginSurface
