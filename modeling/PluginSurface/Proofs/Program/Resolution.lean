import Mathlib.Data.List.Find
import PluginSurface.Proofs.FileTree.Outside
import PluginSurface.Proofs.Path.Upwards
import PluginSurface.Proofs.Program.CleanLookups
import PluginSurface.Proofs.Program.FoundFiles

/-!
# What a specifier stands for

A package is looked for in the directory first and above it then, and what is found below does not
depend on a `node_modules` further up, unless the search leads into that by itself.
-/

namespace PluginSurface.Resolve

open PluginSurface.Path FileTree

variable {readJson : String → Option Json} {tree : FileTree} {options : CompilerOptions}

/-! ## Where a search leads -/

/-- The path that the export map of the package at `root` names for a subpath. -/
def exportedTarget? (readJson : String → Option Json) (tree : FileTree)
    (options : CompilerOptions) (root : Path) (subpath : String) : Option Path := do
  guard options.module.usesExportMaps
  let target ← exportTarget? (← exportValue? (← manifest? readJson tree root) subpath)
  some (root.join ⟨target⟩).normalize

/-- The path that the manifest in a directory names for the typings. -/
def typingsTarget? (readJson : String → Option Json) (tree : FileTree) (dir : Path) :
    Option Path := do
  let manifest ← manifest? readJson tree dir
  let typings ← (manifest.get? "types").bind Json.string? <|>
    (manifest.get? "typings").bind Json.string?
  some (dir.join ⟨typings⟩).normalize

/-- What is looked at if nothing was found before. -/
def unlessFound (found : Option Path) (more : List Path) : List Path :=
  if found.isSome then [] else more

/-- The paths that a search for the file that a directory stands for looks at. -/
def directoryPlaces (readJson : String → Option Json) (tree : FileTree)
    (options : CompilerOptions) (dir : Path) : List Path :=
  dir :: if tree.isDirectory dir then
    (exportedTarget? readJson tree options dir ".").toList ++
      unlessFound (exported? readJson tree options dir ".")
        (typingsTarget? readJson tree dir).toList
  else []

/-- The paths that a search in the package at `root` looks at. -/
def packagePlaces (readJson : String → Option Json) (tree : FileTree) (options : CompilerOptions)
    (root : Path) : Option String → List Path
  | none => directoryPlaces readJson tree options root
  | some sub =>
    root :: if tree.isDirectory root then
      (exportedTarget? readJson tree options root ("./" ++ sub)).toList ++
        unlessFound (exported? readJson tree options root ("./" ++ sub))
          (root.join ⟨sub⟩ :: unlessFound (file? tree (root.join ⟨sub⟩))
            (directoryPlaces readJson tree options (root.join ⟨sub⟩)))
    else []

/-- The paths that a search in the `node_modules` of one directory looks at. -/
def places (readJson : String → Option Json) (tree : FileTree) (options : CompilerOptions)
    (specifier : String) (dir : Path) : List Path :=
  let modules := dir.join ⟨"node_modules"⟩
  let (package, subpath) := splitPackage specifier
  modules :: if tree.isDirectory modules then
    packagePlaces readJson tree options (modules.join ⟨package⟩) subpath ++
      unlessFound (inPackage? readJson tree options (modules.join ⟨package⟩) subpath)
        (packagePlaces readJson tree options
          ((modules.join ⟨"@types"⟩).join ⟨typesName package⟩) subpath)
  else []

/-- The paths that a search looks at which goes from one directory to the next until it finds
something. -/
def lookedAt (readJson : String → Option Json) (tree : FileTree) (options : CompilerOptions)
    (specifier : String) : List Path → List Path
  | [] => []
  | dir :: dirs => places readJson tree options specifier dir ++
      unlessFound (packageAt? readJson tree options specifier dir)
        (lookedAt readJson tree options specifier dirs)

theorem exported?_eq (readJson : String → Option Json) (tree : FileTree)
    (options : CompilerOptions) (root : Path) (subpath : String) :
    exported? readJson tree options root subpath =
      (exportedTarget? readJson tree options root subpath).bind (file? tree) := by
  simp only [exported?, exportedTarget?, Option.bind_eq_bind, Option.bind_assoc, Option.bind_some]

theorem directory?_eq_targets (readJson : String → Option Json) (tree : FileTree)
    (options : CompilerOptions) (dir : Path) :
    directory? readJson tree options dir =
      if tree.isDirectory dir then
        ((exportedTarget? readJson tree options dir ".").bind (file? tree) <|>
          (typingsTarget? readJson tree dir).bind fun target ↦ file? tree target <|>
            index? tree target) <|> index? tree dir
      else none := by
  have hexported : manifest? readJson tree dir = none → exported? readJson tree options dir "." =
      none := fun h ↦
    exported?_eq_none h "."
  rw [← exported?_eq]
  unfold directory? typingsTarget?
  cases tree.isDirectory dir with
  | false => rfl
  | true =>
      cases hmanifest : manifest? readJson tree dir with
      | none => simp [hexported hmanifest]
      | some manifest =>
          simp only [typings?, Option.bind_eq_bind, Option.bind_assoc, Option.bind_some, guard_true,
            Option.pure_def, if_true]

theorem inPackage?_eq (readJson : String → Option Json) (tree : FileTree)
    (options : CompilerOptions) (root : Path) (subpath : Option String) :
    inPackage? readJson tree options root subpath =
      if tree.isDirectory root then
        match subpath with
        | none => directory? readJson tree options root
        | some sub =>
          exported? readJson tree options root ("./" ++ sub) <|>
            file? tree (root.join ⟨sub⟩) <|>
            directory? readJson tree options (root.join ⟨sub⟩)
      else none := by
  unfold inPackage?
  cases tree.isDirectory root <;> rfl

theorem isAbsolute_exportedTarget? {root : Path} {subpath : String}
    (hroot : root.isAbsolute = true) :
    ∀ q, exportedTarget? readJson tree options root subpath = some q → q.isAbsolute = true := by
  refine of_bind fun _ ↦ of_bind fun _ ↦ of_bind fun _ ↦ of_bind fun target q h ↦ ?_
  cases h
  exact (isClean_normalize (isAbsolute_join hroot _)).absolute

theorem isAbsolute_typingsTarget? {dir : Path} (hdir : dir.isAbsolute = true) :
    ∀ q, typingsTarget? readJson tree dir = some q → q.isAbsolute = true := by
  refine of_bind fun _ ↦ of_bind fun typings q h ↦ ?_
  cases h
  exact (isClean_normalize (isAbsolute_join hdir _)).absolute

theorem forall_mem_unlessFound {P : Path → Prop} {found : Option Path} {more : List Path} :
    (∀ q ∈ unlessFound found more, P q) ↔ (found = none → ∀ q ∈ more, P q) := by
  cases found <;> simp [unlessFound]

/-- A search in two places gives the same if the second place is the same where the first has
nothing. -/
theorem orElse_congr {o o' a a' : Option Path} (h : o = o') (ha : o = none → a = a') :
    (o <|> a) = (o' <|> a') := by
  subst h
  cases o with
  | none => exact ha rfl
  | some => rfl

section

variable {tree' : FileTree} {outer : List String}
  (h : AgreeOutside (outer ++ ["node_modules"]) tree tree') {dir : Path}
  (habsolute : dir.isAbsolute = true)

include h habsolute

theorem file?_congr (hdir : ¬ dir.LeadsThrough (outer ++ ["node_modules"])) :
    file? tree dir = file? tree' dir := by
  refine List.find?_congr fun c hc ↦ h.isFile_eq ?_
  obtain ⟨parts, hne, hparts, rfl⟩ := exists_rooted habsolute
  obtain ⟨front, last, rfl⟩ := (List.eq_nil_or_concat' parts).resolve_left hne
  have hlast : '/' ∉ (String.ofList last).toList := by
    rw [String.toList_ofList]
    exact hparts last (by simp)
  rw [← String.toList_ofList (l := last), fileCandidates_rooted] at hc
  obtain ⟨c', hc', rfl⟩ := List.mem_map.mp hc
  have hname := isName_of_mem_fileCandidates hlast hc'
  have hfront : ∀ s ∈ front, '/' ∉ s := fun s hs ↦ hparts s (List.mem_append_left _ hs)
  have hprefix : .root :: front.filterMap component? <+:
      (rooted (front ++ [(String.ofList last).toList])).components := by
    rw [String.toList_ofList, components_rooted hne hparts, List.filterMap_append]
    exact (List.prefix_cons_inj _).mpr (List.prefix_append _ _)
  have hcomponents : (rooted (front ++ [c'.text.toList])).components =
      (.root :: front.filterMap component?) ++ [.name c'.text] := by
    rw [components_rooted (by simp) (by simpa [or_imp, forall_and] using ⟨hfront, hname.1⟩),
      List.filterMap_append, List.filterMap_cons, hname.2, List.filterMap_nil, List.cons_append]
  refine not_leadsThrough_concat (String.toList_ofList ▸ hdir) hprefix hcomponents ?_
  obtain ⟨stem, ending, hending, htext, -⟩ := exists_of_mem_fileCandidates hc'
  obtain ⟨e, he, hends⟩ := endsAsSource_append stem hending
  rw [← htext] at hends
  rintro heq
  rw [heq, endsWith_iff] at hends
  revert e
  decide

theorem index?_congr (hdir : ¬ dir.LeadsThrough (outer ++ ["node_modules"])) :
    index? tree dir = index? tree' dir := by
  have hnames :
      ∀ e ∈ endings, IsName ("index" ++ e) ∧ "index" ++ e ≠ "node_modules" := by decide
  refine List.find?_congr fun c hc ↦ h.isFile_eq ?_
  obtain ⟨e, he, rfl⟩ := List.mem_map.mp hc
  exact not_leadsThrough_join hdir habsolute (hnames e he).1 (hnames e he).2

theorem manifest?_congr (hdir : ¬ dir.LeadsThrough (outer ++ ["node_modules"])) :
    manifest? readJson tree dir = manifest? readJson tree' dir := by
  rw [manifest?, manifest?,
    h.read?_eq (not_leadsThrough_join hdir habsolute (by decide) (by decide))]

theorem exported?_congr {subpath : String} (hdir : ¬ dir.LeadsThrough (outer ++ ["node_modules"]))
    (hplaces : ∀ q ∈ (exportedTarget? readJson tree options dir subpath).toList,
      ¬ q.LeadsThrough (outer ++ ["node_modules"])) :
    exported? readJson tree options dir subpath = exported? readJson tree' options dir subpath := by
  have htarget : exportedTarget? readJson tree' options dir subpath =
      exportedTarget? readJson tree options dir subpath := by
    rw [exportedTarget?, exportedTarget?, manifest?_congr h habsolute hdir]
  rw [exported?_eq, exported?_eq, htarget]
  cases hfound : exportedTarget? readJson tree options dir subpath with
  | none => rfl
  | some q =>
      exact file?_congr h (isAbsolute_exportedTarget? habsolute q hfound)
        (hplaces q (by simp [hfound]))

theorem directory?_congr (hplaces : ∀ q ∈ directoryPlaces readJson tree options dir,
      ¬ q.LeadsThrough (outer ++ ["node_modules"])) :
    directory? readJson tree options dir = directory? readJson tree' options dir := by
  unfold directoryPlaces at hplaces
  obtain ⟨hdir, hplaces⟩ := List.forall_mem_cons.mp hplaces
  rw [directory?_eq_targets, directory?_eq_targets, ← h.isDirectory_eq hdir]
  split
  next hdirectory =>
    rw [if_pos hdirectory] at hplaces
    obtain ⟨hexports, htypings⟩ := List.forall_mem_append.mp hplaces
    rw [← exported?_eq, ← exported?_eq, ← index?_congr h habsolute hdir]
    refine orElse_congr (orElse_congr (exported?_congr h habsolute hdir hexports) fun hnone ↦ ?_)
      fun _ ↦ rfl
    have htarget : typingsTarget? readJson tree' dir = typingsTarget? readJson tree dir := by
      rw [typingsTarget?, typingsTarget?, manifest?_congr h habsolute hdir]
    rw [htarget]
    cases hfound : typingsTarget? readJson tree dir with
    | none => rfl
    | some q =>
        have hq := forall_mem_unlessFound.mp htypings hnone q (by simp [hfound])
        have hqabsolute := isAbsolute_typingsTarget? habsolute q hfound
        exact orElse_congr (file?_congr h hqabsolute hq) fun _ ↦ index?_congr h hqabsolute hq
  next => rfl

theorem inPackage?_congr {subpath : Option String}
    (hplaces : ∀ q ∈ packagePlaces readJson tree options dir subpath,
      ¬ q.LeadsThrough (outer ++ ["node_modules"])) :
    inPackage? readJson tree options dir subpath =
      inPackage? readJson tree' options dir subpath := by
  cases subpath with
  | none =>
      have hdir := hplaces dir List.mem_cons_self
      rw [inPackage?_eq, inPackage?_eq, ← h.isDirectory_eq hdir]
      simp only [directory?_congr h habsolute hplaces]
  | some sub =>
      unfold packagePlaces at hplaces
      obtain ⟨hdir, hplaces⟩ := List.forall_mem_cons.mp hplaces
      rw [inPackage?_eq, inPackage?_eq, ← h.isDirectory_eq hdir]
      split
      next hdirectory =>
        rw [if_pos hdirectory] at hplaces
        obtain ⟨hexports, hinside⟩ := List.forall_mem_append.mp hplaces
        have htarget := isAbsolute_join habsolute ⟨sub⟩
        refine orElse_congr (exported?_congr h habsolute hdir hexports) fun hnone ↦ ?_
        obtain ⟨hfile, hdirectory⟩ :=
          List.forall_mem_cons.mp (forall_mem_unlessFound.mp hinside hnone)
        exact orElse_congr (file?_congr h htarget hfile) fun hnone ↦
          directory?_congr h htarget (forall_mem_unlessFound.mp hdirectory hnone)
      next => rfl

theorem packageAt?_congr {specifier : String}
    (hplaces : ∀ q ∈ places readJson tree options specifier dir,
      ¬ q.LeadsThrough (outer ++ ["node_modules"])) :
    packageAt? readJson tree options specifier dir =
      packageAt? readJson tree' options specifier dir := by
  have hmodules := isAbsolute_join habsolute ⟨"node_modules"⟩
  obtain ⟨hfolder, hplaces⟩ := List.forall_mem_cons.mp hplaces
  rw [packageAt?_eq, packageAt?_eq, ← h.isDirectory_eq hfolder]
  split
  next hdirectory =>
    rw [if_pos hdirectory] at hplaces
    obtain ⟨hpackage, hpublished⟩ := List.forall_mem_append.mp hplaces
    exact orElse_congr (inPackage?_congr h (isAbsolute_join hmodules _) hpackage) fun hnone ↦
      inPackage?_congr h (isAbsolute_join (isAbsolute_join hmodules _) _)
        (forall_mem_unlessFound.mp hpublished hnone)
  next => rfl

end

/-- There are no packages for a relative directory. -/
theorem packageAt?_of_relative {dir : Path} (h : dir.isAbsolute = false) (specifier : String) :
    packageAt? readJson tree options specifier dir = none := by
  have hmodules : tree.isDirectory (dir.join ⟨"node_modules"⟩) = false := by
    rw [isDirectory, node?, follow?, isAbsolute_join_eq h isName_modules.not_isAbsolute]
    rfl
  rw [packageAt?_eq, if_neg (by simp [hmodules])]

theorem package?_of_relative {dir : Path} (h : dir.isAbsolute = false) (specifier : String) :
    package? readJson tree options specifier dir = none := by
  refine List.findSome?_eq_none_iff.mpr fun above habove ↦ packageAt?_of_relative ?_ specifier
  rcases List.mem_cons.mp habove with rfl | habove
  · exact h
  · exact isAbsolute_of_mem_parents h above habove

/-- A package that is not found in the directory is looked for from its parent on. -/
theorem package?_eq (readJson : String → Option Json) (tree : FileTree)
    (options : CompilerOptions) (specifier : String) (dir : Path) :
    package? readJson tree options specifier dir =
      (packageAt? readJson tree options specifier dir <|>
        dir.parent?.bind (package? readJson tree options specifier)) := by
  cases habsolute : dir.isAbsolute with
  | false =>
      rw [package?_of_relative habsolute, packageAt?_of_relative habsolute]
      cases hparent : dir.parent? with
      | none => rfl
      | some parent =>
          have hrelative := isAbsolute_of_mem_parents habsolute parent (List.mem_of_head? hparent)
          exact (package?_of_relative hrelative specifier).symm
  | true =>
      rw [package?, ancestors, List.findSome?_cons, parents_eq habsolute]
      cases packageAt? readJson tree options specifier dir with
      | some => rfl
      | none => cases dir.parent? <;> rfl

/-- A search that finds a package without leading through a folder finds it whatever is in the
folder. -/
theorem findSome?_packageAt?_congr {tree' : FileTree} {outer : List String}
    (h : AgreeOutside (outer ++ ["node_modules"]) tree tree') {specifier : String}
    {dirs : List Path} (hplaces : ∀ q ∈ lookedAt readJson tree options specifier dirs,
      ¬ q.LeadsThrough (outer ++ ["node_modules"])) :
    dirs.findSome? (packageAt? readJson tree options specifier) =
      dirs.findSome? (packageAt? readJson tree' options specifier) := by
  induction dirs with
  | nil => rfl
  | cons dir dirs ih =>
      obtain ⟨hdir, hdirs⟩ := List.forall_mem_append.mp hplaces
      have hat :
          packageAt? readJson tree options specifier dir =
            packageAt? readJson tree' options specifier dir := by
        cases habsolute : dir.isAbsolute with
        | true => exact packageAt?_congr h habsolute hdir
        | false => rw [packageAt?_of_relative habsolute, packageAt?_of_relative habsolute]
      rw [List.findSome?_cons, List.findSome?_cons, ← hat]
      split
      · rfl
      next hnone => exact ih (forall_mem_unlessFound.mp hdirs hnone)

/-- The directory that holds a `node_modules` further up is there if a package is found below. -/
theorem exists_holder {specifier : String} {dir far p : Path} {nearer farther : List Path}
    (hancestors : dir.ancestors = nearer ++ far :: farther)
    (hfound : nearer.findSome? (packageAt? readJson tree options specifier) = some p) :
    far.isAbsolute = true ∧
      ∃ holder, tree.at? far.names = some holder ∧ holder.isDirectoryNode = true := by
  obtain ⟨near, hnear, hpackage⟩ := List.exists_of_findSome?_eq_some hfound
  have habove : near ∈ dir.ancestors := hancestors ▸ List.mem_append_left _ hnear
  have habsolute : dir.isAbsolute = true := by
    by_contra hrelative
    rw [Bool.not_eq_true] at hrelative
    have hnone : near.isAbsolute = false := by
      rcases List.mem_cons.mp habove with rfl | habove
      · exact hrelative
      · exact isAbsolute_of_mem_parents hrelative near habove
    rw [packageAt?_of_relative hnone] at hpackage
    cases hpackage
  have hfar : far ∈ dir.ancestors := hancestors ▸ List.mem_append_right _ List.mem_cons_self
  have hfarAbsolute := isAbsolute_of_mem_ancestors habsolute hfar
  have hnearAbsolute := isAbsolute_of_mem_ancestors habsolute habove
  have hprefix : far.components <+: near.components := by
    have hpairwise := pairwise_ancestors habsolute
    rw [hancestors, List.pairwise_append] at hpairwise
    exact hpairwise.2.2 near hnear far List.mem_cons_self
  refine ⟨hfarAbsolute, ?_⟩
  have hmodules : tree.isDirectory (near.join ⟨"node_modules"⟩) = true := by
    rw [packageAt?_eq] at hpackage
    split at hpackage
    next h => exact h
    next => cases hpackage
  -- The path to the nearer `node_modules` leads on from the directory further up.
  rw [isDirectory_iff (isAbsolute_join hnearAbsolute _), components_join hnearAbsolute
    isName_modules.not_isAbsolute, partsOf_name isName_modules] at hmodules
  obtain ⟨t, hfold, -⟩ := hmodules
  obtain ⟨between, hbetween⟩ := hprefix
  rw [← hbetween, List.append_assoc, List.foldlM_append] at hfold
  obtain ⟨t', hfar, hrest⟩ := Option.bind_eq_some_iff.mp hfold
  have hdirectory : t'.node.isDirectoryNode = true := by
    obtain ⟨c, more, hmore⟩ := List.exists_cons_of_ne_nil
      (List.append_ne_nil_of_right_ne_nil between
        (List.cons_ne_nil (Component.name "node_modules") []))
    rw [hmore] at hrest
    obtain ⟨next, hnext, -⟩ := Option.bind_eq_some_iff.mp hrest
    exact Trail.isDirectoryNode_of_follow hnext
  exact ⟨t'.node, at?_names
    (follow?_of_components hfarAbsolute hfar (.inl hdirectory)), hdirectory⟩

/-- What a specifier stands for. Only source and declaration files are found. A package is looked
for in the `node_modules` of the directory, the package before the declarations that are published
for it, and then from the parent on; whatever files are added to the `node_modules` of a directory
further up than the one with the package, the package is found where it was, unless the search had
led through the folder they are added to. Without export maps all module kinds find the same. -/
theorem module?_found (readJson : String → Option Json) (tree : FileTree)
    (options : CompilerOptions) (specifier : String) (dir : Path) :
    (∀ p, module? readJson tree options specifier dir = some p → tree.IsSourceFile p) ∧
    (isRelative specifier = false →
      (let modules := dir.join ⟨"node_modules"⟩
       let (package, subpath) := splitPackage specifier
       module? readJson tree options specifier dir =
        ((if tree.isDirectory modules then
          inPackage? readJson tree options (modules.join ⟨package⟩) subpath <|>
            inPackage? readJson tree options ((modules.join ⟨"@types"⟩).join
              ⟨typesName package⟩) subpath
        else none) <|> dir.parent?.bind (module? readJson tree options specifier))) ∧
      ∀ nearer far farther p, dir.ancestors = nearer ++ far :: farther →
        nearer.findSome? (packageAt? readJson tree options specifier) = some p →
        module? readJson tree options specifier dir = some p ∧
        ((∀ q ∈ lookedAt readJson tree options specifier nearer,
            ¬ q.LeadsThrough (far.join ⟨"node_modules"⟩).names) →
          ∀ files, module? readJson (tree.addTo (far.join ⟨"node_modules"⟩).names files)
            options specifier dir = some p)) ∧
    ((∀ package manifest, manifest? readJson tree package = some manifest →
        manifest.get? "exports" = none) →
      ∀ options', module? readJson tree options' specifier dir =
        module? readJson tree options specifier dir) := by
  refine ⟨isSourceFile_of_module?, fun hspecifier ↦ ⟨?_, ?_⟩, fun hexports options' ↦
    module?_options hexports options' options specifier dir⟩
  · have hmodule : module? readJson tree options specifier =
        package? readJson tree options specifier :=
      funext fun dir ↦ by rw [module?, if_neg (by simp [hspecifier])]
    dsimp only
    rw [← packageAt?_eq, hmodule]
    exact package?_eq readJson tree options specifier dir
  · intro nearer far farther p hancestors hfound
    have hmodule (tree : FileTree)
        (h : nearer.findSome? (packageAt? readJson tree options specifier) =
        some p) : module? readJson tree options specifier dir = some p := by
      rw [module?, if_neg (by simp [hspecifier]), package?, hancestors, List.findSome?_append, h]
      rfl
    refine ⟨hmodule tree hfound, fun hplaces files ↦ hmodule _ ?_⟩
    obtain ⟨hfar, holder, hholder, hdirectory⟩ := exists_holder hancestors hfound
    have hnames : (far.join ⟨"node_modules"⟩).names = far.names ++ ["node_modules"] := by
      rw [names, components_join hfar isName_modules.not_isAbsolute, partsOf_name isName_modules,
        destination_concat]
      rfl
    rw [hnames] at hplaces ⊢
    rw [← hfound]
    exact (findSome?_packageAt?_congr
      (agreeOutside_addTo "node_modules" hholder hdirectory files) hplaces).symm

/-- A package below `b` that names its typings by a path, and another one further up. -/
def packages (typings : String) : FileTree := .directory [
  ("b", .directory [("node_modules", .directory [("pkg", .directory [
    ("package.json", .file (some (typingsManifest typings))),
    ("lib.d.ts", .file (some ""))])])]),
  ("node_modules", .directory [("other", .directory [("index.d.ts", .file (some ""))])])]

theorem module?_found_below :
    let readJson := readTypings "./lib"
    (∀ files, module? readJson ((packages "./lib").addTo ["node_modules"] files) .default "pkg"
      ⟨"/b"⟩ = some ⟨"/b/node_modules/pkg/lib.d.ts"⟩) ∧
    (packages "./lib").IsSourceFile ⟨"/b/node_modules/pkg/lib.d.ts"⟩ ∧
    ∀ options, module? readJson (packages "./lib") options "pkg" ⟨"/b"⟩ =
      some ⟨"/b/node_modules/pkg/lib.d.ts"⟩ := by
  intro readJson
  obtain ⟨hsound, hpackage, hoptions⟩ :=
    module?_found readJson (packages "./lib") .default "pkg" ⟨"/b"⟩
  obtain ⟨hfound, hstays⟩ := (hpackage (by decide +kernel)).2 [⟨"/b"⟩] ⟨"/"⟩ []
    ⟨"/b/node_modules/pkg/lib.d.ts"⟩ (by decide +kernel) (by decide +kernel)
  have hnames : ((⟨"/"⟩ : Path).join ⟨"node_modules"⟩).names = ["node_modules"] := by
    decide +kernel
  rw [hnames] at hstays
  refine ⟨hstays (by decide +kernel), hsound _ hfound, fun options ↦ ?_⟩
  rw [hoptions ?_ options, hfound]
  intro package manifest hmanifest
  obtain ⟨text, hread, hjson⟩ := Option.bind_eq_some_iff.mp hmanifest
  have htexts : ∀ text ∈ (packages "./lib").texts,
      ((readJson text).bind (·.get? "exports")).isNone = true := by decide +kernel
  simpa [hjson] using htexts text (mem_texts_of_read? hread)

/-- What is added further up is found if the manifest leads there. -/
theorem module?_found_above :
    let typings := "../../../node_modules/other/index"
    [(⟨"/b"⟩ : Path)].findSome?
        (packageAt? (readTypings typings) (packages typings) .default "pkg") =
      some ⟨"/node_modules/other/index.d.ts"⟩ ∧
    (⟨"/b"⟩ : Path).ancestors = [⟨"/b"⟩] ++ ⟨"/"⟩ :: [] ∧
    module? (readTypings typings) ((packages typings).addTo
        ((⟨"/"⟩ : Path).join ⟨"node_modules"⟩).names [(["other", "index.ts"], some "")])
      .default "pkg" ⟨"/b"⟩ = some ⟨"/node_modules/other/index.ts"⟩ := by
  decide +kernel

end PluginSurface.Resolve
