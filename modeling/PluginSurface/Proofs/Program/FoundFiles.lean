import Mathlib.Data.Option.Basic
import PluginSurface.Proofs.FileTree.Ways
import PluginSurface.Proofs.Program.Lookups

/-!
# The files that specifiers stand for

Only source and declaration files are found, and without export maps they do not
depend on the options.
-/

namespace PluginSurface

namespace FileTree

open PluginSurface.Path

/-- The endings of source and declaration files. -/
def sourceEndings : List String := [".ts", ".tsx", ".d.mts", ".d.cts"]

/-- The path leads to a file, and the name of the file is that of a source or declaration file. -/
def IsSourceFile (tree : FileTree) (p : Path) : Prop :=
  ∃ t name text outer, tree.follow? p = some t ∧ t.steps = (name, .file text) :: outer ∧
    ∃ ending ∈ sourceEndings, name.endsWith ending = true

end FileTree

namespace Resolve

open PluginSurface.Path FileTree

/-- The text is that of a path to a source or declaration file. -/
def EndsAsSource (text : String) : Prop := ∃ ending ∈ sourceEndings, text.endsWith ending = true

theorem endsAsSource_append (stem : String) {ending : String} (h : ending ∈ foundEndings) :
    EndsAsSource (stem ++ ending) := by
  have hends :
      ∀ ending ∈ foundEndings, ∃ e ∈ sourceEndings, e.toList <:+ ending.toList := by decide
  obtain ⟨e, he, hsuffix⟩ := hends ending h
  refine ⟨e, he, endsWith_iff.mpr ?_⟩
  rw [String.toList_append]
  exact hsuffix.trans (List.suffix_append _ _)

variable {readJson : String → Option Json} {tree : FileTree} {options : CompilerOptions}
  {p : Path}

/-- The name of a file ends as the path to it does. -/
theorem isSourceFile_of_endsAsSource (hfile : tree.isFile p = true) (htext : EndsAsSource p.text) :
    tree.IsSourceFile p := by
  obtain ⟨ending, hending, hends⟩ := htext
  obtain ⟨t, text, hfollow, hnode⟩ := exists_of_isFile hfile
  have hsource : ∀ e ∈ sourceEndings, '/' ∉ e.toList ∧ e ∈ foundEndings := by decide
  obtain ⟨hslash, hfound⟩ := hsource ending hending
  have habsolute : p.isAbsolute = true := by
    unfold follow? at hfollow
    split at hfollow
    next h => exact h
    next => cases hfollow
  obtain ⟨parts, hne, hparts, rfl⟩ := exists_rooted habsolute
  obtain ⟨front, last, rfl⟩ := (List.eq_nil_or_concat' parts).resolve_left hne
  have hlast : '/' ∉ last := hparts last (by simp)
  have hsuffix : ending.toList <:+ last := by
    rw [endsWith_iff, toList_rooted, List.flatMap_append, List.flatMap_singleton] at hends
    exact (suffix_append_slash hslash).mp hends
  obtain ⟨stem, hstem⟩ := hsuffix
  have hname : IsName (String.ofList last) := by
    have heq : String.ofList last = String.ofList stem ++ ending := by
      rw [← String.toList_inj, String.toList_append, String.toList_ofList, String.toList_ofList,
        hstem]
    rw [heq]
    refine isName_append ?_ hfound
    rw [String.toList_ofList]
    exact fun hmem ↦ hlast (hstem ▸ List.mem_append_left _ hmem)
  have hcomponents : (rooted (front ++ [last])).components =
      (.root :: front.filterMap component?) ++ [.name (.ofList last)] := by
    have hcomponent : component? last = some (.name (.ofList last)) := by
      simpa only [String.toList_ofList] using hname.2
    rw [components_rooted hne hparts, List.filterMap_append, List.filterMap_cons, hcomponent,
      List.filterMap_nil, List.cons_append]
  have hfold := foldlM_components hfollow
  rw [hcomponents, List.foldlM_append] at hfold
  obtain ⟨before, -, hfold⟩ := Option.bind_eq_some_iff.mp hfold
  obtain ⟨t', hstep, hend⟩ := Option.bind_eq_some_iff.mp hfold
  cases hend
  unfold Trail.follow at hstep
  split at hstep
  · cases hstep
  · obtain ⟨node, -, rfl⟩ := Option.map_eq_some_iff.mp hstep
    obtain rfl : node = .file text := hnode
    refine ⟨_, _, text, before.steps, hfollow, rfl, ending, hending, endsWith_iff.mpr ?_⟩
    rw [String.toList_ofList]
    exact ⟨stem, hstem⟩

theorem isSourceFile_of_file? {base : Path} (h : file? tree base = some p) :
    tree.IsSourceFile p := by
  obtain ⟨stem, ending, hending, htext, -⟩ :=
    exists_of_mem_fileCandidates (List.mem_of_find?_eq_some h)
  exact isSourceFile_of_endsAsSource (List.find?_some h)
    (htext ▸ endsAsSource_append stem hending)

theorem isSourceFile_of_index? {dir : Path} (h : index? tree dir = some p) :
    tree.IsSourceFile p := by
  have hendings : ∀ e ∈ endings, e ∈ foundEndings ∧ IsName ("index" ++ e) := by decide
  obtain ⟨e, he, rfl⟩ := List.mem_map.mp (List.mem_of_find?_eq_some h)
  obtain ⟨hfound, hname⟩ := hendings e he
  refine isSourceFile_of_endsAsSource (List.find?_some h) ?_
  rw [join, if_neg (by simp [hname.not_isAbsolute])]
  split
  · rw [← String.append_assoc]
    exact endsAsSource_append _ hfound
  · rw [← String.append_assoc]
    exact endsAsSource_append _ hfound

section

variable {P : Path → Prop}

theorem of_orElse {o o' : Option Path} (h : ∀ p, o = some p → P p)
    (h' : ∀ p, o' = some p → P p) : ∀ p, (o <|> o') = some p → P p := by
  cases o with
  | none => exact h'
  | some q => exact h

theorem of_bind {α : Type} {o : Option α} {f : α → Option Path}
    (h : ∀ a p, f a = some p → P p) : ∀ p, o >>= f = some p → P p := by
  cases o with
  | none => exact nofun
  | some a => exact h a

end

theorem isSourceFile_of_exported? {root : Path} {subpath : String} :
    ∀ p, exported? readJson tree options root subpath = some p → tree.IsSourceFile p :=
  of_bind fun _ ↦ of_bind fun _ ↦ of_bind fun _ ↦ of_bind fun _ _ ↦ isSourceFile_of_file?

theorem isSourceFile_of_directory? {dir : Path} :
    ∀ p, directory? readJson tree options dir = some p → tree.IsSourceFile p :=
  of_bind fun _ ↦ of_orElse
    (of_bind fun _ ↦ of_orElse isSourceFile_of_exported?
      (of_bind fun _ ↦ of_orElse (fun _ ↦ isSourceFile_of_file?) fun _ ↦
        isSourceFile_of_index?))
    fun _ ↦ isSourceFile_of_index?

theorem isSourceFile_of_inPackage? {root : Path} {subpath : Option String} :
    ∀ p, inPackage? readJson tree options root subpath = some p → tree.IsSourceFile p := by
  refine of_bind fun _ ↦ ?_
  cases subpath with
  | none => exact isSourceFile_of_directory?
  | some sub =>
      exact of_orElse isSourceFile_of_exported?
        (of_orElse (fun _ ↦ isSourceFile_of_file?) isSourceFile_of_directory?)

theorem isSourceFile_of_packageAt? {specifier : String} {dir : Path} :
    ∀ p, packageAt? readJson tree options specifier dir = some p → tree.IsSourceFile p := by
  rw [packageAt?_eq]
  split
  · exact of_orElse isSourceFile_of_inPackage? isSourceFile_of_inPackage?
  · exact nofun

theorem isSourceFile_of_module? {specifier : String} {dir : Path} :
    ∀ p, module? readJson tree options specifier dir = some p → tree.IsSourceFile p := by
  unfold module?
  split
  · exact of_orElse (fun _ ↦ isSourceFile_of_file?) isSourceFile_of_directory?
  · intro p h
    obtain ⟨above, -, hfound⟩ := List.exists_of_findSome?_eq_some h
    exact isSourceFile_of_packageAt? p hfound

/-! ## Without export maps -/

variable (hexports : ∀ dir manifest, manifest? readJson tree dir = some manifest →
  manifest.get? "exports" = none)

include hexports

theorem exported?_eq_none_of_manifests (options : CompilerOptions) (root : Path)
    (subpath : String) : exported? readJson tree options root subpath = none := by
  unfold exported?
  cases hmanifest : manifest? readJson tree root with
  | none => cases options.module.usesExportMaps <;> rfl
  | some manifest =>
      have hentry : exportValue? manifest subpath = none := by
        rw [exportValue?, hexports root manifest hmanifest]
        rfl
      cases options.module.usesExportMaps with
      | false => rfl
      | true => simp [hentry]

theorem directory?_options (options options' : CompilerOptions) (dir : Path) :
    directory? readJson tree options dir = directory? readJson tree options' dir := by
  simp only [directory?, exported?_eq_none_of_manifests hexports]

theorem packageAt?_options (options options' : CompilerOptions) (specifier : String) (dir : Path) :
    packageAt? readJson tree options specifier dir =
      packageAt? readJson tree options' specifier dir := by
  simp only [packageAt?_eq, inPackage?, exported?_eq_none_of_manifests hexports,
    directory?_options hexports options options']

/-- Without export maps the options make no difference. -/
theorem module?_options (options options' : CompilerOptions) (specifier : String) (dir : Path) :
    module? readJson tree options specifier dir = module? readJson tree options' specifier dir := by
  have hpackage := funext (packageAt?_options hexports options options' specifier)
  simp only [module?, package?, hpackage, directory?_options hexports options options']

end Resolve

end PluginSurface
