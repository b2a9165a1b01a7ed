import Mathlib.Data.Option.Basic
import PluginSurface.Proofs.Program.Twins

/-!
# Where manifests lead to in two copies of a directory

A manifest names files by paths from its directory: the typings and the targets of its export map.
If those paths stay in a folder, or lead to nothing, then the directories of two copies of the
folder stand for twins.
-/

namespace PluginSurface

namespace Resolve

/-- The text of a manifest that names its typings. -/
def typingsManifest (typings : String) : String := "\x7b\"types\": \"" ++ typings ++ "\"\x7d"

/-- What a reader of manifests reads in this text. -/
def readTypings (typings text : String) : Option Json :=
  if text = typingsManifest typings then some (.object [("types", .string typings)]) else none

/-- The path of the typings in a manifest. -/
def namedTypings? (manifest : Json) : Option String :=
  (manifest.get? "types").bind Json.string? <|> (manifest.get? "typings").bind Json.string?

/-- A path that a manifest may lead to: that of its typings, or the target of an entry of its export
map. -/
inductive NamesTarget (options : CompilerOptions) (manifest : Json) (target : String) : Prop
  | typings (h : namedTypings? manifest = some target)
  | exported {subpath : String} {entry : Json} (hmaps : options.module.usesExportMaps = true)
      (hentry : exportValue? manifest subpath = some entry)
      (htarget : exportTarget? entry = some target)

end Resolve

namespace Folder

variable (F : Folder) (readJson : String → Option Json) (tree : FileTree)
  (options : CompilerOptions)

/-- A path that is followed from the end of a route stays in the folder. It may lead to the folder
itself if no file beside the folder is taken for it then. -/
structure Keeps (r : Route) (target : String) : Prop where
  relative : (⟨target⟩ : Path).isAbsolute = false
  inside : (Path.depth? 0 (r.stretches ++ Path.stretches target.toList)).isSome
  beside : ((F.path r).join ⟨target⟩).normalize = F.top → Resolve.file? tree F.top = none

/-- A path that is followed from the end of a route stays in the folder, or nothing is found at its
end. -/
inductive EnclosesTarget (r : Route) (target : String) : Prop
  | missing (hfile : Resolve.file? tree ((F.path r).join ⟨target⟩).normalize = none)
      (hindex : Resolve.index? tree ((F.path r).join ⟨target⟩).normalize = none)
  | kept (h : F.Keeps tree r target)

/-- No manifest in the folder leads to a file outside of it. -/
def EnclosesManifests : Prop :=
  ∀ r manifest target, Resolve.manifest? readJson tree (F.path r) = some manifest →
    Resolve.NamesTarget options manifest target → F.EnclosesTarget tree r target

variable {F readJson tree options} {r : Route} {target : String}

theorem EnclosesTarget.beside (h : F.EnclosesTarget tree r target)
    (htop : ((F.path r).join ⟨target⟩).normalize = F.top) :
    Resolve.file? tree F.top = none := by
  cases h with
  | missing hfile => rwa [htop] at hfile
  | kept h => exact h.beside htop

theorem normalize_join (F : Folder) {r : Route} {target : String}
    (hrelative : (⟨target⟩ : Path).isAbsolute = false)
    (hinside : (Path.depth? 0 (r.stretches ++ Path.stretches target.toList)).isSome) :
    ((F.path r).join ⟨target⟩).normalize = F.path (r.join target hinside).settled := by
  rw [F.path_join r hrelative hinside, F.normalize_path]

end Folder

namespace FileTree.Copies

open Folder Resolve

variable {readJson : String → Option Json} {root tree : FileTree} {F F' : Folder}
  {options : CompilerOptions}
  (h : root.Copies F F' tree) {r : Route} {target : String}

include h

/-- The end of a path that stays in the folder, seen from two copies. -/
theorem twin_file?_normalize (hrelative : (⟨target⟩ : Path).isAbsolute = false)
    (hinside : (Path.depth? 0 (r.stretches ++ Path.stretches target.toList)).isSome)
    (hbeside : ((F.path r).join ⟨target⟩).normalize = F.top → file? root F.top = none)
    (hbeside' : ((F'.path r).join ⟨target⟩).normalize = F'.top → file? root F'.top = none) :
    Option.Rel (Twin F F') (file? root ((F.path r).join ⟨target⟩).normalize)
      (file? root ((F'.path r).join ⟨target⟩).normalize) := by
  rw [normalize_join F hrelative hinside] at hbeside ⊢
  rw [normalize_join F' hrelative hinside] at hbeside' ⊢
  by_cases hhere : (r.join target hinside).settled.stretches = []
  · have htop (F : Folder) : F.path (r.join target hinside).settled = F.top := by
      rw [Folder.path, hhere, List.append_nil]
      rfl
    rw [htop, htop, hbeside (htop F), hbeside' (htop F')]
    exact .none
  · exact h.twin_file? hhere

/-- The files that are found at the end of a path that a manifest names, seen from two copies. -/
theorem twin_target (ht : F.EnclosesTarget root r target)
    (ht' : F'.EnclosesTarget root r target) :
    Option.Rel (Twin F F') (file? root ((F.path r).join ⟨target⟩).normalize)
        (file? root ((F'.path r).join ⟨target⟩).normalize) ∧
      Option.Rel (Twin F F') (index? root ((F.path r).join ⟨target⟩).normalize)
        (index? root ((F'.path r).join ⟨target⟩).normalize) := by
  have hkept (hrelative : (⟨target⟩ : Path).isAbsolute = false)
      (hinside : (Path.depth? 0 (r.stretches ++ Path.stretches target.toList)).isSome) :
      Option.Rel (Twin F F') (file? root ((F.path r).join ⟨target⟩).normalize)
          (file? root ((F'.path r).join ⟨target⟩).normalize) ∧
        Option.Rel (Twin F F') (index? root ((F.path r).join ⟨target⟩).normalize)
          (index? root ((F'.path r).join ⟨target⟩).normalize) := by
    refine ⟨h.twin_file?_normalize hrelative hinside ht.beside ht'.beside, ?_⟩
    rw [normalize_join F hrelative hinside, normalize_join F' hrelative hinside]
    exact h.twin_index? (.path _)
  have hcases := ht'
  cases ht with
  | kept hin => exact hkept hin.relative hin.inside
  | missing hfile hindex =>
      cases hcases with
      | kept hin => exact hkept hin.relative hin.inside
      | missing hfile' hindex' =>
          rw [hfile, hfile', hindex, hindex']
          exact ⟨.none, .none⟩

variable (hm : F.EnclosesManifests readJson root options)
  (hm' : F'.EnclosesManifests readJson root options)

include hm hm'

theorem twin_exported? (r : Route) (subpath : String) :
    Option.Rel (Twin F F') (exported? readJson root options (F.path r) subpath)
      (exported? readJson root options (F'.path r) subpath) := by
  have hsame := h.manifest? readJson (.path r)
  unfold exported?
  rw [hsame]
  refine rel_bind _ fun _ hmaps ↦ rel_bind _ fun manifest hmanifest ↦
    rel_bind _ fun entry hentry ↦
    rel_bind _ fun target htarget ↦ ?_
  have hnames : NamesTarget options manifest target :=
    .exported ((Option.guard_eq_some' _).mp hmaps) hentry htarget
  exact (h.twin_target (hm r manifest target hmanifest hnames)
    (hm' r manifest target (hsame.trans hmanifest) hnames)).1

theorem twin_typings? {r : Route} {manifest : Json}
    (hmanifest : Resolve.manifest? readJson root (F.path r) = some manifest) :
    Option.Rel (Twin F F') (typings? root (F.path r) manifest)
      (typings? root (F'.path r) manifest) := by
  refine rel_bind _ fun target htarget ↦ ?_
  obtain ⟨hfile, hindex⟩ := h.twin_target (hm r manifest target hmanifest (.typings htarget))
    (hm' r manifest target ((h.manifest? readJson (.path r)).trans hmanifest) (.typings htarget))
  exact rel_orElse hfile hindex

/-- What a directory stands for in two copies of a folder whose manifests lead nowhere else. -/
theorem twin_directory? (r : Route) :
    Option.Rel (Twin F F') (directory? readJson root options (F.path r))
      (directory? readJson root options (F'.path r)) := by
  unfold directory?
  rw [h.isDirectory_twin (.path r), h.manifest? readJson (.path r)]
  exact rel_bind _ fun _ _ ↦ rel_orElse
    (rel_bind _ fun _ hmanifest ↦
      rel_orElse (h.twin_exported? hm hm' r ".") (h.twin_typings? hm hm' hmanifest))
    (h.twin_index? (.path r))

end FileTree.Copies

end PluginSurface
