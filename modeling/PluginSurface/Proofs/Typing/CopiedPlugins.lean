import PluginSurface.Parity
import PluginSurface.Proofs.FileTree.Files
import PluginSurface.Proofs.Program.Copies
import PluginSurface.Proofs.Search.Entities
import PluginSurface.Proofs.Typing.MemberOrder
import PluginSurface.Proofs.Typing.OptionFields

/-!
# The plugins of two copies of a folder

Two copies of a folder have the same plugins with options of the same shapes, wherever the copies
are, as long as no written type names a file as a module: such a type reads as the path of the file.
-/

namespace PluginSurface

/-- No name in a type that can be opened stands for a file as a module. -/
structure Checker.NamesNoFile (c : Checker) : Prop where
  declarations : ∀ id, ∀ d ∈ (c.binding.symbol id).declarations,
    c.Mentions (fun id ↦ ¬c.binding.IsFile id) d.file d.scope d.kind.mentions
  options : ∀ e ∈ c.program.entities "", ∀ x ∈ c.option? e,
    c.Mentions (fun id ↦ ¬c.binding.IsFile id) x.1.file x.1.scope x.2.mentions

namespace Checker

instance (b : Binding) (id : Nat) : Decidable (b.IsFile id) :=
  inferInstanceAs (Decidable (some id ∈ b.fileModules))

instance (c : Checker) (file scope : Nat) (ms : List Mention) :
    Decidable (c.Mentions (fun id ↦ ¬c.binding.IsFile id) file scope ms) :=
  inferInstanceAs (Decidable (∀ m ∈ ms, ∀ id ∈ c.mentioned? file scope m, _))

instance (c : Checker) : Decidable c.NamesNoFile :=
  decidable_of_iff
    ((∀ id < c.binding.symbols.size, ∀ d ∈ (c.binding.symbol id).declarations,
        c.Mentions (fun id ↦ ¬c.binding.IsFile id) d.file d.scope d.kind.mentions) ∧
      ∀ e ∈ c.program.units.toList.zipIdx.flatMap fun x ↦
      x.1.found.filterMap (x.1.entity? x.2),
        ∀ x ∈ c.option? e,
          c.Mentions (fun id ↦ ¬c.binding.IsFile id) x.1.file x.1.scope x.2.mentions)
    ⟨fun h ↦ ⟨fun id d hd ↦ h.1 id (Binding.lt_of_mem_declarations hd) d hd,
        c.program.entities_empty ▸ h.2⟩,
      fun h ↦ ⟨fun id _ ↦ h.declarations id, c.program.entities_empty ▸ h.options⟩⟩

end Checker

/-- The plugins of a surface without the places that they stand at. -/
def Surface.outline (s : Surface) : List (String × PluginKind × Option Shape) :=
  s.plugins.map fun q ↦ (q.name, q.entity.kind, q.shape)

namespace Surface

variable {s s' : Surface}

/-- What is found under a name in one of two surfaces with one outline is found in the other. -/
theorem find?_of_outline_eq (h : s'.outline = s.outline) (name : String) :
    (s'.find? name).map Plugin.shape = (s.find? name).map Plugin.shape := by
  have hfind (s : Surface) : (s.find? name).map Plugin.shape =
      (s.outline.find? (·.1 == name)).map (·.2.2) := by
    rw [outline, List.find?_map, Option.map_map]
    rfl
  rw [hfind, hfind, h]

/-- The plugin that comes first under its name is implemented in a surface with the same outline. -/
theorem verdict_of_outline_eq (h : s'.outline = s.outline) {q : Plugin}
    (hq : s.find? q.name = some q) : s'.verdict .structural q = .implemented := by
  have hfind := find?_of_outline_eq h q.name
  rw [hq, Option.map_some, Option.map_eq_some_iff] at hfind
  obtain ⟨other, hother, hshape⟩ := hfind
  unfold verdict
  rw [hother]
  exact if_pos (hshape ▸ Shape.equal_self _)

theorem find?_of_unique {q : Plugin} (hq : q ∈ s.plugins)
    (hunique : (s.plugins.map Plugin.name).count q.name = 1) : s.find? q.name = some q := by
  obtain ⟨before, after, hsplit⟩ := List.append_of_mem hq
  have hbefore : q.name ∉ before.map Plugin.name := by
    rw [hsplit, List.map_append, List.count_append, List.map_cons, List.count_cons_self] at hunique
    exact List.count_eq_zero.mp (by omega)
  have hnone : before.find? (·.name == q.name) = none := by
    refine List.find?_eq_none.mpr fun other hother hname ↦ hbefore ?_
    exact List.mem_map.mpr ⟨other, hother, beq_iff_eq.mp hname⟩
  rw [find?, hsplit, List.find?_append, hnone, Option.none_or]
  exact List.find?_cons_of_pos (beq_self_eq_true q.name)

end Surface

namespace Program

variable {F F' : Folder} {p p' : Program}
  (h : List.Forall₂ (SourceUnit.IsTwin F F') p.units.toList p'.units.toList)

include h

/-- The same plugins are found in both copies. -/
theorem twin_entities :
    List.Forall₂ (fun e e' ↦ ∃ location, e' = { e with location := location })
    (p.entities "") (p'.entities "") := by
  rw [entities_empty, entities_empty]
  refine List.rel_flatMap (forall₂_zipIdx h 0) ?_
  rintro ⟨u, file⟩ ⟨u', _⟩ ⟨rfl, hu⟩
  dsimp only
  rw [SourceUnit.found, SourceUnit.found, hu.tree]
  refine List.rel_filterMap ?_ (List.forall₂_same.mpr fun _ _ ↦ rfl)
  rintro found _ rfl
  unfold SourceUnit.entity?
  split
  · exact .some ⟨_, rfl⟩
  · exact .none

theorem twin_option? (hmirrors : p.Mirrors (fun _ ↦ TypeEdit.none) False p') {e : Entity}
    (location : Location) :
    (Checker.ofProgram p').option? { e with location := location } =
      (Checker.ofProgram p).option? e := by
  have henv : (Checker.ofProgram p').envAt? e.file e.node =
      (Checker.ofProgram p).envAt? e.file e.node := by
    unfold Checker.envAt?
    rw [(Checker.mirrors_ofProgram hmirrors).binding.statementScopes]
  have hunit := rel_getElem? h e.file
  rw [Array.getElem?_toList, Array.getElem?_toList] at hunit
  unfold Checker.option?
  rw [henv]
  change (p'.units[e.file]?.bind _) = p.units[e.file]?.bind _
  generalize p.units[e.file]? = o at hunit ⊢
  generalize p'.units[e.file]? = o' at hunit ⊢
  cases hunit with
  | none => rfl
  | some hu => simp only [Option.bind_some, hu.tree]

theorem alike_of_copies (hoptions : p'.options = p.options)
    (hnames : (Checker.ofProgram p).NamesNoFile) :
    (Checker.ofProgram p).Alike Eq (fun _ ↦ True) (fun _ ↦ TypeEdit.none)
      (fun id ↦ False ∨ ¬(Checker.ofProgram p).binding.IsFile id) (Checker.ofProgram p') where
  mirrors := Checker.mirrors_ofProgram (mirrors_of_copies h hoptions)
  congruence := Members.congruence_eq
  mentions id d hd m hm other hother := .inr (hnames.declarations id d hd m hm other hother)
  safe_types _ _ _ := trivial
  safe_heritage _ _ _ := trivial
  aliases _ _ _ _ _ := rfl
  interfaces _ _ _ _ _ := .inl rfl

theorem twin_optionShape? (hoptions : p'.options = p.options)
    (hnames : (Checker.ofProgram p).NamesNoFile) {e : Entity} (he : e ∈ p.entities "")
    (location : Location) :
    (Checker.ofProgram p').optionShape? { e with location := location } =
      (Checker.ofProgram p).optionShape? e := by
  have halike := Checker.alike_typing (alike_of_copies h hoptions hnames).opensAlike
  rw [Checker.optionShape?_eq, Checker.optionShape?_eq,
    twin_option? h (mirrors_of_copies h hoptions)]
  refine Option.map_congr fun x hx ↦ ?_
  have htype : (Checker.ofProgram p').typeAt x.1 x.2 = (Checker.ofProgram p).typeAt x.1 x.2 :=
    halike.typeAt ⟨[], []⟩ x.1 x.2 trivial
      fun m hm id hid ↦ .inr (hnames.options e he x hx m hm id hid)
  have hproperties (t : Ty) :
      (Checker.ofProgram p').propertiesOf t = (Checker.ofProgram p).propertiesOf t :=
    (halike.propertiesOf ⟨[], []⟩ t trivial).symm
  rw [htype, Checker.shapeOf, Checker.shapeOf, hproperties]

theorem outline_of_copies (hoptions : p'.options = p.options)
    (hnames : (Checker.ofProgram p).NamesNoFile) (entry entry' : Path) :
    (Surface.ofProgram p' ⟨entry', ""⟩).outline =
      (Surface.ofProgram p ⟨entry, ""⟩).outline := by
  have hentities : List.Forall₂
      (fun e e' ↦ e ∈ p.entities "" ∧ ∃ location, e' = { e with location := location })
      (p.entities "") (p'.entities "") :=
    (List.forall₂_and_left _ _).mpr ⟨fun _ he ↦ he, twin_entities h⟩
  unfold Surface.outline Surface.ofProgram Checker.plugins
  rw [List.map_map, List.map_map, eq_comm, ← List.forall₂_eq_eq_eq, List.forall₂_map_left_iff,
    List.forall₂_map_right_iff]
  refine hentities.imp ?_
  rintro e _ ⟨he, location, rfl⟩
  have hshape := twin_optionShape? h hoptions hnames he location
  simp only [Function.comp_apply]
  rw [show (Checker.ofProgram p').optionShape? _ = _ from hshape]
  rfl

end Program

/-- A comparison of the two copies finds the same plugins in both, and those with a name of their
own are implemented. -/
structure Parity.OfCopies (parity : Parity) : Prop where
  outline : parity.candidate.outline = parity.reference.outline
  rows : parity.rows.map Row.plugin = parity.reference.plugins.map Plugin.name
  implemented : ∀ row ∈ parity.rows,
    (parity.reference.plugins.map Plugin.name).count row.plugin = 1 → row.verdict = .implemented

/-- If all that is loaded from an entry of a folder is enclosed in the folder, as are the paths in
its manifests, and no type in it names a file as a module, the same plugins are loaded from a copy
of the folder. -/
theorem Parity.load_copies {readJson : String → Option Json} {root tree : FileTree}
    {F F' : Folder} {options : CompilerOptions}
    (h : root.Copies F F' tree) (hmanifests : F.EnclosesManifests readJson root options)
    (hmanifests' : F'.EnclosesManifests readJson root options) {r : Route} {p : Program}
    (hload : Program.load readJson root options (F.path r) = .ok p)
    (henclosed : ∀ u ∈ p.units, u.IsEnclosed F F' readJson root options)
    (hnames : (Checker.ofProgram p).NamesNoFile) :
    ∃ parity, (load readJson root options ⟨F.path r, ""⟩ ⟨F'.path r, ""⟩ .structural).1 =
      .ok parity ∧ parity.OfCopies := by
  obtain ⟨p', hload', hoptions, htwin⟩ :=
    Program.twin_load h hmanifests hmanifests' hload henclosed
  have hfirst : Surface.load readJson root options ⟨F.path r, ""⟩ =
      .ok (.ofProgram p ⟨F.path r, ""⟩,
        (Surface.ofProgram p ⟨F.path r, ""⟩).notices p) := by
    rw [Surface.load, hload]
    rfl
  have hsecond : Surface.load readJson root options ⟨F'.path r, ""⟩ =
      .ok (.ofProgram p' ⟨F'.path r, ""⟩,
        (Surface.ofProgram p' ⟨F'.path r, ""⟩).notices p') := by
    rw [Surface.load, hload']
    rfl
  have houtline := Program.outline_of_copies htwin hoptions hnames (F.path r) (F'.path r)
  refine ⟨_, by rw [load, hfirst, hsecond], houtline, ?_, ?_⟩
  · rw [ofSurfaces, Surface.compare, List.map_map]
    rfl
  · intro row hrow hcount
    obtain ⟨q, hq, rfl⟩ := List.mem_map.mp hrow
    exact Surface.verdict_of_outline_eq houtline (Surface.find?_of_unique hq hcount)

/-- Plugins whose options refer to another file of their folder and to a package in it. -/
def pluginFolder : FileTree := .directory [
  ("index.d.ts", .file (some <| "import \x7bP\x7d from './x'; import \x7bQ\x7d from 'lib'; " ++
    "export class APlugin\x7bconstructor(o:P)\x7b\x7d\x7d " ++
    "export class BPlugin\x7bconstructor(o:Q)\x7b\x7d\x7d")),
  ("x.d.ts", .file (some "export type P = 1")),
  ("node_modules", .directory [("lib", .directory [
    ("package.json", .file (some (Resolve.typingsManifest "main"))),
    ("main.d.ts", .file (some "export type Q = 2"))])])]

def copiedTree : FileTree := .directory [("a", pluginFolder), ("b", pluginFolder)]

def readMain : String → Option Json := Resolve.readTypings "main"

/-- What is written in the manifest of the package stays in the package. -/
theorem enclosesManifests_copiedTree {F : Folder}
    (hbeside : Resolve.file? copiedTree F.top = none) :
    F.EnclosesManifests readMain copiedTree .default := by
  intro r manifest target hmanifest hnames
  obtain ⟨text, hread, hjson⟩ := Option.bind_eq_some_iff.mp hmanifest
  have htexts :
      ∀ text ∈ copiedTree.texts, ∀ target ∈ (readMain text).bind Resolve.namedTypings?,
      target = "main" := by
    decide +kernel
  cases hnames with
  | typings h =>
      obtain rfl := htexts text (FileTree.mem_texts_of_read? hread) target
        (Option.bind_eq_some_iff.mpr ⟨manifest, hjson, h⟩)
      exact .kept ⟨by decide +kernel, r.inside_append (by decide), fun _ ↦ hbeside⟩
  | exported hmaps => cases hmaps

theorem Parity.load_copies_imported :
    ∃ p parity, Program.load readMain copiedTree .default ⟨"/a/index.d.ts"⟩ = .ok p ∧
      (Checker.ofProgram p).NamesNoFile ∧
      (p.entities "").map (fun e ↦ (e.name, (Checker.ofProgram p).optionShape? e)) =
        [("APlugin", some (.scalar "1")), ("BPlugin", some (.scalar "2"))] ∧
      (load readMain copiedTree .default ⟨⟨"/a/index.d.ts"⟩, ""⟩
        ⟨⟨"/b/index.d.ts"⟩, ""⟩ .structural).1 = .ok parity ∧ parity.OfCopies := by
  let F (name : String) (h : Path.IsName name) : Folder := ⟨[name], by simp, by simpa using h⟩
  let A : Folder := F "a" (by decide)
  let B : Folder := F "b" (by decide)
  let r : Route := Route.here.concat "index.d.ts" (by decide)
  let lib : Route := (Route.here.concat "node_modules" (by decide)).concat "lib" (by decide)
  have hfacts :
      ∃ p ∈ (Program.load readMain copiedTree .default ⟨"/a/index.d.ts"⟩).toOption,
      (∀ u ∈ p.units, u.tree.references = [] ∧
        (u.path.directory = A.path .here ∧
          (∀ s ∈ u.tree.specifiers, s = "./x" ∨ s = "lib") ∨
          u.path.directory = A.path lib ∧ u.tree.specifiers = [])) ∧
      (Checker.ofProgram p).NamesNoFile ∧
      (p.units.toList.zipIdx.flatMap fun x ↦ x.1.found.filterMap fun found ↦
        (x.1.entity? x.2 found).map fun e ↦ (e.name, (Checker.ofProgram p).optionShape? e)) =
        [("APlugin", some (.scalar "1")), ("BPlugin", some (.scalar "2"))] := by
    decide +kernel
  obtain ⟨p, hload, hunits, hnames, hplugins⟩ := hfacts
  have hok := toOption_eq_some.mp hload
  have hcopies : copiedTree.Copies A B pluginFolder := by
    refine ⟨?_, ?_, rfl⟩
    · rw [FileTree.node?, FileTree.follow?, if_pos (by decide +kernel),
        show Path.stretches A.top.text.toList = [[], ['a']] by decide +kernel]
      rfl
    · rw [FileTree.node?, FileTree.follow?, if_pos (by decide +kernel),
        show Path.stretches B.top.text.toList = [[], ['b']] by decide +kernel]
      rfl
  have hbeside :
      Resolve.file? copiedTree A.top = none ∧ Resolve.file? copiedTree B.top = none := by
    decide +kernel
  have hfile (F : Folder) (hbeside : Resolve.file? copiedTree F.top = none) :
      F.Encloses readMain copiedTree .default .here "./x" :=
    .relative (by decide +kernel) ⟨by decide +kernel, by decide, fun _ ↦ hbeside⟩
  have hpackage (F : Folder)
      (habove : ∀ dir ∈ F.top.parents, Resolve.packageAt? readMain copiedTree .default
        "lib" dir = none) :
      F.Encloses readMain copiedTree .default .here "lib" :=
    .package (by decide +kernel) ⟨by decide +kernel, by decide +kernel, by decide⟩ habove
  have henclosed : ∀ u ∈ p.units, u.IsEnclosed A B readMain copiedTree .default := by
    intro u hu
    obtain ⟨hreferences, ⟨hdirectory, hspecifiers⟩ | ⟨hdirectory, hspecifiers⟩⟩ :=
      hunits u hu
    · refine ⟨.here, hdirectory, fun s hs ↦ ?_, by simp [hreferences]⟩
      obtain rfl | rfl := hspecifiers s hs
      · exact ⟨hfile A hbeside.1, hfile B hbeside.2⟩
      · exact ⟨hpackage A (by decide +kernel), hpackage B (by decide +kernel)⟩
    · exact ⟨lib, hdirectory, by simp [hspecifiers], by simp [hreferences]⟩
  obtain ⟨parity, hparity, hof⟩ :=
    load_copies hcopies (enclosesManifests_copiedTree hbeside.1)
      (enclosesManifests_copiedTree hbeside.2) (r := r) hok henclosed hnames
  refine ⟨p, parity, hok, hnames, ?_, hparity, hof⟩
  rw [p.entities_empty, List.map_flatMap]
  simpa only [List.map_filterMap] using hplugins

end PluginSurface
