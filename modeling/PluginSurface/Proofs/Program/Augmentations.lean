import PluginSurface.Proofs.Binding.Reexports
import PluginSurface.Proofs.Program.ImportTypes
import PluginSurface.Proofs.Typing.DeclaredMembers

/-!
# Augmented modules

A module file adds to an interface of another one by declaring it again in a module with the name of
that file. The name leads to the file if the source text mentions it elsewhere, in an import, an
export or an import type. Otherwise a module of that name is declared, and nothing is added.
-/

namespace PluginSurface

/-- The interfaces that the text exports from modules that it declares by name, under these names.
Which they are depends neither on the file nor on the module. -/
def SourceFile.augmentations (f : SourceFile) : List (String × InterfaceDecl) :=
  f.statements.flatMap fun t ↦
    match t.decl with
    | .moduleDecl (.string specifier) (some body) =>
      let all := Binder.exportsAll ⟨0, Binding.globalScope, some 0, true⟩ body
      body.filterMap fun s ↦
        match s.decl with
        | .interfaceDecl decl => if s.isExported all then some (specifier, decl) else none
        | _ => none
    | _ => []

theorem SourceFile.mem_augmentations {f : SourceFile} {specifier : String} {decl : InterfaceDecl}
    (h : (specifier, decl) ∈ f.augmentations) :
    ∃ t ∈ f.statements, ∃ body, t.decl = .moduleDecl (.string specifier) (some body) ∧
      ∃ s ∈ body, s.decl = .interfaceDecl decl ∧
        s.isExported (Binder.exportsAll ⟨0, Binding.globalScope, some 0, true⟩
          body) = true := by
  obtain ⟨t, ht, h⟩ := List.mem_flatMap.mp h
  split at h
  next name body hmodule =>
    obtain ⟨s, hs, h⟩ := List.mem_filterMap.mp h
    split at h
    next found hdecl =>
      split at h
      next hexported =>
        obtain ⟨rfl, rfl⟩ := Prod.mk.inj (Option.some.inj h)
        exact ⟨t, ht, body, hmodule, s, hs, hdecl, hexported⟩
      next => cases h
    next => cases h
  next => cases h

namespace Checker

variable {p : Program}

/-- The interface is exported by the module that is declared. -/
theorem exports_of_augmentation {i : Nat} {u : SourceUnit} (hu : p.units[i]? = some u)
    {specifier : String} {decl : InterfaceDecl} (h : (specifier, decl) ∈ u.tree.augmentations) :
    ∃ m scope, (ofProgram p).binding.declaredModule p i
        ((ofProgram p).binding.fileModules.getD i none).isSome specifier = some m ∧
      (ofProgram p).binding.IsModule m ∧
      (ofProgram p).binding.Exports m decl.name.text ⟨i, scope, .interfaceDecl decl⟩ := by
  obtain ⟨t, ht, body, hmodule, s, hs, hdecl, hexported⟩ := SourceFile.mem_augmentations h
  obtain ⟨place, rfl, hcontainer, _, hall⟩ := Binding.settledFile_ofProgram hu
  obtain ⟨m, scope, hdeclared, hm, hbody⟩ := (hall _ ht).module _ _ hmodule
  rw [hcontainer] at hdeclared
  have hexports := (Statement.DeclaresType.interfaceDecl hdecl).exports (hbody s hs) hexported rfl
  exact ⟨m, scope, hdeclared, hm, hexports.1⟩

/-- An export that is no link stands for itself. -/
theorem export?_of_lookup {m D : Nat} {name : String} (hm : (ofProgram p).binding.IsModule m)
    (honce : (ofProgram p).ExportsOnce (m, name))
    (hD : ((ofProgram p).binding.symbol m).exports.lookup name = some D)
    (hlink : ((ofProgram p).binding.symbol D).link? = none) :
    (ofProgram p).export? m name = some D := by
  obtain ⟨n, hn⟩ : ∃ n, (ofProgram p).trailLimit = n + 1 :=
    Nat.exists_eq_succ_of_ne_zero (by have := hm.lt; unfold trailLimit; omega)
  have hplain := plain_of_isModule hm honce.exportEquals
  rw [export?, links, linksWithin_member _ _ hplain hD, if_neg List.not_mem_nil, hn]
  exact linksWithin_target n _ hlink

theorem declaresType_of_typeKind? {s : Statement} {kind : DeclarationKind} {name : Name}
    (hkind : s.typeKind? = some kind) (hname : kind.typeName? = some name) :
    s.DeclaresType name.text kind := by
  unfold Statement.typeKind? at hkind
  split at hkind
  next i hdecl =>
    cases hkind
    cases hname
    exact .interfaceDecl hdecl
  next a hdecl =>
    cases hkind
    cases hname
    exact .aliasDecl hdecl
  next => cases hkind

variable {readJson : String → Option Json} {tree : FileTree} {options : CompilerOptions}
  {entry : Path}

/-- If a module file mentions the specifier of a file, an interface that it declares in a module of
that name adds its members to the interface that the file exports. If it does not, the interface is
one of a module with that name as its only name. -/
theorem propertiesOf_augmented (hload : Program.load readJson tree options entry = .ok p)
    {i j m : Nat} {u : SourceUnit} (hu : p.units[i]? = some u) (hmodule : u.tree.isModule = true)
    {specifier : String} {decl : InterfaceDecl}
    (haugments : (specifier, decl) ∈ u.tree.augmentations)
    {path : Path}
    (hpath : Resolve.module? readJson tree options specifier u.path.directory = some path)
    (hj : p.unitAt? path = some j) (hm : (ofProgram p).binding.fileModules.getD j none = some m)
    {kind : DeclarationKind} (htarget : (ofProgram p).ExportsType (m, decl.name.text) j kind)
    (honce : (ofProgram p).ExportsOnce (m, decl.name.text)) :
    (specifier ∈ u.tree.specifiers →
      ∃ D d, (ofProgram p).export? m decl.name.text = some D ∧
        d ∈ ((ofProgram p).binding.symbol D).declarations ∧ d.file = i ∧
        d.kind = .interfaceDecl decl ∧
        (∃ e ∈ ((ofProgram p).binding.symbol D).declarations, e.file = j ∧ e.kind = kind) ∧
        ∀ name args key, (∃ member ∈ decl.members, member.key? = some key) →
          Members.has key ((ofProgram p).propertiesOf (.reference D name args)) = true ∧
          ∀ before after, ((ofProgram p).binding.symbol D).declarations = before ++ d :: after →
            (∀ other ∈ before ++ after,
              Members.has key ((ofProgram p).declaredBy D args other) = false) →
            ((ofProgram p).propertiesOf (.reference D name args)).filter (·.name == key) =
              ((ofProgram p).declaredBy D args d).filter (·.name == key)) ∧
    (specifier ∉ u.tree.specifiers →
      ∃ other scope, (ofProgram p).binding.ambientModules.lookup specifier = some other ∧
        (ofProgram p).binding.Exports other decl.name.text
          ⟨i, scope, .interfaceDecl decl⟩) := by
  obtain ⟨m', scope, hdeclared, hmodule', hexports⟩ := exports_of_augmentation hu haugments
  have hfile : ((ofProgram p).binding.fileModules.getD i none).isSome = true :=
    (Binding.isSome_fileModules hu).trans hmodule
  rw [Binding.declaredModule, if_pos hfile] at hdeclared
  constructor
  · intro hs
    rw [Program.resolvedModule_eq_unitAt? hload hu hs hpath, hj, Option.bind_some, hm] at hdeclared
    obtain rfl : m = m' := Option.some.inj hdeclared
    obtain ⟨D, e, hD, he, hfile, hkind, hlink⟩ := lookup_of_exportsType htarget honce
    obtain ⟨id, hid, hd⟩ := hexports
    obtain rfl : D = id :=
      Option.some.inj (hD.symm.trans (lookup_of_exportsOnce (p := (m, decl.name.text)) honce hid))
    exact ⟨D, _, export?_of_lookup hmodule' honce hD hlink, hd, rfl, rfl,
      ⟨e, he, hfile, hkind⟩,
      fun name args key hkey ↦ propertiesOf_of_interface hd rfl hkey name⟩
  · intro hs
    rw [Program.resolvedModule_eq_none hload hu hs] at hdeclared
    exact ⟨m', scope, hdeclared, hexports⟩

def augmentedTree : FileTree := .directory [
  ("entry.d.ts", .file (some "import './told';import './untold';")),
  ("told.d.ts", .file (some ("import './options';" ++
    "declare module './options'\x7binterface Options\x7bb:string\x7d\x7d"))),
  ("untold.d.ts", .file (some ("export declare const n:number;" ++
    "declare module './options'\x7binterface Options\x7bc:string\x7d\x7d"))),
  ("options.d.ts", .file (some "export interface Options\x7ba:string\x7d"))]

def augmentedProgram : Program :=
  (Program.load (fun _ ↦ none) augmentedTree .default ⟨"/entry.d.ts"⟩).toOption.getD
    ⟨.default, #[]⟩

theorem load_augmentedProgram :
    Program.load (fun _ ↦ none) augmentedTree .default ⟨"/entry.d.ts"⟩ =
      .ok augmentedProgram := by
  have hok :
      (Program.load (fun _ ↦ none) augmentedTree .default
        ⟨"/entry.d.ts"⟩).toOption.isSome := by
    decide +kernel
  obtain ⟨p, hp⟩ := Option.isSome_iff_exists.mp hok
  rw [augmentedProgram, hp]
  exact toOption_eq_some.mp hp

/-- The unit is a module that mentions the specifiers and adds a member to the options. -/
def addsOption (specifiers : List String) (key : String) (u : SourceUnit) : Bool :=
  u.path.directory == ⟨"/"⟩ && u.tree.isModule && u.tree.specifiers == specifiers &&
    u.tree.augmentations.any fun e ↦ e.1 == "./options" && e.2.name.text == "Options" &&
      e.2.members.any (·.key? == some key)

/-- The unit exports the options from the module `0`. -/
def exportsOptions (u : SourceUnit) : Bool :=
  let all :=
    Binder.exportsAll ⟨0, Binding.globalScope, some 0, u.isDeclaration⟩ u.tree.statements
  u.tree.statements.any fun s ↦ s.isExported all &&
    s.typeKind?.any fun kind ↦ kind.typeName?.any (·.text == "Options")

theorem augmentedProgram_spec :
    augmentedProgram.units[0]?.any exportsOptions = true ∧
    augmentedProgram.units[1]?.any (addsOption ["./options"] "b") = true ∧
    augmentedProgram.units[2]?.any (addsOption [] "c") = true ∧
    augmentedProgram.unitAt? ⟨"/options.d.ts"⟩ = some 0 ∧
    (ofProgram augmentedProgram).binding.fileModules.getD 0 none = some 0 ∧
    (ofProgram augmentedProgram).ExportsOnce (0, "Options") ∧
    (ofProgram augmentedProgram).export? 0 "Options" = some 4 ∧
    Members.has "c" ((ofProgram augmentedProgram).propertiesOf (.reference 4 "Options" [])) =
      false := by
  decide +kernel

theorem exists_addsOption {p : Program} {i : Nat} {specifiers : List String} {key : String}
    (h : p.units[i]?.any (addsOption specifiers key) = true) :
    ∃ u decl, p.units[i]? = some u ∧ u.path.directory = ⟨"/"⟩ ∧ u.tree.isModule = true ∧
      u.tree.specifiers = specifiers ∧ ("./options", decl) ∈ u.tree.augmentations ∧
      decl.name.text = "Options" ∧ ∃ m ∈ decl.members, m.key? = some key := by
  obtain ⟨u, hu, h⟩ := (Option.any_eq_true _ _).mp h
  simp only [addsOption, Bool.and_eq_true, beq_iff_eq, List.any_eq_true] at h
  obtain ⟨⟨⟨hdirectory, hmodule⟩, hspecifiers⟩, ⟨specifier, decl⟩, hmem,
    ⟨rfl, hname⟩, hkey⟩ := h
  exact ⟨u, decl, hu, hdirectory, hmodule, hspecifiers, hmem, hname, hkey⟩

theorem exists_exportsOptions (h : p.units[0]?.any exportsOptions = true)
    (hm : (ofProgram p).binding.fileModules.getD 0 none = some 0) :
    ∃ kind, (ofProgram p).ExportsType (0, "Options") 0 kind := by
  obtain ⟨u, hu, h⟩ := (Option.any_eq_true _ _).mp h
  obtain ⟨s, hs, h⟩ := List.any_eq_true.mp h
  obtain ⟨hexported, h⟩ := Bool.and_eq_true_iff.mp h
  obtain ⟨kind, hkind, h⟩ := (Option.any_eq_true _ _).mp h
  obtain ⟨name, hname, htext⟩ := (Option.any_eq_true _ _).mp h
  refine ⟨kind, .file hu hm hs, hexported, ?_⟩
  rw [← beq_iff_eq.mp htext]
  exact declaresType_of_typeKind? hkind hname

/-- One file mentions the name elsewhere and adds `b`, the other one does not add `c`. -/
theorem propertiesOf_augmented_told :
    Program.load (fun _ ↦ none) augmentedTree .default ⟨"/entry.d.ts"⟩ =
      .ok augmentedProgram ∧
    ∃ D other, (ofProgram augmentedProgram).export? 0 "Options" = some D ∧
      Members.has "b" ((ofProgram augmentedProgram).propertiesOf (.reference D "Options" [])) ∧
      (ofProgram augmentedProgram).binding.ambientModules.lookup "./options" = some other ∧
      Members.has "c" ((ofProgram augmentedProgram).propertiesOf (.reference D "Options" [])) =
        false := by
  obtain ⟨hoptions, htold, huntold, hj, hm, honce, hfound, hmissing⟩ := augmentedProgram_spec
  obtain ⟨kind, htarget⟩ := exists_exportsOptions hoptions hm
  obtain ⟨u, told, hu, hdir, hmodule, hspecifiers, haugments, hname, hkey⟩ :=
    exists_addsOption htold
  obtain ⟨v, untold, hv, hdir', hmodule', hspecifiers', haugments', hname', -⟩ :=
    exists_addsOption huntold
  have hpath : Resolve.module? (fun _ ↦ none) augmentedTree .default "./options" ⟨"/"⟩ =
      some ⟨"/options.d.ts"⟩ := by decide +kernel
  obtain ⟨D, _, hD, _, _, _, _, hmembers⟩ :=
    (propertiesOf_augmented load_augmentedProgram hu hmodule haugments (hdir ▸ hpath) hj hm
      (hname ▸ htarget) (hname ▸ honce)).1 (hspecifiers ▸ List.mem_singleton_self _)
  obtain ⟨other, _, hother, _⟩ :=
    (propertiesOf_augmented load_augmentedProgram hv hmodule' haugments' (hdir' ▸ hpath) hj hm
      (hname' ▸ htarget) (hname' ▸ honce)).2 (hspecifiers' ▸ List.not_mem_nil)
  rw [hname] at hD
  obtain rfl : D = 4 := Option.some.inj (hD.symm.trans hfound)
  exact ⟨load_augmentedProgram, 4, other, hD, (hmembers "Options" [] "b" hkey).1,
    hother, hmissing⟩

end Checker

end PluginSurface
