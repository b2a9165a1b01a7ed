import PluginSurface.Binding.Links
import PluginSurface.Proofs.Binding.Visits
import PluginSurface.Proofs.Program.DepthFirst
import PluginSurface.Proofs.Syntax.Parts

/-!
# The modules of import types

In a loaded program each specifier that a source text mentions leads to a unit, if there is a file
for it, and a unit that is a module has a symbol. So an import type is resolved, provided that it
stands in a place that is searched for modules.
-/

namespace PluginSurface

namespace Binder

theorem fileModules_declareFile (u : SourceUnit) (file : Nat) (b : Binding) :
    (declareFile u file b).2.fileModules.toList.map Option.isSome =
      b.fileModules.toList.map Option.isSome ++ [u.tree.isModule] := by
  unfold declareFile
  cases u.tree.isModule with
  | false =>
      change (b.fileModules.push none).toList.map Option.isSome = _
      simp
  | true =>
      change (b.fileModules.push (some b.symbols.size)).toList.map Option.isSome = _
      simp

theorem fileModules_declareFiles (files : List (SourceUnit × Nat)) (b : Binding) :
    ((files.forM fun (u, file) ↦ declareFile u file) b).2.fileModules.toList.map Option.isSome =
      b.fileModules.toList.map Option.isSome ++ files.map (·.1.tree.isModule) := by
  induction files generalizing b with
  | nil => simp; rfl
  | cons x rest ih =>
      refine (ih (declareFile x.1 x.2 b).2).trans ?_
      rw [fileModules_declareFile, List.append_assoc]
      rfl

end Binder

/-- A file has a symbol if and only if it is a module. -/
theorem Binding.isSome_fileModules {p : Program} {file : Nat} {u : SourceUnit}
    (hu : p.units[file]? = some u) :
    ((ofProgram p).fileModules.getD file none).isSome = u.tree.isModule := by
  have hfiles : (ofProgram p).fileModules.toList.map Option.isSome =
      p.units.toList.map (·.tree.isModule) := by
    obtain ⟨hclosed, -⟩ := Binder.closed_declareFiles p.units.toList.zipIdx Binder.closed_global
    have hgrows := (@Binder.does_bindFiles p _ p.units.toList.zipIdx hclosed).1.grows.fileModules
    refine (congrArg (fun files ↦ files.toList.map Option.isSome) hgrows).trans ?_
    refine (Binder.fileModules_declareFiles _ _).trans ?_
    change p.units.toList.zipIdx.map ((·.tree.isModule) ∘ Prod.fst) = _
    rw [← List.map_map, List.zipIdx_map_fst]
  have hget := congrArg (·[file]?) hfiles
  simp only [List.getElem?_map, Array.getElem?_toList, hu, Option.map_some] at hget
  obtain ⟨module, hmodule, hsome⟩ := Option.map_eq_some_iff.mp hget
  rw [Array.getD_eq_getD_getElem?, hmodule]
  exact hsome

namespace Program

variable {readJson : String → Option Json} {tree : FileTree} {options : CompilerOptions}
  {entry : Path} {p : Program}

theorem resolved_of_load (h : load readJson tree options entry = .ok p) {u : SourceUnit}
    (hu : u ∈ p.units) :
    u.resolved = resolveAll readJson tree options u.path.directory u.tree.specifiers := by
  refine forall_units_of_load (P := fun u ↦
    u.resolved = resolveAll readJson tree options u.path.directory u.tree.specifiers) ?_ h u hu
  intro path u hread
  obtain ⟨rfl, -, -, hresolved⟩ := readUnit_eq_ok hread
  exact hresolved

/-- A specifier that a unit mentions and that there is a file for leads to the unit of that file. -/
theorem resolvedModule_eq_unitAt? (h : load readJson tree options entry = .ok p) {i : Nat}
    {u : SourceUnit}
    (hu : p.units[i]? = some u) {s : String} (hs : s ∈ u.tree.specifiers) {path : Path}
    (hpath : Resolve.module? readJson tree options s u.path.directory = some path) :
    p.resolvedModule i s = p.unitAt? path := by
  have hresolved := resolved_of_load h (Array.mem_of_getElem? hu)
  have hentry : (s, path) ∈ u.resolved := hresolved ▸ mem_resolveAll.mpr ⟨hs, hpath⟩
  -- All entries for a specifier are what it stands for, so the first one is.
  obtain ⟨⟨t, found⟩, hfound⟩ : ∃ e, u.resolved.find? (·.1 == s) = some e :=
    Option.isSome_iff_exists.mp (List.find?_isSome.mpr ⟨_, hentry, beq_self_eq_true s⟩)
  have hfirst := mem_resolveAll.mp (hresolved ▸ List.mem_of_find?_eq_some hfound)
  obtain rfl : t = s := by simpa using List.find?_some hfound
  obtain rfl : path = found := Option.some.inj (hpath.symm.trans hfirst.2)
  simp only [resolvedModule, hu, hfound, Option.bind_eq_bind, Option.bind_some]

/-- A specifier that a unit does not mention leads nowhere from it. -/
theorem resolvedModule_eq_none (h : load readJson tree options entry = .ok p) {i : Nat}
    {u : SourceUnit} (hu : p.units[i]? = some u) {s : String} (hs : s ∉ u.tree.specifiers) :
    p.resolvedModule i s = none := by
  have hnone : u.resolved.find? (·.1 == s) = none := by
    refine List.find?_eq_none.mpr fun e he heq ↦ hs ?_
    rw [resolved_of_load h (Array.mem_of_getElem? hu)] at he
    exact beq_iff_eq.mp heq ▸ (mem_resolveAll.mp he).1
  simp only [resolvedModule, hu, hnone, Option.bind_eq_bind, Option.bind_some, Option.bind_none]

theorem resolvedModule_of_load (h : load readJson tree options entry = .ok p) {i : Nat}
    {u : SourceUnit}
    (hu : p.units[i]? = some u) {s : String} (hs : s ∈ u.tree.specifiers) {path : Path}
    (hpath : Resolve.module? readJson tree options s u.path.directory = some path) :
    ∃ j v, p.units[j]? = some v ∧ v.path.same path = true ∧
    p.resolvedModule i s = some j := by
  have hclosed :=
    (isClosure_of_load h).closed u (Array.mem_of_getElem? hu) path (.inr ⟨s, hs, hpath⟩)
  obtain ⟨j, hj⟩ := Option.isSome_iff_exists.mp hclosed
  obtain ⟨hlt, hsame, -⟩ := Array.findIdx?_eq_some_iff_getElem.mp hj
  exact ⟨j, p.units[j], Array.getElem?_eq_getElem hlt, hsame,
    (resolvedModule_eq_unitAt? h hu hs hpath).trans hj⟩

theorem exists_moduleSymbol {m : ModuleRef} {j : Nat} {v : SourceUnit} (hv : p.units[j]? = some v)
    (hmodule : v.tree.isModule = true) (hm : p.resolvedModule m.file m.specifier = some j) :
    ∃ id, (Checker.ofProgram p).moduleSymbol m = some id := by
  refine Option.isSome_iff_exists.mp ?_
  have hsome := (Binding.isSome_fileModules hv).trans hmodule
  have hfile : ((p.resolvedModule m.file m.specifier).bind fun file ↦
      (Binding.ofProgram p).fileModules.getD file none).isSome = true := by rw [hm]; exact hsome
  rw [Checker.moduleSymbol, Option.orElse_eq_orElse, Option.orElse_eq_or, Option.isSome_or,
    Bool.or_eq_true]
  exact .inr hfile

/-- The modules that a source text mentions are those that its declarations name and those of
the import types in the places that are searched. In a loaded program such a type stands for a
module, if there is a file for it and the file is a module. -/
theorem moduleSymbol_of_imports (f : SourceFile) (s : String) :
    (s ∈ f.specifiers ↔ f.Declares s ∨ f.Imports .searched s) ∧
    (f.Imports .searched s →
      ∀ (readJson : String → Option Json) (tree : FileTree) (options : CompilerOptions)
        (entry : Path) (p : Program), load readJson tree options entry = .ok p →
        ∀ (i : Nat) (u : SourceUnit), p.units[i]? = some u → u.tree = f →
          ∀ path, Resolve.module? readJson tree options s u.path.directory = some path →
            ∃ j v, p.units[j]? = some v ∧ v.path.same path = true ∧ p.resolvedModule i s =
              some j ∧ (v.tree.isModule = true →
                ∃ id, (Checker.ofProgram p).moduleSymbol ⟨i, s⟩ = some id)) := by
  refine ⟨SourceFile.mem_specifiers, ?_⟩
  rintro himports readJson tree options entry p hload i u hu rfl path hpath
  have hs : s ∈ u.tree.specifiers := SourceFile.mem_specifiers.mpr (.inr himports)
  obtain ⟨j, v, hv, hsame, hresolved⟩ := resolvedModule_of_load hload hu hs hpath
  exact ⟨j, v, hv, hsame, hresolved, fun hmodule ↦ exists_moduleSymbol hv hmodule hresolved⟩

def importingTree : FileTree := .directory [
  ("a.d.ts", .file (some "export type O=[(b:import('./b').B)=>void];")),
  ("b.d.ts", .file (some "export type B=string;"))]

/-- In a parameter of a function type in a tuple. -/
theorem moduleSymbol_of_imports_parameter :
    ∃ p u, load (fun _ ↦ none) importingTree .default ⟨"/a.d.ts"⟩ = .ok p ∧
    p.units[1]? = some u ∧
      u.tree.Imports .searched "./b" ∧ ∃ id,
        (Checker.ofProgram p).moduleSymbol ⟨1, "./b"⟩ = some id := by
  let shown (u : SourceUnit) : Path × List String × List String × Bool :=
    (u.path, u.tree.specifiers, u.tree.allStatements.filterMap Statement.declaredModule?,
      u.tree.isModule)
  have hunits :
      (load (fun _ ↦ none) importingTree .default ⟨"/a.d.ts"⟩).toOption.map (fun p ↦
      p.units.toList.map shown) =
      some [(⟨"/b.d.ts"⟩, [], [], true), (⟨"/a.d.ts"⟩, ["./b"], [], true)] := by
    decide +kernel
  have hpath : Resolve.module? (fun _ ↦ none) importingTree .default "./b"
      (Path.directory ⟨"/a.d.ts"⟩) = some ⟨"/b.d.ts"⟩ := by decide +kernel
  obtain ⟨p, hload, hunits⟩ := Option.map_eq_some_iff.mp hunits
  have hok := toOption_eq_some.mp hload
  obtain ⟨u, hu, hshown⟩ : ∃ u, p.units[1]? = some u ∧
      shown u = (⟨"/a.d.ts"⟩, ["./b"], [], true) := by
    have hget := congrArg (·[1]?) hunits
    simpa using hget
  simp only [shown, Prod.mk.injEq] at hshown
  obtain ⟨hplace, hspecifiers, hdeclared, -⟩ := hshown
  have himports : u.tree.Imports .searched "./b" := by
    refine ((moduleSymbol_of_imports u.tree "./b").1.mp (by simp [hspecifiers])).resolve_left ?_
    rintro ⟨s, hs, hnamed⟩
    exact List.not_mem_nil (hdeclared ▸ List.mem_filterMap.mpr ⟨s, hs, hnamed⟩)
  obtain ⟨j, v, hv, -, -, hsymbol⟩ := (moduleSymbol_of_imports u.tree "./b").2 himports
    (fun _ ↦ none) importingTree .default ⟨"/a.d.ts"⟩ p hok 1 u hu rfl ⟨"/b.d.ts"⟩
      (hplace ▸ hpath)
  have hmem : shown v ∈ p.units.toList.map shown :=
    List.mem_map_of_mem (Array.mem_def.mp (Array.mem_of_getElem? hv))
  refine ⟨p, u, hok, hu, himports, hsymbol ?_⟩
  rw [hunits] at hmem
  simp only [shown, List.mem_cons, List.not_mem_nil, or_false, Prod.mk.injEq] at hmem
  exact hmem.elim (·.2.2.2) (·.2.2.2)

end Program

end PluginSurface
