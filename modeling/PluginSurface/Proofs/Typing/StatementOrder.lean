import PluginSurface.Proofs.Binding.StatementOrder
import PluginSurface.Proofs.Typing.RenumberedTypes

/-!
# What types read as with statements in another order

The interfaces, type aliases and bodiless classes at the top of a file can be written in any order.
The program with the statements in another order is bound alike up to the numbers of its symbols,
and no number is left in what a type reads as. Main statement: `Checker.reading_reordered`.

It is about programs with the same files in the same order. Import types in the statements can
decide in which order files are loaded, and with it in which order the declarations of a global name
are merged: `Checker.reading_reloaded` is such a case.
-/

namespace PluginSurface.Checker

variable {file home : Nat} {σ : Equiv.Perm Nat} {c c' : Checker} {p p' : Program}

/-- What a written type reads as: its text, and the names of its properties with their texts. -/
def reading (c : Checker) (env : TypeEnv) (type : TypeExpr) : String × List (String × String) :=
  let t := c.typeAt env type
  (t.render, (c.propertiesOf t).map fun q ↦ (q.name, q.type.render))

theorem Renumbered.reading (h : c.Renumbered file home σ c') (env : TypeEnv) (type : TypeExpr) :
    c'.reading (env.alter (.renumbering σ)) type = c.reading env type := by
  simp only [Checker.reading, h.typeAt, h.propertiesOf, Ty.render_alter, List.map_map,
    Function.comp_def, Property.name_alter, Property.type_alter]

/-- Nothing is bound at the places of statements, so there is nothing to permute. -/
theorem Renumbered.reading_bindTypeParams (h : c.Renumbered file home σ c') (other scope : Nat)
    (params : List TypeParam) (type : TypeExpr) :
    c'.reading (TypeEnv.bindTypeParams ⟨other, scope, []⟩ params) type =
      c.reading (TypeEnv.bindTypeParams ⟨other, scope, []⟩ params) type := by
  rw [← h.reading, ← TypeEnv.bindTypeParams_alter]
  rfl

theorem exists_renumbered (h : p.Reorders file p') :
    ∃ home σ, Renumbered file home σ (ofProgram p) (ofProgram p') := by
  obtain ⟨home, σ, hbinding⟩ := Binding.exists_renumbered h
  exact ⟨home, σ, h.options, h.resolvedModule, hbinding⟩

/-- The types in all statements of the file are resolved in one scope. -/
theorem envAt?_of_keeps (hkeeps : (ofProgram p).binding.Keeps file home) {u : SourceUnit}
    (hu : p.units[file]? = some u) {s : Statement} (hs : s ∈ u.tree.statements) :
    (ofProgram p).envAt? file s.id = some ⟨file, home, []⟩ := by
  obtain ⟨place, rfl, -, -, hall⟩ := Binding.settledFile_ofProgram hu
  obtain ⟨scope, hscope⟩ := Option.isSome_iff_exists.mp
    (List.lookup_isSome_iff.mpr ⟨_, (hall s hs).noted, beq_self_eq_true _⟩)
  obtain rfl : scope = home := hkeeps _ (mem_of_lookup hscope) rfl
  exact Option.map_eq_some_iff.mpr ⟨scope, hscope, rfl⟩

/-- With the statements of a file in another order, all statements keep the places in which their
types are resolved, and whatever type is written in these places or in others, with type parameters
or without, reads as before. -/
theorem reading_reordered (h : p.Reorders file p') :
    (∀ other node, other ≠ file →
      (ofProgram p').envAt? other node = (ofProgram p).envAt? other node) ∧
    (∃ env, (∀ u, p.units[file]? = some u → ∀ s ∈ u.tree.statements,
        (ofProgram p).envAt? file s.id = some env) ∧
      ∀ u', p'.units[file]? = some u' → ∀ s ∈ u'.tree.statements,
        (ofProgram p').envAt? file s.id = some env) ∧
    ∀ other scope params type,
      (ofProgram p').reading (TypeEnv.bindTypeParams ⟨other, scope, []⟩ params) type =
        (ofProgram p).reading (TypeEnv.bindTypeParams ⟨other, scope, []⟩ params) type := by
  obtain ⟨home, σ, hsame⟩ := exists_renumbered h
  refine ⟨fun other node hother ↦ ?_, ⟨⟨file, home, []⟩, ?_, ?_⟩,
    hsame.reading_bindTypeParams⟩
  · rw [envAt?, envAt?, hsame.binding.statementScopes (other, node) hother]
  · exact fun u hu s hs ↦ envAt?_of_keeps hsame.binding.keeps hu hs
  · exact fun u hu s hs ↦ envAt?_of_keeps hsame.binding.keeps' hu hs

/-- Options that extend a class and have a field of another type, declared in the order of the given
statements, and a file that imports them. -/
def importedOptions (ss : List Statement) : Program := ⟨.default, #[
  ⟨⟨"/options.d.ts"⟩, "", ⟨ss, []⟩, []⟩,
  ⟨⟨"/index.d.ts"⟩, "",
    ⟨[⟨0, [],
      .importDecl ⟨false, none, none, [⟨"Options", "Options"⟩], "./options"⟩,
      ⟨0, 0⟩⟩], []⟩,
    [("./options", ⟨"/options.d.ts"⟩)]⟩]⟩

def optionsStatement (id : Nat) : Statement :=
  ⟨id, [.exported], .interfaceDecl ⟨⟨"Options", ⟨0, 0⟩⟩, [], [.reference ["Base"] []],
    [.property (.identifier "kind") false false
      (some (.tuple [⟨none, false, false, .reference ["Kind"] []⟩,
        ⟨none, false, false, .reference ["Base"] []⟩]))]⟩, ⟨0, 0⟩⟩

def kindStatement (id : Nat) : Statement :=
  ⟨id, [],
    .aliasDecl ⟨⟨"Kind", ⟨0, 0⟩⟩, [], .array (.reference ["Options"] [])⟩, ⟨0, 0⟩⟩

def baseStatement (id : Nat) : Statement :=
  ⟨id, [.ambient],
    .classDecl ⟨some ⟨"Base", ⟨0, 0⟩⟩, [], none, [],
      [⟨[], .property (.identifier "size") false (some (.keyword .number)), ⟨0, 0⟩⟩]⟩,
    ⟨0, 0⟩⟩

def optionsFirst : Program :=
  importedOptions [optionsStatement 0, kindStatement 1, baseStatement 2]

def optionsLater : Program :=
  importedOptions [baseStatement 0, optionsStatement 1, kindStatement 2]

theorem reading_reordered_options :
    optionsFirst.Reorders 0 optionsLater ∧
    ∃ scope, (ofProgram optionsLater).envAt? 1 0 = some ⟨1, scope, []⟩ ∧
      (ofProgram optionsLater).reading ⟨1, scope, []⟩ (.reference ["Options"] []) =
        ("Options", [("kind", "[Options[], Base]"), ("size", "number")]) := by
  have hnames : ∀ name ∈ ["Options", "Kind", "Base"], name ≠ "default" := by decide
  have hunit : optionsFirst.units[0].Reorders optionsLater.units[0] :=
    ⟨rfl, fun _ ↦ rfl, [_, _, _], [_, _, _], .cons rfl (.cons rfl (.cons rfl .nil)),
      .cons rfl (.cons rfl (.cons rfl .nil)), List.perm_append_singleton _ [_, _], by decide,
      fun d hd _ _ ↦ hnames d.name (List.mem_map_of_mem hd)⟩
  have hreorders : optionsFirst.Reorders 0 optionsLater :=
    ⟨rfl, [], _, _, [_], rfl, rfl, rfl, hunit⟩
  obtain ⟨hothers, -, hreading⟩ := reading_reordered hreorders
  have hfirst : (ofProgram optionsFirst).binding.statementScopes.lookup (1, 0) = some 2 ∧
      (ofProgram optionsFirst).reading ⟨1, 2, []⟩ (.reference ["Options"] []) =
        ("Options", [("kind", "[Options[], Base]"), ("size", "number")]) := by
    decide +kernel
  refine ⟨hreorders, 2, ?_, ?_⟩
  · rw [hothers 1 0 (by decide), envAt?, hfirst.1]
    rfl
  · exact (hreading 1 2 [] _).trans hfirst.2

/-- Two files that declare signatures of one method of a global interface, and a file that leads to
them by import types, in the order of the given statements. -/
def globalsTree (statements : List String) : FileTree := .directory [
  ("i.d.ts", .file (some (String.join statements))),
  ("x.d.ts", .file (some "interface S\x7bm(a:1):void\x7d")),
  ("y.d.ts", .file (some "interface S\x7bm(a:2):void\x7d"))]

/-- With other statements first, another file is loaded first, and its declaration of a global
interface counts. -/
theorem reading_reloaded :
    let first := "type P=import('./x');"
    let second := "type Q=import('./y');"
    ∃ p p', Program.load (fun _ ↦ none) (globalsTree [first, second]) .default
      ⟨"/i.d.ts"⟩ = .ok p ∧
      Program.load (fun _ ↦ none) (globalsTree [second, first]) .default
        ⟨"/i.d.ts"⟩ = .ok p' ∧
      (∃ u, p.units[2]? = some u ∧ u.tree.statements.map
        (fun s ↦ s.typeDeclaration?.map TypeDeclaration.name) = [some "P", some "Q"]) ∧
      (∃ u, p'.units[2]? = some u ∧ u.tree.statements.map
        (fun s ↦ s.typeDeclaration?.map TypeDeclaration.name) = [some "Q", some "P"]) ∧
      ((ofProgram p).envAt? 2 0).map (fun env ↦ (ofProgram p).reading env (.reference ["S"] [])) =
        some ("S", [("m", "(a: 1) => void")]) ∧
      ((ofProgram p').envAt? 2 0).map (fun env ↦ (ofProgram p').reading env
        (.reference ["S"] [])) = some ("S", [("m", "(a: 2) => void")]) := by
  intro first second
  let shown (p : Program) : Option (List (Option String)) ×
      Option (String × List (String × String)) :=
    ((p.units[2]?).map fun u ↦
        u.tree.statements.map fun s ↦ s.typeDeclaration?.map TypeDeclaration.name,
      ((ofProgram p).envAt? 2 0).map fun env ↦ (ofProgram p).reading env (.reference ["S"] []))
  have hfirst :
      (Program.load (fun _ ↦ none) (globalsTree [first, second]) .default
        ⟨"/i.d.ts"⟩).toOption.map shown =
      some (some [some "P", some "Q"], some ("S", [("m", "(a: 1) => void")])) := by
    decide +kernel
  have hsecond :
      (Program.load (fun _ ↦ none) (globalsTree [second, first]) .default
        ⟨"/i.d.ts"⟩).toOption.map shown =
      some (some [some "Q", some "P"], some ("S", [("m", "(a: 2) => void")])) := by
    decide +kernel
  obtain ⟨p, hload, hp⟩ := Option.map_eq_some_iff.mp hfirst
  obtain ⟨p', hload', hp'⟩ := Option.map_eq_some_iff.mp hsecond
  obtain ⟨hnames, hreading⟩ := Prod.mk.inj hp
  obtain ⟨hnames', hreading'⟩ := Prod.mk.inj hp'
  exact ⟨p, p', toOption_eq_some.mp hload, toOption_eq_some.mp hload',
    Option.map_eq_some_iff.mp hnames, Option.map_eq_some_iff.mp hnames', hreading, hreading'⟩

end PluginSurface.Checker
