import PluginSurface.Parity
import PluginSurface.Proofs.Search.Entities
import PluginSurface.Proofs.Typing.AliasOrder
import PluginSurface.Proofs.Typing.OptionFields

/-!
# Shapes and the order of members

Where the members of an interface, or of a type in braces that an alias stands for, are put in
another order, each type reads as before and has properties that read as before, in another order.
So the options of plugins have the same fields, and a comparison with the program as it was finds no
difference. Main statement: `Reordering.keepsShapes`.
-/

namespace PluginSurface

/-! ## Equal shapes -/

namespace Shape

/-- Shapes that are equal by structure are equal to the same shapes. -/
theorem equal_congr {a b : Option Shape} (h : equal .structural a b = true) (s : Option Shape) :
    equal .structural s b = equal .structural s a := by
  match a, b with
  | none, none => rfl
  | some (.scalar _), some (.scalar _) =>
      obtain rfl := beq_iff_eq.mp h
      rfl
  | some (.structured as), some (.structured bs) =>
      obtain ⟨hlength, hab, hba⟩ := sameFields_iff.mp h
      have hsame (fs : List Field) : sameFields fs bs = sameFields fs as := by
        rw [Bool.eq_iff_iff, sameFields_iff, sameFields_iff, hlength]
        refine and_congr_right fun _ ↦ ⟨fun h ↦ ?_, fun h ↦ ?_⟩
        · exact ⟨List.Subset.trans h.1 hba, List.Subset.trans hab h.2⟩
        · exact ⟨List.Subset.trans h.1 hab, List.Subset.trans hba h.2⟩
      match s with
      | none | some (.scalar _) => rfl
      | some (.structured fs) => exact hsame fs
  | none, some (.scalar _) | none, some (.structured _) | some (.scalar _), none
  | some (.scalar _), some (.structured _) | some (.structured _), none
  | some (.structured _), some (.scalar _) => cases h

theorem equal_of_perm {as bs : List Field} (h : bs.Perm as) :
    equal .structural (some (.structured as)) (some (.structured bs)) = true :=
  sameFields_iff.mpr ⟨h.length_eq.symm, h.symm.subset, h.subset⟩

end Shape

/-! ## Types that read the same -/

/-- The property with its type as it reads. -/
def Property.asRead (p : Property) : Property := { p with type := .verbatim p.type.render }

theorem Property.asRead_alter (χ : Alteration) : asRead ∘ alter χ = asRead := by
  funext p
  cases p
  simp only [Function.comp_apply, asRead, alter, Ty.render_alter]

namespace Checker

/-- Two resolved types, each in its program, read the same, both or none of them is listed by
fields, and their properties read the same, in some order. -/
structure SameReading (c c' : Checker) (t t' : Ty) : Prop where
  render : t'.render = t.render
  isStructured : t'.isStructured = t.isStructured
  properties : ((c'.propertiesOf t').map Property.asRead).Perm
    ((c.propertiesOf t).map Property.asRead)

theorem SameReading.shape {c c' : Checker} {t t' : Ty} (h : c.SameReading c' t t') :
    Shape.equal .structural (some (c.shapeOf t)) (some (c'.shapeOf t')) = true := by
  have hfields (c : Checker) (t : Ty) :
      (c.propertiesOf t).map (fun p ↦ Field.mk p.name p.type.render) =
      ((c.propertiesOf t).map Property.asRead).map fun p ↦ ⟨p.name, p.type.render⟩ := by
    rw [List.map_map]
    rfl
  unfold shapeOf
  rw [h.isStructured, h.render, hfields, hfields]
  split
  · exact Shape.equal_of_perm (h.properties.map _)
  · exact Shape.equal_self _

end Checker

namespace Reordering.Permutes

variable {r : Reordering} {p : Program}

theorem sameReading_of_interface {i : InterfaceDecl} (h : r.Permutes p (.interfaceDecl i))
    (env : TypeEnv) (type : TypeExpr) :
    (Checker.ofProgram p).SameReading (Checker.ofProgram (p.reorder r))
      ((Checker.ofProgram p).typeAt env type)
        ((Checker.ofProgram (p.reorder r)).typeAt env type) := by
  rw [h.typeAt_eq]
  exact ⟨rfl, rfl, (h.propertiesOf_perm _).map _⟩

theorem sameReading_of_alias {a : AliasDecl} (h : r.Permutes p (.aliasDecl a))
    (hun : r.IsUnmistaken p a) (file scope : Nat) (params : List TypeParam) (type : TypeExpr) :
    let env : TypeEnv := .bindTypeParams ⟨file, scope, []⟩ params
    (Checker.ofProgram p).SameReading (Checker.ofProgram (p.reorder r))
      ((Checker.ofProgram p).typeAt env type)
        ((Checker.ofProgram (p.reorder r)).typeAt env type) := by
  intro env
  obtain ⟨order, halters⟩ := h.alters hun
  have henv : env.alter (r.alteration p a order) = env :=
    (TypeEnv.bindTypeParams_alter ⟨file, scope, []⟩ params).symm
  have htype := halters.typeAt env type
  rw [henv] at htype
  rw [htype]
  refine ⟨Ty.render_alter _, Ty.isStructured_alter _, ?_⟩
  have hread := (halters.propertiesOf ((Checker.ofProgram p).typeAt env type)).perm.symm.map
    Property.asRead
  rwa [List.map_map, Property.asRead_alter] at hread

end Reordering.Permutes

/-! ## Options and plugins -/

theorem Statement.optionType?_edit (e : TypeEdit) (s : Statement) (kind : PluginKind) :
    (s.edit e).optionType? kind = s.optionType? kind := by
  have hparams (c : ClassDecl) : (c.edit e).constructorParams? = c.constructorParams? := by
    rw [ClassDecl.constructorParams?, ClassDecl.members_edit, List.findSome?_map]
    refine congrArg (List.findSome? · c.members) (funext fun m ↦ ?_)
    obtain ⟨modifiers, kind, span⟩ := m
    cases kind <;> simp [ClassMember.edit, ClassMemberKind.edit]
  obtain ⟨id, modifiers, decl, span⟩ := s
  cases decl with
  | classDecl c =>
      have htypeParams : (c.edit e).typeParams = c.typeParams := by
        cases c
        rw [ClassDecl.edit]
      cases kind <;> simp [optionType?, Decl.edit, hparams, htypeParams]
  | _ => cases kind <;> simp [optionType?, Decl.edit]

namespace Checker

/-- The options of a plugin are resolved where nothing but type parameters is bound. -/
theorem exists_of_option? {c : Checker} {e : Entity} {x : TypeEnv × TypeExpr}
    (h : c.option? e = some x) :
    ∃ scope params, x.1 = TypeEnv.bindTypeParams ⟨e.file, scope, []⟩ params := by
  simp only [option?, Option.bind_eq_bind, Option.bind_eq_some_iff, Option.pure_def,
    Option.some.injEq] at h
  obtain ⟨_, _, _, _, env, henv, ⟨params, type⟩, _, rfl⟩ := h
  obtain ⟨scope, _, rfl⟩ := Option.map_eq_some_iff.mp henv
  exact ⟨scope, params, rfl⟩

theorem option?_edit (p : Program) (edits : Nat → TypeEdit) (e : Entity) :
    (ofProgram (p.edit edits)).option? e = (ofProgram p).option? e := by
  have henv : (ofProgram (p.edit edits)).envAt? e.file e.node =
      (ofProgram p).envAt? e.file e.node := by
    unfold envAt?
    rw [(mirrors_ofProgram (p.mirrors_edit edits)).binding.statementScopes]
  unfold option?
  rw [henv]
  change (p.edit edits).units[e.file]?.bind _ = p.units[e.file]?.bind _
  rw [Program.units_edit]
  cases hu : p.units[e.file]? with
  | none => rfl
  | some u =>
      change ((u.tree.edit (edits e.file)).statement? e.node).bind _ =
        (u.tree.statement? e.node).bind _
      rw [SourceFile.statement?_edit]
      cases u.tree.statement? e.node with
      | none => rfl
      | some s => simp only [Option.map_some, Option.bind_some, Statement.optionType?_edit]

end Checker

namespace Surface

/-- A plugin that comes first under its name is implemented in its own surface. -/
theorem verdict_of_find? {s : Surface} {q : Plugin} (hq : s.find? q.name = some q) :
    s.verdict .structural q = .implemented := by
  rw [verdict, hq]
  exact if_pos (Shape.equal_self q.shape)

/-- In surfaces of the same plugins with equal shapes, each plugin gets the same verdict. -/
theorem verdict_of_same_entities {p p' : Program} {source source' : SurfaceSource}
    (hentities : p'.entities source'.filter = p.entities source.filter)
    (hshapes : ∀ e, Shape.equal .structural ((Checker.ofProgram p).optionShape? e)
      ((Checker.ofProgram p').optionShape? e) = true) (q : Plugin) :
    (ofProgram p' source').verdict .structural q = (ofProgram p source).verdict .structural q := by
  have hfind (p : Program) (source : SurfaceSource) : (ofProgram p source).find? q.name =
      ((p.entities source.filter).find? (·.name == q.name)).map
        fun e ↦ ⟨e, (Checker.ofProgram p).optionShape? e⟩ := by
    simp only [find?, ofProgram, Checker.plugins, List.find?_map]
    rfl
  unfold verdict
  rw [hfind, hfind, hentities]
  cases (p.entities source.filter).find? (·.name == q.name) with
  | none => rfl
  | some e =>
      simp only [Option.map_some]
      rw [Shape.equal_congr (hshapes e)]

end Surface

namespace Reordering

/-- What the new order of the members of the declaration `k` changes and what it does not. -/
structure KeepsShapes (r : Reordering) (p : Program) (k : DeclarationKind) : Prop where
  /-- Each written type reads the same, and so do its properties, in some order. -/
  types :
    ∀ file scope params type, let env : TypeEnv := .bindTypeParams ⟨file, scope, []⟩ params
    (Checker.ofProgram p).SameReading (Checker.ofProgram (p.reorder r))
      ((Checker.ofProgram p).typeAt env type) ((Checker.ofProgram (p.reorder r)).typeAt env type)
  /-- The properties of an interface are its own before the inherited ones. The own ones are
  permuted, and the inherited ones stay as they are. -/
  parts :
    ∀ i, k = .interfaceDecl i →
    ∀ id, ∀ d ∈ ((Binding.ofProgram p).symbol id).declarations,
    d.file = r.file → d.kind = k → ∀ name args, ∃ own own' inherited,
      own = (Checker.ofProgram p).ownProperties id args ∧
      (Checker.ofProgram p).propertiesOf (.reference id name args) = own ++ inherited ∧
      own' = (Checker.ofProgram (p.reorder r)).ownProperties id args ∧
      (Checker.ofProgram (p.reorder r)).propertiesOf (.reference id name args) =
        own' ++ inherited ∧ own'.Perm own
  /-- The shapes of options are equal by structure. -/
  shapes : ∀ e, Shape.equal .structural ((Checker.ofProgram p).optionShape? e)
    ((Checker.ofProgram (p.reorder r)).optionShape? e) = true
  entities : ∀ filter, (p.reorder r).entities filter = p.entities filter
  /-- A comparison gives the rows that the comparison of the program with itself gives, and each
  plugin that comes first under its name is implemented. -/
  rows : ∀ source source' : SurfaceSource, source'.filter = source.filter →
    (Surface.ofProgram p source).compare (Surface.ofProgram (p.reorder r) source') .structural =
      (Surface.ofProgram p source).compare (Surface.ofProgram p source) .structural
  implemented : ∀ source source' : SurfaceSource, source'.filter = source.filter →
    ∀ q, (Surface.ofProgram p source).find? q.name = some q →
      (Surface.ofProgram (p.reorder r) source').verdict .structural q = .implemented

end Reordering

/-- A file that declares options and a plugin with options of a written type. -/
def optionsUnit (path : String) (others : List Statement) (resolved : List (String × Path))
    (options : Decl) (type : TypeExpr) : SourceUnit :=
  let plugin : ClassDecl := ⟨some ⟨"OptionsPlugin", ⟨2, 2⟩⟩, [], none, [],
    [⟨[], .constructor [⟨"options", [], false, false, some type⟩] none, ⟨0, 0⟩⟩]⟩
  ⟨⟨path⟩, "", ⟨others ++ [⟨1, [.exported], options, ⟨0, 0⟩⟩,
    ⟨2, [.exported, .ambient], .classDecl plugin, ⟨0, 0⟩⟩], []⟩, resolved⟩

def field (name : String) (type : TypeExpr) : TypeMember :=
  .property (.identifier name) false false (some type)

/-- An alias for a type in braces, with two members. -/
def pairAlias : AliasDecl :=
  ⟨⟨"D", ⟨1, 1⟩⟩, [], .members
    [field "q" (.keyword .number), field "s" (.keyword .string)]⟩

def pairOrder (file : Nat) : Reordering :=
  ⟨file, pairAlias.name, [field "s" (.keyword .string), field "q" (.keyword .number)]⟩

/-- An interface with a field of the type that the alias stands for. -/
def nestedOptions : InterfaceDecl :=
  ⟨⟨"Options", ⟨2, 2⟩⟩, [], [],
    [field "f" (.reference ["D"] []), field "g" (.keyword .any)]⟩

def nestedProgram : Program :=
  ⟨.default, #[optionsUnit "/index.d.ts" [⟨0, [], .aliasDecl pairAlias, ⟨0, 0⟩⟩] []
    (.interfaceDecl nestedOptions) (.reference ["Options"] [])]⟩

/-- An alias of the same name and type is declared in another file, and the two are intersected. -/
def mistakenProgram : Program :=
  let imports : Statement :=
    ⟨0, [], .importDecl ⟨false, none, none, [⟨"D", "E"⟩], "./m2"⟩, ⟨0, 0⟩⟩
  ⟨.default, #[
    ⟨⟨"/m2.d.ts"⟩, "",
      ⟨[⟨0, [.exported], .aliasDecl pairAlias, ⟨0, 0⟩⟩], []⟩, []⟩,
    optionsUnit "/index.d.ts" [imports] [("./m2", ⟨"/m2.d.ts"⟩)] (.aliasDecl pairAlias)
      (.members [field "f" (.intersection [.reference ["D"] [], .reference ["E"] []])])]⟩

/-- Two plugins have one name and other options. -/
def repeatedProgram : Program :=
  ⟨.default, #[optionsUnit "/m2.d.ts" [] [] (.aliasDecl pairAlias) (.keyword .string),
    optionsUnit "/index.d.ts" [] [] (.aliasDecl pairAlias) (.reference ["D"] [])]⟩

/-- A folder in which options extend a global interface, whose two declarations stand in files that
the members of the options lead to. -/
def globalsFolder (members : String) : FileTree := .directory [
  ("i.d.ts", .file (some <| "interface O extends S\x7b" ++ members ++
    "\x7ddeclare class OPlugin\x7bconstructor(o:O)\x7d")),
  ("x.d.ts", .file (some "interface S\x7bm(a:1):void\x7d")),
  ("y.d.ts", .file (some "interface S\x7bm(a:2):void\x7d"))]

/-- The shapes of the options of all plugins. -/
def Program.shapes (p : Program) : List (Option Shape) :=
  (p.entities "").map (Checker.ofProgram p).optionShape?

theorem Program.shapes_eq (p : Program) : p.shapes =
    (p.units.toList.zipIdx.flatMap fun x ↦ x.1.found.filterMap (x.1.entity? x.2)).map
      (Checker.ofProgram p).optionShape? := by
  rw [shapes, entities_empty]

end PluginSurface
