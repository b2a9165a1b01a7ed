import Mathlib.Data.List.Nodup
import PluginSurface.Proofs.Typing.Rules
import PluginSurface.Typing.OptionShape

/-!
# The fields of options

The properties of a resolved type have distinct names, however its declarations are merged,
inherited and intersected. So a list of fields is determined by the set of its fields, and two of
them are the same fields exactly if one is a permutation of the other.
-/

namespace PluginSurface

/-- If the type is an object, each property name stands once in it. -/
def Ty.DistinctNames (t : Ty) : Prop := ∀ o, t = .object o → Members.Distinct o.properties

namespace Typing

variable {c : Checker} {ask : TypeRules} {trail : TypeTrail}

theorem invariant_distinctNames (c : Checker) : Invariant c Ty.DistinctNames where
  plain t ht o ho := by simp [ho, Ty.isPlain] at ht
  object ms o ho := Ty.object.inj ho ▸ Members.distinct_toObject ms
  union ts us _ _ o ho := nomatch ho
  intersection ts us _ _ o ho := nomatch ho

theorem distinct_addDeclaration {args : List Ty} {ps : List Property} (bases : List Ty)
    (h : Members.Distinct ps) (d : Declaration) :
    Members.Distinct (addDeclaration ask trail args (ps, bases) d).1 := by
  cases hkind : d.kind with
  | classDecl decl =>
      simp only [addDeclaration, hkind]
      exact Members.distinct_foldl (fun _ h m ↦ Members.distinct_addMember h m) _ h
  | interfaceDecl decl =>
      simp only [addDeclaration, hkind]
      exact Members.distinct_foldl (fun _ h p ↦ Members.distinct_addNew h p) _ h
  | _ => simpa only [addDeclaration, hkind] using h

/-- The names of a class or interface are distinct whatever its bases answer: own names are
collected, and an inherited one is added only if it is new. -/
theorem distinct_declaredProperties (id : Nat) (args : List Ty) :
    Members.Distinct (declaredProperties c ask trail id args) := by
  unfold declaredProperties
  split
  · exact Members.distinct_nil
  · have hfold (trail : TypeTrail) (ds : List Declaration) :
        ∀ (ps : List Property) (bases : List Ty), Members.Distinct ps →
          Members.Distinct (ds.foldl (addDeclaration ask trail args) (ps, bases)).1 := by
      induction ds with
      | nil => exact fun ps bases h ↦ h
      | cons d rest ih => exact fun ps bases h ↦ ih _ _ (distinct_addDeclaration bases h d)
    exact Members.distinct_foldl (fun _ h p ↦ Members.distinct_addNew h p) _
      (hfold ⟨trail.types, id :: trail.heritage⟩ (c.binding.symbol id).declarations [] []
        Members.distinct_nil)

theorem distinct_propertiesRule {t : Ty} (h : t.Everywhere Ty.DistinctNames) :
    Members.Distinct (propertiesRule c ask trail t) := by
  induction h with
  | object here => simpa only [propertiesRule] using here _ rfl
  | aliased _ _ _ _ ih => simpa only [propertiesRule] using ih
  | reference =>
      rw [propertiesRule]
      exact distinct_declaredProperties _ _
  | intersection =>
      rw [propertiesRule]
      exact Members.distinct_foldl (fun _ h p ↦ Members.distinct_addMeet h p) _
        Members.distinct_nil
  | _ => simpa only [propertiesRule] using Members.distinct_nil

end Typing

namespace Checker

variable (c : Checker)

theorem distinct_propertiesOf {t : Ty} (h : t.Everywhere Ty.DistinctNames) :
    Members.Distinct (c.propertiesOf t) := by
  unfold propertiesOf typing
  cases c.trailLimit with
  | zero => exact Typing.distinct_propertiesRule h
  | succ n => exact Typing.distinct_propertiesRule h

theorem everywhere_env {file node : Nat} {env : TypeEnv} (P : Ty → Prop)
    (h : c.envAt? file node = some env) : env.Everywhere P := by
  obtain ⟨scope, _, rfl⟩ := Option.map_eq_some_iff.mp h
  simp [TypeEnv.Everywhere]

theorem nodup_names_of_optionShape {e : Entity} {fs : List Field}
    (h : c.optionShape? e = some (.structured fs)) : (fs.map Field.name).Nodup := by
  have hP := Typing.invariant_distinctNames c
  simp only [optionShape?, Option.bind_eq_bind, Option.bind_eq_some_iff, Option.pure_def,
    Option.some.injEq] at h
  obtain ⟨_, _, _, _, env, henv, ⟨params, type⟩, _, hshape⟩ := h
  have htype := everywhere_typeAt hP
    (Typing.everywhere_bindNames hP (c.everywhere_env _ henv) (params.map (·.name))) type
  unfold shapeOf at hshape
  split at hshape
  · rw [← Shape.structured.inj hshape, List.map_map]
    exact c.distinct_propertiesOf htype
  · exact nomatch hshape

/-- The written type of the options of a plugin, with the environment that it is resolved in. -/
def option? (e : Entity) : Option (TypeEnv × TypeExpr) := do
  let unit ← c.program.units[e.file]?
  let statement ← unit.tree.statement? e.node
  let env ← c.envAt? e.file e.node
  let (typeParams, type) ← statement.optionType? e.kind
  return (env.bindTypeParams typeParams, type)

theorem optionShape?_eq (e : Entity) :
    c.optionShape? e = (c.option? e).map fun x ↦ c.shapeOf (c.typeAt x.1 x.2) := by
  simp only [optionShape?, option?, Option.bind_eq_bind, Option.pure_def, Option.map_bind,
    Function.comp_def, Option.map_some]

end Checker

namespace Shape

theorem sameFields_iff {a b : List Field} :
    sameFields a b = true ↔ a.length = b.length ∧ a ⊆ b ∧ b ⊆ a := by
  simp [sameFields, and_assoc, List.subset_def]

/-- Without repetitions, comparing lengths and sets compares lists up to their order. -/
theorem sameFields_iff_perm {a b : List Field} (ha : a.Nodup) (hb : b.Nodup) :
    sameFields a b = true ↔ b.Perm a := by
  rw [sameFields_iff]
  constructor
  · rintro ⟨_, hab, hba⟩
    exact (List.perm_ext_iff_of_nodup hb ha).mpr fun f ↦ ⟨@hba f, @hab f⟩
  · intro hperm
    exact ⟨hperm.length_eq.symm, hperm.symm.subset, hperm.subset⟩

theorem equal_self (shape : Option Shape) : equal .structural shape shape = true := by
  match shape with
  | none => rfl
  | some (.scalar text) => exact beq_self_eq_true text
  | some (.structured fields) =>
      exact sameFields_iff.mpr ⟨rfl, List.Subset.refl fields, List.Subset.refl fields⟩

end Shape

/-- The options of plugins, in any two programs, have fields with distinct names, and they are the
same fields exactly if one list is a permutation of the other. -/
theorem sameFields_iff_perm_of_optionShape {p q : Program} {d e : Entity} {a b : List Field}
    (ha : (Checker.ofProgram p).optionShape? d = some (.structured a))
    (hb : (Checker.ofProgram q).optionShape? e = some (.structured b)) :
    (a.map Field.name).Nodup ∧ (b.map Field.name).Nodup ∧
      (Shape.sameFields a b = true ↔ b.Perm a) := by
  have hna := (Checker.ofProgram p).nodup_names_of_optionShape ha
  have hnb := (Checker.ofProgram q).nodup_names_of_optionShape hb
  exact ⟨hna, hnb, Shape.sameFields_iff_perm (.of_map _ hna) (.of_map _ hnb)⟩

/-- A program in which options come from the two sides of a diamond, in either order. The method at
the top of the diamond is overloaded. -/
def diamondProgram : Program :=
  let name (text : String) : Name := ⟨text, ⟨0, 0⟩⟩
  let reference (text : String) : TypeExpr := .reference [text] []
  let method (params : List Param) : TypeMember :=
    .method (.identifier "run") false ⟨[], params, some (.keyword .void)⟩
  let top : InterfaceDecl := ⟨name "Top", [], [],
    [.property (.identifier "id") false false (some (.keyword .string)), method [],
      method [⟨"count", [], false, false, some (.keyword .number)⟩]]⟩
  let side (text property : String) : InterfaceDecl := ⟨name text, [], [reference "Top"],
    [.property (.identifier property) false false (some (.keyword .boolean))]⟩
  let plugin (text one other : String) : ClassDecl := ⟨some (name text), [], none, [],
    [⟨[], .constructor [⟨"options", [], false, false,
      some (.intersection [reference one, reference other])⟩] none, ⟨0, 0⟩⟩]⟩
  let statement (id : Nat) (decl : Decl) : Statement :=
    ⟨id, [.exported, .ambient], decl, ⟨0, 0⟩⟩
  let tree : SourceFile := ⟨[statement 0 (.interfaceDecl top),
    statement 1 (.interfaceDecl (side "Left" "left")),
    statement 2 (.interfaceDecl (side "Right" "right")),
    statement 3 (.classDecl (plugin "LeftPlugin" "Left" "Right")),
    statement 4 (.classDecl (plugin "RightPlugin" "Right" "Left"))], []⟩
  ⟨⟨.commonjs, false⟩, #[⟨⟨"/index.d.ts"⟩, "", tree, []⟩]⟩

theorem sameFields_diamond :
    let run : Field := ⟨"run", "\x7b (): void; (count: number): void; \x7d"⟩
    let left := [⟨"left", "boolean"⟩, ⟨"id", "string"⟩, run, ⟨"right", "boolean"⟩]
    let right := [⟨"right", "boolean"⟩, ⟨"id", "string"⟩, run, ⟨"left", "boolean"⟩]
    (Checker.ofProgram diamondProgram).optionShape?
        ⟨"LeftPlugin", .classDecl, 0, 3, ⟨⟨"/index.d.ts"⟩, 1⟩⟩ =
          some (.structured left) ∧
      (Checker.ofProgram diamondProgram).optionShape?
        ⟨"RightPlugin", .classDecl, 0, 4, ⟨⟨"/index.d.ts"⟩, 1⟩⟩ =
          some (.structured right) ∧
      (left.map Field.name).Nodup ∧ (right.map Field.name).Nodup ∧
      (Shape.sameFields left right = true ↔ right.Perm left) := by
  intro run left right
  have hleft : (Checker.ofProgram diamondProgram).optionShape?
      ⟨"LeftPlugin", .classDecl, 0, 3, ⟨⟨"/index.d.ts"⟩, 1⟩⟩ =
        some (.structured left) := by
    decide +kernel
  have hright : (Checker.ofProgram diamondProgram).optionShape?
      ⟨"RightPlugin", .classDecl, 0, 4, ⟨⟨"/index.d.ts"⟩, 1⟩⟩ =
        some (.structured right) := by
    decide +kernel
  exact ⟨hleft, hright, sameFields_iff_perm_of_optionShape hleft hright⟩

end PluginSurface
