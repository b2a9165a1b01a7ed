import PluginSurface.Proofs.Binding.InterfaceParts

/-!
# Types of interfaces in two parts

In a program in which interfaces are declared in two parts, types resolve as with the whole ones, if
no member of a second part would change the type of what the first part declares. A second part adds
only what is new, so a method of both parts would have the signatures of the first part only. Main
statement: `Checker.propertiesOf_interfaceParts`.
-/

namespace PluginSurface

namespace Declaration.Splits

variable {ds ds' : List Declaration}

/-- What is true of no interface or of any is true of one of the declarations in both. -/
theorem any_eq {f : Declaration → Bool} (hf : ∀ d, f d.outline = f d)
    (hinterface : ∀ file scope i j,
      f ⟨file, scope, .interfaceDecl i⟩ = f ⟨file, scope, .interfaceDecl j⟩)
    (h : Declaration.Splits ds ds') : ds'.any f = ds.any f := by
  induction h with
  | nil => rfl
  | @keep _ _ d d' _ hd ih =>
      have hsame : f d' = f d := by rw [← hf d', hd, hf]
      rw [List.any_append, List.any_append, ih, List.any_cons, List.any_cons, hsame]
  | @split _ _ i first second _ file scope _ ih =>
      rw [List.any_append, List.any_append, List.any_append, ih, List.any_cons, List.any_cons,
        List.any_cons, hinterface file scope first i, hinterface file scope second i]
      simp

/-- What is not found in interfaces is found alike in both. -/
theorem findSome?_eq {α : Type} {f : Declaration → Option α} (hf : ∀ d, f d.outline = f d)
    (hinterface : ∀ file scope i, f ⟨file, scope, .interfaceDecl i⟩ = none)
    (h : Declaration.Splits ds ds') : ds'.findSome? f = ds.findSome? f := by
  induction h with
  | nil => rfl
  | @keep _ _ d d' _ hd ih =>
      have hsame : f d' = f d := by rw [← hf d', hd, hf]
      rw [List.findSome?_append, List.findSome?_append, ih, List.findSome?_cons,
        List.findSome?_cons, hsame]
  | split _ file scope _ ih =>
      simp [List.findSome?_append, ih, hinterface]

theorem map_findSome?_eq {α β : Type} {f : Declaration → Option α} {g : α → β}
    (hf : ∀ d, (f d.outline).map g = (f d).map g)
    (hinterface : ∀ file scope i, f ⟨file, scope, .interfaceDecl i⟩ = none)
    (h : Declaration.Splits ds ds') : (ds'.findSome? f).map g = (ds.findSome? f).map g := by
  rw [List.map_findSome?, List.map_findSome?]
  exact h.findSome?_eq hf fun file scope i ↦ congrArg (Option.map g) (hinterface file scope i)

end Declaration.Splits

namespace Symbol.Splits

variable {s s' : Symbol} (h : s.Splits s')

include h

theorem isNamespace : s'.isNamespace = s.isNamespace := by
  unfold Symbol.isNamespace
  rw [h.declarations.any_eq (fun ⟨_, _, k⟩ ↦ by cases k <;> rfl) fun _ _ _ _ ↦ rfl,
    h.declarations.any_eq (fun ⟨_, _, k⟩ ↦ by cases k <;> rfl) fun _ _ _ _ ↦ rfl]

theorem link? : s'.link? = s.link? := by
  unfold Symbol.link?
  rw [h.declarations.any_eq (fun ⟨_, _, k⟩ ↦ by cases k <;> rfl) fun _ _ _ _ ↦ rfl,
    h.declarations.findSome?_eq (fun ⟨_, _, k⟩ ↦ by cases k <;> rfl) fun _ _ _ ↦ rfl]

end Symbol.Splits

namespace Checker

variable {numbers : Nat → Nat → List Nat} {p p' : Program}

section

variable (h : p.Splits numbers p')

include h

theorem symbol_splits (id : Nat) :
    ((ofProgram p).binding.symbol id).Splits ((ofProgram p').binding.symbol id) :=
  (Binding.splits_ofProgram h).symbol id

theorem sameLinks_splits : (ofProgram p).SameLinks (ofProgram p') where
  resolvedModule := h.resolvedModule
  size := (Binding.splits_ofProgram h).size
  scopes := (Binding.splits_ofProgram h).scopes
  fileModules := (Binding.splits_ofProgram h).fileModules
  ambientModules := (Binding.splits_ofProgram h).ambientModules
  link? id := (symbol_splits h id).link?
  exports id := (symbol_splits h id).exports
  starExports id := (symbol_splits h id).starExports
  exportEquals id := (symbol_splits h id).exportEquals

theorem qualifiedName_splits (id : Nat) :
    (ofProgram p').binding.qualifiedName id = (ofProgram p).binding.qualifiedName id :=
  Binding.qualifiedName_congr (fun other ↦ (symbol_splits h other).outer)
    (fun other ↦ (symbol_splits h other).isNamespace)
    (fun other _ ↦ (symbol_splits h other).name) (symbol_splits h id).name

end

end Checker

/-! ## Declarations in two parts -/

/-- In two parts, of which the second adds only what is new, members have the same types, if no
member of the second part would change them. -/
def TypeRules.Parted (ask : TypeRules) : Prop :=
  ∀ trail env xs ys, (∀ m ∈ ys, TypeMember.changes xs m = false) → ∀ ps,
    Members.SameTypes ((ask.objectAt trail env (xs ++ ys)).properties.foldl Members.addNew ps)
      ((ask.objectAt trail env ys).properties.foldl Members.addNew
        ((ask.objectAt trail env xs).properties.foldl Members.addNew ps))

theorem Members.congruence_sameTypes : Congruence SameTypes where
  refl := SameTypes.refl
  trans := SameTypes.trans
  find? h name := h.map_type_find? name
  flatten := SameTypes.flatten
  addNew h hqs := h.addNew hqs
  addMeet := SameTypes.addMeet
  addMember h ms := h.foldl_addMember ms

namespace Typing

variable {ask : TypeRules} {trail : TypeTrail}

theorem parted_rules (c : Checker) (ask : TypeRules) : (rules c ask).Parted :=
  fun trail env _ _ h ps ↦ sameTypes_objectAt_append c ask trail env h ps

theorem parted_noRules : noRules.Parted := fun _ _ _ _ _ ps ↦ .refl ps

/-- Bodies of class members and places in the text are not read. -/
theorem addDeclaration_outline (args : List Ty) (found : List Property × List Ty)
    (d : Declaration) :
    addDeclaration ask trail args found d.outline = addDeclaration ask trail args found d := by
  obtain ⟨file, scope, kind⟩ := d
  cases kind with
  | classDecl c =>
      have hmember (env : TypeEnv) (m : ClassMember) :
          classMembers ask trail env m.outline = classMembers ask trail env m := by
        obtain ⟨modifiers, kind, span⟩ := m
        cases kind <;> rfl
      simp only [addDeclaration, Declaration.outline, DeclarationKind.outline, ClassDecl.outline,
        List.filter_map, List.flatMap_map, hmember]
      rfl
  | _ => rfl

theorem addDeclaration_split (hask : ask.Parted) {i first second : InterfaceDecl}
    (hi : i.Splits first second) (file scope : Nat) (args : List Ty)
    (found : List Property × List Ty) :
    SameParts Members.SameTypes
      (addDeclaration ask trail args found ⟨file, scope, .interfaceDecl i⟩)
      (addDeclaration ask trail args
        (addDeclaration ask trail args found ⟨file, scope, .interfaceDecl first⟩)
        ⟨file, scope, .interfaceDecl second⟩) := by
  obtain ⟨ps, bases⟩ := found
  simp only [addDeclaration, declarationEnv, hi.typeParams, hi.typeParams', hi.bases, hi.bases',
    hi.members]
  exact ⟨hask _ _ _ _ hi.apart ps, List.append_nil _⟩

/-- Declarations that are the same but for interfaces in two parts add the same types. -/
theorem ownParts_splits {c c' : Checker} (hask : ask.Parted) {id : Nat}
    (h : (c.binding.symbol id).Splits (c'.binding.symbol id)) (args : List Ty) :
    SameParts Members.SameTypes (ownParts c ask trail id args) (ownParts c' ask trail id args) := by
  let inner : TypeTrail := { trail with heritage := id :: trail.heritage }
  have hadd (d : Declaration) {found found' : List Property × List Ty}
      (hfound : SameParts Members.SameTypes found found') :
      SameParts Members.SameTypes (addDeclaration ask inner args found d)
        (addDeclaration ask inner args found' d) :=
    addDeclaration_sameParts Members.congruence_sameTypes d args hfound
  have hfold {ds ds' : List Declaration} (hds : Declaration.Splits ds ds') :
      SameParts Members.SameTypes (ds.foldl (addDeclaration ask inner args) ([], []))
        (ds'.foldl (addDeclaration ask inner args) ([], [])) := by
    induction hds with
    | nil => exact .refl Members.congruence_sameTypes _
    | @keep _ _ d d' _ hd ih =>
        have hsame (found : List Property × List Ty) : addDeclaration ask inner args found d' =
            addDeclaration ask inner args found d := by
          rw [← addDeclaration_outline args found d', hd, addDeclaration_outline]
        rw [List.foldl_append, List.foldl_append, List.foldl_cons, List.foldl_cons, hsame]
        exact hadd d ih
    | split _ file scope hi ih =>
        rw [List.foldl_append, List.foldl_append, List.foldl_append]
        exact (hadd _ ih).trans Members.congruence_sameTypes
          (addDeclaration_split hask hi file scope args _)
  exact hfold h.declarations

/-- Of an alias, the environment, the parameters and the type are used. -/
theorem map_aliasDecl?_outline (d : Declaration) :
    (aliasDecl? d.outline).map (fun x ↦ (declarationEnv x.1, x.2.typeParams, x.2.type)) =
      (aliasDecl? d).map fun x ↦ (declarationEnv x.1, x.2.typeParams, x.2.type) := by
  obtain ⟨file, scope, kind⟩ := d
  cases kind <;> rfl

/-- Of a variable, the environment and the type are used. -/
theorem map_variableType?_outline (d : Declaration) :
    (variableType? d.outline).map (fun x ↦ (declarationEnv x.1, x.2)) =
      (variableType? d).map fun x ↦ (declarationEnv x.1, x.2) := by
  obtain ⟨file, scope, kind⟩ := d
  cases kind with
  | «variable» type => cases type <;> rfl
  | _ => rfl

end Typing

namespace Checker

open Typing

variable {numbers : Nat → Nat → List Nat} {p p' : Program}

section

variable (h : p.Splits numbers p') {ask : TypeRules} {trail : TypeTrail}

include h

theorem declaredType_splits (id : Nat) (args : List Ty) :
    declaredType (ofProgram p') ask trail id args =
      declaredType (ofProgram p) ask trail id args := by
  have hs := symbol_splits h id
  have hinstances := hs.declarations.any_eq (f := declaresInstances)
    (fun ⟨_, _, k⟩ ↦ by cases k <;> rfl) fun _ _ _ _ ↦ rfl
  have halias := hs.declarations.map_findSome?_eq map_aliasDecl?_outline fun _ _ _ ↦ rfl
  unfold declaredType
  simp only [hs.name, hs.outer, hinstances, qualifiedName_splits h]
  split
  · rfl
  split
  · rfl
  cases hfound : ((ofProgram p).binding.symbol id).declarations.findSome? aliasDecl? with
  | none =>
      rw [hfound, Option.map_none, Option.map_eq_none_iff] at halias
      rw [halias]
  | some x =>
      rw [hfound, Option.map_some] at halias
      obtain ⟨x', hfound', hx⟩ := Option.map_eq_some_iff.mp halias
      simp only [Prod.mk.injEq] at hx
      rw [hfound']
      simp only [aliasType, hx, qualifiedName_splits h]

theorem queryType_splits (path : List String) (env : TypeEnv) :
    queryType (ofProgram p') ask trail path env = queryType (ofProgram p) ask trail path env := by
  unfold queryType
  rw [(sameLinks_splits h).entity?]
  cases (ofProgram p).entity? path env.scope with
  | none => rfl
  | some id =>
      have hvariable := (symbol_splits h id).declarations.map_findSome?_eq map_variableType?_outline
        fun _ _ _ ↦ rfl
      simp only [qualifiedName_splits h]
      cases hfound : ((ofProgram p).binding.symbol id).declarations.findSome? variableType? with
      | none =>
          rw [hfound, Option.map_none, Option.map_eq_none_iff] at hvariable
          rw [hvariable]
      | some x =>
          rw [hfound, Option.map_some] at hvariable
          obtain ⟨x', hfound', hx⟩ := Option.map_eq_some_iff.mp hvariable
          simp only [Prod.mk.injEq] at hx
          rw [hfound']
          simp only [hx]

theorem opensAlike_splits :
    (ofProgram p).OpensAlike Members.SameTypes (fun _ ↦ True) (fun _ ↦ True)
    TypeRules.Parted (ofProgram p') where
  sameLinks := sameLinks_splits h
  options := h.options
  congruence := Members.congruence_sameTypes
  law_rules := parted_rules (ofProgram p')
  law_noRules := parted_noRules
  mentions _ _ _ _ _ _ _ := trivial
  safe_types _ _ _ := trivial
  safe_heritage _ _ _ := trivial
  ownParts hask _ _ := ownParts_splits hask (symbol_splits h _)
  declaredType _ _ := declaredType_splits h _
  queryType _ _ := queryType_splits h _ _

end

/-- With interfaces in two parts, of which no second one has a method of the first one or a
getter of a name of the first one, every statement has the scope that it had, in which every
written type resolves to the same type. The properties of each type are the same up to whether
they can be written. -/
theorem propertiesOf_interfaceParts (h : p.Splits numbers p')
    (hnumbers : ∀ file id id' n, n ∈ numbers file id → n ∈ numbers file id' → id' = id) :
    (∀ file id, ∀ n ∈ numbers file id,
      (ofProgram p').envAt? file n = (ofProgram p).envAt? file id) ∧
    (∀ env type, (ofProgram p').typeAt env type = (ofProgram p).typeAt env type) ∧
    ∀ t, Members.SameTypes ((ofProgram p).propertiesOf t) ((ofProgram p').propertiesOf t) := by
  have halike := alike_typing (opensAlike_splits h)
  refine ⟨fun file id n hn ↦ ?_, fun env type ↦ ?_, fun t ↦ ?_⟩
  · have hnotes : (ofProgram p').binding.statementScopes =
        (ofProgram p).binding.statementScopes.flatMap (noteAgain numbers) :=
      (Binding.splits_ofProgram h).notes
    rw [envAt?, envAt?, hnotes, lookup_noteAgain hn fun id' hn' ↦ hnumbers file id id' n hn hn']
  · exact halike.typeAt _ env type trivial fun _ _ _ _ ↦ trivial
  · exact halike.propertiesOf _ t trivial

/-- A method that reads from a value of a type. -/
def readMember (source : Keyword) : TypeMember :=
  .method (.identifier "read") false
    ⟨[], [⟨"source", [], false, false, some (.keyword source)⟩], some (.keyword .void)⟩

def optionsInterface (id : Nat) (bases : List TypeExpr) (members : List TypeMember) : Statement :=
  ⟨id, [.exported], .interfaceDecl ⟨⟨"Options", ⟨0, 0⟩⟩, [], bases,
    members⟩, ⟨0, 0⟩⟩

def sizeInterface (id : Nat) : Statement :=
  ⟨id, [], .interfaceDecl ⟨⟨"Size", ⟨0, 0⟩⟩, [], [],
    [.property (.identifier "size") false false (some (.keyword .number))]⟩, ⟨0, 0⟩⟩

def optionsFile (ss : List Statement) : Program :=
  ⟨.default, #[⟨⟨"/options.d.ts"⟩, "", ⟨ss, []⟩, []⟩]⟩

def kindMember : TypeMember := .property (.identifier "kind") false true (some (.keyword .string))

def wholeOptions : Program := optionsFile
  [optionsInterface 0 [.reference ["Size"] []] [kindMember, readMember .string, readMember .number],
    sizeInterface 1]

def optionsParts : Program := optionsFile
  [optionsInterface 0 [.reference ["Size"] []] [kindMember],
    optionsInterface 1 [] [readMember .string, readMember .number], sizeInterface 2]

/-- The first statement becomes the first two. -/
def partNumbers (_ id : Nat) : List Nat := if id = 0 then [0, 1] else [id + 1]

theorem propertiesOf_interfaceParts_overloads : wholeOptions.Splits partNumbers optionsParts ∧
    ∃ env, (ofProgram optionsParts).envAt? 0 2 = some env ∧
      ((ofProgram optionsParts).propertiesOf
          ((ofProgram optionsParts).typeAt env (.reference ["Options"] []))).map
        (fun q ↦ (q.name, q.type.render)) =
        [("kind", "string"), ("read", "\x7b (source: string): void; (source: number): void; \x7d"),
          ("size", "number")] := by
  have hoptions : InterfaceDecl.Splits
      ⟨⟨"Options", ⟨0, 0⟩⟩, [], [.reference ["Size"] []],
        [kindMember, readMember .string, readMember .number]⟩
      ⟨⟨"Options", ⟨0, 0⟩⟩, [], [.reference ["Size"] []], [kindMember]⟩
      ⟨⟨"Options", ⟨0, 0⟩⟩, [], [], [readMember .string, readMember .number]⟩ :=
    ⟨rfl, rfl, rfl, rfl, rfl, rfl, rfl, by decide⟩
  have hsplits : wholeOptions.Splits partNumbers optionsParts :=
    ⟨rfl, .cons ⟨rfl, rfl, rfl, .split rfl hoptions
      (.keep rfl rfl (.interfaceDecl rfl rfl) .nil .nil)⟩ .nil⟩
  have hnumbers : ∀ file id id' n, n ∈ partNumbers file id → n ∈ partNumbers file id' →
      id' = id := by
    intro file id id' n hn hn'
    unfold partNumbers at hn hn'
    grind
  obtain ⟨hscopes, htypes, hproperties⟩ := propertiesOf_interfaceParts hsplits hnumbers
  have hwhole : (ofProgram wholeOptions).binding.statementScopes.lookup (0, 1) = some 1 ∧
      ((ofProgram wholeOptions).propertiesOf
          ((ofProgram wholeOptions).typeAt ⟨0, 1, []⟩ (.reference ["Options"] []))).map
        (fun q ↦ (q.name, q.type.render)) =
        [("kind", "string"), ("read", "\x7b (source: string): void; (source: number): void; \x7d"),
          ("size", "number")] := by
    decide +kernel
  refine ⟨hsplits, ⟨0, 1, []⟩, ?_, ?_⟩
  · rw [hscopes 0 1 2 (by decide), envAt?, hwhole.1]
    rfl
  · rw [htypes, ← (hproperties _).map_eq (fun q ↦ (q.name, q.type.render)) fun _ ↦ rfl]
    exact hwhole.2

/-- A method of both parts has the signatures of the first part only. -/
example :
    let parts := ofProgram (optionsFile
      [optionsInterface 0 [] [readMember .string], optionsInterface 1 [] [readMember .number]])
    (parts.propertiesOf (parts.typeAt ⟨0, 1, []⟩ (.reference ["Options"] []))).map
      (fun q ↦ (q.name, q.type.render)) = [("read", "(source: string) => void")] := by
  decide +kernel

end Checker

end PluginSurface
