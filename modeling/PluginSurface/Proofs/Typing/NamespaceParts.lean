import PluginSurface.Proofs.Binding.FoldedLinks
import PluginSurface.Proofs.Binding.NamespaceParts
import PluginSurface.Proofs.Typing.Congruence
import PluginSurface.Proofs.Typing.InterfaceParts
import PluginSurface.Proofs.Typing.Placeholders

/-!
# Types with namespaces in two parts

Where several scopes stand for one, each written type resolves as in the scope that its own scope
stands for, and each type has the same properties. A program with namespaces in two parts is bound
in this way, so that no type changes. Main statement: `Checker.sameTypes_namespaceParts`.
-/

namespace PluginSurface

variable {numbers : Nat → Nat → List Nat} {ρ : Nat → Nat}

/-! ## Environments -/

/-- The environment in the scope that its scope stands for. -/
def TypeEnv.folded (ρ : Nat → Nat) (env : TypeEnv) : TypeEnv :=
  { env with scope := ρ env.scope }

namespace TypeEnv

variable (env : TypeEnv)

theorem bindNames_folded (names : List String) :
    (env.folded ρ).bindNames names = (env.bindNames names).folded ρ := by
  unfold bindNames
  induction names generalizing env with
  | nil => rfl
  | cons name rest ih => exact ih (env.bind name (.param name))

theorem template_folded (raw : String) : (env.folded ρ).template raw = env.template raw := by
  rw [template, template, Template.templateText_eq, Template.templateText_eq]
  rfl

end TypeEnv

/-- The second rules answer in each environment as the first ones in the scope that its scope stands
for. -/
structure TypeRules.Folds (ρ : Nat → Nat) (ask ask' : TypeRules) : Prop where
  typeAt : ∀ trail env type, ask'.typeAt trail env type = ask.typeAt trail (env.folded ρ) type
  signatureAt : ∀ trail env signature,
    ask'.signatureAt trail env signature = ask.signatureAt trail (env.folded ρ) signature
  objectAt : ∀ trail env members,
    ask'.objectAt trail env members = ask.objectAt trail (env.folded ρ) members
  propertiesOf : ∀ trail t, ask'.propertiesOf trail t = ask.propertiesOf trail t

namespace Typing

section

variable {ask ask' : TypeRules} (hask : ask.Folds ρ ask') {trail : TypeTrail}

include hask

theorem instantiate_folded (env : TypeEnv) (params : List TypeParam) (args : List Ty) :
    (instantiate (ask'.typeAt trail) env params args).folded ρ =
      instantiate (ask.typeAt trail) (env.folded ρ) params args := by
  induction params generalizing env args with
  | nil => rfl
  | cons p rest ih =>
      cases args with
      | cons arg args => exact ih (env.bind p.name arg) args
      | nil =>
          unfold instantiate
          cases p.default with
          | none => exact ih (env.bind p.name (.param p.name)) []
          | some default =>
              dsimp only
              rw [← hask.typeAt]
              exact ih (env.bind p.name _) []

/-- What a declaration adds depends on its scope through the types in it. -/
theorem addDeclaration_folded (file scope : Nat) (kind : DeclarationKind) (args : List Ty)
    (found : List Property × List Ty) :
    addDeclaration ask' trail args found ⟨file, scope, kind⟩ =
      addDeclaration ask trail args found ⟨file, ρ scope, kind⟩ := by
  have henv (params : List TypeParam) :
      instantiate (ask.typeAt trail) (declarationEnv ⟨file, ρ scope, kind⟩) params args =
        (instantiate (ask'.typeAt trail) (declarationEnv ⟨file, scope, kind⟩) params
          args).folded ρ :=
    (instantiate_folded hask (declarationEnv ⟨file, scope, kind⟩) params args).symm
  have hannotated (env : TypeEnv) (type : Option TypeExpr) :
      annotated ask' trail env type = annotated ask trail (env.folded ρ) type := by
    cases type with
    | none => rfl
    | some type => exact hask.typeAt trail env type
  have hmembers (env : TypeEnv) :
      classMembers ask' trail env = classMembers ask trail (env.folded ρ) := by
    funext m
    simp only [classMembers, hannotated, hask.signatureAt]
  have htypes (env : TypeEnv) (types : List TypeExpr) :
      types.map (ask'.typeAt trail env) = types.map (ask.typeAt trail (env.folded ρ)) :=
    List.map_congr_left fun type _ ↦ hask.typeAt trail env type
  cases kind with
  | classDecl decl => simp only [addDeclaration, henv, htypes, hmembers]
  | interfaceDecl decl => simp only [addDeclaration, henv, htypes, hask.objectAt]
  | _ => rfl

theorem addDeclaration_moved {d d' : Declaration} (h : d.Moved ρ d') (args : List Ty)
    (found : List Property × List Ty) :
    addDeclaration ask' trail args found d' = addDeclaration ask trail args found d := by
  rw [← addDeclaration_outline args found d', ← addDeclaration_outline args found d]
  obtain ⟨file, scope, kind⟩ := d
  obtain ⟨file', scope', kind'⟩ := d'
  obtain ⟨rfl, rfl, hkind⟩ :
    file' = file ∧ ρ scope' = scope ∧ kind'.outline = kind.outline :=
    ⟨h.file, h.scope, h.kind⟩
  rw [Declaration.outline, Declaration.outline, hkind]
  exact addDeclaration_folded hask file' scope' kind.outline args found

/-- A namespace that is declared again adds nothing. -/
theorem addDeclarations_folded {ds ds' : List Declaration} (h : Declaration.Folds ρ ds ds')
    (args : List Ty) (found : List Property × List Ty) :
    ds'.foldl (addDeclaration ask' trail args) found =
      ds.foldl (addDeclaration ask trail args) found := by
  induction h with
  | nil => rfl
  | keep _ hd ih =>
      rw [List.foldl_append, List.foldl_append, ih]
      exact addDeclaration_moved hask hd args _
  | again _ _ file scope ih => rw [List.foldl_append, ih]; rfl

end

/-! ## Types -/

variable {c c' : Checker} {ask ask' : TypeRules} {trail : TypeTrail}

section

variable (h : c.Folds numbers ρ c') (hask : ask.Folds ρ ask')

include h hask

theorem declaredProperties_folded (id : Nat) (args : List Ty) :
    declaredProperties c' ask' trail id args = declaredProperties c ask trail id args := by
  have hproperties (trail : TypeTrail) : ask'.propertiesOf trail = ask.propertiesOf trail :=
    funext (hask.propertiesOf trail)
  have hown (trail : TypeTrail) :
      (c'.binding.symbol id).declarations.foldl (addDeclaration ask' trail args) ([], []) =
        (c.binding.symbol id).declarations.foldl (addDeclaration ask trail args) ([], []) :=
    addDeclarations_folded hask (h.binding.symbol id).declarations args ([], [])
  simp only [declaredProperties, hown, hproperties]

theorem declaredType_folded (id : Nat) (args : List Ty) :
    declaredType c' ask' trail id args = declaredType c ask trail id args := by
  have hs := h.binding.symbol id
  have hinstances : (c'.binding.symbol id).declarations.any declaresInstances =
      (c.binding.symbol id).declarations.any declaresInstances :=
    hs.declarations.any_eq (f := fun k ↦ declaresInstances ⟨0, 0, k⟩) fun k ↦ by
      cases k <;> rfl
  have halias := hs.declarations.map_findSome?_eq
    (q := fun x ↦ ((declarationEnv x.1).folded ρ, x.2.typeParams, x.2.type))
    (fun _ _ k ↦ by cases k <;> rfl) map_aliasDecl?_outline fun _ _ ↦ rfl
  unfold declaredType
  simp only [hs.name, hs.outer, hinstances, h.binding.qualifiedName]
  split
  · rfl
  split
  · rfl
  cases hfound : (c.binding.symbol id).declarations.findSome? aliasDecl? with
  | none =>
      rw [hfound, Option.map_none, Option.map_eq_none_iff] at halias
      rw [halias]
  | some x =>
      rw [hfound, Option.map_some] at halias
      obtain ⟨x', hfound', hx⟩ := Option.map_eq_some_iff.mp halias
      simp only [Prod.mk.injEq] at hx
      rw [hfound']
      simp only [aliasType, hask.typeAt, instantiate_folded hask, hx, h.binding.qualifiedName]

theorem queryType_folded (path : List String) (env : TypeEnv) :
    queryType c' ask' trail path env = queryType c ask trail path (env.folded ρ) := by
  have hentity : c'.entity? path env.scope = c.entity? path (env.folded ρ).scope :=
    h.entity? path env.scope
  unfold queryType
  rw [hentity]
  cases c.entity? path (env.folded ρ).scope with
  | none => rfl
  | some id =>
      have hmoved (file scope : Nat) (k : DeclarationKind) :
          (variableType? ⟨file, scope, k⟩).map
            (fun x ↦ ((declarationEnv x.1).folded ρ, x.2)) =
            (variableType? ⟨file, ρ scope, k⟩).map fun x ↦ (declarationEnv x.1, x.2) := by
        cases k with
        | «variable» type => cases type <;> rfl
        | _ => rfl
      have hvariable := (h.binding.symbol id).declarations.map_findSome?_eq hmoved
        map_variableType?_outline fun _ _ ↦ rfl
      simp only [h.binding.qualifiedName]
      cases hfound : (c.binding.symbol id).declarations.findSome? variableType? with
      | none =>
          rw [hfound, Option.map_none, Option.map_eq_none_iff] at hvariable
          rw [hvariable]
      | some x =>
          rw [hfound, Option.map_some] at hvariable
          obtain ⟨x', hfound', hx⟩ := Option.map_eq_some_iff.mp hvariable
          simp only [Prod.mk.injEq] at hx
          rw [hfound']
          simp only [hask.typeAt, hx]

end

mutual

theorem propertiesRule_folded (h : c.Folds numbers ρ c') (hask : ask.Folds ρ ask') :
    ∀ t, propertiesRule c' ask' trail t = propertiesRule c ask trail t
  | .object o => by rw [propertiesRule, propertiesRule]
  | .aliased _ _ target => by
      rw [propertiesRule, propertiesRule, propertiesRule_folded h hask target]
  | .reference id _ args => by
      rw [propertiesRule, propertiesRule, declaredProperties_folded h hask]
  | .intersection members => by
      rw [propertiesRule, propertiesRule, propertiesRules_folded h hask members]
  | .primitive _ | .literal _ | .union _ | .array .. | .tuple .. | .function _ | .param _
  | .named .. | .verbatim _ => by simp only [propertiesRule]

theorem propertiesRules_folded (h : c.Folds numbers ρ c') (hask : ask.Folds ρ ask') :
    ∀ ts, propertiesRules c' ask' trail ts = propertiesRules c ask trail ts
  | [] => by rw [propertiesRules, propertiesRules]
  | t :: rest => by
      rw [propertiesRules, propertiesRules, propertiesRule_folded h hask t,
        propertiesRules_folded h hask rest]

end

/-- With related answers, both ways of resolving agree on names. -/
theorem congruent_folded (h : c.Folds numbers ρ c') (hask : ask.Folds ρ ask') :
    Congruent c c' (fun _ ↦ True) (fun _ ↦ True) (fun env env' ↦ env = env'.folded ρ) ask
      ask' trail trail where
  options := h.options
  bindNames := by
    rintro _ env rfl names
    exact env.bindNames_folded names
  boundType? := by
    rintro _ env rfl path
    rfl
  template := by
    rintro _ env rfl raw
    exact (env.template_folded raw).symm
  typeRule _ _ _ := trivial
  entity? := by
    rintro _ env rfl path
    exact h.entity? path env.scope
  importedSymbol? := by
    rintro _ env rfl specifier path
    simp only [importedSymbol?, h.moduleSymbol, funext₂ h.export?]
    rfl
  declaredType _ _ _ := declaredType_folded h hask _ _
  queryType := by
    rintro _ env rfl path -
    exact queryType_folded h hask path env
  indexedType _ _ := by simp only [indexedType, propertiesRule_folded h hask]

theorem rules_folded (h : c.Folds numbers ρ c') (hask : ask.Folds ρ ask') :
    (rules c ask).Folds ρ (rules c' ask') where
  typeAt _ _ type := typeRule_congr (congruent_folded h hask) rfl type fun _ _ _ _ ↦ trivial
  signatureAt _ _ signature :=
    signatureRule_congr (congruent_folded h hask) rfl signature fun _ _ _ _ ↦ trivial
  objectAt _ _ members := congrArg Members.toObject
    (memberRules_congr (congruent_folded h hask) rfl members fun _ _ _ _ ↦ trivial)
  propertiesOf _ t := propertiesRule_folded h hask t

theorem rulesWithin_folded (h : c.Folds numbers ρ c') (n : Nat) :
    (rulesWithin c n).Folds ρ (rulesWithin c' n) := by
  induction n with
  | zero => exact rules_folded h ⟨fun _ _ _ ↦ rfl, fun _ _ _ ↦ rfl, fun _ _ _ ↦ rfl,
      fun _ _ ↦ rfl⟩
  | succ n ih => exact rules_folded h ⟨ih.typeAt, ih.signatureAt, ih.objectAt, ih.propertiesOf⟩

end Typing

namespace Checker

theorem Folds.typing {c c' : Checker} (h : c.Folds numbers ρ c') :
    c.typing.Folds ρ c'.typing := by
  rw [Checker.typing, Checker.typing, h.trailLimit]
  exact Typing.rulesWithin_folded h c.trailLimit

theorem exists_folds_ofProgram {p p' : Program} (h : p.Parts numbers p') :
    ∃ ρ, (ofProgram p).Folds numbers ρ (ofProgram p') := by
  obtain ⟨ρ, hfolds⟩ := Binding.exists_folds_ofProgram h
  exact ⟨ρ, h.options, h.resolvedModule, hfolds⟩

/-- Every written type resolves in the environments to the same type, whatever names are bound. -/
def SameTypes (c c' : Checker) (env env' : TypeEnv) : Prop :=
  ∀ bindings type, c'.typeAt { env' with bindings := bindings } type =
    c.typeAt { env with bindings := bindings } type

/-- With namespaces in two parts, each statement has an environment under its new numbers if it had
one, in which every written type resolves to the same type. Each type has the same properties. -/
theorem sameTypes_namespaceParts {p p' : Program} (h : p.Parts numbers p')
    (hids : ∀ u ∈ p.units, (u.tree.allStatements.map Statement.id).Nodup)
    (hnumbers : ∀ file id id' n, n ∈ numbers file id → n ∈ numbers file id' → id' = id) :
    (∀ file id, ∀ n ∈ numbers file id, Option.Rel ((ofProgram p).SameTypes (ofProgram p'))
      ((ofProgram p).envAt? file id) ((ofProgram p').envAt? file n)) ∧
    ∀ t, (ofProgram p').propertiesOf t = (ofProgram p).propertiesOf t := by
  obtain ⟨ρ, hfolds⟩ := exists_folds_ofProgram h
  refine ⟨fun file id n hn ↦ ?_, fun t ↦ hfolds.typing.propertiesOf ⟨[], []⟩ t⟩
  have hscope : (ofProgram p).binding.statementScopes.lookup (file, id) =
      ((ofProgram p').binding.statementScopes.lookup (file, n)).map ρ :=
    Binding.lookup_statementScopes_parts h hids hnumbers hfolds.binding hn
  rw [envAt?, envAt?, hscope]
  cases (ofProgram p').binding.statementScopes.lookup (file, n) with
  | none => exact .none
  | some scope =>
      exact .some fun bindings type ↦
        hfolds.typing.typeAt ⟨[], []⟩ ⟨file, scope, bindings⟩ type

theorem exists_of_rel_some {α : Type} {r : α → α → Prop} {x : α} {x' : Option α}
    (h : Option.Rel r (some x) x') : ∃ y, x' = some y ∧ r x y := by
  cases h with
  | some h => exact ⟨_, rfl, h⟩

/-! ## A dotted namespace -/

/-- A statement, the place of which in the text does not matter. -/
def placeless (id : Nat) (modifiers : List Modifier) (decl : Decl) : Statement :=
  ⟨id, modifiers, decl, ⟨0, 0⟩⟩

def namespaceOf (path : List String) (body : List Statement) : Decl :=
  .moduleDecl (.path path) (some body)

/-- An interface with one property. -/
def interfaceOf (name property : String) (type : TypeExpr) : Decl :=
  .interfaceDecl ⟨⟨name, ⟨0, 0⟩⟩, [], [],
    [.property (.identifier property) false false (some type)]⟩

def aliasOf (name : String) (type : TypeExpr) : Decl :=
  .aliasDecl ⟨⟨name, ⟨0, 0⟩⟩, [], type⟩

def typeNamed (path : List String) : TypeExpr := .reference path []

/-- The type of a property of a type. -/
def propertyOf (name property : String) : TypeExpr :=
  .indexed (typeNamed [name]) (.literal (.string property))

def declarationFile (ss : List Statement) : Program :=
  ⟨.default, #[⟨⟨"/screen.d.ts"⟩, "", ⟨ss, []⟩, []⟩]⟩

def sizePart (id : Nat) : List Statement :=
  [placeless id [] (interfaceOf "Size" "width" (typeNamed ["Length"]))]

def lengthPart (id : Nat) : List Statement :=
  [placeless id [] (interfaceOf "Length" "unit" (.keyword .string)),
    placeless (id + 1) [] (aliasOf "Width" (propertyOf "Size" "width"))]

def screen (id : Nat) (body : List Statement) : Statement :=
  placeless id [.ambient] (namespaceOf ["Units", "Screen"] body)

def outerAlias (id : Nat) : Statement :=
  placeless id [] (aliasOf "Outer" (typeNamed ["Units", "Screen", "Width"]))

def wholeScreen : Program := declarationFile [screen 0 (sizePart 1 ++ lengthPart 2), outerAlias 4]

def screenParts : Program :=
  declarationFile [screen 0 (sizePart 1), screen 2 (lengthPart 3), outerAlias 5]

/-- The first statement becomes the first and the third one. -/
def screenNumbers (_ id : Nat) : List Nat :=
  if id = 0 then [0, 2] else if id = 1 then [1] else [id + 1]

theorem parts_screen : wholeScreen.Parts screenNumbers screenParts := by
  have hexports : ∀ s ∈ sizePart 1 ++ lengthPart 2, s.declaresExports = true := by decide
  have hkeeps : ∀ s ∈ sizePart 1, s.KeepsInModules ["Units", "Screen"] := by
    intro s hs t ht hmodule
    obtain rfl := List.mem_singleton.mp hs
    rw [Statement.subtree_eq] at ht
    obtain rfl := List.mem_singleton.mp ht
    cases hmodule
  have hsize : Statement.Parts (screenNumbers 0) true (sizePart 1) (sizePart 1) :=
    .keep rfl rfl (.interfaceDecl rfl rfl) .nil .nil
  have hlength : Statement.Parts (screenNumbers 0) true (lengthPart 2) (lengthPart 3) :=
    .keep rfl rfl (.interfaceDecl rfl rfl) .nil (.keep rfl rfl (.aliasDecl rfl rfl) .nil .nil)
  have houter (ambient : Bool) :
      Statement.Parts (screenNumbers 0) ambient [outerAlias 4] [outerAlias 5] :=
    .keep rfl rfl (.aliasDecl rfl rfl) .nil .nil
  exact ⟨rfl, .cons ⟨rfl, rfl, rfl, .split rfl (List.cons_ne_nil _ _) (Bool.or_true _) hexports
    hkeeps hsize hlength (houter _)⟩ .nil⟩

/-- Written in two parts, the namespace has names that stand for each other across the parts. -/
theorem sameTypes_namespaceParts_dotted :
    ∃ env, (ofProgram screenParts).envAt? 0 5 = some env ∧
      ((ofProgram screenParts).typeAt env (typeNamed ["Units", "Screen", "Width"])).render =
        "Units.Screen.Length" ∧
      ((ofProgram screenParts).propertiesOf
          ((ofProgram screenParts).typeAt env (typeNamed ["Units", "Screen", "Size"]))).map
        (fun q ↦ (q.name, q.type.render)) = [("width", "Units.Screen.Length")] := by
  have hids : ∀ u ∈ wholeScreen.units, (u.tree.allStatements.map Statement.id).Nodup := by
    decide +kernel
  have hnumbers : ∀ file id id' n, n ∈ screenNumbers file id →
      n ∈ screenNumbers file id' → id' = id := by
    intro file id id' n hn hn'
    unfold screenNumbers at hn hn'
    grind
  obtain ⟨htypes, hproperties⟩ := sameTypes_namespaceParts parts_screen hids hnumbers
  have hwhole : (ofProgram wholeScreen).binding.statementScopes.lookup (0, 4) = some 0 ∧
      ((ofProgram wholeScreen).typeAt ⟨0, 0, []⟩
        (typeNamed ["Units", "Screen", "Width"])).render = "Units.Screen.Length" ∧
      ((ofProgram wholeScreen).propertiesOf
          ((ofProgram wholeScreen).typeAt ⟨0, 0, []⟩
            (typeNamed ["Units", "Screen", "Size"]))).map
        (fun q ↦ (q.name, q.type.render)) = [("width", "Units.Screen.Length")] := by
    decide +kernel
  have henv : (ofProgram wholeScreen).envAt? 0 4 = some ⟨0, 0, []⟩ := by
    rw [envAt?, hwhole.1]; rfl
  have hsame := htypes 0 4 5 (by decide)
  rw [henv] at hsame
  obtain ⟨env, hfound, htype⟩ := exists_of_rel_some hsame
  obtain ⟨scope, -, rfl⟩ := Option.map_eq_some_iff.mp hfound
  have hall (type : TypeExpr) : (ofProgram screenParts).typeAt ⟨0, scope, []⟩ type =
      (ofProgram wholeScreen).typeAt ⟨0, 0, []⟩ type := htype [] type
  refine ⟨⟨0, scope, []⟩, hfound, ?_, ?_⟩
  · rw [hall]
    exact hwhole.2.1
  · rw [hproperties, hall]
    exact hwhole.2.2

/-! ## Namespaces that differ from their parts -/

/-- The text of a type that is written in a statement of the first file. -/
def typeText (p : Program) (id : Nat) (type : TypeExpr) : Option String :=
  ((ofProgram p).envAt? 0 id).map fun env ↦ ((ofProgram p).typeAt env type).render

def space (id : Nat) (modifiers : List Modifier) (body : List Statement) : Statement :=
  placeless id modifiers (namespaceOf ["N"] body)

def interfaceA (id : Nat) (modifiers : List Modifier) : Statement :=
  placeless id modifiers (interfaceOf "A" "x" (.keyword .number))

/-- An interface with a property of type `A`, and the type of that property. -/
def mentionsA (id : Nat) : List Statement :=
  [placeless id [] (interfaceOf "B" "a" (typeNamed ["A"])),
    placeless (id + 1) [] (aliasOf "T" (propertyOf "B" "a"))]

def inFunction (id : Nat) (body : List Statement) : Statement :=
  placeless id [] (.function (some ⟨"f", ⟨0, 0⟩⟩) ⟨[], [], none⟩ (some body))

def inModule (id : Nat) (modifiers : List Modifier) (body : List Statement) : Statement :=
  placeless id modifiers (.moduleDecl (.string "m") (some body))

/-- A namespace with the module again that it stands in, of which it makes `N` an
export from a file. -/
def reexportsN (id : Nat) : Statement :=
  placeless id [] (namespaceOf ["Q"]
    [inModule (id + 1) [] [placeless (id + 2) []
      (.exportDecl ⟨false, .named [⟨"Z", "N"⟩], some "./y"⟩)]])

/-- The names of a namespace are not found from one part in the other if they are not exports, as a
default export or in the body of a function, or if a module inside the first part makes the name of
the namespace stand for something else. -/
theorem typeText_namespaceParts_differ :
    let asDefault := [Modifier.exported, .default]
    let type := propertyOf "B" "a"
    (typeText (declarationFile
      [space 0 [.ambient] (interfaceA 1 asDefault :: mentionsA 2)]) 3 type =
        some "N.A" ∧
      typeText (declarationFile
        [space 0 [.ambient] [interfaceA 1 asDefault], space 2 [.ambient] (mentionsA 3)]) 4 type =
        some "A") ∧
    (typeText (declarationFile
      [inFunction 0 [space 1 [] (interfaceA 2 [] :: mentionsA 3)]]) 4 type =
        some "N.A" ∧
      typeText (declarationFile
        [inFunction 0 [space 1 [] [interfaceA 2 []], space 3 [] (mentionsA 4)]]) 5
          type = some "A") ∧
    (typeText (declarationFile
        [inModule 0 [.ambient] [space 1 []
          ([reexportsN 2, interfaceA 5 []] ++ mentionsA 6)]]) 7 type =
        some "N.A" ∧
      typeText (declarationFile
        [inModule 0 [.ambient] [space 1 [] [reexportsN 2, interfaceA 5 []],
          space 6 [] (mentionsA 7)]])
        8 type = some "A") := by
  decide +kernel

end Checker

end PluginSurface
