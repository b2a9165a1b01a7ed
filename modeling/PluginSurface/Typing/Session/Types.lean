import PluginSurface.Typing.Resolve
import PluginSurface.Typing.Session.Links

/-!
# Resolving types in runs

What a written type resolves to and what the properties of a type are is asked of each other without
a bound.
-/

namespace PluginSurface

/-- A question about types. -/
inductive TypeQuery where
  | typeAt (env : TypeEnv) (type : TypeExpr)
  | propertiesOf (t : Ty)

def TypeQuery.Result : TypeQuery → Type
  | typeAt .. => Ty
  | propertiesOf _ => List Property

/-- Answers both kinds of questions. -/
structure TypeRun where
  typeAt : TypeEnv → TypeExpr → Session Ty
  propertiesOf : Ty → Session (List Property)

open Typing

namespace TypeRun

variable (c : Checker) (run : TypeRun)

/-! ## One step -/

/-- A type that may be missing. -/
def annotated (env : TypeEnv) : Option TypeExpr → Session Ty
  | none => return .any
  | some type => run.typeAt env type

def signatureAt (env : TypeEnv) (signature : Signature) : Session FunctionTy := do
  let inner := env.bindTypeParams signature.typeParams
  let params ← signature.params.mapM fun p ↦
    return ⟨p.name, p.optional, p.rest, ← run.annotated inner p.type⟩
  let result ← run.annotated inner signature.result
  return ⟨false, false, renderTypeParams signature.typeParams, params, result⟩

def memberAt (env : TypeEnv) : TypeMember → Session Member
  | .property name optional readonly type =>
    return .property name.key optional readonly (← run.annotated env type)
  | .method name optional signature =>
    return .method name.key optional (← run.signatureAt env signature)
  | .call signature => return .call (← run.signatureAt env signature)
  | .construct signature => do
    let f ← run.signatureAt env signature
    return .construct { f with isConstructor := true }
  | .index i => do
    let key ← run.typeAt env i.key
    let value ← run.annotated env i.value
    return .index ⟨i.keyName, key, value, i.readonly⟩
  | .getter name type => return .getter name.key (← run.annotated env type)
  | .setter name param => return .setter name.key (← run.annotated env (param.bind (·.type)))

def objectAt (env : TypeEnv) (members : List TypeMember) : Session ObjectTy :=
  return Members.toObject (← members.mapM (run.memberAt env))

/-- The environment of a generic declaration with its parameters bound. -/
def instantiate (env : TypeEnv) : List TypeParam → List Ty → Session TypeEnv
  | [], _ => return env
  | p :: rest, arg :: args => instantiate (env.bind p.name arg) rest args
  | p :: rest, [] =>
    match p.default with
    | some default => do instantiate (env.bind p.name (← run.typeAt env default)) rest []
    | none => instantiate (env.bind p.name (.param p.name)) rest []

def aliasTarget (d : Declaration) (decl : AliasDecl) (args : List Ty) : Session Ty := do
  let env ← run.instantiate (declarationEnv d) decl.typeParams args
  run.typeAt env decl.type

def aliasType (id : Nat) (d : Declaration) (decl : AliasDecl) (args : List Ty) : Session Ty := do
  let name := c.binding.qualifiedName id
  if id ∈ (← get).types then return .named name args
  Session.openType id
  let target ← run.aliasTarget d decl args
  Session.closeType
  return if keepsName target then .aliased name args target else target

def declaredType (id : Nat) (args : List Ty) : Session Ty :=
  let s := c.binding.symbol id
  if s.outer.isEmpty && (s.name == "Array" || s.name == "ReadonlyArray") then
    return undeclared s.name args
  else if s.declarations.any declaresInstances then
    return .reference id (c.binding.qualifiedName id) args
  else match s.declarations.findSome? aliasDecl? with
    | some (d, decl) => run.aliasType c id d decl args
    | none => return .named (c.binding.qualifiedName id) args

def variableType (id : Nat) (d : Declaration) (type : TypeExpr) : Session Ty := do
  if id ∈ (← get).types then return .verbatim ("typeof " ++ c.binding.qualifiedName id)
  Session.openType id
  let resolved ← run.typeAt (declarationEnv d) type
  Session.closeType
  return resolved

def queryType (path : List String) (env : TypeEnv) : Session Ty := do
  match ← Session.entity c path env.scope none with
  | none => return .verbatim ("typeof " ++ dotted path)
  | some id =>
    match (c.binding.symbol id).declarations.findSome? variableType? with
    | some (d, type) => run.variableType c id d type
    | none => return .verbatim ("typeof " ++ c.binding.qualifiedName id)

/-- The type that a name stands for, unless it is bound in the environment. -/
def namedType (path : List String) (args : List TypeExpr) (env : TypeEnv) : Session Ty := do
  let args ← args.mapM (run.typeAt env)
  match ← Session.entity c path env.scope none with
  | some id => run.declaredType c id args
  | none => return undeclared (dotted path) args

def importedType (specifier : String) (path : List String) (args : List TypeExpr) (kept : Ty)
    (env : TypeEnv) : Session Ty :=
  match c.moduleSymbol ⟨env.file, specifier⟩ with
  | none => return kept
  | some module => do
    match ← Session.members c module path with
    | some id => run.declaredType c id (← args.mapM (run.typeAt env))
    | none => return kept

def indexedType (object index : Ty) : Session Ty :=
  let kept := .verbatim (object.renderOperand ++ "[" ++ index.render ++ "]")
  match index.unaliased with
  | .literal (.string key) => do
    return (((← run.propertiesOf object).find? (·.name == key)).map (·.type)).getD kept
  | _ => return kept

def typeBy (env : TypeEnv) : TypeExpr → Session Ty
  | .keyword word => return keyword word
  | .this => return .verbatim "this"
  | .literal value => return .literal value
  | .reference path args =>
    match boundType? path env with
    | some t => return t
    | none => run.namedType c path args env
  | .union members => do
    let union := Ty.join (← members.mapM (run.typeAt env))
    return if c.program.options.strictNullChecks then union else union.widenNullables
  | .intersection members => return Ty.meet (← members.mapM (run.typeAt env))
  | .array element => return .array (← run.typeAt env element) false
  | .tuple elements => do
    let items ← elements.mapM fun e ↦
      return ⟨e.label, e.optional, e.rest, ← run.typeAt env e.type⟩
    return .tuple items false
  | .function isConstructor isAbstract signature => do
    let f ← run.signatureAt env signature
    return .function { f with isConstructor := isConstructor, isAbstract := isAbstract }
  | .members members => return .object (← run.objectAt env members)
  | .query path _ => run.queryType c path env
  | .operator op operand => return operate op (← run.typeAt env operand)
  | .indexed object index => do
    let object ← run.typeAt env object
    let index ← run.typeAt env index
    run.indexedType object index
  | .imported isTypeof specifier path args =>
    let kept := .verbatim (TypeExpr.imported isTypeof specifier path args).render
    if isTypeof || path.isEmpty then return kept
    else run.importedType c specifier path args kept env
  | .conditional check bound yes no => do
    let branch := env.bindNames bound.inferNames
    let check ← run.typeAt env check
    let bound ← run.typeAt branch bound
    let yes ← run.typeAt branch yes
    let no ← run.typeAt env no
    return .verbatim (check.render ++ " extends " ++ bound.render ++ " ? " ++ yes.render ++ " : " ++
      no.render)
  | .infer name none => return .verbatim ("infer " ++ name)
  | .infer name (some bound) =>
    return .verbatim ("infer " ++ name ++ " extends " ++ (← run.typeAt env bound).render)
  | .mapped readonly key bound rename optional value => do
    let inner := env.bindNames [key]
    let bound ← run.typeAt env bound
    let rename ← rename.mapM (run.typeAt inner)
    let value ← run.annotated inner value
    return mapped readonly key bound.render (rename.map Ty.render) optional value.render
  | .template raw => return .verbatim (env.template raw)
  | .predicate asserts param none =>
      return .verbatim ((if asserts then "asserts " else "") ++ param)
  | .predicate asserts param (some type) =>
    return .verbatim ((if asserts then "asserts " else "") ++ param ++ " is " ++
      (← run.typeAt env type).render)

def classMembers (env : TypeEnv) (m : ClassMember) : Session (List Member) :=
  match m.kind with
  | .constructor params _ =>
    (params.filter Param.isProperty).mapM fun p ↦
      return .property p.name p.optional (p.modifiers.contains .readonly)
        (← run.annotated env p.type)
  | .property name optional type =>
    if isHidden name then return []
    else return [.property name.key optional (m.modifiers.contains .readonly)
      (← run.annotated env type)]
  | .method name optional signature _ =>
    if isHidden name then return []
    else return [.method name.key optional (← run.signatureAt env signature)]
  | .getter name type _ =>
    if isHidden name then return [] else return [.getter name.key (← run.annotated env type)]
  | .setter name param _ =>
    if isHidden name then return []
    else return [.setter name.key (← run.annotated env (param.bind (·.type)))]
  | .index _ | .staticBlock _ => return []

def addDeclaration (args : List Ty) (found : List Property × List Ty) (d : Declaration) :
    Session (List Property × List Ty) :=
  match d.kind with
  | .classDecl decl => do
    let env ← run.instantiate (declarationEnv d) decl.typeParams args
    let members ← (decl.members.filter (!·.isStatic)).mapM (run.classMembers env)
    let bases ← decl.base.toList.mapM (run.typeAt env)
    return (members.flatten.foldl Members.addMember found.1, found.2 ++ bases)
  | .interfaceDecl decl => do
    let env ← run.instantiate (declarationEnv d) decl.typeParams args
    let object ← run.objectAt env decl.members
    let bases ← decl.bases.mapM (run.typeAt env)
    return (object.properties.foldl Members.addNew found.1, found.2 ++ bases)
  | _ => return found

/-- The own properties of a class or interface and those of the types that it extends. -/
def collected (id : Nat) (args : List Ty) : Session (List Property) := do
  let (own, bases) ← (c.binding.symbol id).declarations.foldlM (run.addDeclaration args) ([], [])
  let inherited ← bases.mapM run.propertiesOf
  return inherited.flatten.foldl Members.addNew own

def declaredProperties (id : Nat) (args : List Ty) : Session (List Property) := do
  if id ∈ (← get).heritage then return []
  Session.openHeritage id
  let ps ← run.collected c id args
  Session.closeHeritage
  return ps

/-- The properties of a type. -/
def propertiesBy : Ty → Session (List Property)
  | .object o => return o.properties
  | .aliased _ _ target => run.propertiesOf target
  | .reference id _ args => run.declaredProperties c id args
  | .intersection members => return meetProperties (← members.mapM run.propertiesOf)
  | _ => return []

/-! ## The more is answered, the more is resolved -/

variable {run} {run' : TypeRun}

structure Below (run run' : TypeRun) : Prop where
  typeAt : ∀ env type, Session.Below (run.typeAt env type) (run'.typeAt env type)
  propertiesOf : ∀ t, Session.Below (run.propertiesOf t) (run'.propertiesOf t)

namespace Below

open Session

variable (h : run.Below run')

include h

theorem typesAt (env : TypeEnv) (types : List TypeExpr) :
    Session.Below (types.mapM (run.typeAt env)) (types.mapM (run'.typeAt env)) :=
  below_mapM (h.typeAt env) types

theorem annotated (env : TypeEnv) (type : Option TypeExpr) :
    Session.Below (run.annotated env type) (run'.annotated env type) := by
  cases type with
  | none => exact below_refl _
  | some type => exact h.typeAt env type

theorem signatureAt (env : TypeEnv) (signature : Signature) :
    Session.Below (run.signatureAt env signature) (run'.signatureAt env signature) :=
  below_bind (below_mapM (fun p ↦ below_map (h.annotated _ p.type) _) signature.params) fun _ ↦
    below_map (h.annotated _ signature.result) _

theorem memberAt (env : TypeEnv) (member : TypeMember) :
    Session.Below (run.memberAt env member) (run'.memberAt env member) := by
  cases member with
  | property name optional readonly type => exact below_map (h.annotated env type) _
  | method name optional signature => exact below_map (h.signatureAt env signature) _
  | call signature => exact below_map (h.signatureAt env signature) _
  | construct signature => exact below_map (h.signatureAt env signature) _
  | index i => exact below_bind (h.typeAt env i.key) fun _ ↦ below_map (h.annotated env i.value) _
  | getter name type => exact below_map (h.annotated env type) _
  | setter name param => exact below_map (h.annotated env (param.bind (·.type))) _

theorem objectAt (env : TypeEnv) (members : List TypeMember) :
    Session.Below (run.objectAt env members) (run'.objectAt env members) :=
  below_map (below_mapM (h.memberAt env) members) _

theorem instantiate (env : TypeEnv) (params : List TypeParam) (args : List Ty) :
    Session.Below (run.instantiate env params args) (run'.instantiate env params args) := by
  induction params generalizing env args with
  | nil => exact below_refl _
  | cons p rest ih =>
      cases args with
      | cons arg args => exact ih _ args
      | nil =>
          rw [TypeRun.instantiate, TypeRun.instantiate]
          cases p.default with
          | none => exact ih _ []
          | some default => exact below_bind (h.typeAt env default) fun t ↦ ih _ []

theorem aliasTarget (d : Declaration) (decl : AliasDecl) (args : List Ty) :
    Session.Below (run.aliasTarget d decl args) (run'.aliasTarget d decl args) :=
  below_bind (h.instantiate _ decl.typeParams args) fun env ↦ h.typeAt env decl.type

theorem aliasType (id : Nat) (d : Declaration) (decl : AliasDecl) (args : List Ty) :
    Session.Below (run.aliasType c id d decl args) (run'.aliasType c id d decl args) := by
  refine below_bind (below_refl _) fun s ↦ ?_
  split
  · exact below_refl _
  · exact below_opened (h.aliasTarget d decl args) _ _ _

theorem declaredType (id : Nat) (args : List Ty) :
    Session.Below (run.declaredType c id args) (run'.declaredType c id args) := by
  rw [TypeRun.declaredType, TypeRun.declaredType]
  split
  · exact below_refl _
  split
  · exact below_refl _
  cases (c.binding.symbol id).declarations.findSome? aliasDecl? with
  | none => exact below_refl _
  | some found => exact h.aliasType c id found.1 found.2 args

theorem variableType (id : Nat) (d : Declaration) (type : TypeExpr) :
    Session.Below (run.variableType c id d type) (run'.variableType c id d type) := by
  refine below_bind (below_refl _) fun s ↦ ?_
  split
  · exact below_refl _
  · exact below_opened (h.typeAt _ type) _ _ _

theorem queryType (path : List String) (env : TypeEnv) :
    Session.Below (run.queryType c path env) (run'.queryType c path env) := by
  refine below_bind (below_refl _) fun found ↦ ?_
  cases found with
  | none => exact below_refl _
  | some id =>
      dsimp only
      cases (c.binding.symbol id).declarations.findSome? variableType? with
      | none => exact below_refl _
      | some found => exact h.variableType c id found.1 found.2

theorem namedType (path : List String) (args : List TypeExpr) (env : TypeEnv) :
    Session.Below (run.namedType c path args env) (run'.namedType c path args env) := by
  refine below_bind (h.typesAt env args) fun args ↦ below_bind (below_refl _) fun found ↦ ?_
  cases found with
  | none => exact below_refl _
  | some id => exact h.declaredType c id args

theorem importedType (specifier : String) (path : List String) (args : List TypeExpr) (kept : Ty)
    (env : TypeEnv) : Session.Below (run.importedType c specifier path args kept env)
      (run'.importedType c specifier path args kept env) := by
  rw [TypeRun.importedType, TypeRun.importedType]
  cases c.moduleSymbol ⟨env.file, specifier⟩ with
  | none => exact below_refl _
  | some module =>
      refine below_bind (below_refl _) fun found ↦ ?_
      cases found with
      | none => exact below_refl _
      | some id => exact below_bind (h.typesAt env args) fun args ↦ h.declaredType c id args

theorem indexedType (object index : Ty) :
    Session.Below (run.indexedType object index) (run'.indexedType object index) := by
  rw [TypeRun.indexedType, TypeRun.indexedType]
  split
  · exact below_map (h.propertiesOf object) _
  · exact below_refl _

theorem typeBy (env : TypeEnv) (type : TypeExpr) :
    Session.Below (run.typeBy c env type) (run'.typeBy c env type) := by
  cases type with
  | keyword | this | literal | template => exact below_refl _
  | reference path args =>
      rw [TypeRun.typeBy, TypeRun.typeBy]
      cases boundType? path env with
      | some t => exact below_refl _
      | none => exact h.namedType c path args env
  | union members => exact below_map (h.typesAt env members) _
  | intersection members => exact below_map (h.typesAt env members) _
  | array element => exact below_map (h.typeAt env element) _
  | tuple elements =>
      exact below_map (below_mapM (fun e ↦ below_map (h.typeAt env e.type) _) elements) _
  | function isConstructor isAbstract signature =>
      exact below_map (h.signatureAt env signature) _
  | members members => exact below_map (h.objectAt env members) _
  | query path args => exact h.queryType c path env
  | operator op operand => exact below_map (h.typeAt env operand) _
  | indexed object index =>
      exact below_bind (h.typeAt env object) fun object ↦
        below_bind (h.typeAt env index) fun index ↦ h.indexedType object index
  | imported isTypeof specifier path args =>
      rw [TypeRun.typeBy, TypeRun.typeBy]
      split
      · exact below_refl _
      · exact h.importedType c specifier path args _ env
  | conditional check bound yes no =>
      exact below_bind (h.typeAt env check) fun _ ↦ below_bind (h.typeAt _ bound) fun _ ↦
        below_bind (h.typeAt _ yes) fun _ ↦ below_map (h.typeAt env no) _
  | infer name bound =>
      cases bound with
      | none => exact below_refl _
      | some bound => exact below_map (h.typeAt env bound) _
  | mapped readonly key bound rename optional value =>
      exact below_bind (h.typeAt env bound) fun bound ↦
        below_bind (below_option_mapM (h.typeAt _) rename) fun rename ↦
          below_map (h.annotated _ value) _
  | predicate asserts param type =>
      cases type with
      | none => exact below_refl _
      | some type => exact below_map (h.typeAt env type) _

theorem classMembers (env : TypeEnv) (m : ClassMember) :
    Session.Below (run.classMembers env m) (run'.classMembers env m) := by
  rw [TypeRun.classMembers, TypeRun.classMembers]
  cases m.kind with
  | constructor params body =>
      exact below_mapM (fun p : Param ↦ below_map (h.annotated env p.type) _) _
  | property name optional type =>
      dsimp only
      split
      · exact below_refl _
      · exact below_map (h.annotated env type) _
  | method name optional signature body =>
      dsimp only
      split
      · exact below_refl _
      · exact below_map (h.signatureAt env signature) _
  | getter name type body =>
      dsimp only
      split
      · exact below_refl _
      · exact below_map (h.annotated env type) _
  | setter name param body =>
      dsimp only
      split
      · exact below_refl _
      · exact below_map (h.annotated env _) _
  | index index => exact below_refl _
  | staticBlock body => exact below_refl _

theorem addDeclaration (args : List Ty) (found : List Property × List Ty) (d : Declaration) :
    Session.Below (run.addDeclaration args found d) (run'.addDeclaration args found d) := by
  rw [TypeRun.addDeclaration, TypeRun.addDeclaration]
  cases d.kind with
  | classDecl decl =>
      exact below_bind (h.instantiate _ decl.typeParams args) fun env ↦
        below_bind (below_mapM (h.classMembers env) _) fun members ↦ below_map (h.typesAt env _) _
  | interfaceDecl decl =>
      exact below_bind (h.instantiate _ decl.typeParams args) fun env ↦
        below_bind (h.objectAt env decl.members) fun object ↦ below_map (h.typesAt env _) _
  | _ => exact below_refl _

theorem collected (id : Nat) (args : List Ty) :
    Session.Below (run.collected c id args) (run'.collected c id args) :=
  below_bind (below_foldlM (h.addDeclaration args) _ _) fun found ↦
    below_map (below_mapM h.propertiesOf found.2) _

theorem declaredProperties (id : Nat) (args : List Ty) :
    Session.Below (run.declaredProperties c id args) (run'.declaredProperties c id args) := by
  refine below_bind (below_refl _) fun s ↦ ?_
  split
  · exact below_refl _
  · exact below_opened (h.collected c id args) _ _ _

theorem propertiesBy (t : Ty) :
    Session.Below (run.propertiesBy c t) (run'.propertiesBy c t) := by
  cases t with
  | aliased name args target => exact h.propertiesOf target
  | reference id name args => exact h.declaredProperties c id args
  | intersection members => exact below_map (below_mapM h.propertiesOf members) _
  | _ => exact below_refl _

end Below

end TypeRun

/-! ## Without a bound -/

/-- The two kinds of questions apart. -/
def TypeRun.of (run : (q : TypeQuery) → Session q.Result) : TypeRun :=
  ⟨fun env type ↦ run (.typeAt env type), fun t ↦ run (.propertiesOf t)⟩

namespace Session

variable (c : Checker)

def typeStep (run : (q : TypeQuery) → Session q.Result) : (q : TypeQuery) → Session q.Result
  | .typeAt env type => (TypeRun.of run).typeBy c env type
  | .propertiesOf t => (TypeRun.of run).propertiesBy c t

theorem below_typeStep {run run' : (q : TypeQuery) → Session q.Result}
    (h : ∀ q, Below (run q) (run' q)) (q : TypeQuery) :
    Below (typeStep c run q) (typeStep c run' q) := by
  have hof : (TypeRun.of run).Below (.of run') :=
    ⟨fun env type ↦ h (.typeAt env type), fun t ↦ h (.propertiesOf t)⟩
  cases q with
  | typeAt env type => exact hof.typeBy c env type
  | propertiesOf t => exact hof.propertiesBy c t

def typeRecursion : Recursion Opened fun q : TypeQuery ↦ q.Result × Opened :=
  ⟨typeStep c, below_typeStep c⟩

def typeAt (env : TypeEnv) (type : TypeExpr) : Session Ty :=
  (typeRecursion c).fix (.typeAt env type)

def propertiesOf (t : Ty) : Session (List Property) := (typeRecursion c).fix (.propertiesOf t)

/-- Answers without a bound. -/
def types : TypeRun := ⟨typeAt c, propertiesOf c⟩

theorem typeAt_eq (env : TypeEnv) (type : TypeExpr) :
    typeAt c env type = (types c).typeBy c env type :=
  (typeRecursion c).fix_eq (.typeAt env type)

theorem propertiesOf_eq (t : Ty) : propertiesOf c t = (types c).propertiesBy c t :=
  (typeRecursion c).fix_eq (.propertiesOf t)

end Session

/-! ## Questions -/

inductive TypeAnswer where
  | type (t : Ty)
  | properties (ps : List Property)

def Session.answer (c : Checker) : TypeQuery → Session TypeAnswer
  | .typeAt env type => return .type (← typeAt c env type)
  | .propertiesOf t => return .properties (← propertiesOf c t)

def Checker.answer (c : Checker) : TypeQuery → TypeAnswer
  | .typeAt env type => .type (c.typeAt env type)
  | .propertiesOf t => .properties (c.propertiesOf t)

end PluginSurface
