import PluginSurface.Binding.Links
import PluginSurface.Typing.Env
import PluginSurface.Typing.InferNames
import PluginSurface.Typing.Members

/-!
# Resolving written types

A written type is resolved in an environment by going through its parts. What lies behind a name is
resolved on the way only where it has to be: the body of an alias, the type of a variable behind
`typeof`, and the members of a class or interface. Each of these is opened at most once along one
chain of questions, so a chain is at most twice as long as there are symbols, and recursive
declarations end.
-/

namespace PluginSurface

/-- The aliases and variables that are open, and the classes and interfaces that are. -/
structure TypeTrail where
  types : List Nat
  heritage : List Nat

/-- Answers what a written type, a signature or members in braces resolve to, and what the
properties of a type are. -/
structure TypeRules where
  typeAt : TypeTrail → TypeEnv → TypeExpr → Ty
  signatureAt : TypeTrail → TypeEnv → Signature → FunctionTy
  objectAt : TypeTrail → TypeEnv → List TypeMember → ObjectTy
  propertiesOf : TypeTrail → Ty → List Property

namespace Typing

def keyword : Keyword → Ty
  | .any => .primitive .any
  | .unknown => .primitive .unknown
  | .never => .primitive .never
  | .void => .primitive .void
  | .undefined => .primitive .undefined
  | .null => .primitive .null
  | .string => .primitive .string
  | .number => .primitive .number
  | .boolean => .primitive .boolean
  | .bigint => .primitive .bigint
  | .symbol => .primitive .symbol
  | .object => .primitive .object
  | .intrinsic => .verbatim "intrinsic"

/-- The type of a name that no declaration is known for. `Array` and `ReadonlyArray` of one type are
arrays. -/
def undeclared (name : String) (args : List Ty) : Ty :=
  match args with
  | [element] =>
    if name == "Array" then .array element false
    else if name == "ReadonlyArray" then .array element true
    else .named name args
  | _ => .named name args

def operate : TypeOperator → Ty → Ty
  | .readonly, .array element _ => .array element true
  | .readonly, .tuple elements _ => .tuple elements true
  | .readonly, t => t
  | .keyof, t => .verbatim ("keyof " ++ t.renderOperand)
  | .unique, t => .verbatim ("unique " ++ t.render)

def mapped (readonly : Option MappedModifier) (key bound : String) (rename : Option String)
    (optional : Option MappedModifier) (value : String) : Ty :=
  .verbatim ("\x7b " ++
    (match readonly with
      | some .add => "readonly "
      | some .remove => "-readonly "
      | none => "") ++
    "[" ++ key ++ " in " ++ bound ++
    (match rename with
      | some text => " as " ++ text
      | none => "") ++ "]" ++
    (match optional with
      | some .add => "?"
      | some .remove => "-?"
      | none => "") ++ ": " ++ value ++ "; \x7d")

def keepsName : Ty → Bool
  | .union _ | .intersection _ | .object _ | .function _ | .verbatim _ => true
  | _ => false

/-- The environment of a generic declaration: its parameters are bound to the arguments, those that
are missing to their defaults, and those without a default to themselves. -/
def instantiate (typeAt : TypeEnv → TypeExpr → Ty) (env : TypeEnv) :
    List TypeParam → List Ty → TypeEnv
  | [], _ => env
  | p :: rest, arg :: args => instantiate typeAt (env.bind p.name arg) rest args
  | p :: rest, [] =>
    let t :=
      match p.default with
      | some default => typeAt env default
      | none => .param p.name
    instantiate typeAt (env.bind p.name t) rest []

def meetProperties (pss : List (List Property)) : List Property :=
  pss.flatten.foldl Members.addMeet []

section

variable (c : Checker) (ask : TypeRules) (trail : TypeTrail)

def declarationEnv (d : Declaration) : TypeEnv := ⟨d.file, d.scope, []⟩

/-! ## Properties -/

def annotated (env : TypeEnv) : Option TypeExpr → Ty
  | none => .any
  | some type => ask.typeAt trail env type

/-- Whether the name of a member is hidden from everything outside its class. -/
def isHidden : PropertyName → Bool
  | .hash _ => true
  | _ => false

/-- What a class member contributes to the instances of the class. A constructor contributes the
parameters that are properties. -/
def classMembers (env : TypeEnv) (m : ClassMember) : List Member :=
  let visible (name : PropertyName) (member : Member) := if isHidden name then [] else [member]
  match m.kind with
  | .constructor params _ =>
    (params.filter Param.isProperty).map fun p ↦
      .property p.name p.optional (p.modifiers.contains .readonly) (annotated ask trail env p.type)
  | .property name optional type =>
    visible name (.property name.key optional (m.modifiers.contains .readonly)
      (annotated ask trail env type))
  | .method name optional signature _ =>
    visible name (.method name.key optional (ask.signatureAt trail env signature))
  | .getter name type _ => visible name (.getter name.key (annotated ask trail env type))
  | .setter name param _ =>
    visible name (.setter name.key (annotated ask trail env (param.bind (·.type))))
  | .index _ | .staticBlock _ => []

/-- The properties of a declaration beside those found before, and the types that it extends. -/
def addDeclaration (args : List Ty) (found : List Property × List Ty) (d : Declaration) :
    List Property × List Ty :=
  let (ps, bases) := found
  let instanceEnv (params : List TypeParam) :=
    instantiate (ask.typeAt trail) (declarationEnv d) params args
  match d.kind with
  | .classDecl decl =>
    let env := instanceEnv decl.typeParams
    let members := (decl.members.filter (!·.isStatic)).flatMap (classMembers ask trail env)
    (members.foldl Members.addMember ps,
      bases ++ decl.base.toList.map (ask.typeAt trail env))
  | .interfaceDecl decl =>
    let env := instanceEnv decl.typeParams
    ((ask.objectAt trail env decl.members).properties.foldl Members.addNew ps,
      bases ++ decl.bases.map (ask.typeAt trail env))
  | _ => found

/-- The properties of a class or interface: its own, then those of the types that it extends. -/
def declaredProperties (id : Nat) (args : List Ty) : List Property :=
  if id ∈ trail.heritage then []
  else
    let trail := { trail with heritage := id :: trail.heritage }
    let (own, bases) :=
      (c.binding.symbol id).declarations.foldl (addDeclaration ask trail args) ([], [])
    (bases.flatMap (ask.propertiesOf trail)).foldl Members.addNew own

mutual

def propertiesRule : Ty → List Property
  | .object o => o.properties
  | .aliased _ _ target => propertiesRule target
  | .reference id _ args => declaredProperties c ask trail id args
  | .intersection members => meetProperties (propertiesRules members)
  | _ => []

def propertiesRules : List Ty → List (List Property)
  | [] => []
  | t :: rest => propertiesRule t :: propertiesRules rest

end

/-! ## Names -/

/-- The type that an alias stands for. An alias that is open already stands for itself. -/
def aliasType (id : Nat) (d : Declaration) (decl : AliasDecl) (args : List Ty) : Ty :=
  let name := c.binding.qualifiedName id
  if id ∈ trail.types then .named name args
  else
    let trail := { trail with types := id :: trail.types }
    let env := instantiate (ask.typeAt trail) (declarationEnv d) decl.typeParams args
    let target := ask.typeAt trail env decl.type
    if keepsName target then .aliased name args target else target

def declaresInstances (d : Declaration) : Bool :=
  match d.kind with
  | .classDecl _ | .interfaceDecl _ => true
  | _ => false

def aliasDecl? (d : Declaration) : Option (Declaration × AliasDecl) :=
  match d.kind with
  | .aliasDecl decl => some (d, decl)
  | _ => none

def variableType? (d : Declaration) : Option (Declaration × TypeExpr) :=
  match d.kind with
  | .variable (some type) => some (d, type)
  | _ => none

def declaredType (id : Nat) (args : List Ty) : Ty :=
  let s := c.binding.symbol id
  if s.outer.isEmpty && (s.name == "Array" || s.name == "ReadonlyArray") then undeclared s.name args
  else if s.declarations.any declaresInstances then
    .reference id (c.binding.qualifiedName id) args
  else match s.declarations.findSome? aliasDecl? with
    | some (d, decl) => aliasType c ask trail id d decl args
    | none => .named (c.binding.qualifiedName id) args

def queryType (path : List String) (env : TypeEnv) : Ty :=
  match c.entity? path env.scope with
  | none => .verbatim ("typeof " ++ dotted path)
  | some id =>
    match (c.binding.symbol id).declarations.findSome? variableType? with
    | some (d, type) =>
      if id ∈ trail.types then .verbatim ("typeof " ++ c.binding.qualifiedName id)
      else ask.typeAt { trail with types := id :: trail.types } (declarationEnv d) type
    | none => .verbatim ("typeof " ++ c.binding.qualifiedName id)

/-- The type that a name stands for, unless it is bound in the environment. -/
def namedType (path : List String) (args : List Ty) (env : TypeEnv) : Ty :=
  match c.entity? path env.scope with
  | some id => declaredType c ask trail id args
  | none => undeclared (dotted path) args

def boundType? (path : List String) (env : TypeEnv) : Option Ty :=
  match path with
  | [single] => env.bound? single
  | _ => none

def importedSymbol? (env : TypeEnv) (specifier : String) (path : List String) : Option Nat := do
  path.foldlM c.export? (← c.moduleSymbol ⟨env.file, specifier⟩)

/-- The type of a property that is picked out of a type by a literal name; any other indexed access
stays as it is written. -/
def indexedType (object index : Ty) : Ty :=
  let kept := .verbatim (object.renderOperand ++ "[" ++ index.render ++ "]")
  match index.unaliased with
  | .literal (.string key) =>
    match (propertiesRule c ask trail object).find? (·.name == key) with
    | some p => p.type
    | none => kept
  | _ => kept

/-! ## Types -/

mutual

def typeRule (env : TypeEnv) : TypeExpr → Ty
  | .keyword word => keyword word
  | .this => .verbatim "this"
  | .literal value => .literal value
  | .reference path args =>
    match boundType? path env with
    | some t => t
    | none => namedType c ask trail path (typeRules env args) env
  | .union members =>
    let union := Ty.join (typeRules env members)
    if c.program.options.strictNullChecks then union else union.widenNullables
  | .intersection members => Ty.meet (typeRules env members)
  | .array element => .array (typeRule env element) false
  | .tuple elements => .tuple (itemRules env elements) false
  | .function isConstructor isAbstract signature =>
    .function { signatureRule env signature with
      isConstructor := isConstructor, isAbstract := isAbstract }
  | .members members => .object (Members.toObject (memberRules env members))
  | .query path _ => queryType c ask trail path env
  | .operator op operand => operate op (typeRule env operand)
  | .indexed object index => indexedType c ask trail (typeRule env object) (typeRule env index)
  | .imported isTypeof specifier path args =>
    let kept := .verbatim (TypeExpr.imported isTypeof specifier path args).render
    if isTypeof || path.isEmpty then kept
    else match importedSymbol? c env specifier path with
      | some id => declaredType c ask trail id (typeRules env args)
      | none => kept
  | .conditional check bound yes no =>
    let branch := env.bindNames bound.inferNames
    .verbatim ((typeRule env check).render ++ " extends " ++ (typeRule branch bound).render ++
      " ? " ++ (typeRule branch yes).render ++ " : " ++ (typeRule env no).render)
  | .infer name bound =>
    match bound with
    | some bound => .verbatim ("infer " ++ name ++ " extends " ++ (typeRule env bound).render)
    | none => .verbatim ("infer " ++ name)
  | .mapped readonly key bound rename optional value =>
    let inner := env.bindNames [key]
    mapped readonly key (typeRule env bound).render
      (match rename with
        | some rename => some (typeRule inner rename).render
        | none => none)
      optional (typeRule? inner value).render
  | .template raw => .verbatim (env.template raw)
  | .predicate asserts param type =>
    let start := (if asserts then "asserts " else "") ++ param
    match type with
    | some type => .verbatim (start ++ " is " ++ (typeRule env type).render)
    | none => .verbatim start

/-- What a type that may be missing resolves to; a missing one is `any`. -/
def typeRule? (env : TypeEnv) : Option TypeExpr → Ty
  | none => .any
  | some type => typeRule env type

def typeRules (env : TypeEnv) : List TypeExpr → List Ty
  | [] => []
  | type :: rest => typeRule env type :: typeRules env rest

def itemRules (env : TypeEnv) : List TupleElement → List TupleItem
  | [] => []
  | ⟨label, optional, isRest, type⟩ :: rest =>
    ⟨label, optional, isRest, typeRule env type⟩ :: itemRules env rest

def paramRules (env : TypeEnv) : List Param → List ParamTy
  | [] => []
  | ⟨name, _, optional, isRest, type⟩ :: rest =>
    ⟨name, optional, isRest, typeRule? env type⟩ :: paramRules env rest

/-- What a signature resolves to. Its type parameters stand for themselves in it. -/
def signatureRule (env : TypeEnv) : Signature → FunctionTy
  | ⟨typeParams, params, result⟩ =>
    let inner := env.bindTypeParams typeParams
    ⟨false, false, renderTypeParams typeParams, paramRules inner params, typeRule? inner result⟩

def memberRules (env : TypeEnv) : List TypeMember → List Member
  | [] => []
  | m :: rest => memberRule env m :: memberRules env rest

def memberRule (env : TypeEnv) : TypeMember → Member
  | .property name optional readonly type =>
    .property name.key optional readonly (typeRule? env type)
  | .method name optional signature => .method name.key optional (signatureRule env signature)
  | .call signature => .call (signatureRule env signature)
  | .construct signature =>
    .construct { signatureRule env signature with isConstructor := true }
  | .index ⟨readonly, keyName, key, value⟩ =>
    .index ⟨keyName, typeRule env key, typeRule? env value, readonly⟩
  | .getter name type => .getter name.key (typeRule? env type)
  | .setter name param => .setter name.key (paramTypeRule env param)

def paramTypeRule (env : TypeEnv) : Option Param → Ty
  | some ⟨_, _, _, _, some type⟩ => typeRule env type
  | _ => .any

end

end

def rules (c : Checker) (ask : TypeRules) : TypeRules where
  typeAt trail env type := typeRule c ask trail env type
  signatureAt trail env signature := signatureRule c ask trail env signature
  objectAt trail env members := Members.toObject (memberRules c ask trail env members)
  propertiesOf trail t := propertiesRule c ask trail t

/-- Answers nothing. It is not asked: behind the last level everything is open. -/
def noRules : TypeRules where
  typeAt _ _ _ := .any
  signatureAt _ _ _ := ⟨false, false, [], [], .any⟩
  objectAt _ _ _ := .empty
  propertiesOf _ _ := []

/-- Answers questions that lead at most `n` openings deep. -/
def rulesWithin (c : Checker) : Nat → TypeRules
  | 0 => rules c noRules
  | n + 1 => rules c {
      typeAt := fun trail env type ↦ (rulesWithin c n).typeAt trail env type
      signatureAt := fun trail env signature ↦ (rulesWithin c n).signatureAt trail env signature
      objectAt := fun trail env members ↦ (rulesWithin c n).objectAt trail env members
      propertiesOf := fun trail t ↦ (rulesWithin c n).propertiesOf trail t }

end Typing

namespace Checker

variable (c : Checker)

def typing : TypeRules := Typing.rulesWithin c c.trailLimit

def envAt? (file node : Nat) : Option TypeEnv :=
  (c.binding.statementScopes.lookup (file, node)).map fun scope ↦ ⟨file, scope, []⟩

def typeAt (env : TypeEnv) (type : TypeExpr) : Ty := c.typing.typeAt ⟨[], []⟩ env type

def propertiesOf (t : Ty) : List Property := c.typing.propertiesOf ⟨[], []⟩ t

end Checker

end PluginSurface
