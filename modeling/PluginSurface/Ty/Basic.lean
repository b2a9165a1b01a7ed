import PluginSurface.Syntax.Type

/-!
# Resolved types

A type after the names in it have been looked up. Equality is that of the whole structure, and
`Ty.beq` decides it (`Ty.beq_iff`).
-/

namespace PluginSurface

/-- The types without structure. -/
inductive Primitive where
  | any
  | unknown
  | never
  | void
  | undefined
  | null
  | string
  | number
  | boolean
  | bigint
  | symbol
  | object
deriving DecidableEq, Repr

mutual

/-- A resolved type. A reference is to the instances of the class or interface with the given
symbol number; an alias keeps the name under which its target was reached; a named type has no
members that are known; a verbatim type is kept as text. -/
inductive Ty where
  | primitive (p : Primitive)
  | literal (value : Literal)
  | union (members : List Ty)
  | intersection (members : List Ty)
  | array (element : Ty) (readonly : Bool)
  | tuple (elements : List TupleItem) (readonly : Bool)
  | function (f : FunctionTy)
  | object (o : ObjectTy)
  | reference (symbol : Nat) (name : String) (args : List Ty)
  | aliased (name : String) (args : List Ty) (target : Ty)
  | param (name : String)
  | named (name : String) (args : List Ty)
  | verbatim (text : String)

structure TupleItem where
  label : Option String
  optional : Bool
  rest : Bool
  type : Ty

/-- A parameter of a function. -/
structure ParamTy where
  name : String
  optional : Bool
  rest : Bool
  type : Ty

/-- A function or constructor. Type parameters are kept as text. -/
structure FunctionTy where
  isConstructor : Bool
  isAbstract : Bool
  typeParams : List String
  params : List ParamTy
  result : Ty

structure IndexTy where
  keyName : String
  key : Ty
  value : Ty
  readonly : Bool

/-- A property of an object, class or interface. -/
structure Property where
  name : String
  optional : Bool
  readonly : Bool
  isMethod : Bool
  type : Ty

/-- What a type in braces consists of. -/
structure ObjectTy where
  properties : List Property
  calls : List FunctionTy
  constructs : List FunctionTy
  indexes : List IndexTy

end

instance : Inhabited Ty := ⟨.primitive .any⟩

namespace Primitive

def word : Primitive → String
  | .any => "any"
  | .unknown => "unknown"
  | .never => "never"
  | .void => "void"
  | .undefined => "undefined"
  | .null => "null"
  | .string => "string"
  | .number => "number"
  | .boolean => "boolean"
  | .bigint => "bigint"
  | .symbol => "symbol"
  | .object => "object"

end Primitive

namespace Ty

abbrev any : Ty := .primitive .any

abbrev unknown : Ty := .primitive .unknown

abbrev never : Ty := .primitive .never

abbrev undefined : Ty := .primitive .undefined

abbrev string : Ty := .primitive .string

end Ty

namespace ObjectTy

def empty : ObjectTy := ⟨[], [], [], []⟩

/-- The signature of an object that has one signature and nothing else. -/
def single? : ObjectTy → Option FunctionTy
  | ⟨[], [f], [], []⟩ => some f
  | ⟨[], [], [f], []⟩ => some f
  | _ => none

/-- Whether the object describes only how it is called or constructed. -/
def isCallableOnly (o : ObjectTy) : Bool :=
  o.properties.isEmpty && o.indexes.isEmpty && (!o.calls.isEmpty || !o.constructs.isEmpty)

end ObjectTy

namespace Ty

def unaliased : Ty → Ty
  | .aliased _ _ target => target.unaliased
  | t => t

/-- Whether the type is a function, or an object that is written like one. -/
def isFunctionLike : Ty → Bool
  | .function _ => true
  | .object o => o.single?.isSome
  | _ => false

/-- Whether the type is put in parentheses as an array element or an operand. -/
def needsParens : Ty → Bool
  | .union _ | .intersection _ => true
  | t => t.isFunctionLike

mutual

/-- Whether the type has a set of properties that can be listed: objects that are not only called,
classes and interfaces, aliases of those, and intersections of only those. -/
def isStructured : Ty → Bool
  | .object o => !o.isCallableOnly
  | .reference .. => true
  | .aliased _ _ target => target.isStructured
  | .intersection members => allStructured members
  | _ => false

def allStructured : List Ty → Bool
  | [] => true
  | t :: rest => t.isStructured && allStructured rest

end

end Ty

end PluginSurface
