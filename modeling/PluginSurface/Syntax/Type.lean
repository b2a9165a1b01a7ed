/-!
# Written types

A type as it stands in a declaration file, before any name in it is looked up. Types, signatures,
parameters and members contain one another.
-/

namespace PluginSurface

/-- The words in front of a declaration, a member or a parameter. -/
inductive Modifier where
  | exported
  | ambient
  | default
  | abstract
  | publicAccess
  | privateAccess
  | protectedAccess
  | static
  | readonly
  | async
  | const
  | override
  | accessor
  | input
  | output
deriving DecidableEq, Repr

/-- The types that have a word of their own. -/
inductive Keyword where
  | any
  | unknown
  | never
  | void
  | undefined
  | null
  | string
  | number
  | boolean
  | bigint
  | symbol
  | object
  | intrinsic
deriving DecidableEq, Repr

/-- Literal types. A number is kept as written, with its minus sign. -/
inductive Literal where
  | string (value : String)
  | number (text : String)
  | bigint (text : String)
  | boolean (value : Bool)
deriving DecidableEq, Repr

/-- How the name of a property is written. A computed name is kept as its tokens. -/
inductive PropertyName where
  | identifier (text : String)
  | string (value : String)
  | number (text : String)
  | hash (text : String)
  | computed (text : String)
deriving DecidableEq, Repr

/-- The operators that take one type. -/
inductive TypeOperator where
  | keyof
  | unique
  | readonly
deriving DecidableEq, Repr

/-- Whether a mapped type adds or removes a modifier. -/
inductive MappedModifier where
  | add
  | remove
deriving DecidableEq, Repr

mutual

inductive TypeExpr where
  | keyword (word : Keyword)
  | this
  | literal (value : Literal)
  | reference (name : List String) (args : List TypeExpr)
  | union (members : List TypeExpr)
  | intersection (members : List TypeExpr)
  | array (element : TypeExpr)
  | tuple (elements : List TupleElement)
  | function (isConstructor isAbstract : Bool) (signature : Signature)
  | members (members : List TypeMember)
  | query (name : List String) (args : List TypeExpr)
  | operator (op : TypeOperator) (operand : TypeExpr)
  | indexed (object index : TypeExpr)
  | conditional (check bound yes no : TypeExpr)
  | infer (name : String) (bound : Option TypeExpr)
  | mapped (readonly : Option MappedModifier) (key : String) (bound : TypeExpr)
      (rename : Option TypeExpr) (optional : Option MappedModifier) (value : Option TypeExpr)
  | template (raw : String)
  | imported (isTypeof : Bool) (specifier : String) (qualifier : List String) (args : List TypeExpr)
  | predicate (asserts : Bool) (param : String) (type : Option TypeExpr)

/-- An element of a tuple type. -/
structure TupleElement where
  label : Option String
  optional : Bool
  rest : Bool
  type : TypeExpr

/-- A type parameter with its bound and its default. -/
structure TypeParam where
  name : String
  bound : Option TypeExpr
  default : Option TypeExpr

/-- A parameter of a function, method or constructor. -/
structure Param where
  name : String
  modifiers : List Modifier
  optional : Bool
  rest : Bool
  type : Option TypeExpr

/-- Type parameters, parameters and the type of the result. -/
structure Signature where
  typeParams : List TypeParam
  params : List Param
  result : Option TypeExpr

structure IndexSignature where
  readonly : Bool
  keyName : String
  key : TypeExpr
  value : Option TypeExpr

/-- A member of an interface or of a type in braces. -/
inductive TypeMember where
  | property (name : PropertyName) (optional readonly : Bool) (type : Option TypeExpr)
  | method (name : PropertyName) (optional : Bool) (signature : Signature)
  | call (signature : Signature)
  | construct (signature : Signature)
  | index (index : IndexSignature)
  | getter (name : PropertyName) (type : Option TypeExpr)
  | setter (name : PropertyName) (param : Option Param)

end

namespace Modifier

def word : Modifier → String
  | .exported => "export"
  | .ambient => "declare"
  | .default => "default"
  | .abstract => "abstract"
  | .publicAccess => "public"
  | .privateAccess => "private"
  | .protectedAccess => "protected"
  | .static => "static"
  | .readonly => "readonly"
  | .async => "async"
  | .const => "const"
  | .override => "override"
  | .accessor => "accessor"
  | .input => "in"
  | .output => "out"

def all : List Modifier :=
  [.exported, .ambient, .default, .abstract, .publicAccess, .privateAccess, .protectedAccess,
    .static, .readonly, .async, .const, .override, .accessor, .input, .output]

def ofWord? (word : String) : Option Modifier := all.find? (·.word == word)

end Modifier

namespace Keyword

def word : Keyword → String
  | .any => "any"
  | .unknown => "unknown"
  | .never => "never"
  | .void => "void"
  | .undefined => "undefined"
  | .null => "null"
  | .string => "string"
  | .number => "number"
  | .boolean => "boolean"
  | .bigint => "bigint"
  | .symbol => "symbol"
  | .object => "object"
  | .intrinsic => "intrinsic"

def all : List Keyword :=
  [.any, .unknown, .never, .void, .undefined, .null, .string, .number, .boolean, .bigint,
    .symbol, .object, .intrinsic]

def ofWord? (word : String) : Option Keyword := all.find? (·.word == word)

end Keyword

namespace TypeOperator

def word : TypeOperator → String
  | .keyof => "keyof"
  | .unique => "unique"
  | .readonly => "readonly"

def ofWord? (word : String) : Option TypeOperator :=
  [TypeOperator.keyof, .unique, .readonly].find? (·.word == word)

end TypeOperator

namespace Literal

/-- The literal type of a number as written: the ending `n` makes it a big integer, unless the
number is hexadecimal. -/
def ofNumber (text : String) : Literal :=
  if text.endsWith "n" && !text.startsWith "0x" && !text.startsWith "-0x" then .bigint text
  else .number text

end Literal

namespace PropertyName

def key : PropertyName → String
  | .identifier text | .string text | .number text | .hash text => text
  | .computed text => "[" ++ text ++ "]"

end PropertyName

namespace Param

/-- Whether a constructor parameter also declares a property of its class. -/
def isProperty (p : Param) : Bool :=
  p.modifiers.any fun m => m == .publicAccess || m == .privateAccess || m == .protectedAccess ||
    m == .readonly

end Param

namespace TypeExpr

def members? : TypeExpr → Option (List TypeMember)
  | .members ms => some ms
  | _ => none

/-- The first construct signature among the members, when the type is written in braces. -/
def constructSignature? (t : TypeExpr) : Option Signature := do
  (← t.members?).findSome? fun
    | .construct signature => some signature
    | _ => none

def any : TypeExpr := .keyword .any

end TypeExpr

end PluginSurface
