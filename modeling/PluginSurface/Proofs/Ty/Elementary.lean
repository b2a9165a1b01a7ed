import PluginSurface.Ty.Render

/-!
# Types without objects and references

An elementary type is built from primitive types and literals by arrays, tuples, functions, unions
and intersections. Its names and numbers are spelled as the scanner reads them, and a union or
intersection in it has several members and none of its own kind, as the canonical ones have.
-/

namespace PluginSurface

open Text

/-! ## Spelling -/

def isNumberPart (c : Char) : Bool := c.isAlphanum || c == '_' || c == '.' || c == '+' || c == '-'

/-- Whether the characters are a number without a sign: a digit, or a point before a digit, and
what else can belong to a number. -/
def isUnsigned : List Char → Bool
  | [] => false
  | c :: rest => (c.isDigit || (c == '.' && rest.head?.any Char.isDigit)) && rest.all isNumberPart

def isSigned : List Char → Bool
  | '-' :: rest => isUnsigned rest
  | cs => isUnsigned cs

namespace Literal

/-- Whether the literal is one that a number, a string or a truth value in a text stands for. -/
def isSpelled : Literal → Bool
  | .number text => isSigned text.toList && ofNumber text == .number text
  | .bigint text => isSigned text.toList && ofNumber text == .bigint text
  | _ => true

end Literal

/-! ## The texts of type parameters -/

/-- What a reader of a type parameter is inside of: a number of brackets, maybe behind an equals
sign, or a quoted text in so many brackets, maybe behind a backslash. -/
inductive Enclosure where
  | brackets (depth : Nat) (afterEquals : Bool)
  | quotes (mark : Char) (afterBackslash : Bool) (depth : Nat)
deriving DecidableEq, Repr

namespace Enclosure

def outermost : Enclosure := .brackets 0 false

/-- Whether the character ends a type parameter: a comma or a closing angle outside of brackets and
quotes, unless the angle belongs to an arrow. -/
def endsAt : Enclosure → Char → Bool
  | .brackets 0 afterEquals, c => c == ',' || (c == '>' && !afterEquals)
  | _, _ => false

def step : Enclosure → Char → Enclosure
  | .brackets depth afterEquals, c =>
    if ['"', '\'', '`'].contains c then .quotes c false depth
    else if ['(', '[', '\x7b', '<'].contains c then .brackets (depth + 1) false
    else if [')', ']', '\x7d'].contains c || (c == '>' && !afterEquals) then
      .brackets (depth - 1) false
    else .brackets depth (c == '=')
  | .quotes mark true depth, _ => .quotes mark false depth
  | .quotes mark false depth, c =>
    if c = '\\' then .quotes mark true depth
    else if c = mark then .brackets depth false
    else .quotes mark false depth

end Enclosure

/-- Whether a type parameter that has been read up to `e` goes on with exactly these characters:
none of them ends it, and they close what they open. -/
def isClosedFrom (e : Enclosure) : List Char → Bool
  | [] => e == .outermost
  | c :: rest => !e.endsAt c && isClosedFrom (e.step c) rest

/-- Whether the text is that of one type parameter, with closed brackets and quotes. -/
def isClosed (text : String) : Bool := isClosedFrom .outermost text.toList

/-! ## Elementary types -/

namespace Ty

def isUnion : Ty → Bool
  | .union _ => true
  | _ => false

def isIntersection : Ty → Bool
  | .intersection _ => true
  | _ => false

/-- Types that are built only from primitive types, literals, arrays, tuples, functions, unions and
intersections. -/
inductive Elementary : Ty → Prop
  | primitive (p : Primitive) : Elementary (.primitive p)
  | literal {value : Literal} (spelled : value.isSpelled) : Elementary (.literal value)
  | array {t : Ty} {readonly : Bool} (element : Elementary t) : Elementary (.array t readonly)
  | tuple {items : List TupleItem} {readonly : Bool}
      (labels : ∀ i ∈ items, ∀ label ∈ i.label, isName label)
      (types : ∀ i ∈ items, Elementary i.type) : Elementary (.tuple items readonly)
  | function {f : FunctionTy} (typeParams : ∀ text ∈ f.typeParams, isClosed text)
      (names : ∀ p ∈ f.params, isName p.name) (params : ∀ p ∈ f.params, Elementary p.type)
      (result : Elementary f.result) : Elementary (.function f)
  | union {ts : List Ty} (several : 2 ≤ ts.length) (flat : ∀ t ∈ ts, t.isUnion = false)
      (members : ∀ t ∈ ts, Elementary t) : Elementary (.union ts)
  | intersection {ts : List Ty} (several : 2 ≤ ts.length)
      (flat : ∀ t ∈ ts, t.isIntersection = false) (members : ∀ t ∈ ts, Elementary t) :
      Elementary (.intersection ts)

end Ty

end PluginSurface
