/-!
# Option shapes

What the options of a plugin look like: the text of a type, or a list of fields with theirs.
-/

namespace PluginSurface

/-- A field of a structured option type. -/
structure Field where
  name : String
  type : String
deriving DecidableEq, Repr

/-- How structured shapes are compared. By structure, equal fields in any order are equal; by
identity, lists of fields that were resolved apart are never equal. -/
inductive ShapeEquality where
  | structural
  | identity
deriving DecidableEq, Repr

namespace ShapeEquality

def word : ShapeEquality → String
  | structural => "structural"
  | identity => "identity"

def ofWord? (word : String) : Option ShapeEquality :=
  [structural, identity].find? (·.word == word)

end ShapeEquality

/-- The shape of the options of a plugin. -/
inductive Shape where
  | scalar (type : String)
  | structured (fields : List Field)
deriving DecidableEq, Repr

namespace Field

def render (f : Field) : String := f.name ++ ": " ++ f.type

end Field

namespace Shape

/-- Whether two lists have the same length and the same fields, in any order. -/
def sameFields (a b : List Field) : Bool :=
  a.length == b.length && a.all (b.contains ·) && b.all (a.contains ·)

def render : Shape → String
  | scalar type => type
  | structured [] => "\x7b\x7d"
  | structured fields =>
    "\x7b " ++ String.join (fields.map fun f ↦ f.render ++ "; ") ++ "\x7d"

def equal (mode : ShapeEquality) : Option Shape → Option Shape → Bool
  | none, none => true
  | some (scalar a), some (scalar b) => a == b
  | some (structured a), some (structured b) =>
    match mode with
    | .structural => sameFields a b
    | .identity => false
  | _, _ => false

end Shape

end PluginSurface
