import PluginSurface.Ty.Equality
import PluginSurface.Ty.Render

/-!
# Canonical unions and intersections

A union is built from any list of types so that what it stands for decides how it reads: nested
unions are opened, repetitions and `never` dropped, `any` and `unknown` take all, `true` with
`false` is `boolean`, a literal is dropped beside its base, and the members stand in a fixed order.
-/

namespace PluginSurface.Ty

def insertLast (ts : List Ty) (t : Ty) : List Ty := if t ∈ ts then ts else ts ++ [t]

/-- The list without repetitions; of equal types the first one stays. -/
def distinct (ts : List Ty) : List Ty := ts.foldl insertLast []

/-- What a member contributes to a union. -/
def unionMembers : Ty → List Ty
  | .union members => members
  | .primitive .never => []
  | t => [t]

/-- The type a literal type belongs to. -/
def base? : Ty → Option Ty
  | .literal (.string _) => some (.primitive .string)
  | .literal (.number _) => some (.primitive .number)
  | .literal (.bigint _) => some (.primitive .bigint)
  | .literal (.boolean _) => some (.primitive .boolean)
  | _ => none

/-- The members with `boolean` in the place of `true` and `false`, if both are there. -/
def joinBooleans (ts : List Ty) : List Ty :=
  if .literal (.boolean true) ∈ ts ∧ .literal (.boolean false) ∈ ts then
    distinct (ts.map fun
      | .literal (.boolean _) => .primitive .boolean
      | t => t)
  else ts

def absorbLiterals (ts : List Ty) : List Ty :=
  ts.filter fun t ↦
    match t.base? with
    | some base => base ∉ ts
    | none => true

/-- The place of a member among the classes of members: first the primitive types, then literals,
then all others, last `undefined` and `null`. -/
def unionRank : Ty → Nat
  | .primitive .string => 0
  | .primitive .number => 1
  | .primitive .bigint => 2
  | .primitive .boolean => 3
  | .primitive .symbol => 4
  | .primitive .object => 5
  | .primitive .void => 6
  | .literal (.string _) => 10
  | .literal (.number _) => 11
  | .literal (.bigint _) => 12
  | .literal (.boolean _) => 13
  | .primitive .undefined => 30
  | .primitive .null => 31
  | _ => 20

/-- By what members are ordered: their class, and in the classes with several members the text. -/
def unionKey (t : Ty) : Nat × String :=
  let rank := t.unionRank
  (rank, if rank < 10 ∨ 30 ≤ rank then "" else t.render)

def keyLe (a b : Nat × String) : Bool := a.1 < b.1 || (a.1 == b.1 && a.2 ≤ b.2)

/-- The members in their fixed order; members with equal keys stay as they are. -/
def sortMembers (ts : List Ty) : List Ty := ts.mergeSort fun a b ↦ keyLe a.unionKey b.unionKey

/-- The union of members in canonical form: nothing is `never`, and one member stands for itself. -/
def unionOf : List Ty → Ty
  | [] => never
  | [t] => t
  | ts => .union ts

def join (ts : List Ty) : Ty :=
  let flat := distinct (ts.flatMap unionMembers)
  if any ∈ flat then any
  else if unknown ∈ flat then unknown
  else unionOf (sortMembers (absorbLiterals (joinBooleans flat)))

def isNullable (t : Ty) : Bool := t = .primitive .undefined || t = .primitive .null

/-- A union without `undefined` and `null`, unless it has nothing else. -/
def widenNullables : Ty → Ty
  | .union members =>
    match members.filter (!·.isNullable) with
    | [] => join (members.filter isNullable)
    | rest => join rest
  | t => t

/-- What a member contributes to an intersection. -/
def intersectionMembers : Ty → List Ty
  | .intersection members => members
  | t => [t]

/-- The intersection of any types: nested ones are opened and repetitions dropped. -/
def meet (ts : List Ty) : Ty :=
  match distinct (ts.flatMap intersectionMembers) with
  | [] => unknown
  | [t] => t
  | ts => .intersection ts

end PluginSurface.Ty
