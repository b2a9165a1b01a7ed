import PluginSurface.Syntax.Type

/-!
# The names that a bound introduces

An `infer` in the bound of a conditional type introduces a name for its branches. The names are
looked for in arguments, members, parameters and results, but not in index signatures, setters,
type parameters, mapped types, predicates, nested conditional types or `import("…")` types.
-/

namespace PluginSurface

mutual

def TypeExpr.inferNames : TypeExpr → List String
  | .infer name bound => name :: inferNamesOfType? bound
  | .reference _ args | .query _ args => inferNamesOfTypes args
  | .union members | .intersection members => inferNamesOfTypes members
  | .array element => element.inferNames
  | .tuple elements => inferNamesOfElements elements
  | .function _ _ signature => signature.inferNames
  | .members members => inferNamesOfMembers members
  | .operator _ operand => operand.inferNames
  | .indexed object index => object.inferNames ++ index.inferNames
  | .keyword _ | .this | .literal _ | .conditional .. | .mapped .. | .template _ | .imported ..
  | .predicate .. => []

def inferNamesOfType? : Option TypeExpr → List String
  | none => []
  | some type => type.inferNames

def inferNamesOfTypes : List TypeExpr → List String
  | [] => []
  | type :: rest => type.inferNames ++ inferNamesOfTypes rest

def inferNamesOfElements : List TupleElement → List String
  | [] => []
  | ⟨_, _, _, type⟩ :: rest => type.inferNames ++ inferNamesOfElements rest

def inferNamesOfParams : List Param → List String
  | [] => []
  | ⟨_, _, _, _, type⟩ :: rest => inferNamesOfType? type ++ inferNamesOfParams rest

/-- The names introduced in the parameters and the result of a signature. -/
def Signature.inferNames : Signature → List String
  | ⟨_, params, result⟩ => inferNamesOfParams params ++ inferNamesOfType? result

def TypeMember.inferNames : TypeMember → List String
  | .property _ _ _ type | .getter _ type => inferNamesOfType? type
  | .method _ _ signature | .call signature | .construct signature => signature.inferNames
  | .index _ | .setter .. => []

def inferNamesOfMembers : List TypeMember → List String
  | [] => []
  | member :: rest => member.inferNames ++ inferNamesOfMembers rest

end

end PluginSurface
