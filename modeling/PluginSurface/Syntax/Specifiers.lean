import PluginSurface.Syntax.Subtree

/-!
# The modules that a source text mentions

Imports, exports and `import("…")` types name modules. They are listed in the order of the source
text. Not every place where a type can stand is looked through: bounds and defaults of the type
parameters of classes, interfaces and aliases are not, nor are the keys of index signatures.
-/

namespace PluginSurface

mutual

def TypeExpr.specifiers : TypeExpr → List String
  | .imported _ specifier _ args => specifier :: specifiersOfTypes args
  | .reference _ args | .query _ args => specifiersOfTypes args
  | .union members | .intersection members => specifiersOfTypes members
  | .array element => element.specifiers
  | .operator _ operand => operand.specifiers
  | .tuple elements => specifiersOfElements elements
  | .function _ _ signature => signature.specifiers
  | .members members => specifiersOfMembers members
  | .indexed object index => object.specifiers ++ index.specifiers
  | .conditional check bound yes no =>
    check.specifiers ++ bound.specifiers ++ yes.specifiers ++ no.specifiers
  | .infer _ bound => specifiersOfType? bound
  | .mapped _ _ bound rename _ value =>
    bound.specifiers ++ specifiersOfType? rename ++ specifiersOfType? value
  | .predicate _ _ type => specifiersOfType? type
  | .keyword _ | .this | .literal _ | .template _ => []

def specifiersOfType? : Option TypeExpr → List String
  | none => []
  | some type => type.specifiers

def specifiersOfTypes : List TypeExpr → List String
  | [] => []
  | type :: rest => type.specifiers ++ specifiersOfTypes rest

def specifiersOfElements : List TupleElement → List String
  | [] => []
  | ⟨_, _, _, type⟩ :: rest => type.specifiers ++ specifiersOfElements rest

def specifiersOfParams : List Param → List String
  | [] => []
  | ⟨_, _, _, _, type⟩ :: rest => specifiersOfType? type ++ specifiersOfParams rest

def specifiersOfTypeParams : List TypeParam → List String
  | [] => []
  | ⟨_, bound, default⟩ :: rest =>
    specifiersOfType? bound ++ specifiersOfType? default ++ specifiersOfTypeParams rest

def Signature.specifiers : Signature → List String
  | ⟨typeParams, params, result⟩ =>
    specifiersOfParams params ++ specifiersOfTypeParams typeParams ++ specifiersOfType? result

def TypeMember.specifiers : TypeMember → List String
  | .property _ _ _ type | .getter _ type => specifiersOfType? type
  | .method _ _ signature | .call signature | .construct signature => signature.specifiers
  | .index ⟨_, _, _, value⟩ => specifiersOfType? value
  | .setter _ (some ⟨_, _, _, _, type⟩) => specifiersOfType? type
  | .setter _ none => []

def specifiersOfMembers : List TypeMember → List String
  | [] => []
  | member :: rest => member.specifiers ++ specifiersOfMembers rest

end

def ClassMember.specifiers (m : ClassMember) : List String :=
  match m.kind with
  | .constructor params _ => specifiersOfParams params
  | .property _ _ type | .getter _ type _ => specifiersOfType? type
  | .method _ _ signature _ => signature.specifiers
  | .setter _ param _ => specifiersOfParams param.toList
  | .index index => specifiersOfType? index.value
  | .staticBlock _ => []

/-- The modules named in a statement, without the statements inside it. -/
def Statement.ownSpecifiers (s : Statement) : List String :=
  match s.decl with
  | .importDecl decl => [decl.specifier]
  | .importEquals _ (.require specifier) => [specifier]
  | .exportDecl decl => decl.specifier.toList
  | .classDecl c =>
    (c.base.toList ++ c.interfaces).flatMap TypeExpr.specifiers ++
      c.members.flatMap ClassMember.specifiers
  | .interfaceDecl i =>
    i.bases.flatMap TypeExpr.specifiers ++ i.members.flatMap TypeMember.specifiers
  | .aliasDecl a => a.type.specifiers
  | .variable _ declarators => declarators.flatMap fun d ↦ specifiersOfType? d.type
  | .function _ signature _ => signature.specifiers
  | _ => []

def SourceFile.specifiers (f : SourceFile) : List String :=
  f.allStatements.flatMap Statement.ownSpecifiers

end PluginSurface
