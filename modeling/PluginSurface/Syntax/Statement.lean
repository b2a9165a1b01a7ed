import PluginSurface.Source.Span
import PluginSurface.Syntax.Type

/-!
# Declarations

The statements of a source text as far as they declare something. Expressions are not kept;
declarations inside bodies and blocks are.
-/

namespace PluginSurface

/-- A declared name and where it stands. -/
structure Name where
  text : String
  span : Span
deriving DecidableEq, Repr

/-- The words that begin a variable statement. -/
inductive VariableKeyword where
  | var
  | let
  | const
deriving DecidableEq, Repr

/-- One variable of a variable statement. A destructuring pattern has no name. -/
structure Declarator where
  name : Option Name
  type : Option TypeExpr

/-- The name of a namespace or module. -/
inductive ModuleName where
  | path (segments : List String)
  | string (value : String)
  | global
deriving DecidableEq, Repr

/-- One name in the braces of an import. -/
structure ImportSpecifier where
  imported : String
  name : String
deriving DecidableEq, Repr

/-- One name in the braces of an export. -/
structure ExportSpecifier where
  name : String
  exported : String
deriving DecidableEq, Repr

/-- What `import name = …` stands for. -/
inductive ImportTarget where
  | require (specifier : String)
  | entity (segments : List String)
deriving DecidableEq, Repr

/-- An `import … from` declaration, or one for its effects only. -/
structure ImportDecl where
  typeOnly : Bool
  default : Option String
  allAs : Option String
  named : List ImportSpecifier
  specifier : String
deriving DecidableEq, Repr

/-- What an export declaration exports. -/
inductive ExportClause where
  | all (name : Option String)
  | named (specifiers : List ExportSpecifier)
deriving DecidableEq, Repr

/-- An `export … from` or `export { … }` declaration. -/
structure ExportDecl where
  typeOnly : Bool
  clause : ExportClause
  specifier : Option String
deriving DecidableEq, Repr

/-- An interface declaration. -/
structure InterfaceDecl where
  name : Name
  typeParams : List TypeParam
  bases : List TypeExpr
  members : List TypeMember

structure AliasDecl where
  name : Name
  typeParams : List TypeParam
  type : TypeExpr

mutual

/-- A statement with its number in the source text, counted from 0 in the order of beginning. -/
structure Statement where
  id : Nat
  modifiers : List Modifier
  decl : Decl
  span : Span

/-- What a statement declares. -/
inductive Decl where
  | classDecl (decl : ClassDecl)
  | interfaceDecl (decl : InterfaceDecl)
  | aliasDecl (decl : AliasDecl)
  | variable (keyword : VariableKeyword) (declarators : List Declarator)
  | function (name : Option Name) (signature : Signature) (body : Option (List Statement))
  | enumDecl (name : Name) (members : List String)
  | moduleDecl (name : ModuleName) (body : Option (List Statement))
  | importDecl (decl : ImportDecl)
  | importEquals (name : String) (target : ImportTarget)
  | exportDecl (decl : ExportDecl)
  | exportAssignment (isEquals : Bool) (entity : Option (List String))
  | block (body : List Statement)
  | other

structure ClassDecl where
  name : Option Name
  typeParams : List TypeParam
  base : Option TypeExpr
  interfaces : List TypeExpr
  members : List ClassMember

structure ClassMember where
  modifiers : List Modifier
  kind : ClassMemberKind
  span : Span

/-- The kinds of class members. -/
inductive ClassMemberKind where
  | constructor (params : List Param) (body : Option (List Statement))
  | property (name : PropertyName) (optional : Bool) (type : Option TypeExpr)
  | method (name : PropertyName) (optional : Bool) (signature : Signature)
      (body : Option (List Statement))
  | getter (name : PropertyName) (type : Option TypeExpr) (body : Option (List Statement))
  | setter (name : PropertyName) (param : Option Param) (body : Option (List Statement))
  | index (index : IndexSignature)
  | staticBlock (body : List Statement)

end

namespace ClassMember

/-- Whether the member belongs to the class itself and not to its instances. -/
def isStatic (m : ClassMember) : Bool := m.modifiers.contains .static

/-- The statements in the body of a member; none for a member without a body. -/
def body (m : ClassMember) : List Statement :=
  match m.kind with
  | .constructor _ body | .method _ _ _ body | .getter _ _ body | .setter _ _ body => body.getD []
  | .staticBlock body => body
  | .property .. | .index _ => []

end ClassMember

namespace ClassDecl

def constructorParams? (c : ClassDecl) : Option (List Param) :=
  c.members.findSome? fun m ↦
    match m.kind with
    | .constructor params _ => some params
    | _ => none

end ClassDecl

namespace Statement

def has (s : Statement) (m : Modifier) : Bool := s.modifiers.contains m

/-- The statements directly inside this one, in the order of the source text. -/
def children (s : Statement) : List Statement :=
  match s.decl with
  | .classDecl c => c.members.flatMap ClassMember.body
  | .function _ _ body => body.getD []
  | .moduleDecl _ body => body.getD []
  | .block body => body
  | _ => []

/-- Whether the statement makes the text that it stands in a module. -/
def marksModule (s : Statement) : Bool :=
  match s.decl with
  | .importDecl _ | .exportDecl _ | .exportAssignment .. => true
  | .importEquals _ target =>
    match target with
    | .require _ => true
    | .entity _ => false
  | _ => s.has .exported

end Statement

/-- A `/// <reference … />` directive. -/
inductive Reference where
  | path (value : String)
  | types (value : String)
deriving DecidableEq, Repr

structure SourceFile where
  statements : List Statement
  references : List Reference

namespace SourceFile

def isModule (f : SourceFile) : Bool := f.statements.any Statement.marksModule

end SourceFile

end PluginSurface
