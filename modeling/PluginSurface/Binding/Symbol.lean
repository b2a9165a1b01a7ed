import PluginSurface.Syntax.Statement

/-!
# Symbols and scopes

A symbol stands for all declarations of one name in one place; a scope is a place in which names
are looked up. Both are known by their numbers.
-/

namespace PluginSurface

abbrev Names (α : Type) := List (String × α)

/-- A module as a specifier in a file names it. -/
structure ModuleRef where
  file : Nat
  specifier : String
deriving DecidableEq, Repr

/-- What an import or export stands for: an export of another module, a whole module, the module
that `require` gives, or an entity that is named in the same file. -/
inductive Link where
  | member (module : ModuleRef) (name : String)
  | namespace (module : ModuleRef)
  | require (module : ModuleRef)
  | entity (path : List String)
deriving DecidableEq, Repr

/-- What a declaration declares. -/
inductive DeclarationKind where
  | classDecl (decl : ClassDecl)
  | interfaceDecl (decl : InterfaceDecl)
  | aliasDecl (decl : AliasDecl)
  | variable (type : Option TypeExpr)
  | function
  | enum
  | namespaceDecl
  | moduleDecl
  | link (link : Link)

/-- A declaration with its file and the scope in which its types are looked up. -/
structure Declaration where
  file : Nat
  scope : Nat
  kind : DeclarationKind

/-- A symbol: its name, the symbols around it from the inside out, its declarations in order, and
what it exports by name, from whole modules, and as a whole. -/
structure Symbol where
  name : String
  outer : List Nat
  declarations : List Declaration
  exports : Names Nat
  starExports : List ModuleRef
  exportEquals : Option (List String × Nat)

/-- A scope: the scopes around it from the inside out, its names, and the symbol whose exports are
visible in it. -/
structure Scope where
  outer : List Nat
  names : Names Nat
  container : Option Nat

namespace DeclarationKind

def link? : DeclarationKind → Option Link
  | link l => some l
  | _ => none

def isNamespace : DeclarationKind → Bool
  | namespaceDecl => true
  | _ => false

def isModule : DeclarationKind → Bool
  | moduleDecl => true
  | _ => false

end DeclarationKind

namespace Symbol

def fresh (name : String) (outer : List Nat) : Symbol := ⟨name, outer, [], [], [], none⟩

def isNamespace (s : Symbol) : Bool :=
  s.declarations.any (·.kind.isNamespace) && !s.declarations.any (·.kind.isModule)

/-- The link that the symbol stands for and its scope, unless something is declared besides. -/
def link? (s : Symbol) : Option (Link × Nat) :=
  if s.declarations.any (·.kind.link?.isNone) then none
  else s.declarations.findSome? fun d ↦ d.kind.link?.map (·, d.scope)

end Symbol

/-- The symbols and scopes of a program: the symbols of the files that are modules, the modules
declared by name, and the scope of each statement, by file and number. Scope 0 is the global
one. -/
structure Binding where
  symbols : Array Symbol
  scopes : Array Scope
  fileModules : Array (Option Nat)
  ambientModules : Names Nat
  statementScopes : List ((Nat × Nat) × Nat)

namespace Binding

def globalScope : Nat := 0

def symbol (b : Binding) (id : Nat) : Symbol := b.symbols.getD id (.fresh "" [])

def scope (b : Binding) (id : Nat) : Scope := b.scopes.getD id ⟨[], [], none⟩

def qualifiedName (b : Binding) (id : Nat) : String :=
  let s := b.symbol id
  let around := (s.outer.map b.symbol).takeWhile Symbol.isNamespace
  ".".intercalate ((s :: around).reverse.map Symbol.name)

/-- The symbol that a name stands for in a scope by itself: one of its own names, or an export of
its container. -/
def nameIn (b : Binding) (name : String) (exclude : Option Nat) (scope : Nat) : Option Nat :=
  let s := b.scope scope
  let allowed (id : Nat) : Option Nat := if some id = exclude then none else some id
  ((s.names.lookup name).bind allowed) <|>
    ((s.container.bind fun c ↦ (b.symbol c).exports.lookup name).bind allowed)

def lookup (b : Binding) (name : String) (scope : Nat) (exclude : Option Nat) : Option Nat :=
  (scope :: (b.scope scope).outer).findSome? (b.nameIn name exclude)

end Binding

end PluginSurface
