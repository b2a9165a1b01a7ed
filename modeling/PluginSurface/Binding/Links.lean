import PluginSurface.Binding.Bind

/-!
# Following imports and exports

A symbol that is a link leads to the symbol that it stands for, which may be a link in turn, in any
module of the program. A link is not followed again while it is being followed, nor is a module
asked for an export while it is being asked for one; so each chain of questions is at most twice as
long as there are symbols.
-/

namespace PluginSurface

/-- What is asked about symbols: what one stands for, or what it exports under a name. -/
inductive LinkQuery where
  | target (symbol : Nat)
  | member (symbol : Nat) (name : String)

/-- The links that are being followed and the symbols that are being asked for an export. -/
structure LinkTrail where
  links : List Nat
  askedFor : List Nat

abbrev LinkRule := LinkTrail → LinkQuery → Option Nat

/-- A program with its symbols and scopes. -/
structure Checker where
  program : Program
  binding : Binding

namespace Checker

def ofProgram (program : Program) : Checker := ⟨program, .ofProgram program⟩

variable (c : Checker)

/-- The symbol of a module. A module that is declared by name comes before one that is a file. -/
def moduleSymbol (m : ModuleRef) : Option Nat :=
  (if Resolve.isRelative m.specifier then none
    else c.binding.ambientModules.lookup m.specifier) <|>
    (c.program.resolvedModule m.file m.specifier).bind fun file ↦
      c.binding.fileModules.getD file none

section

variable (ask : LinkRule) (trail : LinkTrail)

def entityBy (path : List String) (scope : Nat) (exclude : Option Nat) : Option Nat :=
  match path with
  | [] => none
  | first :: rest => do
    let found ← c.binding.lookup first scope exclude
    rest.foldlM (fun id segment ↦ ask trail (.member id segment)) (← ask trail (.target found))

def exportEqualsBy (module : Nat) : Option Nat := do
  let (path, scope) ← (c.binding.symbol module).exportEquals
  c.entityBy ask trail path scope none

/-- The symbol that a link leads to, one step on. The name of the link does not stand for itself. -/
def followBy (id : Nat) (link : Link) (scope : Nat) : Option Nat :=
  match link with
  | .member m name => do
    let module ← c.moduleSymbol m
    ask trail (.member module name) <|>
      if name == "default" then c.exportEqualsBy ask trail module else none
  | .namespace m | .require m => do
    let module ← c.moduleSymbol m
    return (c.exportEqualsBy ask trail module).getD module
  | .entity path => c.entityBy ask trail path scope (some id)

def targetBy (id : Nat) : Option Nat :=
  match (c.binding.symbol id).link? with
  | none => some id
  | some (link, scope) =>
    if id ∈ trail.links then none
    else
      let trail := { trail with links := id :: trail.links }
      (c.followBy ask trail id link scope).bind fun next ↦ ask trail (.target next)

/-- The export of a symbol under a name: of what it exports as a whole, if it does, else its own, or
else that of the first module that it exports all of and that has one. -/
def exportBy (id : Nat) (name : String) : Option Nat :=
  let s := c.binding.symbol id
  if s.exportEquals.isSome then
    (c.exportEqualsBy ask trail id).bind fun whole ↦ ask trail (.member whole name)
  else match s.exports.lookup name with
    | some member => ask trail (.target member)
    | none =>
      if name == "default" then none
      else s.starExports.findSome? fun m ↦
        (c.moduleSymbol m).bind fun module ↦ ask trail (.member module name)

end

def linkRule (ask : LinkRule) : LinkRule
  | trail, .target id => c.targetBy ask trail id
  | trail, .member id name => do
    let id ← c.targetBy ask trail id
    if id ∈ trail.askedFor then none
    else c.exportBy ask { trail with askedFor := id :: trail.askedFor } id name

/-- Answers questions that lead at most `n` questions deep. -/
def linksWithin : Nat → LinkRule
  | 0 => c.linkRule fun _ _ ↦ none
  | n + 1 => c.linkRule fun trail q ↦ linksWithin n trail q

/-- The number of symbols that can be on the two lists of a trail. -/
def trailLimit : Nat := 2 * c.binding.symbols.size

def links : LinkRule := c.linksWithin c.trailLimit

def entity? (path : List String) (scope : Nat) : Option Nat :=
  c.entityBy c.links ⟨[], []⟩ path scope none

def export? (id : Nat) (name : String) : Option Nat := c.links ⟨[], []⟩ (.member id name)

end Checker

end PluginSurface
