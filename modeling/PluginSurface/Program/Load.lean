import PluginSurface.Program.Resolve
import PluginSurface.Syntax.Specifiers
import PluginSurface.Syntax.StatementGrammar

/-!
# Programs

A program is an entry file and every file that it leads to through imports, exports, `import("…")`
types and reference directives. A file stands after those that it depends on, unless they depend on
it in turn; the entry comes last.
-/

namespace PluginSurface

/-- A file of a program: where it is, its text and tree, and the files that the specifiers in it
were found to stand for. -/
structure SourceUnit where
  path : Path
  text : String
  tree : SourceFile
  resolved : List (String × Path)

namespace SourceUnit

def isDeclaration (u : SourceUnit) : Bool :=
  [".d.ts", ".d.mts", ".d.cts"].any fun e ↦ u.path.text.endsWith e

end SourceUnit

/-- Why a program cannot be loaded. A chain of dependencies is endless if it is longer than any
that can be made without a new spelling for the same file. -/
inductive LoadError where
  | entryNotFound (path : Path)
  | unreadable (path : Path)
  | malformed (path : Path) (source : String) (error : SyntaxError)
  | endless (path : Path)

namespace LoadError

def message : LoadError → String
  | entryNotFound path => "entry file not found: " ++ path.text
  | unreadable path => "failed to read " ++ path.text
  | malformed path _ _ => "failed to parse " ++ path.text
  | endless path => "dependencies of " ++ path.text ++ " do not end"

end LoadError

/-- The files of a program; a file is known by its place among them. -/
structure Program where
  options : CompilerOptions
  units : Array SourceUnit

namespace Program

def unitAt? (p : Program) (path : Path) : Option Nat := p.units.findIdx? (·.path.same path)

/-- The place of the unit that a specifier in the unit at place `source` stands for. -/
def resolvedModule (p : Program) (source : Nat) (specifier : String) : Option Nat := do
  let unit ← p.units[source]?
  let (_, path) ← unit.resolved.find? (·.1 == specifier)
  p.unitAt? path

/-! ## Loading -/

/-- The files met and the units loaded so far. -/
structure Loading where
  seen : List Path
  units : Array SourceUnit

variable (readJson : String → Option Json) (tree : FileTree) (options : CompilerOptions)

/-- The file that a reference directive stands for in a file of the directory `dir`. -/
def reference? (dir : Path) : Reference → Option Path
  | .path value =>
    let path := (dir.join ⟨value⟩).normalize
    if tree.isFile path then some path else none
  | .types value => Resolve.types? readJson tree options value dir

def resolveAll (dir : Path) (specifiers : List String) : List (String × Path) :=
  specifiers.foldl (fun found s ↦
    if found.any (·.1 == s) then found
    else match Resolve.module? readJson tree options s dir with
      | some path => found ++ [(s, path)]
      | none => found) []

def readUnit (path : Path) : Except LoadError SourceUnit := do
  let some text := tree.read? path | throw (.unreadable path)
  let file ← (SourceFile.ofSource text).mapError (.malformed path text)
  return ⟨path, text, file, resolveAll readJson tree options path.directory file.specifiers⟩

/-- The files that a unit leads to: those of its reference directives, then those of its
specifiers. -/
def dependencies (u : SourceUnit) : List Path :=
  u.tree.references.filterMap (reference? readJson tree options u.path.directory) ++
    u.resolved.map (·.2)

/-- Loads the file at a path after those that it depends on, unless it was met before. A chain of
dependencies is followed for at most the given number of files. -/
def visit (rounds : Nat) (loading : Loading) (path : Path) : Except LoadError Loading := do
  if loading.seen.any (·.same path) then return loading
  match rounds with
  | 0 => throw (.endless path)
  | more + 1 =>
    let unit ← readUnit readJson tree options path
    let loading ← (dependencies readJson tree options unit).foldlM (visit more)
      { loading with seen := path :: loading.seen }
    return { loading with units := loading.units.push unit }

/-- The length up to which a chain of dependencies is followed. A name without dots between slashes
keeps dots in a path only if it is `@..`, so that a chain of such names cannot be longer than twice
the number of ways down; the rest leaves room for other spellings. -/
def chainLimit : Nat := 64 * (tree.ways + 1)

def load (entry : Path) : Except LoadError Program := do
  unless tree.isFile entry do throw (.entryNotFound entry)
  let loading ← visit readJson tree options (chainLimit tree) ⟨[], #[]⟩ (tree.canonical entry)
  return ⟨options, loading.units⟩

end Program

end PluginSurface
