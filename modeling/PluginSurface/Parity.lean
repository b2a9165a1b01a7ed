import PluginSurface.Comparison
import PluginSurface.Typing.OptionShape

/-!
# Loading and comparing surfaces

A surface is loaded from an entry file; each is loaded for itself. What a user should know about
the search comes with the surface, as notices.
-/

namespace PluginSurface

/-- Where a surface comes from: its entry file and the filter on the paths of the files that are
searched. -/
structure SurfaceSource where
  entry : Path
  filter : String
deriving DecidableEq, Repr

/-- What a user should know about a search: a constant was passed over because it is declared
together with others, or how many plugins were found in how many files. -/
inductive Notice where
  | skipped (name : String) (location : Location)
  | counted (entry : Path) (plugins files : Nat)
deriving DecidableEq, Repr

namespace Notice

def message : Notice → String
  | skipped name location =>
    "skipping `" ++ name ++ "` at " ++ location.render ++
      ": declared together with other constants"
  | counted entry plugins files =>
    entry.text ++ ": " ++ toString plugins ++ " plugins in " ++ toString files ++ " files"

end Notice

/-- The plugins of a program in the files that a filter selects, each with the shape of its
options. -/
def Checker.plugins (c : Checker) (filter : String) : List Plugin :=
  (c.program.entities filter).map fun e ↦ ⟨e, c.optionShape? e⟩

namespace Surface

def isEmpty (s : Surface) : Bool := s.plugins.isEmpty

def ofProgram (p : Program) (source : SurfaceSource) : Surface :=
  ⟨source.entry, source.filter, (Checker.ofProgram p).plugins source.filter⟩

/-- What there is to know about the search of a program that led to a surface. -/
def notices (s : Surface) (p : Program) : List Notice :=
  (p.bundled s.filter).map (fun (name, location) ↦ .skipped name location) ++
    [.counted s.entry s.plugins.length (p.selected s.filter).length]

def load (readJson : String → Option Json) (tree : FileTree) (options : CompilerOptions)
    (source : SurfaceSource) : Except LoadError (Surface × List Notice) := do
  let program ← Program.load readJson tree options source.entry
  let surface := ofProgram program source
  return (surface, surface.notices program)

end Surface

/-- A comparison of two surfaces. -/
structure Parity where
  reference : Surface
  candidate : Surface
  rows : List Row

namespace Parity

def ofSurfaces (reference candidate : Surface) (mode : ShapeEquality) : Parity :=
  ⟨reference, candidate, reference.compare candidate mode⟩

def summary (p : Parity) : Summary := .ofRows p.rows

/-- Loads two surfaces and compares them, with the notices up to an error if there is one. The
reference is loaded first, so its error counts if both cannot be loaded. -/
def load (readJson : String → Option Json) (tree : FileTree) (options : CompilerOptions)
    (reference candidate : SurfaceSource) (mode : ShapeEquality) :
    Except LoadError Parity × List Notice :=
  match Surface.load readJson tree options reference with
  | .error e => (.error e, [])
  | .ok (reference, notices) =>
    match Surface.load readJson tree options candidate with
    | .error e => (.error e, notices)
    | .ok (candidate, more) => (.ok (ofSurfaces reference candidate mode), notices ++ more)

end Parity

end PluginSurface
