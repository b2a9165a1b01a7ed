import PluginSurface.Plugin

/-!
# Comparison of two surfaces

Each plugin of the reference surface is looked up by name in the candidate surface and gets a
verdict. The verdicts are counted in a summary.
-/

namespace PluginSurface

/-- How far the candidate surface has a plugin of the reference surface: not at all, with equal
options, or with other options. -/
inductive Verdict where
  | missing
  | implemented
  | partly
deriving DecidableEq, Repr

/-- The verdict on one plugin. -/
structure Row where
  plugin : String
  verdict : Verdict
deriving DecidableEq, Repr

/-- The number of rows with each verdict. -/
structure Summary where
  implemented : Nat
  partly : Nat
  missing : Nat
deriving DecidableEq, Repr

namespace Verdict

def label (v : Verdict) (ascii : Bool) : String :=
  match v with
  | missing => if ascii then "Not implemented" else "🔴 Not implemented"
  | implemented => if ascii then "Implemented" else "🟢 Implemented"
  | partly => if ascii then "Partially implemented" else "🟡 Partially implemented"

end Verdict

namespace Surface

def verdict (candidate : Surface) (mode : ShapeEquality) (p : Plugin) : Verdict :=
  match candidate.find? p.name with
  | none => .missing
  | some other => if Shape.equal mode p.shape other.shape then .implemented else .partly

def compare (reference candidate : Surface) (mode : ShapeEquality) : List Row :=
  reference.plugins.map fun p ↦ ⟨p.name, candidate.verdict mode p⟩

end Surface

namespace Summary

def add (s : Summary) (r : Row) : Summary :=
  match r.verdict with
  | .implemented => { s with implemented := s.implemented + 1 }
  | .partly => { s with partly := s.partly + 1 }
  | .missing => { s with missing := s.missing + 1 }

def ofRows (rows : List Row) : Summary := rows.foldl add ⟨0, 0, 0⟩

def total (s : Summary) : Nat := s.implemented + s.partly + s.missing

def render (s : Summary) : String :=
  toString s.total ++ " plugins: " ++ toString s.implemented ++ " implemented, " ++
    toString s.partly ++ " partial, " ++ toString s.missing ++ " missing"

end Summary

end PluginSurface
