import PluginSurface.Path

/-!
# Diagnostics

An error or warning with the place it concerns, lines of context and numbered suggestions.
-/

namespace PluginSurface

/-- How grave a diagnostic is. -/
inductive Severity where
  | error
  | warning
deriving DecidableEq, Repr

def Severity.word : Severity → String
  | error => "error"
  | warning => "warning"

def Severity.colour : Severity → String
  | error => "1;31"
  | warning => "1;33"

/-- A message with what helps to act on it. -/
structure Diagnostic where
  severity : Severity
  message : String
  context : List String
  suggestions : List String
  location : Option Path
deriving DecidableEq, Repr

namespace Diagnostic

def plain (severity : Severity) (message : String) : Diagnostic :=
  ⟨severity, message, [], [], none⟩

def withContext (d : Diagnostic) (line : String) : Diagnostic :=
  { d with context := d.context ++ [line] }

def withSuggestion (d : Diagnostic) (text : String) : Diagnostic :=
  { d with suggestions := d.suggestions ++ [text] }

def withLocation (d : Diagnostic) (path : Path) : Diagnostic := { d with location := some path }

def coloured (colour : Bool) (code word : String) : String :=
  if colour then "\x1b[" ++ code ++ "m" ++ word ++ "\x1b[0m" else word

def render (d : Diagnostic) (colour : Bool) : String :=
  coloured colour d.severity.colour d.severity.word ++ ": " ++ d.message ++ "\n" ++
    (match d.location with
      | some path => "  --> " ++ path.text ++ "\n"
      | none => "") ++
    String.join (d.context.map fun line ↦ "  → " ++ line ++ "\n") ++
    if d.suggestions.isEmpty then ""
    else
      "\n" ++ coloured colour "1;32" "help" ++ ": consider:\n" ++
        String.join (d.suggestions.zipIdx.map fun (text, i) ↦
          "  " ++ toString (i + 1) ++ ". " ++ text ++ "\n")

end Diagnostic

end PluginSurface
