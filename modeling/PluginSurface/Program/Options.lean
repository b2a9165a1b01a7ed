/-!
# Options

What a user can choose about how modules are found and types are read.
-/

namespace PluginSurface

inductive ModuleKind where
  | commonjs
  | es2015
  | esnext
  | node16
  | nodenext
deriving DecidableEq, Repr

namespace ModuleKind

def word : ModuleKind → String
  | commonjs => "commonjs"
  | es2015 => "es2015"
  | esnext => "esnext"
  | node16 => "node16"
  | nodenext => "nodenext"

def ofWord? (word : String) : Option ModuleKind :=
  [commonjs, es2015, esnext, node16, nodenext].find? (·.word == word)

/-- Whether the export map of a package takes part in finding its modules. -/
def usesExportMaps : ModuleKind → Bool
  | node16 | nodenext => true
  | commonjs | es2015 | esnext => false

end ModuleKind

/-- The options of a compilation. Unless null checks are strict, `undefined` and `null` are dropped
from unions that have other members. -/
structure CompilerOptions where
  module : ModuleKind
  strictNullChecks : Bool
deriving DecidableEq, Repr

def CompilerOptions.default : CompilerOptions := ⟨.commonjs, false⟩

end PluginSurface
