import PluginSurface.Path
import PluginSurface.Shape

/-!
# Plugins and surfaces

A plugin is a declaration whose name ends in `Plugin`, with the shape of its options. A surface is
the list of the plugins found from one entry file; names in it may repeat, and the first one
counts.
-/

namespace PluginSurface

def isPluginName (name : String) : Bool := name.endsWith "Plugin"

/-- How a plugin is declared: as a class, or as a constant whose type can be constructed. -/
inductive PluginKind where
  | classDecl
  | constConstructible
deriving DecidableEq, Repr

def PluginKind.word : PluginKind → String
  | classDecl => "class"
  | constConstructible => "const-constructible"

structure Location where
  path : Path
  line : Nat
deriving DecidableEq, Repr

def Location.render (l : Location) : String := l.path.text ++ ":" ++ toString l.line

/-- A plugin declaration: its name and kind, the number of its file in the program, the number of
its statement in that file, and where it stands. -/
structure Entity where
  name : String
  kind : PluginKind
  file : Nat
  node : Nat
  location : Location
deriving DecidableEq, Repr

/-- A plugin with the shape of its options; none if its first constructor parameter has no type. -/
structure Plugin where
  entity : Entity
  shape : Option Shape
deriving DecidableEq, Repr

def Plugin.name (p : Plugin) : String := p.entity.name

/-- The plugins found from an entry file, in the files whose path contains the filter. -/
structure Surface where
  entry : Path
  filter : String
  plugins : List Plugin
deriving DecidableEq, Repr

def Surface.find? (s : Surface) (name : String) : Option Plugin :=
  s.plugins.find? (·.name == name)

end PluginSurface
