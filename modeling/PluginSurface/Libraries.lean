import PluginSurface.Data.Json
import PluginSurface.Data.Toml

/-!
# Libraries

What the program takes from the libraries that it is built with.
-/

namespace PluginSurface

/-- Readers for two data formats, which refuse a text that is malformed, and the number of columns
that a text takes on display. -/
structure Libraries where
  readJson : String → Option Json
  readToml : String → Option Toml
  width : String → Nat

end PluginSurface
