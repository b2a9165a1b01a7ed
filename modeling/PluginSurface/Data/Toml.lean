/-!
# TOML

Values of the data format. Floats, dates and times are kept as written.
-/

namespace PluginSurface

inductive Toml where
  | string (value : String)
  | integer (value : Int)
  | float (text : String)
  | boolean (value : Bool)
  | datetime (text : String)
  | array (items : List Toml)
  | table (entries : List (String × Toml))

namespace Toml

def string? : Toml → Option String
  | string value => some value
  | _ => none

def boolean? : Toml → Option Bool
  | boolean value => some value
  | _ => none

def isEmpty : Toml → Bool
  | array items => items.isEmpty
  | table entries => entries.isEmpty
  | _ => false

end Toml

end PluginSurface
