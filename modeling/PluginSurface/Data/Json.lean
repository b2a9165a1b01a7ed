/-!
# JSON

Values of the data format.
-/

namespace PluginSurface

/-- A JSON value. A number is kept as written. -/
inductive Json where
  | null
  | bool (value : Bool)
  | number (text : String)
  | string (value : String)
  | array (items : List Json)
  | object (fields : List (String × Json))

namespace Json

/-- The value of a key in an object. Of equal keys the last one counts. -/
def get? (key : String) : Json → Option Json
  | object fields => (fields.reverse.find? (·.1 == key)).map (·.2)
  | _ => none

def string? : Json → Option String
  | string value => some value
  | _ => none

end Json

end PluginSurface
