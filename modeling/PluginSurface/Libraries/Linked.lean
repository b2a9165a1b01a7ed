import PluginSurface.Libraries
import PluginSurface.Libraries.Json
import PluginSurface.Libraries.Toml.Document
import PluginSurface.Libraries.Width

/-!
# The libraries that the program runs with
-/

namespace PluginSurface

def Libraries.linked : Libraries := ⟨Json.ofText?, Toml.ofText?, Text.displayWidth⟩

end PluginSurface
