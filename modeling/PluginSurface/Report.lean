import PluginSurface.Comparison
import PluginSurface.Table
import PluginSurface.Text.Quoted

/-!
# Reports

The outcome of a comparison, or the plugins of one surface, as a table with a closing line.
-/

namespace PluginSurface.Report

open Text

variable (width : String → Nat)

def style (ascii : Bool) : BorderStyle := if ascii then .ascii else .unicode

def numbered {α : Type} (ascii : Bool) (headers : List String) (cells : α → List String)
    (items : List α) : Table :=
  items.zipIdx.foldl (fun t (item, i) ↦ t.push (toString i :: cells item))
    (.empty ("(index)" :: headers) (style ascii))

def comparison (rows : List Row) (summary : Summary) (ascii : Bool) : String :=
  let t := numbered ascii ["plugin", "status"] (fun r ↦ [r.plugin, r.verdict.label ascii]) rows
  t.render width ++ summary.render ++ "\n"

/-- The cells for a plugin. Its location is shown as it is seen from `base`. -/
def pluginCells (base : Path) (p : Plugin) : List String :=
  let location := p.entity.location
  let shown := (location.path.relativeTo? base).getD location.path
  [p.name, p.entity.kind.word, Location.render ⟨shown, location.line⟩,
    (p.shape.map Shape.render).getD "-"]

def surface (s : Surface) (base : Path) (ascii : Bool) : String :=
  let t := numbered ascii ["plugin", "kind", "location", "options"] (pluginCells base) s.plugins
  t.render width ++ toString s.plugins.length ++ " plugins in files matching " ++
    quote s.filter ++ "\n"

end PluginSurface.Report
