/-!
# Tables

Rows of cells under a row of headers, drawn with borders. A column is as wide as its
widest cell on display, so that wide characters line up with narrow ones. How wide a text
is on display is left open.
-/

namespace PluginSurface

/-- The set of characters that borders are drawn with. -/
inductive BorderStyle where
  | unicode
  | ascii
deriving DecidableEq, Repr

/-- A horizontal border: what it begins with, what stands between columns, and what it ends with. -/
structure Rule where
  left : String
  middle : String
  right : String

namespace BorderStyle

def horizontal : BorderStyle → String
  | unicode => "─"
  | ascii => "-"

def vertical : BorderStyle → String
  | unicode => "│"
  | ascii => "|"

def top : BorderStyle → Rule
  | unicode => ⟨"┌", "┬", "┐"⟩
  | ascii => ⟨"+", "+", "+"⟩

def middle : BorderStyle → Rule
  | unicode => ⟨"├", "┼", "┤"⟩
  | ascii => ⟨"+", "+", "+"⟩

def bottom : BorderStyle → Rule
  | unicode => ⟨"└", "┴", "┘"⟩
  | ascii => ⟨"+", "+", "+"⟩

end BorderStyle

/-- A table. Each row has as many cells as there are headers. -/
structure Table where
  headers : List String
  rows : List (List String)
  style : BorderStyle

namespace Table

def empty (headers : List String) (style : BorderStyle) : Table := ⟨headers, [], style⟩

/-- Exactly `n` cells: those that are too many are dropped, those that are missing are blank. -/
def fit (n : Nat) (cells : List String) : List String :=
  cells.take n ++ List.replicate (n - cells.length) ""

@[simp] theorem length_fit (n : Nat) (cells : List String) : (fit n cells).length = n := by
  simp [fit]
  omega

def push (t : Table) (cells : List String) : Table :=
  { t with rows := t.rows ++ [fit t.headers.length cells] }

def isEmpty (t : Table) : Bool := t.rows.isEmpty

section

variable (width : String → Nat)

def widen (widths : List Nat) (cells : List String) : List Nat :=
  List.zipWith (fun w cell ↦ max w (width cell)) widths cells

def widths (t : Table) : List Nat := t.rows.foldl (widen width) (t.headers.map width)

def times (n : Nat) (s : String) : String := String.join (List.replicate n s)

/-- A horizontal border, one column wider on both sides of each cell. -/
def renderRule (style : BorderStyle) (widths : List Nat) (rule : Rule) : String :=
  rule.left ++ rule.middle.intercalate (widths.map fun w ↦ times (w + 2) style.horizontal) ++
    rule.right ++ "\n"

/-- A cell filled with blanks to its width, with a blank on both sides and a border behind it. -/
def renderCell (style : BorderStyle) (cell : String) (w : Nat) : String :=
  " " ++ cell ++ times (w - width cell + 1) " " ++ style.vertical

def renderRow (style : BorderStyle) (widths : List Nat) (cells : List String) : String :=
  style.vertical ++ String.join (List.zipWith (renderCell width style) cells widths) ++ "\n"

def render (t : Table) : String :=
  let widths := t.widths width
  renderRule t.style widths t.style.top ++ renderRow width t.style widths t.headers ++
    renderRule t.style widths t.style.middle ++
    String.join (t.rows.map (renderRow width t.style widths)) ++
    renderRule t.style widths t.style.bottom

end

end Table

end PluginSurface
