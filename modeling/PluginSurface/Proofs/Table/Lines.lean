import Mathlib.Algebra.GroupWithZero.Nat
import Mathlib.Data.List.Forall2
import PluginSurface.Table

/-!
# The lines of a table

Every cell is filled with blanks to the width of its column, which is no less than that of any cell
in it, and the borders leave as much room. So all lines of a table are equally wide, and each cell
stands in its column, whatever measures the width of a text, as long as it adds up over the pieces
of a line and is one for each piece of a border. Main statement: `Table.drawn_render`.
-/

namespace PluginSurface

namespace Table

/-! ## Rows -/

/-- The table with the given rows, pushed one after the other. -/
def filled (headers : List String) (style : BorderStyle) (pushed : List (List String)) : Table :=
  pushed.foldl push (empty headers style)

/-- The cells of a row in `n` columns: those that are missing are blank. -/
def inColumns (n : Nat) (cells : List String) : List String :=
  (List.range n).map fun j ↦ cells.getD j ""

theorem fit_eq_inColumns (n : Nat) (cells : List String) : fit n cells = inColumns n cells := by
  refine List.ext_getElem (by simp [inColumns]) fun j hj _ ↦ ?_
  simp only [fit, inColumns, List.getElem_map, List.getElem_range, List.getElem_append,
    List.length_take, List.getElem_take, List.getElem_replicate, List.getD_eq_getElem?_getD]
  rw [length_fit] at hj
  split
  next h => simp [List.getElem?_eq_getElem (show j < cells.length by omega)]
  next h => simp [List.getElem?_eq_none (show cells.length ≤ j by omega)]

theorem foldl_push (pushed : List (List String)) (t : Table) :
    pushed.foldl push t = { t with rows := t.rows ++ pushed.map (inColumns t.headers.length) } := by
  induction pushed generalizing t with
  | nil => simp
  | cons cells rest ih => simp [ih, push, fit_eq_inColumns]

theorem filled_eq (headers : List String) (style : BorderStyle) (pushed : List (List String)) :
    filled headers style pushed = ⟨headers, pushed.map (inColumns headers.length), style⟩ := by
  rw [filled, foldl_push]
  rfl

/-- Each row has as many cells as there are headers. -/
def IsEven (t : Table) : Prop := ∀ row ∈ t.rows, row.length = t.headers.length

theorem isEven_filled (headers : List String) (style : BorderStyle) (pushed : List (List String)) :
    (filled headers style pushed).IsEven := by
  rw [filled_eq]
  intro row hrow
  obtain ⟨cells, -, rfl⟩ := List.mem_map.mp hrow
  simp [inColumns]

/-! ## Widths of columns -/

section

variable {width : String → Nat}

variable (width) in
/-- Each column has room for its cell. -/
def Holds (widths : List Nat) (cells : List String) : Prop :=
  List.Forall₂ (fun cell w ↦ width cell ≤ w) cells widths

theorem length_widen {widths : List Nat} {cells : List String} (h : cells.length = widths.length) :
    (widen width widths cells).length = widths.length := by
  simp [widen, h]

theorem holds_widen_self {cells : List String} : ∀ {widths : List Nat},
    cells.length = widths.length → Holds width (widen width widths cells) cells := by
  induction cells with
  | nil =>
      intro widths h
      rw [List.length_eq_zero_iff.mp h.symm]
      exact .nil
  | cons cell rest ih =>
      intro widths h
      obtain _ | ⟨w, ws⟩ := widths
      · cases h
      · exact .cons (Nat.le_max_right _ _) (ih (Nat.succ.inj h))

theorem Holds.widen {widths : List Nat} {cells other : List String} (h : Holds width widths cells)
    (hother : other.length = widths.length) :
    Holds width (Table.widen width widths other) cells := by
  induction h generalizing other with
  | nil => exact .nil
  | cons hcell _ ih =>
      obtain _ | ⟨o, os⟩ := other
      · cases hother
      · exact .cons (Nat.le_trans hcell (Nat.le_max_left _ _)) (ih (Nat.succ.inj hother))

/-- Widening for further rows keeps room for a row. -/
theorem Holds.foldl_widen {widths : List Nat} {cells : List String} (h : Holds width widths cells)
    {rows : List (List String)} (hrows : ∀ row ∈ rows, row.length = widths.length) :
    Holds width (rows.foldl (Table.widen width) widths) cells := by
  induction rows generalizing widths with
  | nil => exact h
  | cons row rest ih =>
      obtain ⟨hrow, hrest⟩ := List.forall_mem_cons.mp hrows
      exact ih (h.widen hrow) fun other hother ↦
        (hrest other hother).trans (length_widen hrow).symm

theorem holds_foldl_widen {widths : List Nat} {rows : List (List String)}
    (hrows : ∀ row ∈ rows, row.length = widths.length) {row : List String}
    (hrow : row ∈ rows) : Holds width (rows.foldl (widen width) widths) row := by
  induction rows generalizing widths with
  | nil => cases hrow
  | cons first rest ih =>
      obtain ⟨hfirst, hrest⟩ := List.forall_mem_cons.mp hrows
      have hrest (other : List String) (hother : other ∈ rest) :
          other.length = (widen width widths first).length :=
        (hrest other hother).trans (length_widen hfirst).symm
      rcases List.mem_cons.mp hrow with rfl | hrow
      · exact (holds_widen_self hfirst).foldl_widen hrest
      · exact ih hrest hrow

variable {t : Table} (ht : t.IsEven)

include ht

theorem IsEven.holds_headers : Holds width (t.widths width) t.headers := by
  refine Holds.foldl_widen (List.forall₂_map_right_iff.mpr ?_) fun row hrow ↦ ?_
  · exact List.forall₂_same.mpr fun _ _ ↦ Nat.le_refl _
  · rw [ht row hrow, List.length_map]

theorem IsEven.holds_row {row : List String} (hrow : row ∈ t.rows) :
    Holds width (t.widths width) row :=
  holds_foldl_widen (fun other hother ↦ by rw [ht other hother, List.length_map]) hrow

theorem IsEven.holds {cells : List String} (hcells : cells ∈ t.headers :: t.rows) :
    Holds width (t.widths width) cells := by
  rcases List.mem_cons.mp hcells with rfl | hrow
  · exact ht.holds_headers
  · exact ht.holds_row hrow

end

/-! ## Pieces of lines -/

end Table

/-- All pieces that borders are drawn with. -/
def BorderStyle.pieces (style : BorderStyle) : List String :=
  style.horizontal :: style.vertical ::
    [style.top, style.middle, style.bottom].flatMap fun rule ↦
    [rule.left, rule.middle, rule.right]

namespace Table

/-- The pieces of a horizontal border. -/
def rulePieces (style : BorderStyle) (widths : List Nat) (rule : Rule) : List String :=
  rule.left :: [rule.middle].intercalate
    (widths.map fun w ↦ List.replicate (w + 2) style.horizontal) ++ [rule.right]

section

variable (width : String → Nat)

def cellPieces (style : BorderStyle) (cell : String) (w : Nat) : List String :=
  " " :: cell :: List.replicate (w - width cell + 1) " " ++ [style.vertical]

def rowPieces (style : BorderStyle) (widths : List Nat) (cells : List String) : List String :=
  style.vertical :: (List.zipWith (cellPieces width style) cells widths).flatten

/-- The pieces of each line of a table. -/
def linePieces (t : Table) : List (List String) :=
  [rulePieces t.style (t.widths width) t.style.top,
    rowPieces width t.style (t.widths width) t.headers,
    rulePieces t.style (t.widths width) t.style.middle] ++
    t.rows.map (rowPieces width t.style (t.widths width)) ++
    [rulePieces t.style (t.widths width) t.style.bottom]

def lines (t : Table) : List String := (t.linePieces width).map String.join

/-- The width adds up over the pieces, however many of them are put together. -/
def AddsUp (pieces : List String) : Prop :=
  ∀ front, front <+: pieces → width (String.join front) = (front.map width).sum

/-- What the drawing of a table relies on: each piece of a border takes one column, as does the
blank that cells are filled with, and the width adds up over the pieces of each line. -/
structure Measures (t : Table) : Prop where
  border : ∀ s ∈ t.style.pieces, width s = 1
  blank : width " " = 1
  adds : ∀ pieces ∈ t.linePieces width, AddsUp width pieces

end

/-- A width that counts each character by itself adds up over all pieces. -/
theorem addsUp_sum (columns : Char → Nat) (pieces : List String) :
    AddsUp (fun s ↦ (s.toList.map columns).sum) pieces := by
  rintro front -
  simp only [String.toList_join]
  induction front with
  | nil => rfl
  | cons s rest ih =>
      rw [List.flatMap_cons, List.map_append, List.sum_append, List.map_cons, List.sum_cons]
      exact congrArg _ ih

theorem join_flatten (pss : List (List String)) :
    String.join pss.flatten = String.join (pss.map String.join) := by
  induction pss with
  | nil => rfl
  | cons ps rest ih => rw [List.flatten_cons, String.join_append, ih, List.map_cons,
      String.join_cons]

theorem join_cellPieces (width : String → Nat) (style : BorderStyle) (cell : String) (w : Nat) :
    String.join (cellPieces width style cell w) = renderCell width style cell w := by
  simp only [cellPieces, renderCell, times, String.join_append, String.join_cons, String.join_nil,
    String.append_assoc, String.append_empty, List.cons_append]

theorem join_cells (width : String → Nat) (style : BorderStyle) (widths : List Nat)
    (cells : List String) :
    String.join (List.zipWith (cellPieces width style) cells widths).flatten =
      String.join (List.zipWith (renderCell width style) cells widths) := by
  rw [join_flatten, List.map_zipWith]
  simp only [join_cellPieces]

theorem join_rowPieces (width : String → Nat) (style : BorderStyle) (widths : List Nat)
    (cells : List String) : String.join (rowPieces width style widths cells) ++ "\n" =
      renderRow width style widths cells := by
  rw [rowPieces, String.join_cons, join_cells, renderRow]

theorem join_intercalate (middle : String) (pss : List (List String)) :
    String.join ([middle].intercalate pss) = middle.intercalate (pss.map String.join) := by
  induction pss with
  | nil => rfl
  | cons ps rest ih =>
      obtain _ | ⟨qs, more⟩ := rest
      · simp
      · rw [List.intercalate_cons_of_ne_nil (List.cons_ne_nil qs more), String.join_append,
          String.join_append, ih, String.join_cons, String.join_nil, String.append_empty,
          List.map_cons, List.map_cons, List.map_cons, String.intercalate_cons_cons]

theorem join_rulePieces (style : BorderStyle) (widths : List Nat) (rule : Rule) :
    String.join (rulePieces style widths rule) ++ "\n" = renderRule style widths rule := by
  have hsegments : (widths.map fun w ↦ List.replicate (w + 2) style.horizontal).map String.join =
      widths.map fun w ↦ times (w + 2) style.horizontal := List.map_map
  rw [rulePieces, String.join_append, String.join_cons, join_intercalate, hsegments,
    String.join_cons, String.join_nil, String.append_empty, renderRule]

theorem render_eq (width : String → Nat) (t : Table) :
    t.render width = String.join ((t.lines width).map (· ++ "\n")) := by
  simp only [render, lines, linePieces, List.map_append, List.map_cons, List.map_nil, List.map_map,
    Function.comp_def, join_rulePieces, join_rowPieces, String.join_append, String.join_cons,
    String.join_nil, String.append_assoc, String.append_empty]

/-! ## Widths of lines -/

/-- The columns of a line: a border, and for each column its width, two blanks and a border. -/
def lineWidth (widths : List Nat) : Nat := 1 + (widths.map (· + 3)).sum

/-- A horizontal border is made of border pieces, one for each of its columns. -/
theorem mem_rulePieces {style : BorderStyle} {rule : Rule}
    (hrule : rule ∈ [style.top, style.middle, style.bottom]) (widths : List Nat) :
    ∀ s ∈ rulePieces style widths rule, s ∈ style.pieces := by
  have hends (s : String) (hs : s ∈ [rule.left, rule.middle, rule.right]) : s ∈ style.pieces :=
    List.mem_cons_of_mem _ <| List.mem_cons_of_mem _ <| List.mem_flatMap.mpr ⟨rule, hrule, hs⟩
  have hinner : ∀ s ∈ [rule.middle].intercalate
      (widths.map fun w ↦ List.replicate (w + 2) style.horizontal), s ∈ style.pieces := by
    induction widths with
    | nil => simp
    | cons w rest ih =>
        have hfirst (s : String) (hs : s ∈ List.replicate (w + 2) style.horizontal) :
            s ∈ style.pieces := List.eq_of_mem_replicate hs ▸ List.mem_cons_self
        obtain _ | ⟨w', more⟩ := rest
        · simpa using hfirst
        · rw [List.map_cons, List.intercalate_cons_of_ne_nil (by simp)]
          intro s hs
          simp only [List.mem_append, List.mem_singleton] at hs
          rcases hs with (hs | rfl) | hs
          · exact hfirst s hs
          · exact hends _ (by simp)
          · exact ih s hs
  intro s hs
  simp only [rulePieces, List.cons_append, List.mem_cons, List.mem_append, List.not_mem_nil,
    or_false] at hs
  rcases hs with rfl | hs | rfl
  · exact hends _ (by simp)
  · exact hinner s hs
  · exact hends _ (by simp)

theorem length_rulePieces (style : BorderStyle) (rule : Rule) {widths : List Nat}
    (h : widths ≠ []) : (rulePieces style widths rule).length = lineWidth widths := by
  have hinner : ([rule.middle].intercalate
      (widths.map fun w ↦ List.replicate (w + 2) style.horizontal)).length + 1 =
        (widths.map (· + 3)).sum := by
    induction widths with
    | nil => exact absurd rfl h
    | cons w rest ih =>
        obtain _ | ⟨w', more⟩ := rest
        · simp
        · rw [List.map_cons, List.intercalate_cons_of_ne_nil (by simp), List.length_append,
            List.length_append, List.length_replicate, List.length_singleton, Nat.add_assoc,
            ih (List.cons_ne_nil w' more)]
          rfl
  rw [lineWidth, ← hinner, rulePieces, List.length_append, List.length_cons,
    List.length_singleton]
  omega

theorem length_widths (width : String → Nat) {t : Table} (ht : t.IsEven) :
    (t.widths width).length = t.headers.length := ht.holds_headers.length_eq.symm

theorem sum_replicate {width : String → Nat} {s : String} (hs : width s = 1) (n : Nat) :
    ((List.replicate n s).map width).sum = n := by
  rw [List.map_replicate, hs, List.sum_replicate_nat, Nat.mul_one]

namespace Measures

variable {width : String → Nat} {t : Table} (h : Measures width t)

include h

theorem sum_cellPieces {cell : String} {w : Nat} (hcell : width cell ≤ w) :
    ((cellPieces width t.style cell w).map width).sum = w + 3 := by
  have hvertical : width t.style.vertical = 1 := h.border _ (by simp [BorderStyle.pieces])
  simp only [cellPieces, List.cons_append, List.map_cons, List.map_append, List.map_nil,
    List.sum_cons, List.sum_append, List.sum_nil, sum_replicate h.blank, h.blank, hvertical]
  omega

theorem sum_rowPieces {widths : List Nat} {cells : List String}
    (hcells : Holds width widths cells) :
    ((rowPieces width t.style widths cells).map width).sum = lineWidth widths := by
  rw [rowPieces, List.map_cons, List.sum_cons, h.border _ (by simp [BorderStyle.pieces]), lineWidth]
  refine congrArg (1 + ·) ?_
  induction hcells with
  | nil => rfl
  | cons hcell _ ih =>
      rw [List.zipWith_cons_cons, List.flatten_cons, List.map_append, List.sum_append, ih,
        h.sum_cellPieces hcell, List.map_cons, List.sum_cons]

theorem sum_rulePieces {rule : Rule}
    (hrule : rule ∈ [t.style.top, t.style.middle, t.style.bottom])
    {widths : List Nat} (hwidths : widths ≠ []) :
    ((rulePieces t.style widths rule).map width).sum = lineWidth widths := by
  have hones : (rulePieces t.style widths rule).map width =
      List.replicate (rulePieces t.style widths rule).length 1 :=
    List.eq_replicate_iff.mpr ⟨List.length_map .., List.forall_mem_map.mpr fun s hs ↦
      h.border s (mem_rulePieces hrule widths s hs)⟩
  rw [hones, List.sum_replicate_nat, Nat.mul_one, length_rulePieces _ _ hwidths]

end Measures

/-- A line of a table is a horizontal border, or a row of the headers or of cells. -/
theorem mem_linePieces_iff {width : String → Nat} {t : Table} {pieces : List String} :
    pieces ∈ t.linePieces width ↔
      (∃ rule ∈ [t.style.top, t.style.middle, t.style.bottom],
        pieces = rulePieces t.style (t.widths width) rule) ∨
      ∃ cells ∈ t.headers :: t.rows, pieces =
        rowPieces width t.style (t.widths width) cells := by
  simp only [linePieces, List.mem_append, List.mem_cons, List.mem_map, List.not_mem_nil, or_false]
  grind

/-- All lines of a table with a column are equally wide. -/
theorem Measures.width_line {width : String → Nat} {t : Table} (h : Measures width t)
    (ht : t.IsEven) (hheaders : t.headers ≠ []) :
    ∀ line ∈ t.lines width, width line = lineWidth (t.widths width) := by
  have hwidths : t.widths width ≠ [] := by
    rw [← List.length_pos_iff, length_widths width ht]
    exact List.length_pos_iff.mpr hheaders
  refine List.forall_mem_map.mpr fun pieces hpieces ↦ ?_
  rw [h.adds pieces hpieces pieces (List.prefix_refl pieces)]
  rcases mem_linePieces_iff.mp hpieces with ⟨rule, hrule, rfl⟩ | ⟨cells, hcells, rfl⟩
  · exact h.sum_rulePieces hrule hwidths
  · exact h.sum_rowPieces (ht.holds hcells)

/-! ## Line feeds -/

theorem notMem_join {c : Char} {pieces : List String} (h : ∀ s ∈ pieces, c ∉ s.toList) :
    c ∉ (String.join pieces).toList := by
  simpa only [String.toList_join, List.mem_flatMap, not_exists, not_and] using h

theorem notMem_pieces (style : BorderStyle) : ∀ s ∈ style.pieces, '\n' ∉ s.toList := by
  cases style <;> decide

theorem notMem_rowPieces (width : String → Nat) (style : BorderStyle) {cells : List String}
    (h : ∀ cell ∈ cells, '\n' ∉ cell.toList) (widths : List Nat) :
    ∀ s ∈ rowPieces width style widths cells, '\n' ∉ s.toList := by
  have hvertical : '\n' ∉ style.vertical.toList :=
    notMem_pieces style _ (by simp [BorderStyle.pieces])
  have hblank : '\n' ∉ " ".toList := by decide
  refine List.forall_mem_cons.mpr ⟨hvertical, List.forall_mem_flatten.mpr ?_⟩
  rw [← List.map_uncurry_zip_eq_zipWith]
  refine List.forall_mem_map.mpr fun ⟨cell, w⟩ hcell s hs ↦ ?_
  simp only [cellPieces, Function.uncurry_apply_pair, List.cons_append, List.mem_cons,
    List.mem_append, List.mem_replicate, List.not_mem_nil, or_false] at hs
  rcases hs with rfl | rfl | ⟨-, rfl⟩ | rfl
  · exact hblank
  · exact h s (List.of_mem_zip hcell).1
  · exact hblank
  · exact hvertical

theorem notMem_line (width : String → Nat) {t : Table}
    (h : ∀ cells ∈ t.headers :: t.rows, ∀ cell ∈ cells, '\n' ∉ cell.toList) :
    ∀ line ∈ t.lines width, '\n' ∉ line.toList := by
  refine List.forall_mem_map.mpr fun pieces hpieces ↦ notMem_join ?_
  rcases mem_linePieces_iff.mp hpieces with ⟨rule, hrule, rfl⟩ | ⟨cells, hcells, rfl⟩
  · exact fun s hs ↦ notMem_pieces _ s (mem_rulePieces hrule _ s hs)
  · exact notMem_rowPieces width _ (h cells hcells) _

/-- Lines that end in a line feed each are what the text falls into at its line feeds. -/
theorem splitOn_join {lines : List String} (h : ∀ line ∈ lines, '\n' ∉ line.toList) :
    (String.join (lines.map (· ++ "\n"))).toList.splitOn '\n' =
      lines.map String.toList ++ [[]] := by
  have htext : (String.join (lines.map (· ++ "\n"))).toList =
      ['\n'].intercalate (lines.map String.toList ++ [[]]) := by
    induction lines with
    | nil => rfl
    | cons line rest ih =>
        rw [List.map_cons, String.join_cons, String.toList_append, String.toList_append,
          ih (List.forall_mem_cons.mp h).2, List.map_cons, List.cons_append,
          List.intercalate_cons_of_ne_nil (by simp)]
        rfl
  rw [htext]
  refine List.splitOn_intercalate _ (fun l hl ↦ ?_) (by simp)
  rcases List.mem_append.mp hl with hl | hl
  · obtain ⟨line, hline, rfl⟩ := List.mem_map.mp hl
    exact h line hline
  · rw [List.mem_singleton.mp hl]
    exact List.not_mem_nil

/-! ## Cells -/

/-- The column of a line in which the text of a cell begins, behind the cells of the
given widths. -/
def cellStart (before : List Nat) : Nat := lineWidth before + 1

/-- A line that shows the given cells and nothing else: each of them verbatim, from the same column
on in every such line, and filled with blanks up to the border behind it. -/
structure Shows (width : String → Nat) (style : BorderStyle) (widths : List Nat)
    (cells : List String) (line : String) : Prop where
  length_eq : cells.length = widths.length
  line_eq : line =
    style.vertical ++ String.join (List.zipWith (renderCell width style) cells widths)
  cell : ∀ j (hj : j < cells.length) (hj' : j < widths.length), ∃ before behind,
    line = before ++ cells[j] ++ times (widths[j] - width cells[j]) " " ++ " " ++
      style.vertical ++ behind ∧
    width before = cellStart (widths.take j) ∧ width cells[j] ≤ widths[j]

theorem rowPieces_append (width : String → Nat) (style : BorderStyle) {ws vs : List Nat}
    {xs ys : List String} (h : xs.length = ws.length) :
    rowPieces width style (ws ++ vs) (xs ++ ys) =
      rowPieces width style ws xs ++ (List.zipWith (cellPieces width style) ys vs).flatten := by
  rw [rowPieces, rowPieces, List.zipWith_append h, List.flatten_append, List.cons_append]

theorem times_succ (n : Nat) (s : String) : times (n + 1) s = times n s ++ s := by
  rw [times, times, List.replicate_succ', String.join_append, String.join_cons, String.join_nil,
    String.append_empty]

/-- The pieces of a row up to a cell, those of the cell, and the rest. -/
theorem rowPieces_split (width : String → Nat) (style : BorderStyle) {widths : List Nat}
    {cells : List String} (h : cells.length = widths.length) {j : Nat} (hj : j < cells.length)
    (hj' : j < widths.length) : rowPieces width style widths cells =
      rowPieces width style (widths.take j) (cells.take j) ++
        cellPieces width style cells[j] widths[j] ++
        (List.zipWith (cellPieces width style) (cells.drop (j + 1))
          (widths.drop (j + 1))).flatten := by
  conv_lhs => rw [← List.take_append_drop j widths, ← List.take_append_drop j cells,
    List.drop_eq_getElem_cons hj, List.drop_eq_getElem_cons hj']
  rw [rowPieces_append width style (by simp [h]), List.zipWith_cons_cons, List.flatten_cons,
    List.append_assoc]

theorem Measures.shows {width : String → Nat} {t : Table} (h : Measures width t) (ht : t.IsEven)
    {cells : List String} (hcells : cells ∈ t.headers :: t.rows) :
    Shows width t.style (t.widths width) cells
      (String.join (rowPieces width t.style (t.widths width) cells)) := by
  have hholds : Holds width (t.widths width) cells := ht.holds hcells
  refine ⟨hholds.length_eq, ?_, fun j hj hj' ↦ ?_⟩
  · rw [rowPieces, String.join_cons, join_cells]
  have hsplit := rowPieces_split width t.style hholds.length_eq hj hj'
  have hfront : rowPieces width t.style ((t.widths width).take j) (cells.take j) ++ [" "] <+:
      rowPieces width t.style (t.widths width) cells := by
    rw [hsplit, cellPieces, List.append_assoc]
    exact (List.prefix_append_right_inj _).mpr (List.prefix_append _ _)
  refine ⟨String.join (rowPieces width t.style ((t.widths width).take j) (cells.take j) ++ [" "]),
    String.join (List.zipWith (cellPieces width t.style) (cells.drop (j + 1))
      ((t.widths width).drop (j + 1))).flatten, ?_, ?_, ?_⟩
  · rw [hsplit]
    simp only [String.join_append, String.join_cons, String.join_nil, String.append_empty,
      join_cellPieces, renderCell, times_succ, String.append_assoc]
  · rw [h.adds _ (mem_linePieces_iff.mpr (.inr ⟨cells, hcells, rfl⟩)) _ hfront,
      List.map_append, List.sum_append, h.sum_rowPieces (List.forall₂_take j hholds)]
    simp only [List.map_cons, List.map_nil, List.sum_cons, List.sum_nil, Nat.add_zero, h.blank,
      cellStart]
  · exact (List.forall₂_iff_get.mp hholds).2 j hj hj'

/-! ## The whole table -/

/-- The drawing of a table with the given headers and pushed rows: a text of the given lines, in
columns of the given widths. -/
structure Drawn (width : String → Nat) (headers : List String) (style : BorderStyle)
    (pushed : List (List String)) (text : String) (lines : List String) (widths : List Nat) :
    Prop where
  splitOn_eq : text.toList.splitOn '\n' = lines.map String.toList ++ [[]]
  length_eq : lines.length = pushed.length + 4
  width_eq : ∀ line ∈ lines, width line = lineWidth widths
  header : ∃ line, lines[1]? = some line ∧ Shows width style widths headers line
  row : ∀ i cells, pushed[i]? = some cells → ∃ line, lines[i + 3]? = some line ∧
    Shows width style widths (inColumns headers.length cells) line

theorem notMem_inColumns {cells : List String} (h : ∀ cell ∈ cells, '\n' ∉ cell.toList)
    (n : Nat) : ∀ cell ∈ inColumns n cells, '\n' ∉ cell.toList := by
  intro cell hcell
  obtain ⟨j, -, rfl⟩ := List.mem_map.mp hcell
  rw [List.getD_eq_getElem?_getD]
  cases hj : cells[j]? with
  | none => exact List.not_mem_nil
  | some text => exact h text (List.mem_of_getElem? hj)

/-- A table with at least one header, whose headers and cells have no line feed, is drawn as
four lines and one for each row, all of the same width, whatever measures it as long as it adds
up over the pieces of a line and is one for those of a border. Each row has a cell for each
header, which stands verbatim in its column; cells that are missing are blank and those that are
too many left out. -/
theorem drawn_render {width : String → Nat} {headers : List String} (hheaders : headers ≠ [])
    (style : BorderStyle) {pushed : List (List String)}
    (hline : ∀ cells ∈ headers :: pushed, ∀ cell ∈ cells, '\n' ∉ cell.toList)
    (hwidth : Measures width (filled headers style pushed)) :
    let t := filled headers style pushed
    t.IsEven ∧ Drawn width headers style pushed (t.render width) (t.lines width)
      (t.widths width) := by
  intro t
  have ht : t = ⟨headers, pushed.map (inColumns headers.length), style⟩ := filled_eq ..
  have heven : t.IsEven := isEven_filled headers style pushed
  have hheader : t.headers = headers := by rw [ht]
  have hstyle : t.style = style := by rw [ht]
  have hrows : t.rows = pushed.map (inColumns headers.length) := by rw [ht]
  refine ⟨heven, ?splitOn, ?length, ?width, ?header, fun i cells hcells ↦ ?row⟩
  case splitOn =>
    rw [render_eq]
    refine splitOn_join (notMem_line width ?_)
    rw [hheader, hrows]
    obtain ⟨hheader, hpushed⟩ := List.forall_mem_cons.mp hline
    refine List.forall_mem_cons.mpr ⟨hheader, List.forall_mem_map.mpr fun cells hcells ↦ ?_⟩
    exact notMem_inColumns (hpushed cells hcells) _
  case length =>
    rw [lines, linePieces, hrows]
    simp
  case width => exact hwidth.width_line heven (by rwa [← hheader] at hheaders)
  case header =>
    refine ⟨String.join (rowPieces width t.style (t.widths width) t.headers), rfl, ?_⟩
    rw [← hstyle, ← hheader]
    exact hwidth.shows heven List.mem_cons_self
  case row =>
    have hi : i < pushed.length := (List.getElem?_eq_some_iff.mp hcells).1
    have hmem : inColumns headers.length cells ∈ t.rows := by
      rw [hrows]
      exact List.mem_map_of_mem (List.mem_of_getElem? hcells)
    refine ⟨String.join (rowPieces width t.style (t.widths width)
      (inColumns headers.length cells)), ?_, ?_⟩
    · rw [lines, linePieces, hrows]
      simp only [List.cons_append, List.nil_append, List.map_cons, List.map_append, List.map_nil,
        List.getElem?_cons_succ]
      rw [List.getElem?_append_left (by simpa using hi), List.getElem?_map, List.getElem?_map,
        List.getElem?_map, hcells]
      rfl
    · rw [← hstyle]
      exact hwidth.shows heven (List.mem_cons_of_mem _ hmem)

/-- A wide cell, a missing one, one too many, and a mark without width of its own. -/
theorem drawn_render_ragged :
    let columns (c : Char) : Nat := if c = '🟢' then 2 else if c = '\u0301' then 0 else 1
    let width (s : String) : Nat := (s.toList.map columns).sum
    let headers := ["plugin", "état"]
    let pushed := [["DefinePlugin", "🟢 ok", "rest"], ["e\u0301"]]
    let t := filled headers .unicode pushed
    headers ≠ [] ∧ (∀ cells ∈ headers :: pushed, ∀ cell ∈ cells, '\n' ∉
      cell.toList) ∧ Measures width t ∧ t.widths width = [12, 5] ∧ t.IsEven ∧
      Drawn width headers .unicode pushed (t.render width) (t.lines width) [12, 5] := by
  intro columns width headers pushed t
  have hheaders : headers ≠ [] := by decide
  have hline :
      ∀ cells ∈ headers :: pushed, ∀ cell ∈ cells, '\n' ∉ cell.toList := by decide
  have hmeasures : Measures width t :=
    ⟨by decide +kernel, by decide +kernel, fun pieces _ ↦ addsUp_sum columns pieces⟩
  have hwidths : t.widths width = [12, 5] := by decide +kernel
  obtain ⟨heven, hdrawn⟩ := drawn_render hheaders .unicode hline hmeasures
  exact ⟨hheaders, hline, hmeasures, hwidths, heven, hwidths ▸ hdrawn⟩

end Table

end PluginSurface
