import Mathlib.Algebra.BigOperators.Group.List.Basic
import TwoLevel.Karnaugh.Drawing
import TwoLevel.Proofs.Karnaugh.Layout
import TwoLevel.Proofs.Table.Labels
import TwoLevel.Proofs.Text.Fields
import TwoLevel.Proofs.Text.Number

/-!
# A drawing shows every value

All lines of a drawing have the same width, because no header is wider than its column. So the cells
stand below each other, and each of them shows the value at its index: tables with the same labels
and other values have other drawings. There is a drawing unless the corner is wider than a field may
be.
-/
namespace TwoLevel

open TwoLevel.Text

namespace Text

/-! ### Fields of a fixed width -/

theorem foldl_max_le_iff (widths : List Nat) (least bound : Nat) :
    widths.foldl max least ≤ bound ↔ least ≤ bound ∧ ∀ width ∈ widths, width ≤ bound := by
  induction widths generalizing least with
  | nil => simp
  | cons first rest ih => rw [List.foldl_cons, ih, Nat.max_le, List.forall_mem_cons, and_assoc]

theorem widest_le_iff (texts : List String) (bound : Nat) :
    widest texts ≤ bound ↔ ∀ text ∈ texts, text.length ≤ bound := by
  rw [widest, foldl_max_le_iff, List.forall_mem_map]
  exact and_iff_right (Nat.zero_le bound)

theorem length_le_widest {texts : List String} {text : String} (member : text ∈ texts) :
    text.length ≤ widest texts :=
  (widest_le_iff texts _).mp (Nat.le_refl _) text member

theorem length_join (texts : List String) :
    (String.join texts).length = (texts.map String.length).sum := by
  rw [← String.length_toList, String.toList_join, List.length_flatMap]
  simp only [String.length_toList]

theorem toList_padLeft (width : Nat) (text : String) :
    (padLeft width text).toList = List.replicate (width - text.length) ' ' ++ text.toList := by
  rw [padLeft, filler, String.toList_append, String.toList_ofList]

theorem length_padLeft {width : Nat} {text : String} (fits : text.length ≤ width) :
    (padLeft width text).toList.length = width := by
  rw [toList_padLeft, List.length_append, List.length_replicate, String.length_toList]
  exact Nat.sub_add_cancel fits

theorem length_padRight {width : Nat} {text : String} (fits : text.length ≤ width) :
    (padRight width text).toList.length = width := by
  rw [padRight, filler, String.toList_append, String.toList_ofList, List.length_append,
    List.length_replicate, String.length_toList]
  exact Nat.add_sub_cancel' fits

theorem onOneLine_filler (width : Nat) (text : String) : OnOneLine (filler width text) := by
  rw [OnOneLine, filler, String.toList_ofList]
  intro member
  exact absurd (List.eq_of_mem_replicate member) (by decide)

/-- Pieces of one size are found again at the multiples of this size. -/
theorem take_drop_flatMap {α : Type} {piece : α → List Char} {size : Nat} {items : List α}
    (sizes : ∀ item ∈ items, (piece item).length = size) {place : Nat} {item : α}
    (found : items[place]? = some item) :
    ((items.flatMap piece).drop (place * size)).take size = piece item := by
  induction items generalizing place with
  | nil => cases found
  | cons first rest ih =>
    obtain ⟨here, later⟩ := List.forall_mem_cons.mp sizes
    rw [List.flatMap_cons]
    cases place with
    | zero =>
      cases found
      rw [Nat.zero_mul, List.drop_zero, List.take_left' here]
    | succ place =>
      have whole : (piece first).length + place * size = (place + 1) * size := by
        rw [here, Nat.succ_mul, Nat.add_comm]
      rw [← whole, List.drop_length_add_append]
      exact ih later found

theorem length_flatMap_of_forall {α : Type} {piece : α → List Char} {size : Nat} {items : List α}
    (sizes : ∀ item ∈ items, (piece item).length = size) :
    (items.flatMap piece).length = items.length * size := by
  rw [List.length_flatMap, List.map_congr_left sizes, List.map_const', List.sum_replicate_nat]

end Text

theorem Value.symbol_injective : Function.Injective Value.symbol := by
  intro value other same
  cases value <;> cases other <;> first | rfl | exact absurd same (by decide)

namespace Karnaugh.Layout

/-! ### The lines of a drawing -/

/-- A line of a drawing, without the newline at its end. -/
def lineChars (headerWidth cellWidth : Nat) (header : String) (cells : List String) : List Char :=
  (padRight headerWidth header).toList ++ " |".toList
    ++ cells.flatMap fun cell => ' ' :: (padLeft cellWidth cell).toList

theorem toList_line (headerWidth cellWidth : Nat) (header : String) (cells : List String) :
    (line headerWidth cellWidth header cells).toList
      = lineChars headerWidth cellWidth header cells ++ ['\n'] := by
  simp [line, lineChars, List.flatMap_map]

section

variable {headerWidth cellWidth : Nat} {header : String} {cells : List String}

theorem newline_not_mem_lineChars (whole : OnOneLine header)
    (each : ∀ cell ∈ cells, OnOneLine cell) :
    '\n' ∉ lineChars headerWidth cellWidth header cells := by
  have left : OnOneLine (padRight headerWidth header) :=
    (onOneLine_append _ _).mpr ⟨whole, onOneLine_filler _ _⟩
  have right : ∀ cell ∈ cells, OnOneLine (padLeft cellWidth cell) := fun cell member =>
    (onOneLine_append _ _).mpr ⟨onOneLine_filler _ _, each cell member⟩
  simp only [lineChars, List.mem_append, List.mem_flatMap, List.mem_cons, not_or, not_exists,
    not_and]
  exact ⟨⟨left, by decide⟩, fun cell member => ⟨by decide, right cell member⟩⟩

variable (narrow : header.length ≤ headerWidth) (fit : ∀ cell ∈ cells, cell.length ≤ cellWidth)

include fit

theorem length_cell :
    ∀ cell ∈ cells, (' ' :: (padLeft cellWidth cell).toList).length = cellWidth + 1 :=
  fun cell member => by rw [List.length_cons, length_padLeft (fit cell member)]

include narrow

theorem length_lineChars : (lineChars headerWidth cellWidth header cells).length
    = headerWidth + 2 + cells.length * (cellWidth + 1) := by
  rw [lineChars, List.length_append, List.length_append, length_padRight narrow,
    length_flatMap_of_forall (length_cell fit)]
  rfl

theorem take_drop_lineChars {column : Nat} {cell : String} (found : cells[column]? = some cell) :
    ((lineChars headerWidth cellWidth header cells).drop
        (headerWidth + 2 + column * (cellWidth + 1))).take (cellWidth + 1)
      = ' ' :: (padLeft cellWidth cell).toList := by
  have front : ((padRight headerWidth header).toList ++ " |".toList).length = headerWidth + 2 := by
    rw [List.length_append, length_padRight narrow]
    rfl
  rw [lineChars, ← front, List.drop_length_add_append, take_drop_flatMap (length_cell fit) found]

end

variable (layout : Layout) (t : TruthTable)

def drawnLines : List (List Char) :=
  lineChars (layout.headerWidth t.labels) layout.cellWidth (layout.corner t.labels)
      layout.columnHeaders
    :: layout.rowHeaders.zipIdx.map fun (header, row) =>
      lineChars (layout.headerWidth t.labels) layout.cellWidth header (layout.rowSymbols t row)

theorem toList_draw : (layout.draw t).toList = terminated (layout.drawnLines t) := by
  rw [draw, drawnLines, String.toList_append, toList_line, String.toList_join, terminated,
    List.flatMap_cons, List.flatMap_map, List.flatMap_map]
  simp only [toList_line]

/-- The lines of the drawing of a table: one for the headers and one for each row of the grid, all
of one width. The cell for an index stands in the line of its row and shows the value at the index,
at its right end. -/
structure Drawn (lines : List (List Char)) : Prop where
  count : lines.length = layout.rows + 1
  whole : ∀ line ∈ lines, '\n' ∉ line
  width : ∀ line ∈ lines,
    line.length = layout.headerWidth t.labels + 2 + layout.columns * (layout.cellWidth + 1)
  cells : ∀ row column index, layout.indexAt? row column = some index →
    ∃ line, lines[row + 1]? = some line
      ∧ (line.drop (layout.headerWidth t.labels + 2 + column * (layout.cellWidth + 1))).take
          (layout.cellWidth + 1)
        = List.replicate layout.cellWidth ' ' ++ [(t.get index).symbol]

theorem onOneLine_header (linear : Bool) (bits place : Nat) :
    OnOneLine (header linear bits place) := by
  rw [header]
  split
  · decide
  · have digits : Solid (binary bits (if linear then place else grayWord bits place)).toList :=
      fun c member => isBlank_of_isDigit (isDigit_of_mem_binary member)
    exact digits.onOneLine

theorem onOneLine_corner : OnOneLine (layout.corner t.labels) := by
  have between (first last : Nat) : OnOneLine (labelsBetween t.labels first last) := by
    rw [labelsBetween]
    split
    · rw [OnOneLine, String.toList_join, List.mem_flatMap]
      rintro ⟨label, member, inside⟩
      have listed : label ∈ t.labels := List.mem_of_mem_take (List.mem_of_mem_drop member)
      exact (solid_of_isIdentifier (t.labels_fit.identifier label listed)).1.onOneLine inside
    · decide
  rw [corner, onOneLine_append, onOneLine_append]
  exact ⟨⟨between _ _, by decide⟩, between _ _⟩

theorem mem_columnHeaders {text : String} (member : text ∈ layout.columnHeaders) :
    OnOneLine text ∧ text.length ≤ layout.cellWidth := by
  refine ⟨?_, Nat.le_trans (length_le_widest member) (Nat.le_max_right _ _)⟩
  obtain ⟨place, -, rfl⟩ := List.mem_map.mp member
  exact onOneLine_header _ _ place

theorem mem_rowSymbols {row : Nat} {text : String} (member : text ∈ layout.rowSymbols t row) :
    OnOneLine text ∧ text.length ≤ layout.cellWidth := by
  obtain ⟨column, -, rfl⟩ := List.mem_map.mp member
  rw [Char.toString_eq_singleton, String.length_singleton]
  refine ⟨?_, Nat.le_max_left _ _⟩
  cases ((layout.indexAt? row column).map t.get).getD .zero <;> decide

/-- Every line has a header and a cell for each column, and all of these fit. -/
theorem mem_drawnLines {line : List Char} (member : line ∈ layout.drawnLines t) :
    ∃ header cells, line = lineChars (layout.headerWidth t.labels) layout.cellWidth header cells
      ∧ OnOneLine header ∧ header.length ≤ layout.headerWidth t.labels
      ∧ cells.length = layout.columns
      ∧ ∀ cell ∈ cells, OnOneLine cell ∧ cell.length ≤ layout.cellWidth := by
  rcases List.mem_cons.mp member with rfl | member
  · refine ⟨_, _, rfl, layout.onOneLine_corner t, length_le_widest List.mem_cons_self, ?_, ?_⟩
    · rw [columnHeaders, List.length_map, List.length_range]
    · exact fun cell => layout.mem_columnHeaders
  · obtain ⟨⟨header, row⟩, listed, rfl⟩ := List.mem_map.mp member
    have own : header ∈ layout.rowHeaders := List.fst_mem_of_mem_zipIdx listed
    refine ⟨_, _, rfl, ?_, length_le_widest (List.mem_cons_of_mem _ own), ?_, ?_⟩
    · obtain ⟨place, -, rfl⟩ := List.mem_map.mp own
      exact onOneLine_header _ _ place
    · rw [rowSymbols, List.length_map, List.length_range]
    · exact fun cell => layout.mem_rowSymbols t

theorem drawn_drawnLines : layout.Drawn t (layout.drawnLines t) where
  count := by
    rw [drawnLines, List.length_cons, List.length_map, List.length_zipIdx, rowHeaders,
      List.length_map, List.length_range]
  whole := by
    intro line member
    obtain ⟨header, cells, rfl, whole, -, -, each⟩ := layout.mem_drawnLines t member
    exact newline_not_mem_lineChars whole fun cell own => (each cell own).1
  width := by
    intro line member
    obtain ⟨header, cells, rfl, -, narrow, length, each⟩ := layout.mem_drawnLines t member
    rw [length_lineChars narrow fun cell own => (each cell own).2, length]
  cells := by
    intro row column index held
    obtain ⟨onGrid, within⟩ := (isSome_indexAt?_iff row column).mp (Option.isSome_of_eq_some held)
    let header := header layout.isLinear layout.rowBits row
    have drawn : (layout.drawnLines t)[row + 1]?
        = some (lineChars (layout.headerWidth t.labels) layout.cellWidth header
          (layout.rowSymbols t row)) := by
      rw [drawnLines, List.getElem?_cons_succ, List.getElem?_map, List.getElem?_zipIdx, rowHeaders,
        List.getElem?_map, List.getElem?_range onGrid]
      simp [header]
    have narrow : header.length ≤ layout.headerWidth t.labels :=
      length_le_widest (List.mem_cons_of_mem _ (List.mem_map_of_mem (List.mem_range.mpr onGrid)))
    have shown : (layout.rowSymbols t row)[column]? = some (t.get index).symbol.toString := by
      rw [rowSymbols, List.getElem?_map, List.getElem?_range within, Option.map_some, held]
      rfl
    refine ⟨_, drawn, ?_⟩
    rw [take_drop_lineChars narrow (fun cell own => (layout.mem_rowSymbols t own).2) shown,
      toList_padLeft]
    -- The blank before the cell and those in it are as many as the cell is wide.
    have positive : 1 ≤ layout.cellWidth := Nat.le_max_left _ _
    rw [Char.toString_eq_singleton, String.length_singleton, String.toList_singleton,
      ← List.cons_append, ← List.replicate_succ, Nat.sub_add_cancel positive]

variable {layout t}

theorem Drawn.value_eq {u : TruthTable} {lines : List (List Char)} (drawn : layout.Drawn t lines)
    (again : layout.Drawn u lines) (labels : u.labels = t.labels) {row column index : Nat}
    (held : layout.indexAt? row column = some index) : u.get index = t.get index := by
  obtain ⟨line, there, shown⟩ := drawn.cells row column index held
  obtain ⟨line', there', shown'⟩ := again.cells row column index held
  cases there.symm.trans there'
  rw [labels, shown] at shown'
  have symbols : (t.get index).symbol = (u.get index).symbol := by simpa using shown'
  exact (Value.symbol_injective symbols).symm

/-! ### The width of the first column -/

theorem length_corner {labels : List String} (divides : layout.Divides)
    (length : labels.length = layout.arity) :
    (layout.corner labels).length = (labels.map String.length).sum + 1 := by
  have bound : layout.rowBits ≤ labels.length := by
    rw [length, ← divides.whole]
    exact Nat.le_add_right _ _
  have halves : (labels.map String.length).sum
      = ((labels.take layout.rowBits).map String.length).sum
        + ((labels.drop layout.rowBits).map String.length).sum := by
    rw [← List.sum_append, ← List.map_append, List.take_append_drop]
  rw [corner, labelsBetween, labelsBetween, if_pos bound, if_pos (Nat.le_of_eq length.symm),
    List.drop_zero, List.take_of_length_le (Nat.le_of_eq length), String.length_append,
    String.length_append, length_join, length_join, halves]
  exact Nat.add_right_comm _ 1 _

theorem length_header_le (linear : Bool) {bits place : Nat} (inside : place < Word.count bits) :
    (header linear bits place).length ≤ bits := by
  rw [header]
  split
  · exact Nat.zero_le bits
  next nonempty =>
    have within : (if linear then place else grayWord bits place) < Word.count bits := by
      split
      · exact inside
      · exact grayWord_lt inside
    exact Nat.le_of_eq (length_binary (Nat.pos_of_ne_zero nonempty) within)

/-- The first column is as wide as the corner. -/
theorem headerWidth_eq {labels : List String} (divides : layout.Divides)
    (fit : Label.Fit layout.arity labels) :
    layout.headerWidth labels = (labels.map String.length).sum + 1 := by
  rw [← length_corner divides fit.length_eq]
  refine Nat.le_antisymm ((widest_le_iff _ _).mpr ?_) (length_le_widest List.mem_cons_self)
  refine List.forall_mem_cons.mpr ⟨Nat.le_refl _, List.forall_mem_map.mpr fun row member => ?_⟩
  -- A header of a row has a digit for each of its variables, and each has a label of its own.
  have letters : (labels.map String.length).length ≤ (labels.map String.length).sum := by
    refine List.length_le_sum_of_one_le _ (List.forall_mem_map.mpr fun label member => ?_)
    rw [← String.length_toList]
    exact List.length_pos_iff.mpr (solid_of_isIdentifier (fit.identifier label member)).2
  rw [List.length_map, fit.length_eq] at letters
  calc (header layout.isLinear layout.rowBits row).length
      ≤ layout.rowBits := length_header_le _ (List.mem_range.mp member)
    _ ≤ layout.arity := by rw [← divides.whole]; exact Nat.le_add_right _ _
    _ ≤ (labels.map String.length).sum := letters
    _ ≤ (layout.corner labels).length := by
      rw [length_corner divides fit.length_eq]
      exact Nat.le_succ _

/-! ### Drawings of tables -/

theorem arity_ofVariables (arity : Nat) : (ofVariables arity).arity = arity := by
  unfold ofVariables
  split <;> rfl

theorem draw?_ofVariables_eq_none_iff (t : TruthTable) :
    (ofVariables t.arity).draw? t = none ↔ 65534 < (t.labels.map String.length).sum := by
  have width : (ofVariables t.arity).headerWidth t.labels = (t.labels.map String.length).sum + 1 :=
    headerWidth_eq (divides_ofVariables t.arity_le)
      ((arity_ofVariables t.arity).symm ▸ t.labels_fit)
  rw [draw?, width, ite_eq_right_iff]
  simp only [reduceCtorEq, imp_false, maxFieldWidth]
  omega

theorem eq_draw_of_draw? {drawing : String} (made : layout.draw? t = some drawing) :
    drawing = layout.draw t := by
  rw [draw?] at made
  split at made
  next => exact (Option.some.inj made).symm
  next => cases made

/-- Tables with the same labels and the same drawing are the same. -/
theorem eq_of_draw_eq {u : TruthTable} (labels : u.labels = t.labels)
    (same : (ofVariables t.arity).draw u = (ofVariables t.arity).draw t) : u = t := by
  let layout := ofVariables t.arity
  -- No line holds a newline, so equal drawings have equal lines, and each index has a cell there.
  have sameLines : layout.drawnLines u = layout.drawnLines t := by
    have texts := congrArg (fun text : String => text.toList.splitOn '\n') same
    simp only [toList_draw] at texts
    rw [splitOn_terminated (layout.drawn_drawnLines u).whole,
      splitOn_terminated (layout.drawn_drawnLines t).whole] at texts
    exact List.append_cancel_right texts
  have arity : u.arity = t.arity := by rw [← u.labels_fit.length_eq, labels, t.labels_fit.length_eq]
  refine TruthTable.ext_get arity labels fun index inside => ?_
  rw [arity, ← arity_ofVariables t.arity] at inside
  obtain ⟨row, column, -, -, -, held⟩ := (divides_ofVariables t.arity_le).exists_cell inside
  exact (layout.drawn_drawnLines t).value_eq (sameLines ▸ layout.drawn_drawnLines u) labels held

/-- The indices of a table and the cells of its layout belong to each other. There is a drawing
unless all labels together have more than 65534 characters, and the drawing shows the value at each
index. So no other table with the same labels has the same drawing. -/
theorem draw?_shows_values (t : TruthTable) :
    (ofVariables t.arity).PlacesEach (2 ^ t.arity)
    ∧ ((ofVariables t.arity).draw? t = none ↔ 65534 < (t.labels.map String.length).sum)
    ∧ (∀ drawing, (ofVariables t.arity).draw? t = some drawing →
      ∃ lines, drawing.toList = terminated lines ∧ (ofVariables t.arity).Drawn t lines)
    ∧ ∀ u drawing, u.labels = t.labels → u.values ≠ t.values →
      (ofVariables t.arity).draw? t = some drawing →
      (ofVariables t.arity).draw? u ≠ some drawing := by
  refine ⟨?places, draw?_ofVariables_eq_none_iff t, ?shows, ?differs⟩
  case places =>
    have places := (divides_ofVariables t.arity_le).placesEach
    rwa [arity_ofVariables] at places
  case shows =>
    intro drawing made
    rw [eq_draw_of_draw? made]
    exact ⟨_, toList_draw _ t, drawn_drawnLines _ t⟩
  case differs =>
    intro u drawing labels differ made again
    refine differ (congrArg TruthTable.values (eq_of_draw_eq labels ?_))
    rw [← eq_draw_of_draw? again, ← eq_draw_of_draw? made]

theorem fit_wide (width : Nat) (wide : 5 < width) :
    Label.Fit 1 [String.ofList (List.replicate width 'A')] where
  length_eq := rfl
  identifier := by
    obtain ⟨rest, rfl⟩ : ∃ rest, width = rest + 1 := ⟨width - 1, by omega⟩
    refine List.forall_mem_singleton.mpr ((Label.isIdentifier_iff _).mpr ?_)
    rw [Label.Spelled, String.toList_ofList]
    refine ⟨'A', List.replicate rest 'A', rfl, .inl ⟨by decide, by decide⟩, fun c member => ?_⟩
    rw [List.eq_of_mem_replicate member]
    exact .inl (.inl ⟨by decide, by decide⟩)
  not_reserved := by
    refine List.forall_mem_singleton.mpr fun member => ?_
    have short : ∀ name ∈ Label.reserved, name.length ≤ 5 := by decide
    have length := short _ member
    rw [String.length_ofList, List.length_replicate] at length
    omega
  nodup := List.nodup_singleton _

/-- A table of one variable whose label has 65535 characters is a table, and it has no drawing. -/
theorem draw?_of_wide_label : ∃ t u, TruthTable.zeros? 1 = .ok t
    ∧ t.withLabels [String.ofList (List.replicate 65535 'A')] = .ok u
    ∧ (ofVariables 1).draw? u = none := by
  obtain ⟨t, made, arity⟩ : ∃ t, TruthTable.zeros? 1 = .ok t ∧ t.arity = 1 := ⟨_, rfl, rfl⟩
  have fit := fit_wide 65535 (by decide)
  rw [← arity] at fit
  obtain ⟨u, taken⟩ : ∃ u, t.withLabels [String.ofList (List.replicate 65535 'A')] = .ok u :=
    ⟨_, TruthTable.withLabels_eq_ok fit⟩
  obtain ⟨-, sameArity, labels, -⟩ := (TruthTable.withLabels_eq_ok_iff u).mp taken
  refine ⟨t, u, made, taken, ?_⟩
  rw [← arity, ← sameArity, draw?_ofVariables_eq_none_iff, labels, List.map_singleton,
    List.sum_singleton, String.length_ofList, List.length_replicate]
  decide

end Karnaugh.Layout

end TwoLevel
