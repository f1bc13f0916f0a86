import TwoLevel.Karnaugh.Layout
import TwoLevel.Table.Basic

/-!
# Drawing Karnaugh maps

The corner names the variables of the rows and of the columns, the first line and the first column
hold the headers, and each cell holds the symbol of its row of the table, at the right of its
column. Columns are filled up with blanks to a common width. The first one is as wide as the labels
are long, which may be wider than any field can be: then there is no drawing.
-/
namespace TwoLevel

namespace Text

/-- The width of the widest field that a text is padded to: a width has 16 bits. -/
def maxFieldWidth : Nat := 65535

/-- Blanks that fill a text up to a width. -/
def filler (width : Nat) (text : String) : String :=
  String.ofList (List.replicate (width - text.length) ' ')

/-- A text at the left of a field. -/
def padRight (width : Nat) (text : String) : String := text ++ filler width text

/-- A text at the right of a field. -/
def padLeft (width : Nat) (text : String) : String := filler width text ++ text

/-- The width of the widest of some texts. -/
def widest (texts : List String) : Nat := (texts.map String.length).foldl max 0

end Text

namespace Karnaugh.Layout

/-- The labels from one position up to another, run together; nothing if there are not so many. -/
def labelsBetween (labels : List String) (first last : Nat) : String :=
  if last ≤ labels.length then String.join ((labels.take last).drop first) else ""

/-- The names of the row variables and of the column variables. -/
def corner (layout : Layout) (labels : List String) : String :=
  labelsBetween labels 0 layout.rowBits ++ "\\"
    ++ labelsBetween labels layout.rowBits layout.arity

/-- One line of a drawing. -/
def line (headerWidth cellWidth : Nat) (header : String) (cells : List String) : String :=
  Text.padRight headerWidth header ++ " |"
    ++ String.join (cells.map fun cell => " " ++ Text.padLeft cellWidth cell) ++ "\n"

/-- The symbols of one row of a map. -/
def rowSymbols (layout : Layout) (t : TruthTable) (row : Nat) : List String :=
  (List.range layout.columns).map fun column =>
    ((((layout.indexAt? row column).map t.get).getD .zero).symbol).toString

/-- The width of the first column, which holds the corner and the headers of the rows. -/
def headerWidth (layout : Layout) (labels : List String) : Nat :=
  Text.widest (layout.corner labels :: layout.rowHeaders)

/-- The width of every other column. -/
def cellWidth (layout : Layout) : Nat := max 1 (Text.widest layout.columnHeaders)

/-- The drawing of a table on a layout. -/
def draw (layout : Layout) (t : TruthTable) : String :=
  let headerWidth := layout.headerWidth t.labels
  line headerWidth layout.cellWidth (layout.corner t.labels) layout.columnHeaders
    ++ String.join ((layout.rowHeaders.zipIdx).map fun (header, row) =>
      line headerWidth layout.cellWidth header (layout.rowSymbols t row))

/-- The drawing of a table: no answer if the first column is wider than a field may be. The other
columns are never wider than the headers of the largest table. -/
def draw? (layout : Layout) (t : TruthTable) : Option String :=
  if layout.headerWidth t.labels ≤ Text.maxFieldWidth then some (layout.draw t) else none

end Karnaugh.Layout

end TwoLevel
