import TwoLevel.Word
import TwoLevel.Text.Number
import TwoLevel.Table.Error

/-!
# Karnaugh maps

A Karnaugh map places the term indices on a grid. The variables of high order select the row and
those of low order the column, each through a Gray code, so that neighbours differ in one variable.
Up to five variables are laid out in this way; for more there is a single row in the order of the
indices, never longer than that of the largest table.

The Gray code of a number of bits is the reflected one. It runs through all words of that many bits
and changes one bit at each step: the code of one bit less, and then the same backwards with the new
bit set.
-/
namespace TwoLevel.Karnaugh

/-! ### Gray codes -/

/-- The words of a number of bits in the order of the Gray code. -/
def gray : Nat → List Nat
  | 0 => [0]
  | bits + 1 => gray bits ++ (gray bits).reverse.map (Word.count bits + ·)

/-- The word at a place of the code; 0 beyond the end. -/
def grayWord (bits place : Nat) : Nat := (gray bits).getD place 0

/-- The place of a word in the code; 0 if the word has more bits. -/
def grayPlace (bits word : Nat) : Nat := ((gray bits).idxOf? word).getD 0

@[simp] theorem length_gray (bits : Nat) : (gray bits).length = Word.count bits := by
  induction bits with
  | zero => rfl
  | succ bits ih =>
    simp only [gray, List.length_append, List.length_map, List.length_reverse, ih, Word.count_succ]
    omega

/-! ### Layouts -/

/-- The most variables that are laid out by Gray codes. -/
def maxGrayVariables : Nat := 5

/-- How the variables of a map are divided. -/
structure Layout where
  arity : Nat
  rowBits : Nat
  columnBits : Nat
  deriving DecidableEq

namespace Layout

/-- The layout of a number of variables. -/
def ofVariables (arity : Nat) : Layout :=
  if arity ≤ maxGrayVariables then ⟨arity, arity / 2, arity - arity / 2⟩
  else ⟨arity, 0, min arity maxVariables⟩

/-- Whether the map is a single row in the order of the indices. -/
def isLinear (layout : Layout) : Bool := maxGrayVariables < layout.arity

def rows (layout : Layout) : Nat := Word.count layout.rowBits

/-- The number of columns. -/
def columns (layout : Layout) : Nat := Word.count layout.columnBits

/-- The row and the column of an index. -/
def coordinates (layout : Layout) (index : Nat) : Nat × Nat :=
  if layout.isLinear then (0, index)
  else
    (grayPlace layout.rowBits (index / layout.columns),
      grayPlace layout.columnBits (index % layout.columns))

/-- The index at a row and a column of the grid. -/
def indexAt? (layout : Layout) (row column : Nat) : Option Nat :=
  if row < layout.rows ∧ column < layout.columns then
    if layout.isLinear then some column
    else some (grayWord layout.rowBits row * layout.columns + grayWord layout.columnBits column)
  else none

/-- The indices of one row, from left to right. -/
def rowIndices (layout : Layout) (row : Nat) : List Nat :=
  (List.range layout.columns).filterMap (layout.indexAt? row)

/-- The indices of the grid, row by row. -/
def grid (layout : Layout) : List (List Nat) := (List.range layout.rows).map layout.rowIndices

/-- The header of a line of the grid: the bits that select it. -/
def header (linear : Bool) (bits place : Nat) : String :=
  if bits = 0 then "" else Text.binary bits (if linear then place else grayWord bits place)

/-- The headers of the rows. -/
def rowHeaders (layout : Layout) : List String :=
  (List.range layout.rows).map (header layout.isLinear layout.rowBits)

/-- The headers of the columns. -/
def columnHeaders (layout : Layout) : List String :=
  (List.range layout.columns).map (header layout.isLinear layout.columnBits)

end Layout

end TwoLevel.Karnaugh
