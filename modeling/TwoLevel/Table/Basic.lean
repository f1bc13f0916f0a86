import TwoLevel.Positions
import TwoLevel.Text.Number
import TwoLevel.Table.Value
import TwoLevel.Table.Labels

/-!
# Truth tables

A table gives a value to each term index over one to ten labelled variables. The fields say that it
has a row for each index and a label for each variable, and that its labels can be read back.
-/
namespace TwoLevel

/-- The values of a function at all term indices. -/
structure TruthTable where
  arity : Nat
  labels : List String
  values : Array Value
  one_le_arity : 1 ≤ arity
  arity_le : arity ≤ maxVariables
  labels_fit : Label.Fit arity labels
  size_values : values.size = Word.count arity
  deriving DecidableEq

namespace TruthTable

/-- The table of zeros over a number of variables, with the default labels. -/
def zeros? (arity : Nat) : Except TableError TruthTable :=
  if bounds : 1 ≤ arity ∧ arity ≤ maxVariables then
    .ok
      { arity
        labels := Label.defaults arity
        values := Array.replicate (Word.count arity) .zero
        one_le_arity := bounds.1
        arity_le := bounds.2
        labels_fit := Label.defaults_fit bounds.2
        size_values := by simp }
  else .error (.invalidVariableCount arity)

def size (t : TruthTable) : Nat := t.values.size

/-- The value at an index; an index that the table does not have reads as 0. -/
def get (t : TruthTable) (index : Nat) : Value := t.values.getD index .zero

def set (t : TruthTable) (index : Nat) (value : Value) : Except TableError TruthTable :=
  if inside : index < t.values.size then
    .ok { t with values := t.values.set index value inside, size_values := by simp [t.size_values] }
  else .error (.indexOutOfRange index t.size)

def clear (t : TruthTable) : TruthTable :=
  { t with values := Array.replicate (Word.count t.arity) .zero, size_values := by simp }

/-- Gives the first rows the listed values. Values beyond the last row are ignored. -/
def fill (t : TruthTable) (values : List Value) : TruthTable :=
  { t with
    values := Array.ofFn fun row : Fin (Word.count t.arity) => values.getD row (t.get row)
    size_values := by simp }

/-- The table with the listed values from row 0 on. Rows without a value are 0. -/
def ofValues (arity : Nat) (values : List Value) : Except TableError TruthTable :=
  (zeros? arity).map fun t => t.fill values

/-- Writes a cell into its row; a cell for an index that the table does not have is ignored. -/
def setCell (t : TruthTable) (cell : Nat × String) : TruthTable :=
  match t.set cell.1 (Value.coerce cell.2) with
  | .ok changed => changed
  | .error _ => t

/-- The table with the given cells, of which a later one replaces an earlier one. -/
def ofCells (arity : Nat) (cells : List (Nat × String)) : Except TableError TruthTable :=
  (zeros? arity).map fun t => cells.foldl setCell t

def withLabels (t : TruthTable) (labels : List String) : Except TableError TruthTable :=
  if count : labels.length = t.arity then
    match sound : Label.firstProblem? [] labels with
    | some (label, problem) => .error (.invalidLabel label problem)
    | none =>
      .ok
        { t with
          labels := labels
          labels_fit :=
            have facts := (Label.firstProblem?_eq_none_iff [] labels).mp sound
            ⟨count, facts.1, facts.2.1, facts.2.2.1⟩ }
  else .error (.labelCountMismatch t.arity labels.length)

/-- The rows that hold a value, in ascending order. -/
def indicesOf (t : TruthTable) (value : Value) : List Nat := positions t.values (· == value)

def minterms (t : TruthTable) : List Nat := t.indicesOf .one

def dontCares (t : TruthTable) : List Nat := t.indicesOf .dontCare

def zeros (t : TruthTable) : List Nat := t.indicesOf .zero

/-- The bit pattern of an index, with a digit for each variable at least. -/
def bitPattern (t : TruthTable) (index : Nat) : String := Text.binary t.arity index

/-- The specified rows at which a function has another bit, in ascending order. -/
def disagreements (t : TruthTable) (function : Nat → Bool) : List Nat :=
  (List.range t.size).filter fun index =>
    match (t.get index).bit? with
    | some bit => bit != function index
    | none => false

end TruthTable

end TwoLevel
