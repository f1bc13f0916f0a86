/-!
# Labels

A label names a variable. The label list of a function names its variables from the most significant
on; a position beyond the list is written as a question mark.
-/
namespace TwoLevel.Label

/-- A letter of the Latin alphabet or an underscore. -/
def isStart (c : Char) : Bool := c.isAlpha || c == '_'

/-- A letter, a decimal digit or an underscore. -/
def isPart (c : Char) : Bool := c.isAlphanum || c == '_'

/-- An identifier is a letter or underscore followed by letters, digits and underscores. -/
def isIdentifier (label : String) : Bool :=
  match label.toList with
  | [] => false
  | first :: rest => isStart first && rest.all isPart

/-- The label of a position. -/
def atPosition (labels : List String) (position : Nat) : String := labels.getD position "?"

theorem atPosition_eq_getElem {labels : List String} {position : Nat}
    (inside : position < labels.length) : atPosition labels position = labels[position] := by
  simp [atPosition, inside]

end TwoLevel.Label
