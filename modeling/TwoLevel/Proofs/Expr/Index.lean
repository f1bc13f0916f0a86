import TwoLevel.Expr.Index

/-!
# Looking up labels within a word

As long as there are no more labels than a word has bits, each place that a label names is a place
of the word. So no lookup is without an answer, and evaluation on an index word gives the value at
the index.
-/
namespace TwoLevel.Expr

variable {labels : List String} (within : labels.length ≤ Word.size) (index : Nat)

include within

theorem bitOfName?_eq_some (name : String) :
    bitOfName? labels index name = some (bitOfName labels index name) := by
  rw [bitOfName?, bitOfName]
  cases found : labels.idxOf? name with
  | none => rfl
  | some position =>
    obtain ⟨inside, -⟩ := List.idxOf?_eq_some_iff.mp found
    exact Word.bit?_of_lt (by omega)

theorem evalAt?_eq_some (e : Expr) : e.evalAt? labels index = some (e.evalAt labels index) := by
  induction e with
  | var name => exact bitOfName?_eq_some within index name
  | const value => rfl
  | not operand ih => rw [evalAt?, ih, Option.map_some]; rfl
  | and left right left_ih right_ih =>
    rw [evalAt?, left_ih, right_ih, evalAt, evalAt, evalAt, eval]
    cases left.eval (bitOfName labels index) <;> rfl
  | or left right left_ih right_ih =>
    rw [evalAt?, left_ih, right_ih, evalAt, evalAt, evalAt, eval]
    cases left.eval (bitOfName labels index) <;> rfl

end TwoLevel.Expr
