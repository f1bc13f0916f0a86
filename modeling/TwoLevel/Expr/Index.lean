import TwoLevel.Word
import TwoLevel.Expr.Basic

/-!
# Expressions at term indices

A label list binds its names to the bits of a term index, the last label to the place of value 1.
The first of several equal labels binds the name, and a name that is no label is false. `evalAt` is
the value for all natural numbers; `evalAt?` is the evaluation as it runs on an index word, which
has no answer if it comes to look up a label beyond the word.
-/
namespace TwoLevel.Expr

/-- The bit that a label list binds to a name. -/
def bitOfName (labels : List String) (index : Nat) (name : String) : Bool :=
  match labels.idxOf? name with
  | none => false
  | some position => index.testBit (labels.length - 1 - position)

/-- The value at a term index. -/
def evalAt (labels : List String) (index : Nat) (e : Expr) : Bool := e.eval (bitOfName labels index)

/-- The bit that a label list binds to a name in an index word. -/
def bitOfName? (labels : List String) (index : Nat) (name : String) : Option Bool :=
  match labels.idxOf? name with
  | none => some false
  | some position => Word.bit? index (labels.length - 1 - position)

/-- The value at an index word. The right operand of a conjunction or disjunction is evaluated only
if the left one does not decide it. -/
def evalAt? (labels : List String) (index : Nat) : Expr → Option Bool
  | var name => bitOfName? labels index name
  | const value => some value
  | not operand => (operand.evalAt? labels index).map (!·)
  | and left right => do
    if ← left.evalAt? labels index then right.evalAt? labels index else return false
  | or left right => do
    if ← left.evalAt? labels index then return true else right.evalAt? labels index

/-- The values at all indices over a label list, index 0 first. There is no answer if the number of
indices is not itself a word. -/
def truthVector? (e : Expr) (labels : List String) : Option (List Bool) :=
  if labels.length < Word.size then
    (List.range (Word.count labels.length)).mapM (e.evalAt? labels)
  else none

/-- Whether two expressions have the same value at every index over the names that occur in them,
compared as truth vectors. -/
def equivalent? (left right : Expr) : Option Bool := do
  let names := right.collectNames left.names
  let lefts ← left.truthVector? names
  let rights ← right.truthVector? names
  return lefts == rights

end TwoLevel.Expr
