import TwoLevel.Primes
import TwoLevel.Chart.Exact
import TwoLevel.Cover.Text
import TwoLevel.Table.Basic

/-!
# Minimization

The minimum of a table is found by setting the prime implicants of its minterms and don't-cares
against its minterms and choosing a cover. The product of sums comes from the same steps with the
zeros in the place of the minterms.
-/
namespace TwoLevel

/-- The prime implicants of the required and the free terms, and the positions of those among them
that cover the required ones. -/
def primeCover (required free : List Nat) (arity : Nat) (settings : Settings) :
    Except CoverError (ImplicantSet × List Nat) :=
  let found := primes (required ++ free) arity
  ((Chart.ofTerms found.toList required).solve settings).map fun selected => (found, selected)

/-- The members of a set at the given positions. -/
def ImplicantSet.select (set : ImplicantSet) (selected : List Nat) : List Implicant :=
  selected.filterMap set.get?

/-- A cover of the required terms by prime implicants that cover no term beyond them but free
ones. -/
def minimizeTerms (required free : List Nat) (arity : Nat) (settings : Settings) :
    Except CoverError (List Implicant) :=
  (primeCover required free arity settings).map fun (found, selected) => found.select selected

/-- The cover of term index words: no answer for a term with more variables than a word has bits. -/
def minimizeTerms? (required free : List Nat) (arity : Nat) (settings : Settings) :
    Option (Except CoverError (List Implicant)) :=
  if (required ++ free).isEmpty || arity ≤ Word.size then
    some (minimizeTerms required free arity settings)
  else none

structure Minimization where
  table : TruthTable
  /-- The prime implicants of the minterms and don't-cares. -/
  primes : ImplicantSet
  /-- The cover of the minterms, whose sum of products is the function. -/
  products : List Implicant
  /-- The cover of the zeros, whose product of sums is the function, if it was derived. -/
  clauses? : Option (List Implicant)

namespace Minimization

/-- The cover of the zeros, if the settings ask for it. -/
def clauseCover? (t : TruthTable) (settings : Settings) :
    Except CoverError (Option (List Implicant)) :=
  if settings.productOfSums then
    (minimizeTerms t.zeros t.dontCares t.arity settings).map some
  else .ok none

def ofTable (t : TruthTable) (settings : Settings) : Except CoverError Minimization := do
  let (found, selected) ← primeCover t.minterms t.dontCares t.arity settings
  let clauses? ← clauseCover? t settings
  return { table := t, primes := found, products := found.select selected, clauses? }

/-- The labels of the variables. -/
def labels (m : Minimization) : List String := m.table.labels

/-- The sum of products in a dialect. -/
def sumOfProducts (m : Minimization) (dialect : Dialect) : String :=
  Cover.sumOfProducts m.products m.labels dialect

/-- The product of sums in a dialect, if it was derived. -/
def productOfSums? (m : Minimization) (dialect : Dialect) : Option String :=
  m.clauses?.map fun cover => Cover.productOfSums cover m.labels dialect

/-- The number of literals in the sum of products. -/
def literalCount (m : Minimization) : Nat :=
  m.products.foldr (fun p literals => p.literalCount + literals) 0

/-- The value of the sum of products at an index. -/
def evaluate (m : Minimization) (index : Nat) : Bool := m.products.any fun p => p.covers index

/-- The value of the product of sums at an index, if it was derived. -/
def evaluateClauses? (m : Minimization) (index : Nat) : Option Bool :=
  m.clauses?.map fun cover => !cover.any fun p => p.covers index

/-- The bit that the table prescribes at an index or, for a don't-care, the bit that the sum of
products has there. -/
def expected (m : Minimization) (index : Nat) : Bool :=
  ((m.table.get index).bit?).getD (m.evaluate index)

/-- The specified rows at which the sum of products has another bit than the table. -/
def mismatches (m : Minimization) : List Nat := m.table.disagreements m.evaluate

end Minimization

end TwoLevel
