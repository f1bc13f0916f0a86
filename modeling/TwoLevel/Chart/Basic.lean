import TwoLevel.Ascending
import TwoLevel.Positions
import TwoLevel.Implicant.Coverage
import TwoLevel.Text.Number

/-!
# Covering charts

A chart sets a list of implicants against the terms that a cover has to include. Implicants and
terms are named by their positions: a row holds the positions of the terms that one implicant
covers, a column those of the implicants that cover one term. The required terms are ascending and
distinct, whatever list they came from.

A cover is a list of positions of implicants that leaves no term out. An implicant that is alone in
some column is essential: it is in every cover.
-/
namespace TwoLevel

/-- Implicants set against required terms. -/
structure Chart where
  primes : Array Implicant
  required : Array Nat
  sorted : required.toList.Pairwise (· < ·)
  rows : Array (List Nat) := primes.map fun p => positions required p.covers
  columns : Array (List Nat) := required.map fun term => positions primes fun p => p.covers term
  counts : Array Nat := columns.map List.length
  rows_eq : rows = primes.map fun p => positions required p.covers := by rfl
  columns_eq : columns = required.map fun term => positions primes fun p => p.covers term := by rfl
  counts_eq : counts = columns.map List.length := by rfl

/-- Why there is no cover. -/
inductive CoverError where
  /-- No implicant covers these terms. -/
  | unsolvable (uncovered : List Nat)
  deriving DecidableEq

def CoverError.message : CoverError → String
  | .unsolvable uncovered =>
    "No prime implicant covers minterm(s) " ++ Text.listing uncovered
      ++ "; the prime set is inconsistent with the required terms"

/-- What a cover costs: the number of its implicants and, between covers of one number, the number
of their literals. -/
structure Cost where
  count : Nat
  literals : Nat
  deriving DecidableEq

/-- Fewer implicants are cheaper, and of equally many those with fewer literals. -/
def Cost.cheaper (left right : Cost) : Bool :=
  left.count < right.count || (left.count == right.count && left.literals < right.literals)

namespace Chart

/-- The chart of a list of implicants and the set of terms in a list. -/
def ofTerms (primes : List Implicant) (required : List Nat) : Chart where
  primes := primes.toArray
  required := (ascending required).toArray
  sorted := by simpa using pairwise_ascending required

/-- The chart of term index words: no answer if a term has to be tested against a literal that lies
beyond the word. -/
def ofTerms? (primes : List Implicant) (required : List Nat) : Option Chart :=
  if required.isEmpty || primes.all Implicant.fitsWord then some (ofTerms primes required) else none

/-- The positions of the terms that the implicant at a position covers. -/
def row (chart : Chart) (p : Nat) : List Nat := chart.rows.getD p []

/-- The positions of the implicants that cover the term at a position. -/
def column (chart : Chart) (r : Nat) : List Nat := chart.columns.getD r []

/-- The terms that the implicant at a position covers; none beyond the last position. -/
def coveredBy (chart : Chart) (p : Nat) : List Nat :=
  (chart.row p).filterMap fun r => chart.required[r]?

/-- For each term the number of implicants that cover it. -/
def coverCounts (chart : Chart) : List Nat := chart.counts.toList

/-- The only member of a column that has one. -/
def onlyMember : List Nat → Option Nat
  | [only] => some only
  | _ => none

/-- The positions of the implicants that are alone in some column, in ascending order. -/
def essentials (chart : Chart) : List Nat :=
  ascending (chart.columns.toList.filterMap onlyMember)

/-- The terms that no implicant covers. -/
def orphans (chart : Chart) : List Nat :=
  (chart.required.toList.zip chart.columns.toList).filterMap fun (term, column) =>
    if column.isEmpty then some term else none

/-- Adds one to the hits of each term of a row. -/
def raise (hits : Array Nat) (row : List Nat) : Array Nat :=
  row.foldl (fun hits r => hits.modify r (· + 1)) hits

/-- Takes one from the hits of each term of a row. -/
def lower (hits : Array Nat) (row : List Nat) : Array Nat :=
  row.foldl (fun hits r => hits.modify r (· - 1)) hits

/-- For each term the number of selected implicants that cover it. -/
def hits (chart : Chart) (selected : List Nat) : Array Nat :=
  selected.foldl (fun hits p => raise hits (chart.row p)) (Array.replicate chart.required.size 0)

/-- The positions of the terms without a hit. -/
def uncovered (hits : Array Nat) : List Nat := positions hits (· == 0)

/-- The number of implicants selected and of the literals in them. -/
def cost (chart : Chart) (selected : List Nat) : Cost where
  count := selected.length
  literals := selected.foldr (fun p literals =>
    (chart.primes[p]?.map Implicant.literalCount).getD 0 + literals) 0

end Chart

end TwoLevel
