import TwoLevel.Dialect
import TwoLevel.Label
import TwoLevel.Implicant.Basic

/-!
# The text of a cover

A cover of the ones of a function is written as a sum of products. A cover of its zeros is written
as a product of sums: by De Morgan's law each implicant becomes a clause in which every literal has
the opposite polarity.
-/
namespace TwoLevel

namespace Implicant

/-- The product of the literals; the constant one if there is none. -/
def productText (p : Implicant) (labels : List String) (dialect : Dialect) : String :=
  if p.literals.isEmpty then dialect.one
  else
    String.intercalate dialect.conjunction (p.literals.map fun (position, positive) =>
      dialect.literal (Label.atPosition labels position) positive)

/-- The clause of the complement, in parentheses; the constant zero if there is no literal. -/
def clauseText (p : Implicant) (labels : List String) (dialect : Dialect) : String :=
  if p.literals.isEmpty then dialect.zero
  else
    "(" ++ String.intercalate dialect.disjunction (p.literals.map fun (position, positive) =>
      dialect.literal (Label.atPosition labels position) (!positive)) ++ ")"

end Implicant

namespace Cover

/-- A product as it stands in a sum: in parentheses if it is grouped and has several literals. -/
def summandText (grouped : Bool) (labels : List String) (dialect : Dialect)
    (p : Implicant) : String :=
  if grouped && 1 < p.literalCount then "(" ++ p.productText labels dialect ++ ")"
  else p.productText labels dialect

/-- The sum of the products of a cover; the constant zero if it is empty. -/
def sumOfProducts (cover : List Implicant) (labels : List String) (dialect : Dialect) : String :=
  if cover.isEmpty then dialect.zero
  else
    String.intercalate dialect.disjunction
      (cover.map (summandText (dialect.groupProducts && 1 < cover.length) labels dialect))

/-- The product of the clauses of a cover of the zeros; the constant one if it is empty. -/
def productOfSums (cover : List Implicant) (labels : List String) (dialect : Dialect) : String :=
  if cover.isEmpty then dialect.one
  else String.intercalate dialect.conjunction (cover.map fun p => p.clauseText labels dialect)

end Cover

end TwoLevel
