import TwoLevel.Label
import TwoLevel.Implicant.Basic
import TwoLevel.Expr.Basic

/-!
# Expressions of covers

A product becomes the conjunction of its literals, a cover of the ones of a function the disjunction
of its products, and a cover of its zeros the conjunction of the complements of its products. Chains
of one operator associate to the left.
-/
namespace TwoLevel.Expr

/-- Joins operands from left to right; without an operand the chain is a constant. -/
def chain (join : Expr → Expr → Expr) (unit : Bool) : List Expr → Expr
  | [] => const unit
  | first :: rest => rest.foldl join first

/-- A variable, bare or negated. -/
def literal (name : String) (positive : Bool) : Expr :=
  if positive then var name else not (var name)

/-- The conjunction of the literals of an implicant. -/
def ofProduct (labels : List String) (p : Implicant) : Expr :=
  chain and true (p.literals.map fun (position, positive) =>
    literal (Label.atPosition labels position) positive)

/-- The disjunction of the literals of an implicant with opposite polarity. -/
def ofClause (labels : List String) (p : Implicant) : Expr :=
  chain or false (p.literals.map fun (position, positive) =>
    literal (Label.atPosition labels position) (!positive))

/-- The disjunction of the products of a cover of the ones. -/
def ofSumOfProducts (cover : List Implicant) (labels : List String) : Expr :=
  chain or false (cover.map (ofProduct labels))

/-- The conjunction of the clauses of a cover of the zeros. -/
def ofProductOfSums (cover : List Implicant) (labels : List String) : Expr :=
  chain and true (cover.map (ofClause labels))

end TwoLevel.Expr
