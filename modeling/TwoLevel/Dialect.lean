/-!
# Dialects

A dialect says how operators and constants are spelled. It changes the text of a cover and never the
function: the literals are fixed by the implicants.
-/
namespace TwoLevel

/-- The spelling of operators and constants. -/
structure Dialect where
  /-- Stands before a negated variable. -/
  negation : String
  /-- Stands between the literals of a product and between the clauses of a product of sums. -/
  conjunction : String
  /-- Stands between the literals of a clause and between the products of a sum of products. -/
  disjunction : String
  zero : String
  one : String
  /-- Whether a product of several literals is put in parentheses in a sum of several products. -/
  groupProducts : Bool
  deriving DecidableEq

namespace Dialect

/-- The spelling of textbooks: `~A & B + C`, with clauses `(A + ~B)`. -/
def human : Dialect where
  negation := "~"
  conjunction := " & "
  disjunction := " + "
  zero := "0"
  one := "1"
  groupProducts := false

/-- The spelling of expressions in program code: `(!A && B) || C`. -/
def code : Dialect where
  negation := "!"
  conjunction := " && "
  disjunction := " || "
  zero := "0"
  one := "1"
  groupProducts := true

/-- The spelling of a Verilog continuous assignment: `(~A & B) | C`. -/
def verilog : Dialect where
  negation := "~"
  conjunction := " & "
  disjunction := " | "
  zero := "0"
  one := "1"
  groupProducts := true

/-- A variable, bare or negated. -/
def literal (dialect : Dialect) (name : String) (positive : Bool) : String :=
  if positive then name else dialect.negation ++ name

end Dialect

end TwoLevel
