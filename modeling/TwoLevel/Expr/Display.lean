import TwoLevel.Expr.Basic

/-!
# The text of an expression

An expression is written with `~`, `*` and `+`, with parentheses only where the surrounding operator
binds tighter: a product inside a negation, a sum inside a negation or a product.
-/
namespace TwoLevel.Expr

/-- The operator of which an expression is an operand. -/
inductive Surrounding where
  | nothing
  | sum
  | product
  | negation
  deriving DecidableEq

/-- Puts a text in parentheses if a condition holds. -/
def parenthesized (needed : Bool) (text : String) : String :=
  if needed then "(" ++ text ++ ")" else text

/-- The text of an expression as an operand. -/
def textIn (surrounding : Surrounding) : Expr → String
  | var name => name
  | const value => if value then "1" else "0"
  | not operand => "~" ++ operand.textIn .negation
  | and left right =>
    parenthesized (surrounding == .negation)
      (left.textIn .product ++ " * " ++ right.textIn .product)
  | or left right =>
    parenthesized (surrounding == .negation || surrounding == .product)
      (left.textIn .sum ++ " + " ++ right.textIn .sum)

/-- The text of an expression that stands alone. -/
def toText (e : Expr) : String := e.textIn .nothing

end TwoLevel.Expr
