import Std.Data.HashMap.Lemmas

/-!
# Boolean expressions

Expressions over named variables, their value under an assignment, and the names that occur in them.
-/
namespace TwoLevel

inductive Expr where
  | var (name : String)
  | const (value : Bool)
  | not (operand : Expr)
  | and (left right : Expr)
  | or (left right : Expr)
  deriving DecidableEq

namespace Expr

/-- The value under an assignment of the variables. -/
def eval (assignment : String → Bool) : Expr → Bool
  | var name => assignment name
  | const value => value
  | not operand => !operand.eval assignment
  | and left right => left.eval assignment && right.eval assignment
  | or left right => left.eval assignment || right.eval assignment

/-- The value under a map that gives values to some names; the other names are false. -/
def evalUnder (values : Std.HashMap String Bool) (e : Expr) : Bool :=
  e.eval fun name => values.getD name false

/-- The value of an expression that is a constant. -/
def constant? : Expr → Option Bool
  | const value => some value
  | _ => none

/-- Puts a name into an ascending list of names, unless it is there. -/
def insertName (name : String) : List String → List String
  | [] => [name]
  | first :: rest =>
    if name < first then name :: first :: rest
    else if name = first then first :: rest
    else first :: insertName name rest

/-- Adds the names that occur in an expression to an ascending list of names. -/
def collectNames : Expr → List String → List String
  | var name, known => insertName name known
  | const _, known => known
  | not operand, known => operand.collectNames known
  | and left right, known => right.collectNames (left.collectNames known)
  | or left right, known => right.collectNames (left.collectNames known)

/-- The names that occur in an expression, each once, in the order of their characters' codes. -/
def names (e : Expr) : List String := e.collectNames []

end Expr

end TwoLevel
