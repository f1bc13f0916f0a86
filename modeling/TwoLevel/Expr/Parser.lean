import TwoLevel.Expr.Basic
import TwoLevel.Expr.Token
import TwoLevel.Expr.Error

/-!
# Reading expressions

Negation binds tighter than conjunction, and conjunction tighter than disjunction; chains of the two
associate to the left, and parentheses leave no trace. Tokens are taken in one pass. Between two
tokens either an operand is wanted or one is complete, and what stands before it inside the current
parentheses is a sum, a product and a number of negation signs, each of which may be missing.
-/
namespace TwoLevel.Expr

/-- What stands before an operand inside one pair of parentheses. -/
structure Pending where
  /-- The sum of the products that are complete. -/
  sum? : Option Expr
  /-- The product of the factors that are complete. -/
  product? : Option Expr
  /-- The number of negation signs directly before the operand. -/
  negations : Nat
  deriving DecidableEq

/-- What has been read: the surrounding parentheses are listed from the innermost on. -/
inductive Reading where
  /-- An operand is wanted. -/
  | wanting (pending : Pending) (outer : List Pending)
  /-- The last factor of a product is complete. -/
  | complete (sum? : Option Expr) (product : Expr) (outer : List Pending)
  deriving DecidableEq

namespace Pending

/-- Nothing stands before the operand. -/
def nothing : Pending := ⟨none, none, 0⟩

end Pending

/-- An expression under a number of negation signs. -/
def negate : Nat → Expr → Expr
  | 0, e => e
  | count + 1, e => not (negate count e)

/-- Joins an expression to what may stand before it. -/
def joinTo (join : Expr → Expr → Expr) : Option Expr → Expr → Expr
  | none, right => right
  | some left, right => join left right

namespace Reading

/-- Before the first token. -/
def start : Reading := wanting .nothing []

/-- The operand that was wanted. -/
def operand (pending : Pending) (outer : List Pending) (e : Expr) : Reading :=
  complete pending.sum? (joinTo and pending.product? (negate pending.negations e)) outer

/-- Takes a token, if it can stand here. -/
def take? : Reading → Token → Option Reading
  | wanting pending outer, token =>
    match token with
    | .not => some (wanting { pending with negations := pending.negations + 1 } outer)
    | .opening => some (wanting .nothing (pending :: outer))
    | .constant value => some (operand pending outer (const value))
    | .name name => some (operand pending outer (var name))
    | _ => none
  | complete sum? product outer, token =>
    match token with
    | .and => some (wanting ⟨sum?, some product, 0⟩ outer)
    | .or => some (wanting ⟨some (joinTo or sum? product), none, 0⟩ outer)
    | .closing =>
      match outer with
      | [] => none
      | pending :: further => some (operand pending further (joinTo or sum? product))
    | _ => none

/-- The expression, if the text can end here. -/
def finish? : Reading → Option Expr
  | complete sum? product [] => some (joinTo or sum? product)
  | _ => none

/-- The tokens that begin an operand, as messages list them. -/
def operandStarts : List String :=
  ["\"!\"", "\"(\"", "\"0\"", "\"1\"", "\"false\"", "\"true\"", "\"~\"", "IDENT"]

/-- What can stand in the place of a token that was refused. After a complete operand a closing
parenthesis completes the product before it is itself refused, so only sums are continued then. -/
def expectedFor : Reading → Token → List String
  | wanting _ _, _ => operandStarts
  | complete _ _ _, .closing => ["\"+\"", "\"|\"", "\"||\""]
  | complete _ _ [], _ => ["\"&\"", "\"&&\"", "\"*\"", "\"+\"", "\"|\"", "\"||\""]
  | complete _ _ (_ :: _), _ =>
    ["\"&\"", "\"&&\"", "\")\"", "\"*\"", "\"+\"", "\"|\"", "\"||\""]

/-- What can stand in the place of the end. -/
def expectedAtEnd : Reading → List String
  | wanting _ _ => operandStarts
  | complete _ _ _ => ["\")\"", "\"+\"", "\"|\"", "\"||\""]

/-- Takes tokens up to the first one that is refused. -/
def takeAll (reading : Reading) : List Lexeme → Except (Reading × Lexeme) Reading
  | [] => .ok reading
  | lexeme :: rest =>
    match reading.take? lexeme.token with
    | some next => next.takeAll rest
    | none => .error (reading, lexeme)

end Reading

/-- Reads the expression that tokens spell; the text they were cut from is shown in a refusal. -/
def ofLexemes (text : String) (lexemes : Lexemes) : Except SyntaxError Expr :=
  match Reading.start.takeAll lexemes.found with
  | .error (reading, lexeme) =>
    .error (.unexpectedToken text (String.ofList lexeme.spelling) lexeme.position
      (reading.expectedFor lexeme.token))
  | .ok reading =>
    match lexemes.invalidAt with
    | some position => .error (.invalidToken text position)
    | none =>
      match reading.finish? with
      | some e => .ok e
      | none => .error (.unexpectedEnd text reading.expectedAtEnd)

def parse (text : String) : Except SyntaxError Expr := ofLexemes text (lexemes 0 text.toList)

/-- Reads an expression whose variables are all among the labels. Of the unknown ones the refusal
names the first in the order of names. -/
def parseOver (text : String) (labels : List String) : Except ParseError Expr :=
  match parse text with
  | .error error => .error (.syntactic error)
  | .ok e =>
    match e.names.find? fun name => !labels.contains name with
    | some name => .error (.unknownVariable name)
    | none => .ok e

end TwoLevel.Expr
