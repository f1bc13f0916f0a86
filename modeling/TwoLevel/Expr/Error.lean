import TwoLevel.Text.Quoted

/-!
# Refusals of expressions

A text is refused at the first place where it can no longer be continued to an expression. The
refusal names what could stand there.
-/
namespace TwoLevel.Expr

/-- Why a text is no expression. -/
inductive SyntaxError where
  /-- No token begins at a place. -/
  | invalidToken (input : String) (position : Nat)
  /-- A token that cannot stand at its place. -/
  | unexpectedToken (input token : String) (position : Nat) (expected : List String)
  /-- The text ends too early. -/
  | unexpectedEnd (input : String) (expected : List String)
  deriving DecidableEq

namespace SyntaxError

/-- The place of the refusal, counted in bytes; the end has none. -/
def position? : SyntaxError → Option Nat
  | invalidToken _ position => some position
  | unexpectedToken _ _ position _ => some position
  | unexpectedEnd _ _ => none

/-- The refused text. -/
def input : SyntaxError → String
  | invalidToken input _ => input
  | unexpectedToken input _ _ _ => input
  | unexpectedEnd input _ => input

/-- The part of the wording that lists what could stand at the place. -/
def expectedText (expected : List String) : String :=
  if expected.isEmpty then "" else ", expected one of " ++ String.intercalate " " expected

def message : SyntaxError → String
  | invalidToken input position =>
    "Invalid character at position " ++ toString position ++ " in expression " ++ Text.quoted input
  | unexpectedToken input token position expected =>
    "Unexpected " ++ Text.quoted token ++ " at position " ++ toString position ++ " in expression "
      ++ Text.quoted input ++ expectedText expected
  | unexpectedEnd input expected =>
    "Unexpected end of expression " ++ Text.quoted input ++ expectedText expected

end SyntaxError

/-- Why a text is no expression over given labels. -/
inductive ParseError where
  | syntactic (error : SyntaxError)
  /-- A variable that is no label. -/
  | unknownVariable (name : String)
  deriving DecidableEq

def ParseError.message : ParseError → String
  | .syntactic error => error.message
  | .unknownVariable name => "Unknown variable " ++ Text.quoted name ++ " in expression"

end TwoLevel.Expr
