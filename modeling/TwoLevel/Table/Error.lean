/-!
# Refusals of tables

Why a table cannot be made, changed, labelled or read.
-/
namespace TwoLevel

/-- The largest number of variables of a table. -/
def maxVariables : Nat := 10

inductive LabelProblem where
  | notIdentifier
  | reserved
  | duplicate
  deriving DecidableEq

def LabelProblem.message : LabelProblem → String
  | .notIdentifier => "is not an identifier"
  | .reserved => "is a reserved name"
  | .duplicate => "is used twice"

/-- Why a table is refused. -/
inductive TableError where
  | invalidVariableCount (count : Nat)
  | missingVariableDirective
  | invalidVariableDirective (value : String)
  | labelCountMismatch (expected actual : Nat)
  | invalidLabel (label : String) (reason : LabelProblem)
  /-- The key on a line of a table text is neither a number nor a bit pattern. -/
  | invalidIndex (line : Nat) (value : String)
  | indexOutOfRange (index size : Nat)
  | missingValue (line : Nat)
  deriving DecidableEq

def TableError.message : TableError → String
  | .invalidVariableCount count =>
    "Invalid variable count " ++ toString count
      ++ " (supported range: 1..=" ++ toString maxVariables ++ ")"
  | .missingVariableDirective => "Truth table is missing the .i (variable count) directive"
  | .invalidVariableDirective value => "Invalid .i directive value '" ++ value ++ "'"
  | .labelCountMismatch expected actual =>
    "Expected " ++ toString expected ++ " variable labels but " ++ toString actual
      ++ " were provided"
  | .invalidLabel label reason => "Variable label '" ++ label ++ "' " ++ reason.message
  | .invalidIndex line value =>
    "Line " ++ toString line ++ ": '" ++ value ++ "' is neither a term index nor a bit pattern"
  | .indexOutOfRange index size =>
    "Term index " ++ toString index ++ " out of range (table has " ++ toString size ++ " rows)"
  | .missingValue line => "Line " ++ toString line ++ ": missing output value"

end TwoLevel
