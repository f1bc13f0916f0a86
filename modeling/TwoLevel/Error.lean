import TwoLevel.Implicant.Text
import TwoLevel.Chart.Basic
import TwoLevel.Expr.Error
import TwoLevel.Table.Text

/-!
# Errors of a run

A run reads a table, minimizes it, checks the result and writes it out. Its error is the error of
the step that failed. Every error can also be passed on as a failure of input and output, for
callers who know only those.
-/
namespace TwoLevel

/-- Why a run failed. -/
inductive Error where
  | table (error : TableError)
  | cover (error : CoverError)
  | expression (error : Expr.ParseError)
  /-- An expression that was read back has other bits than the table. -/
  | verification (form : String) (rows : List Nat)
  | io (failure : IoFailure)
  deriving DecidableEq

namespace Error

def message : Error → String
  | table error => error.message
  | cover error => error.message
  | expression error => error.message
  | verification form rows =>
    form ++ " expression disagrees with the table at " ++ toString rows.length ++ " row(s): "
      ++ Text.listing rows
  | io failure => "I/O error: " ++ failure.text

/-- The wording of the error of the step that failed. -/
def cause? : Error → Option String
  | verification _ _ => none
  | io failure => some failure.text
  | error => some error.message

/-- An error of reading a table, as an error of the run. -/
def ofReadError : TableText.ReadError → Error
  | .table error => table error
  | .io failure => io failure

/-- An error as a failure: only a failure keeps its kind. -/
def toFailure : Error → IoFailure
  | io failure => failure
  | error => ⟨.other, error.message⟩

end Error

/-- A refusal of a table is about its data. -/
def TableError.toFailure (error : TableError) : IoFailure := ⟨.invalidData, error.message⟩

/-- The refusal or failure behind an error of reading. -/
def TableText.ReadError.toFailure : TableText.ReadError → IoFailure
  | .table error => error.toFailure
  | .io failure => failure

/-- The wording of the refusal or failure behind an error of reading. -/
def TableText.ReadError.cause (error : TableText.ReadError) : String := error.toFailure.text

/-- A refusal of a cover is not about data. -/
def CoverError.toFailure (error : CoverError) : IoFailure := ⟨.other, error.message⟩

/-- A refusal of an expression is about its data. -/
def Expr.ParseError.toFailure (error : Expr.ParseError) : IoFailure :=
  ⟨.invalidData, error.message⟩

/-- The wording of the refusal of the text itself. -/
def Expr.ParseError.cause? : Expr.ParseError → Option String
  | .syntactic error => some error.message
  | .unknownVariable _ => none

/-- A refusal of an implicant is about its data. -/
def Implicant.ParseError.toFailure (error : Implicant.ParseError) : IoFailure :=
  ⟨.invalidData, error.message⟩

end TwoLevel
