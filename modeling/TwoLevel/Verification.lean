import TwoLevel.Minimization
import TwoLevel.Error
import TwoLevel.Expr.Index
import TwoLevel.Expr.Parser

/-!
# Verification

A finished minimization is checked as a reader sees it: each text of its covers is read back over
the labels of the table, and the expression must have the bit of every specified row.
-/
namespace TwoLevel

/-- The specified rows of a table at which an expression has another bit, in ascending order. -/
def Expr.disagreements (e : Expr) (t : TruthTable) : List Nat :=
  t.disagreements fun index => e.evalAt t.labels index

namespace Minimization

/-- The texts that are checked, with their names. -/
def forms (m : Minimization) : List (String × String) :=
  [("SOP", m.sumOfProducts .human), ("code SOP", m.sumOfProducts .code),
    ("Verilog SOP", m.sumOfProducts .verilog)]
    ++ ((m.productOfSums? .human).map fun text => ("POS", text)).toList

/-- Checks one text against the table. -/
def verifyForm (m : Minimization) (form : String × String) : Except Error Unit :=
  match Expr.parseOver form.2 m.labels with
  | .error error => .error (.expression error)
  | .ok e =>
    let rows := e.disagreements m.table
    if rows.isEmpty then .ok () else .error (.verification form.1 rows)

/-- Checks every text, up to the first that fails. -/
def verify (m : Minimization) : Except Error Unit := m.forms.forM m.verifyForm

end Minimization

end TwoLevel
