import TwoLevel.Text.Blank

/-!
# Table values

A row of a table holds 0, 1 or a don't-care, which a minimization may set to either. A symbol that
is none of the known ones counts as 0.
-/
namespace TwoLevel

/-- The entry of a row. -/
inductive Value where
  | zero
  | one
  | dontCare
  deriving DecidableEq, Inhabited

namespace Value

/-- The value of a known symbol, blanks around it aside. -/
def ofSymbol? (symbol : String) : Option Value :=
  match Text.trimmed symbol.toList with
  | ['0'] => some zero
  | ['1'] => some one
  | ['x'] => some dontCare
  | ['X'] => some dontCare
  | ['-'] => some dontCare
  | ['2'] => some dontCare
  | _ => none

/-- The value of a symbol; an unknown one counts as 0. -/
def coerce (symbol : String) : Value := (ofSymbol? symbol).getD zero

/-- The bit that a value prescribes; a don't-care prescribes none. -/
def bit? : Value → Option Bool
  | zero => some false
  | one => some true
  | dontCare => none

/-- The value that prescribes a bit. -/
def ofBit : Bool → Value
  | false => zero
  | true => one

def symbol : Value → Char
  | zero => '0'
  | one => '1'
  | dontCare => 'x'

end Value

end TwoLevel
