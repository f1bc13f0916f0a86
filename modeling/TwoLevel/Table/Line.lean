import TwoLevel.Text.Blank

/-!
# Lines of a table text

A table text consists of directives, which begin with a point, and of rows. The directive `.i` gives
the number of variables, `.ilb` names them, and `.e` or `.end` ends the text. A row gives a value to
the index that its key names. Blank lines, comments after `#` and other directives say nothing.
-/
namespace TwoLevel.TableText

/-- What a line says. -/
inductive Line where
  | nothing
  /-- The number of variables, as it is written. -/
  | variableCount (value : List Char)
  | labels (names : List (List Char))
  | finish
  /-- A key and, if there is a second field, the symbol of a value. -/
  | row (key : List Char) (value : Option (List Char))
  deriving DecidableEq

/-- A directive, read after the point. -/
def Line.ofDirective (directive : List Char) : Line :=
  match Text.fields directive with
  | [] => .nothing
  | name :: arguments =>
    if name = ['i'] then .variableCount (arguments.headD [])
    else if name = ['i', 'l', 'b'] then .labels arguments
    else if name = ['e'] ∨ name = ['e', 'n', 'd'] then .finish
    else .nothing

/-- A row: its first two fields. -/
def Line.ofRow (chars : List Char) : Line :=
  match Text.fields chars with
  | [] => .nothing
  | [key] => .row key none
  | key :: value :: _ => .row key (some value)

/-- What the characters of a line say. -/
def Line.ofChars (chars : List Char) : Line :=
  match Text.trimmed chars with
  | [] => .nothing
  | first :: rest =>
    if first = '#' then .nothing
    else if first = '.' then .ofDirective rest
    else .ofRow (first :: rest)

end TwoLevel.TableText
