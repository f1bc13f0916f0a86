import TwoLevel.IoFailure
import TwoLevel.Text.Lines
import TwoLevel.Table.Line
import TwoLevel.Table.Basic

/-!
# Tables as texts

Lines are read in order. A number of variables starts a table of zeros, whatever was read before; a
row sets its value in the table at hand; labels are kept until the end, where the last ones are
given to the table. The first line that cannot be followed ends the reading.

A table is written with its number of variables, its labels, a row for every index in order with the
index as a bit pattern, and the end directive.
-/
namespace TwoLevel.TableText

/-! ### Reading -/

/-- Why reading a table stopped. -/
inductive ReadError where
  | table (error : TableError)
  | io (failure : IoFailure)
  deriving DecidableEq

def ReadError.message : ReadError → String
  | .table error => error.message
  | .io failure => "IO error: " ++ failure.text

/-- What has been read so far. -/
structure Reading where
  table? : Option TruthTable := none
  labels? : Option (List String) := none

/-- The index that a key names: a bit pattern if it has one binary digit for each variable, and a
decimal number otherwise. -/
def indexOfKey? (arity : Nat) (key : List Char) : Option Nat :=
  if key.length = arity ∧ key.all (fun c => c == '0' || c == '1') then
    some (Text.valueOfDigits 2 key)
  else Text.readNumber? key

def setRow (t : TruthTable) (number : Nat) (key : List Char) :
    Option (List Char) → Except TableError TruthTable
  | none => .error (.missingValue number)
  | some value =>
    match indexOfKey? t.arity key with
    | none => .error (.invalidIndex number (String.ofList key))
    | some index => t.set index (Value.coerce (String.ofList value))

/-- Follows the line of a given number. -/
def Reading.follow (reading : Reading) (number : Nat) : Line → Except TableError Reading
  | .nothing => .ok reading
  | .finish => .ok reading
  | .labels names => .ok { reading with labels? := some (names.map String.ofList) }
  | .variableCount value =>
    match Text.readNumber? value with
    | none => .error (.invalidVariableDirective (String.ofList value))
    | some count => (TruthTable.zeros? count).map fun t => { reading with table? := some t }
  | .row key value =>
    match reading.table? with
    | none => .error .missingVariableDirective
    | some t => (setRow t number key value).map fun changed =>
        { reading with table? := some changed }

/-- Follows lines, of which the first has the given number, up to the end of the text. -/
def Reading.followAll (reading : Reading) (number : Nat) :
    List (Option (List Char)) → Except ReadError Reading
  | [] => .ok reading
  | none :: _ => .error (.io .notText)
  | some chars :: rest =>
    match Line.ofChars chars with
    | .finish => .ok reading
    | line =>
      match reading.follow number line with
      | .error error => .error (.table error)
      | .ok next => next.followAll (number + 1) rest

/-- The table that has been read, with its labels. -/
def Reading.finish (reading : Reading) : Except TableError TruthTable :=
  match reading.table? with
  | none => .error .missingVariableDirective
  | some t =>
    match reading.labels? with
    | none => .ok t
    | some labels => t.withLabels labels

def readLines (lines : List (Option (List Char))) : Except ReadError TruthTable :=
  match (Reading.mk none none).followAll 1 lines with
  | .error error => .error error
  | .ok reading =>
    match reading.finish with
    | .error error => .error (.table error)
    | .ok t => .ok t

def read (text : String) : Except ReadError TruthTable := readLines (Text.linesOfText text)

/-- Reads a table from the bytes of a file, or from the failure to get them. -/
def readContents (contents : Except IoFailure ByteArray) : Except ReadError TruthTable :=
  match contents with
  | .error failure => .error (.io failure)
  | .ok bytes => readLines (Text.linesOfBytes bytes)

/-! ### Writing -/

def rowText (t : TruthTable) (index : Nat) : String :=
  t.bitPattern index ++ " " ++ (t.get index).symbol.toString ++ "\n"

def labelText (labels : List String) : String :=
  ".ilb" ++ String.join (labels.map fun label => " " ++ label) ++ "\n"

def write (t : TruthTable) : String :=
  ".i " ++ toString t.arity ++ "\n" ++ labelText t.labels
    ++ String.join ((List.range t.size).map (rowText t)) ++ ".e\n"

end TwoLevel.TableText
