import TwoLevel.Word

/-!
# Numbers in texts

Counts and term indices are read as decimal numbers of at most 64 bits, with an optional plus sign.
Row keys are written as binary numbers of a fixed least width. A message shows a list of numbers
between brackets, separated by a comma and a blank.
-/
namespace TwoLevel.Text

/-- One more than the largest number that is read. -/
def numberBound : Nat := Word.count 64

def digitValue (c : Char) : Nat := c.toNat - '0'.toNat

/-- The value of a row of digits to a base, the most significant first. -/
def valueOfDigits (base : Nat) (digits : List Char) : Nat :=
  digits.foldl (fun value c => value * base + digitValue c) 0

/-- A row of digits without the plus sign that may stand before it. -/
def unsigned : List Char → List Char
  | '+' :: digits => digits
  | digits => digits

/-- Reads a decimal number below the bound: at least one digit, and nothing but digits. -/
def readNumber? (chars : List Char) : Option Nat :=
  let digits := unsigned chars
  if digits.isEmpty || !digits.all Char.isDigit then none
  else
    let value := valueOfDigits 10 digits
    if value < numberBound then some value else none

/-- A number in binary, filled up with zeros from the left to a least width. -/
def binary (width number : Nat) : String :=
  let digits := Nat.toDigits 2 number
  String.ofList (List.replicate (width - digits.length) '0' ++ digits)

/-- The text of a list of numbers, such as `[3, 7]`. -/
def listing (numbers : List Nat) : String :=
  "[" ++ String.intercalate ", " (numbers.map toString) ++ "]"

end TwoLevel.Text
