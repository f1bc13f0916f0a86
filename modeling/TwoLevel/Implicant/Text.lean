import TwoLevel.Implicant.Basic

/-!
# The text of an implicant

An implicant is written with one character for each position, `0`, `1` or `-`. Reading refuses the
empty text and names the first character that is no symbol.
-/
namespace TwoLevel

namespace Symbol

/-- The character of a symbol. -/
def toChar : Symbol → Char
  | zero => '0'
  | one => '1'
  | dash => '-'

/-- The symbol of a character. -/
def ofChar? : Char → Option Symbol
  | '0' => some zero
  | '1' => some one
  | '-' => some dash
  | _ => none

end Symbol

namespace Implicant

/-- Why a text is no implicant. -/
inductive ParseError where
  /-- The text has no character. -/
  | empty
  /-- The character at a position, counted in characters, is no symbol. -/
  | invalidCharacter (character : Char) (position : Nat)
  deriving DecidableEq

def ParseError.message : ParseError → String
  | .empty => "Implicant must have at least one symbol"
  | .invalidCharacter character position =>
    "Invalid implicant symbol '" ++ character.toString ++ "' at position " ++ toString position
      ++ ". Expected '0', '1' or '-'."

/-- Reads characters as symbols; the first of them stands at the given position. -/
def symbolsOfChars (position : Nat) : List Char → Except ParseError (List Symbol)
  | [] => .ok []
  | c :: rest =>
    match Symbol.ofChar? c with
    | none => .error (.invalidCharacter c position)
    | some symbol => (symbolsOfChars (position + 1) rest).map (symbol :: ·)

/-- Reads an implicant of at least one symbol. -/
def parse (text : String) : Except ParseError Implicant :=
  if text.toList.isEmpty then .error .empty
  else (symbolsOfChars 0 text.toList).map Implicant.mk

/-- Writes an implicant, one character for each position. -/
def toText (p : Implicant) : String := String.ofList (p.symbols.map Symbol.toChar)

/-- The text with the kind of value named in front. -/
def describe (p : Implicant) : String := "Implicant(" ++ p.toText ++ ")"

end Implicant

end TwoLevel
