import TwoLevel.Text.Blank
import TwoLevel.Label

/-!
# Tokens of expressions

The text of an expression is cut into tokens, with blanks between them. At each place the longest
token is taken; a word that spells a constant is that constant and any other word a name. Cutting
stops at the first character that begins no token.

A token is kept together with its spelling and the place where it begins, which is counted in bytes
of UTF-8.
-/
namespace TwoLevel.Expr

/-- What a token means. -/
inductive Token where
  | or
  | and
  | not
  | opening
  | closing
  | constant (value : Bool)
  | name (name : String)
  deriving DecidableEq

/-- A token with its spelling and place. -/
structure Lexeme where
  token : Token
  spelling : List Char
  position : Nat
  deriving DecidableEq

/-- The tokens of a text, and the place of the character at which cutting stopped before the end. -/
structure Lexemes where
  found : List Lexeme
  invalidAt : Option Nat
  deriving DecidableEq

/-- The token that a word spells. -/
def Token.ofWord (word : List Char) : Token :=
  if word = ['t', 'r', 'u', 'e'] then .constant true
  else if word = ['f', 'a', 'l', 's', 'e'] then .constant false
  else .name (String.ofList word)

/-- The longest token with which a text begins, and the number of its characters. -/
def Token.first? : List Char → Option (Token × Nat)
  | [] => none
  | c :: rest =>
    match c with
    | '+' => some (.or, 1)
    | '|' => some (.or, if rest.head? = some '|' then 2 else 1)
    | '*' => some (.and, 1)
    | '&' => some (.and, if rest.head? = some '&' then 2 else 1)
    | '~' => some (.not, 1)
    | '!' => some (.not, 1)
    | '(' => some (.opening, 1)
    | ')' => some (.closing, 1)
    | '0' => some (.constant false, 1)
    | '1' => some (.constant true, 1)
    | _ =>
      if Label.isStart c then
        let word := c :: rest.takeWhile Label.isPart
        some (Token.ofWord word, word.length)
      else none

/-- The number of bytes that characters take. -/
def byteLength (chars : List Char) : Nat := (String.ofList chars).utf8ByteSize

theorem Token.length_pos_of_first? {chars : List Char} {token : Token} {length : Nat}
    (found : Token.first? chars = some (token, length)) : 0 < length := by
  unfold Token.first? at found
  grind

/-- The tokens of a text that begins at a given place. -/
def lexemes (position : Nat) (chars : List Char) : Lexemes :=
  match chars with
  | [] => ⟨[], none⟩
  | c :: rest =>
    if Text.isBlank c then lexemes (position + c.utf8Size) rest
    else
      match _found : Token.first? (c :: rest) with
      | none => ⟨[], some position⟩
      | some (token, length) =>
        let spelling := (c :: rest).take length
        let later := lexemes (position + byteLength spelling) ((c :: rest).drop length)
        ⟨⟨token, spelling, position⟩ :: later.found, later.invalidAt⟩
termination_by chars.length
decreasing_by
  · simp
  · have := Token.length_pos_of_first? _found
    simp only [List.length_drop, List.length_cons]
    omega

end TwoLevel.Expr
