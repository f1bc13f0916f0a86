import TwoLevel.Word
import TwoLevel.Implicant.Basic

/-!
# The terms of an implicant

An implicant covers a term index when the index agrees with every fixed position; the last position
is the place of value 1. `covers` is the relation on all natural numbers. Since a term index is a
word of 32 bits, the test and the listing of indices as they run on words, `covers?` and `expand?`,
have no answer where they would have to look beyond the word. The listing puts each place into a
word before it looks for its value, the test does not.
-/
namespace TwoLevel

/-- A symbol admits the bit that it fixes, and a free one both. -/
def Symbol.admits : Symbol → Bool → Bool
  | .zero, bit => !bit
  | .one, bit => bit
  | .dash, _ => true

namespace Implicant

/-- Agreement of an index with each symbol of a word. -/
def coversSymbols (index : Nat) : List Symbol → Bool
  | [] => true
  | symbol :: rest => symbol.admits (index.testBit rest.length) && coversSymbols index rest

/-- An implicant covers the indices that agree with every fixed position. -/
def covers (p : Implicant) (index : Nat) : Bool := coversSymbols index p.symbols

/-- Agreement tested on a word, literal by literal from the left, up to the first disagreement. -/
def coversSymbols? (index : Nat) : List Symbol → Option Bool
  | [] => some true
  | symbol :: rest =>
    match symbol.bit? with
    | none => coversSymbols? index rest
    | some wanted => do
      let bit ← Word.bit? index rest.length
      if bit = wanted then coversSymbols? index rest else some false

/-- The test as it runs on a word: no answer if a literal that it meets lies beyond the word. -/
def covers? (p : Implicant) (index : Nat) : Option Bool := coversSymbols? index p.symbols

/-- The indices of a word of symbols. The bit of a place that holds a 1 is set in each of them; a
free place doubles them, those without its bit first. -/
def expandSymbols? : List Symbol → Option (List Nat)
  | [] => some [0]
  | .zero :: rest => expandSymbols? rest
  | .one :: rest => do
    let value ← Word.placeValue? (Word.narrow rest.length)
    let low ← expandSymbols? rest
    return low.map (value ||| ·)
  | .dash :: rest => do
    let value ← Word.placeValue? (Word.narrow rest.length)
    let low ← expandSymbols? rest
    return low ++ low.map (value ||| ·)

/-- Every index below `2 ^ width` that the implicant covers, in ascending order, for widths that a
word has. There is no answer if the value of a 1 or of a free position lies beyond the word, nor if
the number of indices is not itself a word. -/
def expand? (p : Implicant) : Option (List Nat) :=
  if p.dashes < Word.size then expandSymbols? p.symbols else none

/-- The implicant of one term index, for widths that a word has. -/
def ofIndex? (index width : Nat) : Option Implicant :=
  if width ≤ Word.size then some (ofIndex index width) else none

/-- Every literal lies within the word. -/
def fitsWord (p : Implicant) : Bool :=
  (p.symbols.dropWhile (· = .dash)).length ≤ Word.size

theorem fitsWord_of_width_le {p : Implicant} (narrow : p.width ≤ Word.size) :
    p.fitsWord = true := by
  rw [fitsWord, decide_eq_true_eq]
  exact Nat.le_trans (List.dropWhile_sublist _).length_le narrow

end Implicant

end TwoLevel
