/-!
# Words

A term index is a word: its bits are the values of the variables. There are as many indices over
some variables as words of that many bits.

A term index is kept in 32 bits. Looking at a place beyond these has no answer, so the two functions
at places are partial in that one way: `none` stands for a place that the word does not have. Where
a place is itself put into a word first, its low bits alone are looked at.
-/
namespace TwoLevel.Word

/-- The number of words of a number of bits. -/
def count (bits : Nat) : Nat := Nat.pow 2 bits

def size : Nat := 32

/-- A number put into a word, which keeps the low bits of it. -/
def narrow (number : Nat) : Nat := number % count size

/-- The bit of an index at a place, counted from the least significant. -/
def bit? (index place : Nat) : Option Bool :=
  if place < size then some (index.testBit place) else none

/-- The number that has its one bit at the given place. -/
def placeValue? (place : Nat) : Option Nat :=
  if place < size then some (count place) else none

@[simp] theorem count_zero : count 0 = 1 := rfl

theorem count_succ (bits : Nat) : count (bits + 1) = 2 * count bits := by
  show Nat.pow 2 bits * 2 = 2 * Nat.pow 2 bits
  exact Nat.mul_comm _ _

theorem narrow_of_lt {number : Nat} (inside : number < count size) : narrow number = number :=
  Nat.mod_eq_of_lt inside

theorem bit?_eq_none_iff (index place : Nat) : bit? index place = none ↔ size ≤ place := by
  simp [bit?]

theorem bit?_of_lt {index place : Nat} (inside : place < size) :
    bit? index place = some (index.testBit place) := by
  simp [bit?, inside]

theorem placeValue?_eq_none_iff (place : Nat) : placeValue? place = none ↔ size ≤ place := by
  simp [placeValue?]

end TwoLevel.Word
