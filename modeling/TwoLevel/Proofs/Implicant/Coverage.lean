import Mathlib.Algebra.Group.Nat.Defs
import TwoLevel.Implicant.Coverage

/-!
# Which indices an implicant covers

Only the low bits of an index matter, as many as the implicant has positions. A word of symbols that
is put together from two words covers an index when the front word covers its high bits and the back
word its low bits, so a position is changed by looking at the words on both sides of it.

The test on index words answers for every implicant that is no wider than a word, and it is the
relation.
-/
namespace TwoLevel

theorem Word.count_eq_two_pow (bits : Nat) : Word.count bits = 2 ^ bits := rfl

/-- Indices have the same low bits exactly if the bits agree at every low place. -/
theorem Word.mod_count_eq_iff (left right bits : Nat) :
    left % Word.count bits = right % Word.count bits
      ↔ ∀ place < bits, left.testBit place = right.testBit place := by
  rw [Word.count_eq_two_pow]
  constructor
  · intro same place inside
    have bit := congrArg (Nat.testBit · place) same
    simpa [inside] using bit
  · intro agree
    apply Nat.eq_of_testBit_eq
    intro place
    rw [Nat.testBit_mod_two_pow, Nat.testBit_mod_two_pow]
    by_cases inside : place < bits
    · rw [agree place inside]
    · simp [inside]

/-- The symbol of a bit admits this bit alone. -/
theorem Symbol.admits_ofBit (bit other : Bool) : (ofBit bit).admits other = true ↔ other = bit := by
  cases bit <;> cases other <;> simp [ofBit, admits]

namespace Implicant

theorem coversSymbols_congr (symbols : List Symbol) (left right : Nat)
    (agree : ∀ place < symbols.length, left.testBit place = right.testBit place) :
    coversSymbols left symbols = coversSymbols right symbols := by
  induction symbols with
  | nil => rfl
  | cons symbol rest ih =>
    have first : left.testBit rest.length = right.testBit rest.length := agree rest.length (by simp)
    have later : coversSymbols left rest = coversSymbols right rest :=
      ih fun place inside => agree place (by simp only [List.length_cons]; omega)
    rw [coversSymbols, coversSymbols, first, later]

/-- The bits of an index above the positions of an implicant do not matter. -/
theorem covers_mod (p : Implicant) (index : Nat) :
    p.covers (index % Word.count p.width) = p.covers index := by
  apply coversSymbols_congr
  intro place inside
  rw [Word.count_eq_two_pow, Nat.testBit_mod_two_pow]
  simp [width, inside]

theorem coversSymbols?_eq_some (index : Nat) {symbols : List Symbol}
    (narrow : symbols.length ≤ Word.size) :
    coversSymbols? index symbols = some (coversSymbols index symbols) := by
  induction symbols with
  | nil => rfl
  | cons symbol rest ih =>
    have looked : Word.bit? index rest.length = some (index.testBit rest.length) :=
      Word.bit?_of_lt narrow
    have later := ih (Nat.le_of_succ_le narrow)
    cases symbol <;> cases bit : index.testBit rest.length <;>
      simp [coversSymbols?, coversSymbols, Symbol.bit?, Symbol.admits, looked, later, bit]

theorem covers?_eq_some {p : Implicant} (narrow : p.width ≤ Word.size) (index : Nat) :
    p.covers? index = some (p.covers index) :=
  coversSymbols?_eq_some index narrow

theorem coversSymbols_append (index : Nat) (front back : List Symbol) :
    coversSymbols index (front ++ back)
      = (coversSymbols (index / 2 ^ back.length) front && coversSymbols index back) := by
  induction front with
  | nil => simp [coversSymbols]
  | cons symbol rest ih =>
    rw [List.cons_append, coversSymbols, coversSymbols, ih, Nat.testBit_div_two_pow,
      List.length_append, Bool.and_assoc]

theorem coversSymbols_indexSymbols (index term width : Nat) :
    coversSymbols index (indexSymbols term width) = true
      ↔ ∀ place < width, index.testBit place = term.testBit place := by
  induction width with
  | zero => simp [indexSymbols, coversSymbols]
  | succ place ih =>
    rw [indexSymbols, coversSymbols, length_indexSymbols, Bool.and_eq_true, Symbol.admits_ofBit, ih,
      Nat.forall_lt_succ_right, and_comm]

theorem covers_ofIndex (index term width : Nat) :
    (ofIndex term width).covers index = true
      ↔ index % Word.count width = term % Word.count width := by
  rw [Word.mod_count_eq_iff]
  exact coversSymbols_indexSymbols index term width

/-- An implicant without a free position is that of any index that it covers. -/
theorem eq_ofIndex_of_covers (p : Implicant) (index : Nat) (fixed : p.dashes = 0)
    (covered : p.covers index = true) : p = ofIndex index p.width := by
  obtain ⟨symbols⟩ := p
  simp only [ofIndex, width, mk.injEq]
  induction symbols with
  | nil => rfl
  | cons symbol rest ih =>
    simp only [covers, coversSymbols, Bool.and_eq_true] at covered
    simp only [dashes, List.count_cons] at fixed
    have later : rest = indexSymbols index rest.length :=
      ih (by simp only [dashes]; omega) covered.2
    have first : symbol = Symbol.ofBit (index.testBit rest.length) := by
      have admitted := covered.1
      cases symbol with
      | dash => simp at fixed
      | zero =>
        have bit : index.testBit rest.length = false := by simpa [Symbol.admits] using admitted
        rw [bit, Symbol.ofBit]
      | one =>
        have bit : index.testBit rest.length = true := admitted
        rw [bit, Symbol.ofBit]
    rw [List.length_cons, indexSymbols, ← first, ← later]

theorem dashes_ofIndex (index width : Nat) : (ofIndex index width).dashes = 0 := by
  apply List.count_eq_zero.mpr
  simp only [ofIndex]
  induction width with
  | zero => simp [indexSymbols]
  | succ place ih => cases bit : index.testBit place <;> simp [indexSymbols, Symbol.ofBit, bit, ih]

theorem ofIndex_congr (left right width : Nat)
    (same : left % Word.count width = right % Word.count width) :
    ofIndex left width = ofIndex right width := by
  -- The implicant of the second index covers the first one, which is then its only index.
  have covered := (covers_ofIndex left right width).mpr same
  have equal := eq_ofIndex_of_covers _ left (dashes_ofIndex right width) covered
  rw [width_ofIndex] at equal
  exact equal.symm

end Implicant

end TwoLevel
