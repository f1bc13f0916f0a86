import Mathlib.Algebra.Order.Ring.Nat
import TwoLevel.Text.Number

/-!
# Numbers are read back

A binary number of a fixed width has the bits of the number as its digits, the most significant
first. A decimal number is read if its digits, without the plus sign, are digits at all and their
value has no more than 64 bits.
-/
namespace TwoLevel.Text

theorem valueOfDigits_eq (base : Nat) (digits : List Char) :
    valueOfDigits base digits = Nat.ofDigitChars base digits 0 := by
  simp only [valueOfDigits, digitValue, Nat.ofDigitChars_eq_foldl, Nat.mul_comm base]

/-! ### Binary numbers -/

/-- The digit of a bit. -/
def bitChar (bit : Bool) : Char := if bit then '1' else '0'

theorem digitChar_mod_two (number : Nat) :
    Nat.digitChar (number % 2) = bitChar (number.testBit 0) := by
  rw [Nat.testBit_zero]
  rcases Nat.mod_two_eq_zero_or_one number with even | odd
  · rw [even]
    rfl
  · rw [odd]
    rfl

/-- A number is written with the digits of its half, and its own last digit behind them. -/
theorem toList_binary_succ {width : Nat} (positive : 0 < width) (number : Nat) :
    (binary (width + 1) number).toList
      = (binary width (number / 2)).toList ++ [bitChar (number.testBit 0)] := by
  simp only [binary, String.toList_ofList, ← digitChar_mod_two]
  rw [Nat.toDigits_eq_if (n := number) (by decide)]
  split
  next small =>
    -- The half is 0, whose one digit is the zero that stands before the last digit.
    rw [Nat.div_eq_of_lt small, Nat.mod_eq_of_lt small, Nat.toDigits_zero, List.length_singleton,
      List.length_singleton, Nat.add_sub_cancel, ← List.replicate_succ',
      Nat.sub_add_cancel positive]
  next =>
    rw [List.length_append, List.length_singleton, Nat.add_sub_add_right, List.append_assoc]

theorem toList_binary {width number : Nat} (positive : 0 < width)
    (bounded : number < Word.count width) :
    (binary width number).toList
      = (List.range width).map fun place => bitChar (number.testBit (width - 1 - place)) := by
  induction width, positive using Nat.le_induction generalizing number with
  | base =>
    have small : number < 2 := bounded
    simp only [binary, Nat.toDigits_of_lt_base small, String.toList_ofList]
    rw [← Nat.mod_eq_of_lt small, digitChar_mod_two]
    simp
  | succ width positive ih =>
    have half : number / 2 < Word.count width := by
      rw [Word.count_succ] at bounded
      omega
    rw [toList_binary_succ positive, ih half, List.range_succ, List.map_append, List.map_singleton]
    -- The places of the half are one higher in the number itself.
    congr 1
    · apply List.map_congr_left
      intro place member
      have inside := List.mem_range.mp member
      rw [← Nat.testBit_succ]
      congr 2
      omega
    · rw [Nat.add_sub_cancel, Nat.sub_self]

section

variable {width number : Nat} (positive : 0 < width) (bounded : number < Word.count width)

include positive bounded

theorem length_binary : (binary width number).toList.length = width := by
  rw [toList_binary positive bounded, List.length_map, List.length_range]

theorem all_binary : (binary width number).toList.all (fun c => c == '0' || c == '1') = true := by
  rw [toList_binary positive bounded, List.all_map, List.all_eq_true]
  intro place _
  rw [Function.comp_apply, bitChar]
  split <;> rfl

end

theorem isDigit_of_mem_binary {width number : Nat} {c : Char}
    (member : c ∈ (binary width number).toList) : c.isDigit = true := by
  rw [binary, String.toList_ofList, List.mem_append] at member
  rcases member with member | member
  · rw [(List.mem_replicate.mp member).2]
    rfl
  · exact Nat.isDigit_of_mem_toDigits (by decide) (by decide) member

/-- Reading the digits of a binary number gives the number, whatever its width is. -/
theorem ofDigitChars_binary (width number : Nat) :
    Nat.ofDigitChars 2 (binary width number).toList 0 = number := by
  rw [binary, String.toList_ofList, Nat.ofDigitChars_append, Nat.ofDigitChars_replicate_zero,
    Nat.mul_zero, Nat.ofDigitChars_toDigits (by decide) (by decide)]

/-! ### Decimal numbers -/

/-- A word that is a decimal number of at most 64 bits, with or without a plus sign. -/
def Decimal (word : List Char) (number : Nat) : Prop :=
  ∃ digits, (word = digits ∨ word = '+' :: digits) ∧ digits ≠ [] ∧ (∀ c ∈ digits, c.isDigit = true)
    ∧ number = Nat.ofDigitChars 10 digits 0 ∧ number < 2 ^ 64

theorem eq_unsigned_or (word : List Char) : word = unsigned word ∨ word = '+' :: unsigned word := by
  unfold unsigned
  split
  · exact .inr rfl
  · exact .inl rfl

theorem eq_unsigned_of_digits {word digits : List Char}
    (spelled : word = digits ∨ word = '+' :: digits) (numeric : ∀ c ∈ digits, c.isDigit = true) :
    digits = unsigned word := by
  rcases spelled with rfl | rfl
  · unfold unsigned
    split
    -- A digit is no plus sign.
    · exact absurd (numeric '+' List.mem_cons_self) (by decide)
    · rfl
  · rfl

theorem readNumber?_eq_some_iff (word : List Char) (number : Nat) :
    readNumber? word = some number ↔ Decimal word number := by
  simp only [readNumber?, valueOfDigits_eq]
  constructor
  · intro read
    split at read
    next => cases read
    next digits =>
      split at read
      next bounded =>
        simp only [Bool.or_eq_true, not_or, List.isEmpty_iff, Bool.not_eq_true', Bool.not_eq_false,
          List.all_eq_true] at digits
        rw [Option.some.injEq] at read
        rw [read] at bounded
        exact ⟨unsigned word, eq_unsigned_or word, digits.1, digits.2, read.symm, bounded⟩
      next => cases read
  · rintro ⟨digits, spelled, nonempty, numeric, rfl, bounded⟩
    rw [← eq_unsigned_of_digits spelled numeric, if_neg]
    · exact if_pos bounded
    · simp only [Bool.or_eq_true, not_or, List.isEmpty_iff, Bool.not_eq_true', Bool.not_eq_false,
        List.all_eq_true]
      exact ⟨nonempty, numeric⟩

theorem decimal_toString {number : Nat} (bounded : number < 2 ^ 64) :
    Decimal (toString number).toList number := by
  rw [Nat.toString_eq_ofList_toDigits, String.toList_ofList]
  refine ⟨Nat.toDigits 10 number, .inl rfl, Nat.toDigits_ne_nil, ?_, ?_, bounded⟩
  · exact fun c member => Nat.isDigit_of_mem_toDigits (by decide) (by decide) member
  · exact Nat.ofDigitChars_ten_toDigits.symm

end TwoLevel.Text
