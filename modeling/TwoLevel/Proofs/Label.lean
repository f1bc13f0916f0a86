import TwoLevel.Label
import TwoLevel.Text.Blank

/-!
# How labels are spelled

A label is spelled with the letters of the Latin alphabet, the decimal digits and the underscore,
and no digit stands first. None of these characters is a blank.
-/
namespace TwoLevel

namespace Label

def Letter (c : Char) : Prop := ('A' ≤ c ∧ c ≤ 'Z') ∨ ('a' ≤ c ∧ c ≤ 'z') ∨ c = '_'

def Digit (c : Char) : Prop := '0' ≤ c ∧ c ≤ '9'

/-- A letter, followed by letters and digits. -/
def Spelled (label : String) : Prop :=
  ∃ first rest, label.toList = first :: rest ∧ Letter first ∧ ∀ c ∈ rest, Letter c ∨ Digit c

theorem isStart_iff (c : Char) : isStart c = true ↔ Letter c := by
  unfold isStart Char.isAlpha Char.isUpper Char.isLower
  simp [Letter, Char.le_def, or_assoc]

theorem isDigit_iff (c : Char) : c.isDigit = true ↔ Digit c := by
  rw [Char.isDigit_iff_toNat]
  simp [Digit, Char.le_def, UInt32.le_iff_toNat_le]

theorem isPart_iff (c : Char) : isPart c = true ↔ Letter c ∨ Digit c := by
  rw [← isStart_iff, ← isDigit_iff, isPart, isStart, Char.isAlphanum]
  simp only [Bool.or_eq_true]
  exact or_right_comm

theorem isIdentifier_iff (label : String) : isIdentifier label = true ↔ Spelled label := by
  rw [isIdentifier, Spelled]
  cases label.toList with
  | nil => simp
  | cons first rest => simp [isStart_iff, isPart_iff, and_assoc]

end Label

namespace Text

theorem isBlank_of_visible {c : Char} (low : '!' ≤ c) (high : c ≤ '~') : isBlank c = false := by
  have apart : ∀ range ∈ blankRanges, range.2 < '!'.toNat ∨ '~'.toNat < range.1 := by decide
  refine List.any_eq_false.mpr fun range member => ?_
  simp only [Bool.and_eq_true, decide_eq_true_eq]
  have outside := apart range member
  rw [Char.le_def, UInt32.le_iff_toNat_le, Char.toNat_val, Char.toNat_val] at low high
  omega

theorem isBlank_of_letter {c : Char} (letter : Label.Letter c) : isBlank c = false := by
  rcases letter with ⟨low, high⟩ | ⟨low, high⟩ | rfl
  · exact isBlank_of_visible (Char.le_trans (by decide) low) (Char.le_trans high (by decide))
  · exact isBlank_of_visible (Char.le_trans (by decide) low) (Char.le_trans high (by decide))
  · decide

theorem isBlank_of_isStart {c : Char} (start : Label.isStart c = true) : isBlank c = false :=
  isBlank_of_letter ((Label.isStart_iff c).mp start)

theorem isBlank_of_isDigit {c : Char} (numeric : c.isDigit = true) : isBlank c = false := by
  obtain ⟨low, high⟩ := (Label.isDigit_iff c).mp numeric
  exact isBlank_of_visible (Char.le_trans (by decide) low) (Char.le_trans high (by decide))

theorem isBlank_of_isPart {c : Char} (part : Label.isPart c = true) : isBlank c = false := by
  rcases (Label.isPart_iff c).mp part with letter | digit
  · exact isBlank_of_letter letter
  · exact isBlank_of_isDigit ((Label.isDigit_iff c).mpr digit)

end Text

end TwoLevel
