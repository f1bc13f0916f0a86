import Mathlib.Tactic.SplitIfs

/-!
# Bytes of texts

Texts are ordered by the codes of their characters. The encoding of characters in one to four bytes
keeps this order: the bytes of a smaller character come first, whatever follows the two characters.
So the order of texts is that of their bytes.
-/
namespace TwoLevel.Text

/-- The bytes of a text. -/
def bytes (text : String) : List UInt8 := text.toUTF8.data.toList

theorem bytes_eq_flatMap (text : String) :
    bytes text = text.toList.flatMap String.utf8EncodeChar := by
  have encoded : text.toUTF8 = text.toList.utf8Encode := by
    rw [String.toUTF8_eq_toByteArray, ← String.toByteArray_ofList, String.ofList_toList]
  rw [bytes, encoded, List.utf8Encode, List.data_toByteArray]

theorem utf8EncodeChar_append_lt {a b : Char} (less : a < b) (left right : List UInt8) :
    String.utf8EncodeChar a ++ left < String.utf8EncodeChar b ++ right := by
  have smaller : a.val.toNat < b.val.toNat := less
  have bounded : b.val.toNat < 0x110000 := by
    rcases b.valid with low | ⟨-, high⟩
    · exact Nat.lt_trans low (by decide)
    · exact high
  simp only [String.utf8EncodeChar]
  generalize a.val.toNat = m at smaller ⊢
  generalize b.val.toNat = n at smaller bounded ⊢
  -- The bytes are the digits of the codes to base 64, the highest first, so each quotient is that
  -- of the next.
  have second (code : Nat) : code / 4096 = code / 64 / 64 := by omega
  have third (code : Nat) : code / 262144 = code / 64 / 64 / 64 := by omega
  rw [second, second, third, third]
  split_ifs <;>
    simp only [List.cons_append, List.cons_lt_cons_iff, UInt8.lt_iff_toNat_lt, ← UInt8.toNat_inj,
      UInt8.toNat_ofNat'] <;>
    simp (disch := omega) only [Nat.mod_eq_of_lt] <;>
    omega

theorem flatMap_utf8EncodeChar_lt {left right : List Char} (less : left < right) :
    left.flatMap String.utf8EncodeChar < right.flatMap String.utf8EncodeChar := by
  induction left generalizing right with
  | nil =>
    cases right with
    | nil => exact absurd less (List.lt_irrefl [])
    | cons b right =>
      obtain ⟨first, rest, split⟩ :=
        List.exists_cons_of_ne_nil (String.utf8EncodeChar_ne_nil (c := b))
      rw [List.flatMap_cons, split]
      exact List.nil_lt_cons _ _
  | cons a left ih =>
    cases right with
    | nil => exact absurd less (List.not_lt_nil _)
    | cons b right =>
      rw [List.flatMap_cons, List.flatMap_cons]
      rcases List.cons_lt_cons_iff.mp less with first | ⟨rfl, later⟩
      · exact utf8EncodeChar_append_lt first _ _
      · exact List.append_left_lt (ih later)

theorem bytes_lt_bytes {left right : String} (less : left < right) : bytes left < bytes right := by
  rw [bytes_eq_flatMap, bytes_eq_flatMap]
  exact flatMap_utf8EncodeChar_lt (String.lt_iff.mp less)

/-- Texts are ordered as their bytes are. -/
theorem bytes_le_bytes_iff (left right : String) : bytes left ≤ bytes right ↔ left ≤ right := by
  constructor
  · intro bounded
    exact String.not_lt.mp fun above => List.not_lt.mpr bounded (bytes_lt_bytes above)
  · intro bounded
    by_cases below : left < right
    · exact List.le_of_lt (bytes_lt_bytes below)
    · rw [String.le_antisymm bounded (String.not_lt.mp below)]
      exact List.le_refl _

end TwoLevel.Text
