import TwoLevel.Table.Error
import TwoLevel.Proofs.Implicant.Expansion

/-!
# Implicants that are wider than a word

The test of an index looks at the literals, and at the leftmost one first. Places fall from left to
right, so a literal beyond the word is met by the first look if there is one at all, whatever the
index.

The listing of the covered indices sets the bits of the places that hold a 1 or a free position, and
passes over a 0; besides, it numbers the words of the free positions, which must be fewer than a
word has bits. It looks at each place only after putting it into a word. That makes no difference as
long as no place is larger than a word holds, and then the listing has no answer exactly if a 1 or a
free position lies beyond the word. A wider implicant is listed at the wrong places.
-/
namespace TwoLevel.Implicant

/-- One of the given symbols stands at a position with such a place. -/
def Occurs (kinds : List Symbol) (places : Nat → Prop) (symbols : List Symbol) : Prop :=
  ∃ (position : Nat) (symbol : Symbol), symbols[position]? = some symbol ∧ symbol ∈ kinds
    ∧ places (symbols.length - 1 - position)

section

variable {kinds : List Symbol} {places : Nat → Prop}

theorem not_occurs_nil : ¬Occurs kinds places [] := by
  rintro ⟨position, symbol, found, -⟩
  cases found

theorem occurs_cons (symbol : Symbol) (rest : List Symbol) :
    Occurs kinds places (symbol :: rest)
      ↔ symbol ∈ kinds ∧ places rest.length ∨ Occurs kinds places rest := by
  constructor
  · rintro ⟨position, other, found, kind, place⟩
    cases position with
    | zero =>
      cases found
      exact .inl ⟨kind, place⟩
    | succ position =>
      rw [List.length_cons, Nat.add_sub_cancel, Nat.sub_add_eq, Nat.sub_right_comm] at place
      exact .inr ⟨position, other, found, kind, place⟩
  · rintro (⟨kind, place⟩ | ⟨position, other, found, kind, place⟩)
    · exact ⟨0, symbol, rfl, kind, place⟩
    · refine ⟨position + 1, other, found, kind, ?_⟩
      rwa [List.length_cons, Nat.add_sub_cancel, Nat.sub_add_eq, Nat.sub_right_comm]

theorem occurs_cons_of_not_mem {symbol : Symbol} (other : symbol ∉ kinds) (rest : List Symbol) :
    Occurs kinds places (symbol :: rest) ↔ Occurs kinds places rest := by
  rw [occurs_cons, or_iff_right fun first => other first.1]

/-- Only the places that a word of symbols has are asked about. -/
theorem occurs_congr {others : Nat → Prop} {symbols : List Symbol}
    (same : ∀ place < symbols.length, places place ↔ others place) :
    Occurs kinds places symbols ↔ Occurs kinds others symbols := by
  induction symbols with
  | nil => exact iff_of_false not_occurs_nil not_occurs_nil
  | cons symbol rest ih =>
    rw [occurs_cons, occurs_cons, same rest.length (Nat.lt_succ_self _),
      ih fun place inside => same place (Nat.lt_succ_of_lt inside)]

theorem not_occurs_of_length_le {symbols : List Symbol} (narrow : symbols.length ≤ Word.size) :
    ¬Occurs kinds (Word.size ≤ ·) symbols := by
  rintro ⟨position, symbol, found, -, outside⟩
  have inside := (List.getElem?_eq_some_iff.mp found).1
  have positive : 0 < Word.size := by decide
  omega

/-- Where the leading symbol is looked at, its place alone decides: if that is a place of the word,
so are those behind it. -/
theorem eq_none_iff_occurs_cons {α : Type} {answer : Option α} {symbol : Symbol}
    {rest : List Symbol} (looked : symbol ∈ kinds) (fails : Word.size ≤ rest.length → answer = none)
    (answers : (symbol :: rest).length ≤ Word.size → ∃ found, answer = some found) :
    answer = none ↔ Occurs kinds (Word.size ≤ ·) (symbol :: rest) := by
  by_cases outside : Word.size ≤ rest.length
  · exact iff_of_true (fails outside) ((occurs_cons symbol rest).mpr (.inl ⟨looked, outside⟩))
  · have narrow : (symbol :: rest).length ≤ Word.size := Nat.lt_of_not_le outside
    exact iff_of_false (Option.ne_none_iff_exists'.mpr (answers narrow))
      (not_occurs_of_length_le narrow)

end

theorem coversSymbols?_eq_none_iff (index : Nat) (symbols : List Symbol) :
    coversSymbols? index symbols = none ↔ Occurs [.zero, .one] (Word.size ≤ ·) symbols := by
  induction symbols with
  | nil => exact iff_of_false (by simp [coversSymbols?]) not_occurs_nil
  | cons symbol rest ih =>
    have answers (narrow : (symbol :: rest).length ≤ Word.size) :
        ∃ found, coversSymbols? index (symbol :: rest) = some found :=
      ⟨_, coversSymbols?_eq_some index narrow⟩
    cases symbol with
    | dash =>
      rw [occurs_cons_of_not_mem (by decide)]
      exact ih
    | zero =>
      refine eq_none_iff_occurs_cons (by decide) (fun outside => ?_) answers
      simp [coversSymbols?, Symbol.bit?, (Word.bit?_eq_none_iff index rest.length).mpr outside]
    | one =>
      refine eq_none_iff_occurs_cons (by decide) (fun outside => ?_) answers
      simp [coversSymbols?, Symbol.bit?, (Word.bit?_eq_none_iff index rest.length).mpr outside]

/-! ### The listing -/

/-- The places whose values are looked for beyond the word, once they are put into one. -/
def MissingValue (place : Nat) : Prop := Word.size ≤ Word.narrow place

theorem placeValue?_narrow_eq_none_iff (place : Nat) :
    Word.placeValue? (Word.narrow place) = none ↔ MissingValue place :=
  Word.placeValue?_eq_none_iff _

theorem expandSymbols?_eq_none_iff (symbols : List Symbol) :
    expandSymbols? symbols = none ↔ Occurs [.one, .dash] MissingValue symbols := by
  induction symbols with
  | nil => exact iff_of_false (by simp [expandSymbols?]) not_occurs_nil
  | cons symbol rest ih =>
    -- Unlike in the test the places may come back into the word, so each of them is looked at.
    cases symbol with
    | zero =>
      rw [occurs_cons_of_not_mem (by decide)]
      exact ih
    | one =>
      rw [occurs_cons, ← ih, ← placeValue?_narrow_eq_none_iff]
      cases value : Word.placeValue? (Word.narrow rest.length) <;>
        cases later : expandSymbols? rest <;> simp [expandSymbols?, value, later]
    | dash =>
      rw [occurs_cons, ← ih, ← placeValue?_narrow_eq_none_iff]
      cases value : Word.placeValue? (Word.narrow rest.length) <;>
        cases later : expandSymbols? rest <;> simp [expandSymbols?, value, later]

theorem expand?_eq_none_iff (p : Implicant) :
    p.expand? = none ↔ Occurs [.one, .dash] MissingValue p.symbols ∨ Word.size ≤ p.dashes := by
  rw [expand?, ← expandSymbols?_eq_none_iff]
  by_cases few : p.dashes < Word.size
  · rw [if_pos few, or_iff_left (Nat.not_le.mpr few)]
  · simp [few, Nat.le_of_not_lt few]

/-- Up to as many positions as there are words, the places themselves decide. -/
theorem occurs_missingValue_iff {symbols : List Symbol} {kinds : List Symbol}
    (held : symbols.length ≤ Word.count Word.size) :
    Occurs kinds MissingValue symbols ↔ Occurs kinds (Word.size ≤ ·) symbols := by
  refine occurs_congr fun place inside => ?_
  rw [MissingValue, Word.narrow_of_lt (Nat.lt_of_lt_of_le inside held)]

/-- Whether the test answers does not depend on the index: it has no answer exactly if a literal
lies beyond the word. The indices are not listed exactly if the value of a 1 or of a free position
is looked for beyond the word, or the free positions are as many as the bits of a word. Up to as
many positions as there are words, that value is looked for at the place of the position itself.
Over the variables that a table can have, both always answer. -/
theorem unanswered_iff_occurs (p : Implicant) :
    (∀ index, p.covers? index = none ↔ Occurs [.zero, .one] (Word.size ≤ ·) p.symbols)
    ∧ (p.expand? = none ↔ Occurs [.one, .dash] MissingValue p.symbols ∨ Word.size ≤ p.dashes)
    ∧ (p.width ≤ Word.count Word.size →
      (p.expand? = none
        ↔ Occurs [.one, .dash] (Word.size ≤ ·) p.symbols ∨ Word.size ≤ p.dashes))
    ∧ (p.width ≤ maxVariables →
      (∀ index, ∃ answer, p.covers? index = some answer)
      ∧ ∃ indices, p.expand? = some indices) := by
  refine ⟨fun index => coversSymbols?_eq_none_iff index p.symbols, expand?_eq_none_iff p,
    fun held => ?_, fun admitted => ?_⟩
  · rw [expand?_eq_none_iff, occurs_missingValue_iff held]
  · -- So few positions are places of a word, and there are fewer free ones than it has bits.
    have narrow : p.width ≤ Word.size := Nat.le_trans admitted (by decide)
    have few : p.dashes < Word.size := by
      have free := p.literalCount_add_dashes
      have bound : maxVariables < Word.size := by decide
      omega
    refine ⟨fun index => ⟨_, covers?_eq_some narrow index⟩, ?_⟩
    exact ⟨_, by rw [expand?, if_pos few, expandSymbols?_eq_some narrow]⟩

/-- One position wider than a word, with a 0 in front: no index can be tested, but the one that is
covered can be listed. -/
def leadingZero : Implicant := ⟨.zero :: List.replicate 32 .one⟩

theorem unanswered_iff_occurs_leadingZero :
    leadingZero.width ≤ Word.count Word.size
    ∧ (∀ index, leadingZero.covers? index = none) ∧ leadingZero.expand? ≠ none
    ∧ (mk [.one, .dash]).width ≤ maxVariables
    ∧ (∀ index, ∃ answer, (mk [.one, .dash]).covers? index = some answer)
    ∧ ∃ indices, (mk [.one, .dash]).expand? = some indices := by
  have held : leadingZero.width ≤ Word.count Word.size := by decide
  obtain ⟨untested, -, unlisted, -⟩ := unanswered_iff_occurs leadingZero
  have literal : Occurs [.zero, .one] (Word.size ≤ ·) leadingZero.symbols :=
    ⟨0, .zero, rfl, by decide, by decide⟩
  have added : ¬Occurs [.one, .dash] (Word.size ≤ ·) leadingZero.symbols := by
    rw [leadingZero, occurs_cons_of_not_mem (by decide)]
    exact not_occurs_of_length_le (by decide)
  have few : ¬Word.size ≤ leadingZero.dashes := by decide
  have admitted : (mk [.one, .dash]).width ≤ maxVariables := by decide
  refine ⟨held, fun index => (untested index).mpr literal, fun missing => ?_, admitted,
    (unanswered_iff_occurs _).2.2.2 admitted⟩
  exact ((unlisted held).mp missing).elim added few

/-! ### Beyond the places that a word holds -/

theorem expandSymbols?_replicate_zero (width : Nat) :
    expandSymbols? (List.replicate width .zero) = some [0] := by
  induction width with
  | zero => rfl
  | succ width ih => exact ih

/-- A 1 in front of zeros. -/
def leadingOne (zeros : Nat) : Implicant := ⟨.one :: List.replicate zeros .zero⟩

theorem dashes_leadingOne (zeros : Nat) : (leadingOne zeros).dashes = 0 := by
  simp [leadingOne, dashes, List.count_replicate]

theorem expand?_leadingOne (zeros : Nat) : (leadingOne zeros).expand?
    = (Word.placeValue? (Word.narrow zeros)).map fun value => [value ||| 0] := by
  have few : (leadingOne zeros).dashes < Word.size := by
    rw [dashes_leadingOne]
    decide
  rw [expand?, if_pos few, leadingOne, expandSymbols?, expandSymbols?_replicate_zero,
    List.length_replicate]
  cases Word.placeValue? (Word.narrow zeros) <;> rfl

/-- Behind a 1 there may be as many zeros as there are words. Its place is beyond the word, and so
no index can be tested, but as a word this place is 0, and the index 1 is listed. -/
theorem expand?_leadingOne_count :
    Occurs [.one, .dash] (Word.size ≤ ·) (leadingOne (Word.count Word.size)).symbols
    ∧ (∀ index, (leadingOne (Word.count Word.size)).covers? index = none)
    ∧ (leadingOne (Word.count Word.size)).expand? = some [1] := by
  have outside : Word.size ≤ (List.replicate (Word.count Word.size) Symbol.zero).length := by
    rw [List.length_replicate]
    decide
  refine ⟨(occurs_cons _ _).mpr (.inl ⟨by decide, outside⟩), fun index => ?_, ?_⟩
  · exact (coversSymbols?_eq_none_iff _ _).mpr ((occurs_cons _ _).mpr (.inl ⟨by decide, outside⟩))
  · rw [expand?_leadingOne, Word.narrow, Nat.mod_self]
    rfl

/-- As wide as a word and free throughout: every index can be tested, but there are too many to
list. -/
example : (unconstrained 32).covers? 0 = some true ∧ (unconstrained 32).expand? = none := by decide

end TwoLevel.Implicant
