import Mathlib.Logic.ExistsUnique
import Mathlib.Tactic.ByContra
import TwoLevel.Proofs.Implicant.Coverage

/-!
# Merging implicants

Two implicants merge exactly if they agree everywhere but at one position. The result is free there
and covers what the two cover, and nothing else. Neither depends on the order of the two, nor on the
symbols at the position: a free position against a fixed one counts like a 0 against a 1.
-/
namespace TwoLevel.Implicant

/-- Words merge exactly if they depart from each other at one position, which the result frees. -/
theorem combineSymbols_eq_some_iff (left right merged : List Symbol) :
    combineSymbols left right = some merged
      ↔ ∃ front a b back, a ≠ b ∧ left = front ++ a :: back ∧ right = front ++ b :: back
        ∧ merged = front ++ .dash :: back := by
  constructor
  -- Equal symbols are passed over until the position of the departure.
  · intro joined
    fun_induction combineSymbols left right generalizing merged with
    | case1 lefts symbol rights ih =>
      obtain ⟨rest, found, rfl⟩ := Option.map_eq_some_iff.mp joined
      obtain ⟨front, a, b, back, differ, rfl, rfl, rfl⟩ := ih rest found
      exact ⟨symbol :: front, a, b, back, differ, rfl, rfl, rfl⟩
    | case2 a b back differ =>
      cases joined
      exact ⟨[], a, b, back, differ, rfl, rfl, rfl⟩
    | case3 => cases joined
    | case4 => cases joined
  · rintro ⟨front, a, b, back, differ, rfl, rfl, rfl⟩
    induction front with
    | nil => simp [combineSymbols, differ]
    | cons symbol rest ih => simp [combineSymbols, ih]

theorem combine_eq_some_iff (p q merged : Implicant) :
    p.combine q = some merged
      ↔ ∃ front a b back, a ≠ b ∧ p.symbols = front ++ a :: back ∧ q.symbols = front ++ b :: back
        ∧ merged.symbols = front ++ .dash :: back := by
  obtain ⟨symbols⟩ := merged
  simp only [← combineSymbols_eq_some_iff, combine, Option.map_eq_some_iff, mk.injEq,
    exists_eq_right]

/-- Between them, two different symbols admit both bits. -/
theorem admits_or_admits {a b : Symbol} (differ : a ≠ b) (bit : Bool) :
    (a.admits bit || b.admits bit) = true := by
  cases a <;> cases b <;> cases bit <;> simp_all [Symbol.admits]

/-- A free position covers what any two different symbols cover in its place. -/
theorem covers_dash (front back : List Symbol) {a b : Symbol} (differ : a ≠ b) (index : Nat) :
    (mk (front ++ .dash :: back)).covers index
      = ((mk (front ++ a :: back)).covers index || (mk (front ++ b :: back)).covers index) := by
  have either := admits_or_admits differ (index.testBit back.length)
  have free : Symbol.dash.admits (index.testBit back.length) = true := rfl
  simp only [covers, coversSymbols_append, coversSymbols, List.length_cons, free,
    ← Bool.and_or_distrib_left, ← Bool.and_or_distrib_right, either]

theorem combine_comm (p q : Implicant) : p.combine q = q.combine p := by
  have swapped (p q merged : Implicant) (joined : p.combine q = some merged) :
      q.combine p = some merged := by
    rw [combine_eq_some_iff] at joined ⊢
    obtain ⟨front, a, b, back, differ, left, right, freed⟩ := joined
    exact ⟨front, b, a, back, differ.symm, right, left, freed⟩
  exact Option.ext fun merged => ⟨swapped p q merged, swapped q p merged⟩

theorem width_eq_of_combine {p q merged : Implicant} (joined : p.combine q = some merged) :
    p.width = merged.width ∧ q.width = merged.width := by
  obtain ⟨front, a, b, back, -, left, right, freed⟩ := (combine_eq_some_iff p q merged).mp joined
  simp [width, left, right, freed]

theorem covers_of_combine {p q merged : Implicant} (joined : p.combine q = some merged)
    (index : Nat) : merged.covers index = (p.covers index || q.covers index) := by
  obtain ⟨⟨left⟩, ⟨right⟩, ⟨freed⟩⟩ := p, q, merged
  obtain ⟨front, a, b, back, differ, rfl, rfl, rfl⟩ := (combine_eq_some_iff _ _ _).mp joined
  exact covers_dash front back differ index

/-! ### The position of the difference -/

theorem getElem?_ne_iff (front back : List Symbol) {a b : Symbol} (differ : a ≠ b)
    (position : Nat) :
    (front ++ a :: back)[position]? ≠ (front ++ b :: back)[position]?
      ↔ position = front.length := by
  rcases Nat.lt_trichotomy position front.length with before | rfl | behind
  · simp [List.getElem?_append_left before, Nat.ne_of_lt before]
  · simp [differ]
  · obtain ⟨place, rfl⟩ := Nat.exists_eq_add_of_lt behind
    simp [List.getElem?_append_right, Nat.add_assoc]

/-- Words split into equal parts around one difference exactly if they have one length and differ at
exactly one position. -/
theorem exists_split_iff (left right : List Symbol) :
    (∃ front a b back, a ≠ b ∧ left = front ++ a :: back ∧ right = front ++ b :: back)
      ↔ left.length = right.length ∧ ∃! position : Nat, left[position]? ≠ right[position]? := by
  constructor
  · rintro ⟨front, a, b, back, differ, rfl, rfl⟩
    refine ⟨by simp, front.length, ?_, ?_⟩
    · exact (getElem?_ne_iff front back differ _).mpr rfl
    · exact fun position => (getElem?_ne_iff front back differ position).mp
  · rintro ⟨lengths, position, differ, only⟩
    have agree (place : Nat) (other : place ≠ position) : left[place]? = right[place]? := by
      by_contra apart
      exact other (only place apart)
    -- Behind the ends both words have no symbol, which is no difference.
    have inside : position < left.length := by
      by_contra outside
      have behind := Nat.le_of_not_lt outside
      rw [List.getElem?_eq_none behind, List.getElem?_eq_none (lengths ▸ behind)] at differ
      exact differ rfl
    have inside_right : position < right.length := lengths ▸ inside
    have front : left.take position = right.take position := by
      apply List.ext_getElem?
      intro place
      by_cases before : place < position
      · rw [List.getElem?_take_of_lt before, List.getElem?_take_of_lt before,
          agree place (Nat.ne_of_lt before)]
      · rw [List.getElem?_take_eq_none (Nat.le_of_not_lt before),
          List.getElem?_take_eq_none (Nat.le_of_not_lt before)]
    have back : left.drop (position + 1) = right.drop (position + 1) := by
      apply List.ext_getElem?
      intro place
      rw [List.getElem?_drop, List.getElem?_drop, agree _ (by omega)]
    rw [List.getElem?_eq_getElem inside, List.getElem?_eq_getElem inside_right] at differ
    refine ⟨left.take position, left[position], right[position], left.drop (position + 1),
      ?_, ?_, ?_⟩
    · exact fun same => differ (congrArg some same)
    · rw [List.getElem_cons_drop, List.take_append_drop]
    · rw [front, back, List.getElem_cons_drop, List.take_append_drop]

theorem exists_combine_iff (p q : Implicant) : (∃ merged, p.combine q = some merged)
    ↔ p.width = q.width ∧ ∃! position : Nat, p.symbols[position]? ≠ q.symbols[position]? := by
  rw [width, width, ← exists_split_iff]
  constructor
  · rintro ⟨merged, joined⟩
    obtain ⟨front, a, b, back, differ, left, right, -⟩ := (combine_eq_some_iff p q merged).mp joined
    exact ⟨front, a, b, back, differ, left, right⟩
  · rintro ⟨front, a, b, back, differ, left, right⟩
    exact ⟨⟨front ++ .dash :: back⟩, (combine_eq_some_iff p q _).mpr
      ⟨front, a, b, back, differ, left, right, rfl⟩⟩

/-- Merging is symmetric and possible exactly for two implicants of one width that differ at exactly
one position. No wider than a word, the merged implicant is found to cover an index exactly if one
of the two is. -/
theorem combine_unites (p q : Implicant) :
    p.combine q = q.combine p
    ∧ ((∃ merged, p.combine q = some merged)
      ↔ p.width = q.width ∧ ∃! position : Nat, p.symbols[position]? ≠ q.symbols[position]?)
    ∧ ∀ merged, p.combine q = some merged → p.width ≤ Word.size → ∀ index,
      ∃ first second, p.covers? index = some first ∧ q.covers? index = some second
        ∧ merged.covers? index = some (first || second) := by
  refine ⟨combine_comm p q, exists_combine_iff p q, fun merged joined narrow index => ?_⟩
  obtain ⟨left, right⟩ := width_eq_of_combine joined
  refine ⟨p.covers index, q.covers index, covers?_eq_some narrow index, ?_, ?_⟩
  · exact covers?_eq_some (right.trans left.symm ▸ narrow) index
  · rw [covers?_eq_some (left ▸ narrow), covers_of_combine joined]

/-- A free position against a 0: the first of the two covers the second and is the result. -/
theorem combine_unites_free_and_zero :
    (mk [.one, .dash, .one]).combine ⟨[.one, .zero, .one]⟩ = some ⟨[.one, .dash, .one]⟩
    ∧ (mk [.one, .dash, .one]).width ≤ Word.size
    ∧ ∀ index, ∃ first second, (mk [.one, .dash, .one]).covers? index = some first
      ∧ (mk [.one, .zero, .one]).covers? index = some second
      ∧ (mk [.one, .dash, .one]).covers? index = some (first || second) := by
  have joined :
      (mk [.one, .dash, .one]).combine ⟨[.one, .zero, .one]⟩ = some ⟨[.one, .dash, .one]⟩ := rfl
  have narrow : (mk [.one, .dash, .one]).width ≤ Word.size := by decide
  exact ⟨joined, narrow, (combine_unites _ _).2.2 _ joined narrow⟩

end TwoLevel.Implicant
