import TwoLevel.Proofs.Implicant.Prime

/-!
# What a merge frees

Implicants that are free at the same positions merge over a 0 and a 1: they have no index in common,
and the result is free at one position more than either. If one is free where the other is fixed,
that is the only difference between them: the one covers the other and is itself the result. Which
of the two happens can be told by counting the free positions.
-/
namespace TwoLevel.Implicant

/-- Free at the same positions. -/
def Aligned (p q : Implicant) : Prop :=
  ∀ position : Nat, p.symbols[position]? = some .dash ↔ q.symbols[position]? = some .dash

/-- Without an index that both cover. -/
def Apart (p q : Implicant) : Prop := ∀ index, ¬(p.covers index = true ∧ q.covers index = true)

/-- The first covers the second, from which it differs by one free position more. -/
structure Absorbs (p q : Implicant) : Prop where
  covers : ∀ index, q.covers index = true → p.covers index = true
  dashes_eq : p.dashes = q.dashes + 1

theorem Apart.symm {p q : Implicant} (apart : p.Apart q) : q.Apart p :=
  fun index both => apart index both.symm

theorem Absorbs.not_apart {p q : Implicant} (absorbs : p.Absorbs q) : ¬p.Apart q := by
  intro apart
  obtain ⟨index, -, covered⟩ := q.exists_covered
  exact apart index ⟨absorbs.covers index covered, covered⟩

/-- Two different literals admit no bit in common. -/
theorem not_admits_both {a b : Symbol} (differ : a ≠ b) (left : a ≠ .dash) (right : b ≠ .dash)
    (bit : Bool) : ¬(a.admits bit = true ∧ b.admits bit = true) := by
  cases a <;> cases b <;> cases bit <;> simp_all [Symbol.admits]

section

variable (front back : List Symbol)

theorem aligned_split_iff (a b : Symbol) :
    (mk (front ++ a :: back)).Aligned ⟨front ++ b :: back⟩ ↔ (a = .dash ↔ b = .dash) := by
  constructor
  · intro aligned
    simpa using aligned front.length
  · intro same position
    by_cases here : position = front.length
    · subst here
      simpa using same
    -- Away from the position of the difference the two words have the same symbol.
    · have agree : (front ++ a :: back)[position]? = (front ++ b :: back)[position]? := by
        by_contra apart
        have differ : a ≠ b := fun equal => apart (by rw [equal])
        exact here ((getElem?_ne_iff front back differ position).mp apart)
      rw [agree]

theorem absorbs_split {symbol : Symbol} (fixed : symbol ≠ .dash) :
    (mk (front ++ .dash :: back)).Absorbs ⟨front ++ symbol :: back⟩ where
  covers := fun _ => (relaxesTo_dash front symbol back).covers
  dashes_eq := by simp [dashes_append_cons, fixed]

theorem apart_split {a b : Symbol} (differ : a ≠ b) (left : a ≠ .dash) (right : b ≠ .dash) :
    (mk (front ++ a :: back)).Apart ⟨front ++ b :: back⟩ := by
  rintro index ⟨first, second⟩
  simp only [covers, coversSymbols_append, coversSymbols, Bool.and_eq_true] at first second
  exact not_admits_both differ left right _ ⟨first.2.1, second.2.1⟩

end

/-- Two merging implicants are free at the same positions and have no index in common, or the result
is one of them and absorbs the other. -/
theorem combine_cases {p q merged : Implicant} (joined : p.combine q = some merged) :
    (p.Aligned q ∧ p.Apart q ∧ merged.dashes = p.dashes + 1 ∧ merged.dashes = q.dashes + 1)
      ∨ (merged = p ∧ ¬p.Aligned q ∧ p.Absorbs q) ∨ (merged = q ∧ ¬p.Aligned q ∧ q.Absorbs p) := by
  obtain ⟨⟨_⟩, ⟨_⟩, ⟨_⟩⟩ := p, q, merged
  obtain ⟨front, a, b, back, differ, rfl, rfl, rfl⟩ := (combine_eq_some_iff _ _ _).mp joined
  rw [aligned_split_iff]
  by_cases left : a = .dash
  · subst left
    exact .inr (.inl ⟨rfl, by simpa using differ.symm, absorbs_split front back differ.symm⟩)
  · by_cases right : b = .dash
    · subst right
      exact .inr (.inr ⟨rfl, by simpa using differ, absorbs_split front back differ⟩)
    · refine .inl ⟨iff_of_false left right, apart_split front back differ left right, ?_, ?_⟩
      · exact (absorbs_split front back left).dashes_eq
      · exact (absorbs_split front back right).dashes_eq

/-- Two merging implicants are free at the same positions exactly if they have equally many free
positions, and exactly then no index is covered by both and the result is free at one position more
than each of them. Otherwise the result is one of the two, and it absorbs the other. -/
theorem combine_frees_one_more_iff {p q merged : Implicant} (joined : p.combine q = some merged) :
    (p.Aligned q ↔ p.dashes = q.dashes)
    ∧ (p.Apart q ↔ p.dashes = q.dashes)
    ∧ (merged.dashes = p.dashes + 1 ∧ merged.dashes = q.dashes + 1 ↔ p.dashes = q.dashes)
    ∧ (p.dashes ≠ q.dashes → merged = p ∧ p.Absorbs q ∨ merged = q ∧ q.Absorbs p) := by
  rcases combine_cases joined with ⟨aligned, apart, left, right⟩ | ⟨rfl, unaligned, absorbs⟩
    | ⟨rfl, unaligned, absorbs⟩
  · have same : p.dashes = q.dashes := by omega
    exact ⟨iff_of_true aligned same, iff_of_true apart same, iff_of_true ⟨left, right⟩ same,
      fun differ => absurd same differ⟩
  · have more := absorbs.dashes_eq
    exact ⟨iff_of_false unaligned (by omega), iff_of_false absorbs.not_apart (by omega), by omega,
      fun _ => .inl ⟨rfl, absorbs⟩⟩
  · have more := absorbs.dashes_eq
    have meet : ¬p.Apart merged := fun apart => absorbs.not_apart apart.symm
    exact ⟨iff_of_false unaligned (by omega), iff_of_false meet (by omega), by omega,
      fun _ => .inr ⟨rfl, absorbs⟩⟩

/-- A 0 against a 1, and a free position against a 0. -/
theorem combine_frees_one_more_iff_aligned_and_absorbed :
    (mk [.zero, .dash]).combine ⟨[.one, .dash]⟩ = some ⟨[.dash, .dash]⟩
    ∧ (mk [.zero, .dash]).Aligned ⟨[.one, .dash]⟩ ∧ (mk [.zero, .dash]).Apart ⟨[.one, .dash]⟩
    ∧ (mk [.dash, .one]).combine ⟨[.zero, .one]⟩ = some ⟨[.dash, .one]⟩
    ∧ (mk [.dash, .one]).dashes ≠ (mk [.zero, .one]).dashes
    ∧ (mk [.dash, .one]).Absorbs ⟨[.zero, .one]⟩ := by
  have freed : (mk [.zero, .dash]).combine ⟨[.one, .dash]⟩ = some ⟨[.dash, .dash]⟩ := rfl
  have kept : (mk [.dash, .one]).combine ⟨[.zero, .one]⟩ = some ⟨[.dash, .one]⟩ := rfl
  have differ : (mk [.dash, .one]).dashes ≠ (mk [.zero, .one]).dashes := by decide
  obtain ⟨aligned, apart, -, -⟩ := combine_frees_one_more_iff freed
  refine ⟨freed, aligned.mpr rfl, apart.mpr rfl, kept, differ, ?_⟩
  rcases (combine_frees_one_more_iff kept).2.2.2 differ with ⟨-, absorbs⟩ | ⟨other, -⟩
  · exact absorbs
  · cases other

/-- A free position against a 0, beside one that is free in both: the two merge although they are
not free at the same positions, they share the index 2, and the result is the first of them. -/
theorem combine_of_unaligned :
    (mk [.dash, .one, .dash]).combine ⟨[.zero, .one, .dash]⟩ = some ⟨[.dash, .one, .dash]⟩
    ∧ ¬(mk [.dash, .one, .dash]).Aligned ⟨[.zero, .one, .dash]⟩
    ∧ (mk [.dash, .one, .dash]).covers 2 = true ∧ (mk [.zero, .one, .dash]).covers 2 = true
    ∧ (mk [.dash, .one, .dash]).dashes ≠ (mk [.dash, .one, .dash]).dashes + 1 := by
  refine ⟨rfl, fun aligned => ?_, rfl, rfl, by decide⟩
  have free : (mk [.zero, .one, .dash]).symbols[0]? = some .dash := (aligned 0).mp rfl
  simp at free

end TwoLevel.Implicant
