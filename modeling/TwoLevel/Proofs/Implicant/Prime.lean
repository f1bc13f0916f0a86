import Mathlib.Data.List.Forall2
import TwoLevel.Proofs.Implicant.Combination
import TwoLevel.Proofs.Implicant.Expansion

/-!
# Prime implicants of a set of terms

An implicant relaxes to another when some of its fixed positions are freed. Relaxing only adds
indices to those covered, and it can be done one position at a time: an implicant that relaxes to an
implicant of the terms is one itself, so an implicant is prime as soon as no single position of it
can be freed.

Freeing positions until none can be freed any more leads from every implicant of the terms to a
prime one, which has no more literals.
-/
namespace TwoLevel

/-- A position stays as it is or becomes free. -/
def Symbol.KeptOrFreed (before after : Symbol) : Prop := after = before ∨ after = .dash

namespace Implicant

/-- The second implicant is the first with some positions freed, possibly none. -/
def RelaxesTo (p q : Implicant) : Prop := List.Forall₂ Symbol.KeptOrFreed p.symbols q.symbols

/-- Over a number of variables, the implicant covers no index but those of the terms. Of each term
only the low bits count. -/
structure IsImplicantOf (p : Implicant) (terms : List Nat) (arity : Nat) : Prop where
  width_eq : p.width = arity
  listed : ∀ index < Word.count arity, p.covers index = true →
    ∃ term ∈ terms, term % Word.count arity = index

/-- An implicant of the terms that is none any more when positions of it are freed. -/
structure IsPrimeOf (p : Implicant) (terms : List Nat) (arity : Nat) : Prop where
  isImplicantOf : p.IsImplicantOf terms arity
  maximal : ∀ q, p.RelaxesTo q → q ≠ p → ¬q.IsImplicantOf terms arity

/-! ### Relaxation -/

theorem relaxesTo_refl (p : Implicant) : p.RelaxesTo p :=
  List.forall₂_same.mpr fun _ _ => .inl rfl

theorem relaxesTo_dash (front : List Symbol) (symbol : Symbol) (back : List Symbol) :
    (mk (front ++ symbol :: back)).RelaxesTo (mk (front ++ .dash :: back)) := by
  apply List.rel_append
  · exact List.forall₂_same.mpr fun _ _ => .inl rfl
  · exact .cons (.inr rfl) (List.forall₂_same.mpr fun _ _ => .inl rfl)

theorem RelaxesTo.trans {p q r : Implicant} (first : p.RelaxesTo q) (second : q.RelaxesTo r) :
    p.RelaxesTo r := by
  obtain ⟨before⟩ := p
  obtain ⟨middle⟩ := q
  obtain ⟨after⟩ := r
  simp only [RelaxesTo] at *
  induction first generalizing after with
  | nil => exact second
  | cons here _ ih =>
    cases second with
    | cons there later =>
      refine .cons ?_ (ih _ later)
      rcases there with rfl | rfl
      · exact here
      · exact .inr rfl

theorem RelaxesTo.width_eq {p q : Implicant} (relaxed : p.RelaxesTo q) : p.width = q.width :=
  List.Forall₂.length_eq relaxed

/-- Freeing positions keeps every index covered. -/
theorem RelaxesTo.covers {p q : Implicant} (relaxed : p.RelaxesTo q) {index : Nat}
    (covered : p.covers index = true) : q.covers index = true := by
  obtain ⟨before⟩ := p
  obtain ⟨after⟩ := q
  simp only [RelaxesTo, Implicant.covers] at *
  induction relaxed with
  | nil => exact covered
  | cons here later ih =>
    simp only [coversSymbols, Bool.and_eq_true] at covered ⊢
    refine ⟨?_, ih covered.2⟩
    rw [← later.length_eq]
    rcases here with rfl | rfl
    · exact covered.1
    · rfl

/-- A proper relaxation frees a position first and then perhaps others. -/
theorem RelaxesTo.exists_step {p q : Implicant} (relaxed : p.RelaxesTo q) (differ : q ≠ p) :
    ∃ front symbol back, symbol ≠ .dash ∧ p.symbols = front ++ symbol :: back
      ∧ (mk (front ++ .dash :: back)).RelaxesTo q := by
  obtain ⟨before⟩ := p
  obtain ⟨after⟩ := q
  simp only [RelaxesTo, ne_eq, mk.injEq] at *
  induction relaxed with
  | nil => exact absurd rfl differ
  | @cons symbol kept before after here later ih =>
    by_cases same : kept = symbol
    -- The first freed position lies further behind.
    · subst same
      have rest : after ≠ before := fun equal => differ (by rw [equal])
      obtain ⟨front, freed, back, fixed, rfl, relaxed⟩ := ih rest
      exact ⟨kept :: front, freed, back, fixed, rfl, .cons (.inl rfl) relaxed⟩
    · rcases here with equal | rfl
      · exact absurd equal same
      · exact ⟨[], symbol, before, fun fixed => same fixed.symm, rfl, .cons (.inl rfl) later⟩

theorem dashes_append_cons (front : List Symbol) (symbol : Symbol) (back : List Symbol) :
    (mk (front ++ symbol :: back)).dashes
      = (mk (front ++ back)).dashes + if symbol = .dash then 1 else 0 := by
  cases symbol <;> simp [dashes, List.count_append, Nat.add_assoc]

theorem exists_dash {p : Implicant} {count : Nat} (dashes : p.dashes = count + 1) :
    ∃ front back, p = mk (front ++ .dash :: back) := by
  obtain ⟨symbols⟩ := p
  have free : Symbol.dash ∈ symbols := by
    apply List.count_pos_iff.mp
    simp only [Implicant.dashes] at dashes
    omega
  obtain ⟨front, back, split⟩ := List.append_of_mem free
  exact ⟨front, back, congrArg mk split⟩

theorem RelaxesTo.dashes_le {p q : Implicant} (relaxed : p.RelaxesTo q) : p.dashes ≤ q.dashes := by
  obtain ⟨before⟩ := p
  obtain ⟨after⟩ := q
  simp only [RelaxesTo, dashes] at *
  induction relaxed with
  | nil => exact Nat.le_refl _
  | cons here _ ih =>
    rcases here with rfl | rfl
    · simp only [List.count_cons]
      omega
    · simp only [List.count_cons]
      split <;> simp <;> omega

theorem RelaxesTo.literalCount_le {p q : Implicant} (relaxed : p.RelaxesTo q) :
    q.literalCount ≤ p.literalCount := by
  have before := p.literalCount_add_dashes
  have after := q.literalCount_add_dashes
  have widths := relaxed.width_eq
  have dashes := relaxed.dashes_le
  omega

/-! ### Implicants of terms -/

theorem RelaxesTo.isImplicantOf {p q : Implicant} {terms : List Nat} {arity : Nat}
    (relaxed : p.RelaxesTo q) (larger : q.IsImplicantOf terms arity) :
    p.IsImplicantOf terms arity where
  width_eq := relaxed.width_eq.trans larger.width_eq
  listed := fun index bounded covered => larger.listed index bounded (relaxed.covers covered)

/-- With a position free, an implicant is one of the terms exactly if it is with the position fixed
to either bit. -/
theorem isImplicantOf_dash_iff (front back : List Symbol) (terms : List Nat) (arity : Nat) :
    (mk (front ++ .dash :: back)).IsImplicantOf terms arity
      ↔ (mk (front ++ .zero :: back)).IsImplicantOf terms arity
        ∧ (mk (front ++ .one :: back)).IsImplicantOf terms arity := by
  constructor
  · intro free
    exact ⟨(relaxesTo_dash front .zero back).isImplicantOf free,
      (relaxesTo_dash front .one back).isImplicantOf free⟩
  · rintro ⟨low, high⟩
    refine ⟨by simpa [width] using low.width_eq, fun index bounded covered => ?_⟩
    have parts := covers_dash front back (a := .zero) (b := .one) (by decide) index
    rw [covered, eq_comm, Bool.or_eq_true] at parts
    rcases parts with lower | upper
    · exact low.listed index bounded lower
    · exact high.listed index bounded upper

theorem isImplicantOf_ofIndex {terms : List Nat} {term : Nat} (member : term ∈ terms)
    (arity : Nat) :
    (ofIndex term arity).IsImplicantOf terms arity where
  width_eq := width_ofIndex term arity
  listed := by
    intro index bounded covered
    have same := (covers_ofIndex index term arity).mp covered
    rw [Nat.mod_eq_of_lt bounded] at same
    exact ⟨term, member, same.symm⟩

theorem IsImplicantOf.exists_eq_ofIndex {p : Implicant} {terms : List Nat} {arity : Nat}
    (implicant : p.IsImplicantOf terms arity) (fixed : p.dashes = 0) :
    ∃ term ∈ terms, p = ofIndex term arity := by
  obtain ⟨index, bounded, covered⟩ := p.exists_covered
  rw [implicant.width_eq] at bounded
  obtain ⟨term, member, same⟩ := implicant.listed index bounded covered
  refine ⟨term, member, ?_⟩
  rw [eq_ofIndex_of_covers p index fixed covered, implicant.width_eq]
  apply ofIndex_congr
  rw [same, Nat.mod_eq_of_lt bounded]

/-! ### Primes -/

/-- An implicant of the terms is prime exactly if none of its fixed positions can be freed alone. -/
theorem isPrimeOf_iff (p : Implicant) (terms : List Nat) (arity : Nat) :
    p.IsPrimeOf terms arity ↔ p.IsImplicantOf terms arity
      ∧ ∀ front symbol back, symbol ≠ .dash → p.symbols = front ++ symbol :: back →
        ¬(mk (front ++ .dash :: back)).IsImplicantOf terms arity := by
  constructor
  · rintro ⟨implicant, maximal⟩
    refine ⟨implicant, fun front symbol back fixed equal => ?_⟩
    obtain ⟨symbols⟩ := p
    change symbols = _ at equal
    subst equal
    apply maximal _ (relaxesTo_dash front symbol back)
    simp [Ne.symm fixed]
  · rintro ⟨implicant, single⟩
    refine ⟨implicant, fun q relaxed differ larger => ?_⟩
    obtain ⟨front, symbol, back, fixed, equal, further⟩ := relaxed.exists_step differ
    exact single front symbol back fixed equal (further.isImplicantOf larger)

/-- Every implicant of the terms relaxes to a prime one. -/
theorem IsImplicantOf.exists_prime {p : Implicant} {terms : List Nat} {arity : Nat}
    (implicant : p.IsImplicantOf terms arity) :
    ∃ q, p.RelaxesTo q ∧ q.IsPrimeOf terms arity := by
  -- Each freed position is a literal less, so freeing comes to an end.
  induction count : p.literalCount using Nat.strongRecOn generalizing p with
  | ind literals ih =>
    by_cases prime : p.IsPrimeOf terms arity
    · exact ⟨p, relaxesTo_refl p, prime⟩
    · rw [isPrimeOf_iff] at prime
      push Not at prime
      obtain ⟨front, symbol, back, fixed, equal, larger⟩ := prime implicant
      obtain ⟨symbols⟩ := p
      change symbols = _ at equal
      subst equal
      have fewer : (Implicant.mk (front ++ .dash :: back)).literalCount < literals := by
        have before := literalCount_add_dashes ⟨front ++ symbol :: back⟩
        have after := literalCount_add_dashes ⟨front ++ .dash :: back⟩
        have widths := (relaxesTo_dash front symbol back).width_eq
        rw [dashes_append_cons, if_neg fixed] at before
        rw [dashes_append_cons, if_pos rfl] at after
        omega
      obtain ⟨q, relaxed, prime⟩ := ih _ fewer larger rfl
      exact ⟨q, (relaxesTo_dash front symbol back).trans relaxed, prime⟩

end Implicant

end TwoLevel
