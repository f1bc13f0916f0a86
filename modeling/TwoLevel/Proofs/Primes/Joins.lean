import TwoLevel.Primes
import TwoLevel.Proofs.Implicant.Combination
import TwoLevel.Proofs.Implicant.Set

/-!
# The joins of a generation

Partners are looked up by their number of ones and their fixed positions. Nothing is missed by this:
the joins of a generation are all pairs of its members that are equal but for one position, where
the lower one has a 0 and the upper one a 1.
-/
namespace TwoLevel

/-- The two implicants of a join are equal but for a 0 against a 1, and the result is free there. -/
def Join.FreesOne (join : Join) : Prop :=
  ∃ front back, join.lower.symbols = front ++ .zero :: back
    ∧ join.upper.symbols = front ++ .one :: back ∧ join.merged.symbols = front ++ .dash :: back

theorem mem_joinsOf (uppers : List Implicant) (lower : Implicant) (join : Join) :
    join ∈ joinsOf uppers lower
      ↔ join.lower = lower ∧ join.upper ∈ uppers ∧ lower.combine join.upper = some join.merged := by
  simp only [joinsOf, List.mem_filterMap, Option.map_eq_some_iff]
  constructor
  · rintro ⟨upper, member, merged, joined, rfl⟩
    exact ⟨rfl, member, joined⟩
  · rintro ⟨rfl, member, joined⟩
    exact ⟨join.upper, member, join.merged, joined, rfl⟩

/-- What the look-up by shapes leaves to be joined. -/
theorem mem_joins (arity : Nat) (generation : List Implicant) (join : Join) :
    join ∈ joins arity generation
      ↔ join.lower.ones < arity ∧ join.lower ∈ generation ∧ join.upper ∈ generation
        ∧ shape join.upper = (join.lower.ones + 1, (shape join.lower).2)
        ∧ join.lower.combine join.upper = some join.merged := by
  simp only [joins, List.mem_flatMap, List.mem_range, List.mem_filter, mem_joinsOf, getD_byShape,
    beq_iff_eq]
  constructor
  · rintro ⟨count, few, lower, ⟨low, rfl⟩, rfl, ⟨high, shaped⟩, joined⟩
    exact ⟨few, low, high, shaped, joined⟩
  · rintro ⟨few, low, high, shaped, joined⟩
    exact ⟨_, few, join.lower, ⟨low, rfl⟩, rfl, ⟨high, shaped⟩, joined⟩

theorem ones_append_cons (front : List Symbol) (symbol : Symbol) (back : List Symbol) :
    (Implicant.mk (front ++ symbol :: back)).ones
      = (Implicant.mk (front ++ back)).ones + if symbol = .one then 1 else 0 := by
  cases symbol <;> simp [Implicant.ones, List.count_append, Nat.add_assoc]

/-- Of two words that depart from each other at one position, the shapes are neighbours exactly if
the first has a 0 and the second a 1 there. -/
theorem shape_neighbours_iff (front back : List Symbol) {a b : Symbol} (differ : a ≠ b) :
    shape ⟨front ++ b :: back⟩
        = ((Implicant.mk (front ++ a :: back)).ones + 1, (shape ⟨front ++ a :: back⟩).2)
      ↔ a = .zero ∧ b = .one := by
  simp only [shape, ones_append_cons, List.map_append, List.map_cons, Prod.mk.injEq,
    List.append_cancel_left_eq, List.cons.injEq, and_true]
  -- Both symbols fix the position, and the second word has one more 1.
  cases a <;> cases b <;> simp [Symbol.isLiteral] at differ ⊢
  omega

theorem ones_lt_width (front back : List Symbol) :
    (Implicant.mk (front ++ .zero :: back)).ones
      < (Implicant.mk (front ++ .zero :: back)).width := by
  have others : (Implicant.mk (front ++ back)).ones ≤ (front ++ back).length := List.count_le_length
  rw [ones_append_cons, if_neg (by decide), Implicant.width]
  simp only [List.length_append, List.length_cons] at others ⊢
  omega

/-- The joins of a generation are all its pairs with a 0 against a 1 as their only difference. -/
theorem mem_joins_iff {arity : Nat} {generation : List Implicant}
    (widths : ∀ p ∈ generation, p.width = arity) (join : Join) :
    join ∈ joins arity generation
      ↔ join.lower ∈ generation ∧ join.upper ∈ generation ∧ join.FreesOne := by
  obtain ⟨⟨low⟩, ⟨high⟩, ⟨merged⟩⟩ := join
  rw [mem_joins]
  simp only [Implicant.combine_eq_some_iff, Join.FreesOne]
  constructor
  · rintro ⟨-, lower, upper, shaped, front, a, b, back, differ, rfl, rfl, rfl⟩
    obtain ⟨rfl, rfl⟩ := (shape_neighbours_iff front back differ).mp shaped
    exact ⟨lower, upper, front, back, rfl, rfl, rfl⟩
  · rintro ⟨lower, upper, front, back, rfl, rfl, rfl⟩
    have differ : Symbol.zero ≠ Symbol.one := by decide
    have few := ones_lt_width front back
    rw [widths _ lower] at few
    exact ⟨few, lower, upper, (shape_neighbours_iff front back differ).mpr ⟨rfl, rfl⟩,
      front, .zero, .one, back, differ, rfl, rfl, rfl⟩

@[simp] theorem mem_nextGeneration (found : List Join) (p : Implicant) :
    p ∈ (nextGeneration found).toList ↔ ∃ join ∈ found, join.merged = p := by
  simp [nextGeneration]

theorem mem_consumed (found : List Join) (p : Implicant) :
    p ∈ consumed found ↔ ∃ join ∈ found, p = join.lower ∨ p = join.upper := by
  -- Members of the set at hand stay in it while the joins are gone through.
  have general : ∀ used : Std.HashSet Implicant,
      p ∈ found.foldl (fun used join => (used.insert join.lower).insert join.upper) used
        ↔ p ∈ used ∨ ∃ join ∈ found, p = join.lower ∨ p = join.upper := by
    induction found with
    | nil => simp
    | cons join rest ih =>
      intro used
      rw [List.foldl_cons, ih]
      simp only [Std.HashSet.mem_insert, beq_iff_eq, List.mem_cons, exists_eq_or_imp]
      grind
  rw [consumed, general]
  simp

theorem mem_unmerged (generation : List Implicant) (found : List Join) (p : Implicant) :
    p ∈ unmerged generation found
      ↔ p ∈ generation ∧ ∀ join ∈ found, p ≠ join.lower ∧ p ≠ join.upper := by
  have used := mem_consumed found p
  rw [← Std.HashSet.contains_iff_mem] at used
  simp only [unmerged, List.mem_filter, Bool.not_eq_true', ← Bool.not_eq_true, used, not_exists,
    not_and, not_or, ne_eq]

end TwoLevel
