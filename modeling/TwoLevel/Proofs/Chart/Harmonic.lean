import Mathlib.Algebra.BigOperators.Field
import Mathlib.Algebra.Order.BigOperators.Group.Finset
import Mathlib.Algebra.Order.Field.Rat
import Mathlib.NumberTheory.Harmonic.Defs
import Mathlib.Tactic.Linarith
import Mathlib.Tactic.Positivity
import TwoLevel.Proofs.Chart.Limit

/-!
# How far the greedy cover is from a least one

Weigh each implicant of some other cover with the harmonic number of the terms that it could still
gain. A pick takes as many terms from these gains together as it gains itself, because each term it
gains is covered by the other cover, and no gain exceeds its own: so the weights drop by at least
one with every pick. There are then no more picks than the weights at the start of the run amount
to.

The essential implicants are in every cover, so only the rest of the other cover has to be weighed.
-/
namespace TwoLevel

theorem div_le_harmonic_sub {less more bound : Nat} (order : less ≤ more) (bounded : more ≤ bound) :
    ((more : ℚ) - less) / bound ≤ harmonic more - harmonic less := by
  induction more, order using Nat.le_induction with
  | base => simp
  | succ more order ih =>
    -- The reciprocal that is added is none of those beyond the bound.
    have added : (1 : ℚ) / bound ≤ ((more + 1 : ℕ) : ℚ)⁻¹ := by
      rw [one_div]
      exact inv_anti₀ (by positivity) (by exact_mod_cast bounded)
    have before := ih (Nat.le_of_succ_le bounded)
    rw [harmonic_succ, Nat.cast_succ, add_sub_right_comm, add_div]
    rw [Nat.cast_succ] at added
    linarith

theorem harmonic_mono {less more : Nat} (order : less ≤ more) : harmonic less ≤ harmonic more := by
  have grown := div_le_harmonic_sub order (Nat.le_refl more)
  have positive : (0 : ℚ) ≤ ((more : ℚ) - less) / more :=
    div_nonneg (sub_nonneg.mpr (by exact_mod_cast order)) (Nat.cast_nonneg more)
  linarith

namespace Chart

/-- The largest number of terms that one implicant covers. -/
def widest (chart : Chart) : Nat :=
  ((List.range chart.primes.size).map fun p => (chart.row p).length).max?.getD 0

theorem length_row_le_widest (chart : Chart) (p : Nat) : (chart.row p).length ≤ chart.widest := by
  rcases Nat.lt_or_ge p chart.primes.size with inside | outside
  · exact List.le_max?_getD_of_mem (List.mem_map.mpr ⟨p, List.mem_range.mpr inside, rfl⟩)
  · simp [row_eq_nil outside]

/-! ### What a pick takes from the other gains -/

/-- The number of terms that two implicants would both gain. -/
def sharedGain (chart : Chart) (selected : List Nat) (p q : Nat) : Nat :=
  (((uncovered (chart.hits selected)).filter fun r => (chart.row p).contains r).filter fun r =>
    (chart.row q).contains r).length

theorem gain_add_sharedGain (chart : Chart) (selected : List Nat) (p q : Nat) :
    chart.gain (chart.hits (p :: selected)) q + chart.sharedGain selected p q
      = chart.gain (chart.hits selected) q := by
  rw [gain_eq_length, gain_eq_length, uncovered_cons, sharedGain, List.filter_comm, Nat.add_comm,
    List.filter_comm]
  exact (List.length_eq_length_filter_add _).symm

/-- Each term that an implicant gains is shared with an implicant that covers it. -/
theorem gain_le_sum_sharedGain (chart : Chart) (selected : List Nat) (p : Nat) {others : Finset Nat}
    (covered : ∀ r ∈ uncovered (chart.hits selected), ∃ q ∈ others, r ∈ chart.row q) :
    chart.gain (chart.hits selected) p ≤ ∑ q ∈ others, chart.sharedGain selected p q := by
  rw [gain_eq_length]
  have nodup : (uncovered (chart.hits selected)).Nodup := List.nodup_range.filter _
  rw [← List.toFinset_card_of_nodup (nodup.filter _)]
  calc _ ≤ (others.biUnion fun q =>
        (((uncovered (chart.hits selected)).filter fun r => (chart.row p).contains r).filter
          fun r => (chart.row q).contains r).toFinset).card := by
        apply Finset.card_le_card
        intro r gained
        obtain ⟨free, listed⟩ := List.mem_filter.mp (List.mem_toFinset.mp gained)
        obtain ⟨q, other, covers⟩ := covered r free
        simp only [Finset.mem_biUnion, List.mem_toFinset, List.mem_filter]
        exact ⟨q, other, ⟨free, listed⟩, List.contains_iff_mem.mpr covers⟩
    _ ≤ _ := Finset.card_biUnion_le.trans (Finset.sum_le_sum fun q _ => List.toFinset_card_le _)

/-- What other implicants could still gain, weighed with harmonic numbers. -/
def weight (chart : Chart) (selected : List Nat) (others : Finset Nat) : ℚ :=
  ∑ q ∈ others, harmonic (chart.gain (chart.hits selected) q)

section

variable {chart : Chart} {selected picked : List Nat} {others : Finset Nat}
  (covered : ∀ r ∈ uncovered (chart.hits selected), ∃ q ∈ others, r ∈ chart.row q)

include covered

/-- A best pick takes at least one from the weight. -/
theorem IsBestPick.weight_cons_add_one_le {pick : Pick}
    (best : chart.IsBestPick (chart.hits selected) chart.primes.size pick) :
    chart.weight (pick.position :: selected) others + 1 ≤ chart.weight selected others := by
  have positive : (0 : ℚ) < pick.gain := by exact_mod_cast best.positive
  -- What the others share with the pick comes to its gain, and each loses at least its part.
  have shares :
      (1 : ℚ) ≤ ∑ q ∈ others, (chart.sharedGain selected pick.position q : ℚ) / pick.gain := by
    have all := gain_le_sum_sharedGain chart selected pick.position covered
    rw [← best.gain_eq] at all
    rw [← Finset.sum_div, one_le_div positive]
    exact_mod_cast all
  have each (q : Nat) : harmonic (chart.gain (chart.hits (pick.position :: selected)) q)
      + (chart.sharedGain selected pick.position q : ℚ) / pick.gain
        ≤ harmonic (chart.gain (chart.hits selected) q) := by
    have split := gain_add_sharedGain chart selected pick.position q
    have drop := div_le_harmonic_sub (Nat.le.intro split) (best.gain_le q)
    rw [← split, Nat.cast_add, add_sub_cancel_left, split] at drop
    linarith
  have together := Finset.sum_le_sum fun q (_ : q ∈ others) => each q
  rw [Finset.sum_add_distrib] at together
  simp only [weight]
  linarith

/-- There are no more picks than the weight at the start of the run. -/
theorem GreedyRun.length_le_weight (run : chart.GreedyRun selected picked) :
    (picked.length : ℚ) ≤ chart.weight selected others := by
  induction run with
  | done =>
    have nonneg (n : Nat) : 0 ≤ harmonic n := harmonic_mono n.zero_le
    simpa [weight] using Finset.sum_nonneg fun q _ => nonneg _
  | @pick selected picked pick _ best _ ih =>
    -- The others still cover what is open after the pick.
    have later : (picked.length : ℚ) ≤ chart.weight (pick.position :: selected) others := by
      apply ih
      intro r free
      rw [uncovered_cons] at free
      exact covered r (List.mem_filter.mp free).1
    have dropped := best.weight_cons_add_one_le covered
    rw [List.length_cons, Nat.cast_succ]
    linarith

end

theorem weight_le (chart : Chart) (selected : List Nat) (others : Finset Nat) :
    chart.weight selected others ≤ others.card * harmonic chart.widest := by
  rw [← nsmul_eq_mul]
  apply Finset.sum_le_card_nsmul
  intro q _
  exact harmonic_mono (List.countP_le_length.trans (length_row_le_widest chart q))

/-- Where there is an essential implicant, the widest one covers a term. -/
theorem length_essentials_le (chart : Chart) :
    (chart.essentials.length : ℚ) ≤ chart.essentials.length * harmonic chart.widest := by
  cases listed : chart.essentials with
  | nil => simp
  | cons p rest =>
    have essential : p ∈ chart.essentials := by simp [listed]
    obtain ⟨r, -, only⟩ := (mem_essentials chart p).mp essential
    have covered : r ∈ chart.row p := (mem_column chart p r).mp (by simp [only])
    have wide := length_row_le_widest chart p
    have one_le : (1 : ℚ) ≤ harmonic chart.widest := by
      have mono := harmonic_mono (Nat.le_trans (List.length_pos_of_mem covered) wide)
      simpa using mono
    exact le_mul_of_one_le_right (Nat.cast_nonneg _) one_le

/-- The picks from the essential implicants on, against the rest of another cover. -/
theorem GreedyRun.length_le_harmonic_mul {chart : Chart} {picked cover : List Nat}
    (run : chart.GreedyRun chart.essentials picked) (covers : chart.IsCover cover) :
    ((chart.essentials.length + picked.length : ℕ) : ℚ) ≤ harmonic chart.widest * cover.length := by
  have covered : ∀ r ∈ uncovered (chart.hits chart.essentials),
      ∃ q ∈ cover.toFinset \ chart.essentials.toFinset, r ∈ chart.row q := by
    intro r free
    obtain ⟨within, alone⟩ := (mem_uncovered chart _ r).mp free
    obtain ⟨q, member, listed⟩ := covers r within
    have fresh : q ∉ chart.essentials := fun essential => alone q essential listed
    exact ⟨q, by simp [member, fresh], listed⟩
  have picks := (run.length_le_weight covered).trans (weight_le chart _ _)
  have essentials := length_essentials_le chart
  -- The essential implicants are among those of the cover, so both count once.
  have count : chart.essentials.length + (cover.toFinset \ chart.essentials.toFinset).card
      ≤ cover.length := by
    have nodup : chart.essentials.Nodup := (pairwise_ascending _).imp Nat.ne_of_lt
    have included : chart.essentials.toFinset ⊆ cover.toFinset := fun p essential =>
      List.mem_toFinset.mpr (mem_of_mem_essentials (List.mem_toFinset.mp essential) covers)
    have whole := Finset.card_sdiff_add_card_eq_card included
    have shorter := cover.toFinset_card_le
    rw [List.toFinset_card_of_nodup nodup] at whole
    omega
  calc ((chart.essentials.length + picked.length : ℕ) : ℚ)
      ≤ (chart.essentials.length + (cover.toFinset \ chart.essentials.toFinset).card : ℕ)
          * harmonic chart.widest := by
        push_cast
        linarith
    _ ≤ cover.length * harmonic chart.widest :=
        mul_le_mul_of_nonneg_right (by exact_mod_cast count) (harmonic_mono (Nat.zero_le _))
    _ = harmonic chart.widest * cover.length := mul_comm _ _

/-- On a chart without an orphan the greedy cover has at most as many implicants as any other cover,
and so as a least one, times the harmonic number of the terms that the widest implicant covers. -/
theorem solve_greedy_le_harmonic_mul (chart : Chart) (settings : Settings)
    (full : chart.orphans = []) :
    ∃ greedy, chart.solve { settings with strategy := .greedy } = .ok greedy ∧ chart.IsCover greedy
      ∧ ∀ cover, chart.IsCover cover →
        (greedy.length : ℚ) ≤ harmonic chart.widest * cover.length := by
  have coverable := (orphans_eq_nil_iff chart).mp full
  obtain ⟨picked, returned, run⟩ := greedyCover_eq_ok chart coverable
  refine ⟨_, solve_eq_ok chart { settings with strategy := .greedy } coverable returned, ?_, ?_⟩
  · intro r inside
    obtain ⟨p, member, covered⟩ := run.isCover r inside
    exact ⟨p, (mem_ascending _ p).mpr member, covered⟩
  · intro cover covers
    have shorter := length_ascending_le (chart.essentials ++ picked)
    rw [List.length_append] at shorter
    exact le_trans (by exact_mod_cast shorter) (run.length_le_harmonic_mul covers)

theorem solve_greedy_le_harmonic_mul_misleading :
    misleading.orphans = [] ∧ ∃ greedy,
      misleading.solve { Settings.standard with strategy := .greedy } = .ok greedy
      ∧ misleading.IsCover greedy
      ∧ ∀ cover, misleading.IsCover cover →
        (greedy.length : ℚ) ≤ harmonic misleading.widest * cover.length := by
  exact ⟨orphans_misleading, solve_greedy_le_harmonic_mul misleading .standard orphans_misleading⟩

end Chart

end TwoLevel
