import TwoLevel.Chart.Greedy
import TwoLevel.Proofs.Chart.Incidence

/-!
# The greedy completion

A run of the greedy completion is a sequence of picks, each the first implicant of largest gain
against the hits so far, that ends when no term is uncovered. The gain of a pick is what it takes
from the number of uncovered terms. As long as the chart has no orphan there is a pick of positive
gain, so the run reaches its end within as many picks as there are uncovered terms at its start.

Every essential implicant has a term that no other implicant covers, and every pick gains a term. So
the greedy cover has no more implicants than there are terms.
-/
namespace TwoLevel.Chart

/-! ### Gains -/

theorem uncovered_cons (chart : Chart) (selected : List Nat) (p : Nat) :
    uncovered (chart.hits (p :: selected))
      = (uncovered (chart.hits selected)).filter fun r => !(chart.row p).contains r := by
  rw [uncovered, uncovered, positions, positions, size_hits, size_hits, List.filter_filter]
  apply List.filter_congr
  intro r inside
  rw [List.mem_range] at inside
  rw [getElem?_hits, getElem?_hits, if_pos inside, if_pos inside, List.countP_cons]
  cases (chart.row p).contains r <;> simp

theorem gain_eq_length (chart : Chart) (selected : List Nat) (p : Nat) :
    chart.gain (chart.hits selected) p
      = ((uncovered (chart.hits selected)).filter fun r => (chart.row p).contains r).length := by
  rw [gain, row_eq_filter, List.countP_filter, ← row_eq_filter, uncovered, positions, size_hits,
    List.filter_filter, ← List.countP_eq_length_filter]
  apply List.countP_congr
  intro r _
  rw [Bool.and_comm]

/-- Adding an implicant takes its gain from the number of uncovered terms. -/
theorem length_uncovered_add_gain (chart : Chart) (selected : List Nat) (p : Nat) :
    (uncovered (chart.hits (p :: selected))).length + chart.gain (chart.hits selected) p
      = (uncovered (chart.hits selected)).length := by
  rw [uncovered_cons, gain_eq_length, Nat.add_comm]
  exact (List.length_eq_length_filter_add _).symm

theorem gain_pos_iff (chart : Chart) (selected : List Nat) (p : Nat) :
    0 < chart.gain (chart.hits selected) p
      ↔ ∃ r ∈ uncovered (chart.hits selected), r ∈ chart.row p := by
  rw [gain, List.countP_pos_iff]
  constructor
  · rintro ⟨r, member, free⟩
    refine ⟨r, ?_, member⟩
    rw [uncovered, mem_positions]
    simpa [Option.any_eq_true] using free
  · rintro ⟨r, free, member⟩
    refine ⟨r, member, ?_⟩
    rw [uncovered, mem_positions] at free
    simpa [Option.any_eq_true] using free

/-! ### The best pick -/

/-- Of the positions below a bound, the first of largest gain, which is positive. -/
structure IsBestPick (chart : Chart) (hits : Array Nat) (bound : Nat) (pick : Pick) : Prop where
  inside : pick.position < bound
  gain_eq : pick.gain = chart.gain hits pick.position
  positive : 0 < pick.gain
  largest : ∀ p < bound, chart.gain hits p ≤ pick.gain
  first : ∀ p < pick.position, chart.gain hits p < pick.gain

theorem IsBestPick.gain_le {chart : Chart} {hits : Array Nat} {pick : Pick}
    (best : chart.IsBestPick hits chart.primes.size pick) (q : Nat) :
    chart.gain hits q ≤ pick.gain := by
  rcases Nat.lt_or_ge q chart.primes.size with inside | outside
  · exact best.largest q inside
  · simp [gain, row_eq_nil outside]

/-- Of the positions below a bound, none gains anything or the best pick is kept. -/
def KeepsBest (chart : Chart) (hits : Array Nat) (bound : Nat) : Option Pick → Prop
  | none => ∀ p < bound, chart.gain hits p = 0
  | some pick => chart.IsBestPick hits bound pick

theorem KeepsBest.succ {chart : Chart} {hits : Array Nat} {bound : Nat} {best : Option Pick}
    (keeps : chart.KeepsBest hits bound best) :
    chart.KeepsBest hits (bound + 1) (chart.keepBest hits best bound) := by
  cases best with
  | none =>
    by_cases gains : 0 < chart.gain hits bound
    · have smaller (p : Nat) (before : p < bound) : chart.gain hits p < chart.gain hits bound := by
        rw [keeps p before]
        exact gains
      simp only [keepBest, Option.map_none, Option.getD_none, if_pos gains]
      refine ⟨Nat.lt_succ_self bound, rfl, gains, Nat.forall_lt_succ_right.mpr ⟨?_, Nat.le_refl _⟩,
        smaller⟩
      exact fun p before => Nat.le_of_lt (smaller p before)
    · simp only [keepBest, Option.map_none, Option.getD_none, if_neg gains]
      exact Nat.forall_lt_succ_right.mpr ⟨keeps, Nat.eq_zero_of_not_pos gains⟩
  | some pick =>
    by_cases better : pick.gain < chart.gain hits bound
    · have smaller (p : Nat) (before : p < bound) : chart.gain hits p < chart.gain hits bound :=
        Nat.lt_of_le_of_lt (keeps.largest p before) better
      simp only [keepBest, Option.map_some, Option.getD_some, if_pos better]
      refine ⟨Nat.lt_succ_self bound, rfl, Nat.zero_lt_of_lt better,
        Nat.forall_lt_succ_right.mpr ⟨?_, Nat.le_refl _⟩, smaller⟩
      exact fun p before => Nat.le_of_lt (smaller p before)
    -- Of equal gains the earlier one stays, so the pick remains the first.
    · simp only [keepBest, Option.map_some, Option.getD_some, if_neg better]
      exact ⟨Nat.lt_succ_of_lt keeps.inside, keeps.gain_eq, keeps.positive,
        Nat.forall_lt_succ_right.mpr ⟨keeps.largest, Nat.le_of_not_lt better⟩, keeps.first⟩

theorem keepsBest_foldl (chart : Chart) (hits : Array Nat) (bound : Nat) :
    chart.KeepsBest hits bound ((List.range bound).foldl (chart.keepBest hits) none) := by
  induction bound with
  | zero => exact fun p inside => absurd inside (Nat.not_lt_zero p)
  | succ bound ih =>
    rw [List.range_succ, List.foldl_append]
    exact ih.succ

/-- Without an orphan, a selection that is no cover has a best pick. -/
theorem exists_bestPick (chart : Chart) (selected : List Nat)
    (coverable : chart.IsCover (List.range chart.primes.size))
    (incomplete : uncovered (chart.hits selected) ≠ []) :
    ∃ pick, chart.bestPick (chart.hits selected) = some pick
      ∧ chart.IsBestPick (chart.hits selected) chart.primes.size pick := by
  have best := keepsBest_foldl chart (chart.hits selected) chart.primes.size
  rw [← bestPick] at best
  cases kept : chart.bestPick (chart.hits selected) with
  | some pick =>
    rw [kept] at best
    exact ⟨pick, rfl, best⟩
  | none =>
    -- Some implicant covers an uncovered term, so it gains something.
    rw [kept] at best
    obtain ⟨r, free⟩ := List.exists_mem_of_ne_nil _ incomplete
    obtain ⟨p, inside, covered⟩ := coverable r ((mem_uncovered chart selected r).mp free).1
    have gains := (gain_pos_iff chart selected p).mpr ⟨r, free, covered⟩
    rw [best p (List.mem_range.mp inside)] at gains
    exact absurd gains (Nat.lt_irrefl 0)

/-! ### Runs -/

/-- The picks that lead from a selection to a cover, in the order in which they are made. -/
inductive GreedyRun (chart : Chart) : List Nat → List Nat → Prop
  | done {selected : List Nat} (complete : uncovered (chart.hits selected) = []) :
      GreedyRun chart selected []
  | pick {selected picked : List Nat} {pick : Pick}
      (incomplete : uncovered (chart.hits selected) ≠ [])
      (best : chart.IsBestPick (chart.hits selected) chart.primes.size pick)
      (later : GreedyRun chart (pick.position :: selected) picked) :
      GreedyRun chart selected (pick.position :: picked)

/-- Without an orphan, the completion is a run from the selection that it starts with. -/
theorem exists_greedyRun (chart : Chart) (budget : Nat) (selected : List Nat)
    (coverable : chart.IsCover (List.range chart.primes.size))
    (enough : (uncovered (chart.hits selected)).length ≤ budget) :
    ∃ picked, chart.picks budget (chart.hits selected) = .ok picked
      ∧ chart.GreedyRun selected picked := by
  induction budget generalizing selected with
  | zero =>
    have complete : uncovered (chart.hits selected) = [] :=
      List.eq_nil_of_length_eq_zero (Nat.le_zero.mp enough)
    exact ⟨[], rfl, .done complete⟩
  | succ budget ih =>
    by_cases complete : uncovered (chart.hits selected) = []
    · refine ⟨[], ?_, .done complete⟩
      rw [picks, if_pos (List.isEmpty_iff.mpr complete)]
    · obtain ⟨pick, kept, best⟩ := exists_bestPick chart selected coverable complete
      -- A pick of positive gain leaves fewer terms uncovered.
      have fewer := length_uncovered_add_gain chart selected pick.position
      have gained := best.positive
      rw [best.gain_eq] at gained
      obtain ⟨picked, returned, run⟩ := ih (pick.position :: selected) (by omega)
      refine ⟨pick.position :: picked, ?_, .pick complete best run⟩
      rw [picks, if_neg (by simpa using complete), kept]
      simp only [← hits_cons, returned, Except.map]

theorem GreedyRun.isCover {chart : Chart} {selected picked : List Nat}
    (run : chart.GreedyRun selected picked) : chart.IsCover (selected ++ picked) := by
  induction run with
  | done complete =>
    rw [List.append_nil]
    exact (uncovered_eq_nil_iff chart _).mp complete
  | pick _ _ _ ih =>
    intro r inside
    obtain ⟨p, member, covered⟩ := ih r inside
    refine ⟨p, ?_, covered⟩
    simpa [or_left_comm, or_assoc] using member

theorem GreedyRun.lt_size {chart : Chart} {selected picked : List Nat}
    (run : chart.GreedyRun selected picked) : ∀ p ∈ picked, p < chart.primes.size := by
  induction run with
  | done => simp
  | pick _ best _ ih =>
    intro p member
    rcases List.mem_cons.mp member with rfl | later
    · exact best.inside
    · exact ih p later

/-- Every pick gains a term. -/
theorem GreedyRun.length_le {chart : Chart} {selected picked : List Nat}
    (run : chart.GreedyRun selected picked) :
    picked.length ≤ (uncovered (chart.hits selected)).length := by
  induction run with
  | done => exact Nat.zero_le _
  | @pick selected _ pick _ best _ ih =>
    have fewer := length_uncovered_add_gain chart selected pick.position
    have gained := best.positive
    rw [best.gain_eq] at gained
    rw [List.length_cons]
    omega

/-- Without an orphan, the greedy cover consists of the essential implicants and a run from them. -/
theorem greedyCover_eq_ok (chart : Chart)
    (coverable : chart.IsCover (List.range chart.primes.size)) :
    ∃ picked, chart.greedyCover = .ok (ascending (chart.essentials ++ picked))
      ∧ chart.GreedyRun chart.essentials picked := by
  obtain ⟨picked, returned, run⟩ :=
    exists_greedyRun chart chart.required.size chart.essentials coverable
      (length_uncovered_le chart chart.essentials)
  exact ⟨picked, by rw [greedyCover, returned, Except.map], run⟩

end TwoLevel.Chart
