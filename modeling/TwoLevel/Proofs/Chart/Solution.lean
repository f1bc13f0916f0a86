import TwoLevel.Chart.Exact
import TwoLevel.Proofs.Chart.Exact

/-!
# Solving a chart

A chart without an orphan is solved under all settings, by an ascending selection that covers every
term and has no more implicants than there are terms. With the exact strategy, and unless the limit
cuts the search, no cover costs less.
-/
namespace TwoLevel.Chart

/-- Whether the limit cuts the exact search, which starts from the greedy cover. -/
def cutByLimit (chart : Chart) (limit : Nat) : Bool :=
  match chart.greedyCover with
  | .ok greedy => (chart.exactSearch limit greedy).exhausted
  | .error _ => false

theorem IsSelection.perm {chart : Chart} {left right : List Nat}
    (selection : chart.IsSelection left) (perm : left.Perm right) : chart.IsSelection right where
  nodup := perm.nodup_iff.mp selection.nodup
  lt_size := fun p member => selection.lt_size p (perm.mem_iff.mpr member)
  essential := fun p essential => perm.mem_iff.mp (selection.essential p essential)

theorem IsCover.perm {chart : Chart} {left right : List Nat} (cover : chart.IsCover left)
    (perm : left.Perm right) : chart.IsCover right := by
  intro r inside
  obtain ⟨p, member, covered⟩ := cover r inside
  exact ⟨p, perm.mem_iff.mp member, covered⟩

theorem cost_perm (chart : Chart) {left right : List Nat} (perm : left.Perm right) :
    chart.cost left = chart.cost right := by
  have literals : (chart.cost left).literals = (chart.cost right).literals := by
    rw [literals_cost, literals_cost, (perm.map _).sum_nat]
  rw [cost, cost, Cost.mk.injEq]
  exact ⟨perm.length_eq, literals⟩

/-- What every answer of a solver is: a selection in ascending order that covers every term and has
no more implicants than there are terms. -/
structure IsSolution (chart : Chart) (selected : List Nat) : Prop where
  selection : chart.IsSelection selected
  cover : chart.IsCover selected
  ascending : selected.Pairwise (· < ·)
  length_le : selected.length ≤ chart.required.size

/-! ### The greedy cover -/

theorem exists_greedyCover (chart : Chart)
    (coverable : chart.IsCover (List.range chart.primes.size)) :
    ∃ greedy, chart.greedyCover = .ok greedy ∧ chart.IsSolution greedy := by
  obtain ⟨picked, returned, run⟩ := greedyCover_eq_ok chart coverable
  have sorted := pairwise_ascending (chart.essentials ++ picked)
  have nodup : (ascending (chart.essentials ++ picked)).Nodup := sorted.imp Nat.ne_of_lt
  refine ⟨_, returned, ⟨nodup, ?_, ?_⟩, ?_, sorted, ?_⟩
  · intro p member
    rcases List.mem_append.mp ((mem_ascending _ p).mp member) with essential | later
    · exact lt_of_mem_essentials essential
    · exact run.lt_size p later
  · exact fun p essential => (mem_ascending _ p).mpr (List.mem_append_left _ essential)
  · intro r inside
    obtain ⟨p, member, covered⟩ := run.isCover r inside
    exact ⟨p, (mem_ascending _ p).mpr member, covered⟩
  -- The essential implicants have terms of their own, and the picks gain the other ones.
  · have shorter := length_ascending_le (chart.essentials ++ picked)
    have own := length_essentials_add_uncovered_le chart
    have gained := run.length_le
    rw [List.length_append] at shorter
    omega

/-! ### The exact cover -/

section

variable {chart : Chart} {known : List Nat} (solution : chart.IsSolution known) (limit : Nat)

/-- The exact cover is the best cover of the search in another order. -/
theorem perm_exactCover (chart : Chart) (limit : Nat) (known : List Nat) :
    (chart.exactSearch limit known).best.Perm (chart.exactCover limit known) :=
  (List.mergeSort_perm _ _).symm

include solution

/-- The search starts from a cover, so its best cover is always one. -/
theorem sound_exactSearch : (chart.exactSearch limit known).Sound chart :=
  sound_explore chart limit _ _ (sound_start chart known solution.selection solution.cover)

theorem cost_exactCover :
    chart.cost (chart.exactCover limit known) = (chart.exactSearch limit known).bestCost := by
  rw [← cost_perm chart (perm_exactCover chart limit known)]
  exact (sound_exactSearch solution limit).bestCost_eq.symm

theorem cost_exactCover_le : chart.cost (chart.exactCover limit known) ≤ chart.cost known := by
  rw [cost_exactCover solution]
  exact (advances_explore chart limit _ (.start chart known)).bestCost_le

/-- A search that the limit did not cut ends with a cover of least cost. -/
theorem cost_exactCover_le_of_not_cut (returned : chart.greedyCover = .ok known)
    (finished : chart.cutByLimit limit = false) {cover : List Nat} (covers : chart.IsCover cover) :
    chart.cost (chart.exactCover limit known) ≤ chart.cost cover := by
  simp only [cutByLimit, returned] at finished
  rw [cost_exactCover solution]
  exact bestCost_exactSearch_le chart limit known solution.selection solution.cover finished
    cover covers

theorem isSolution_exactCover : chart.IsSolution (chart.exactCover limit known) := by
  have sound := sound_exactSearch solution limit
  have perm := perm_exactCover chart limit known
  have selection := sound.best_selection.perm perm
  refine ⟨selection, sound.best_cover.perm perm, ?_, ?_⟩
  · have sorted := pairwise_mergeSort (chart.exactSearch limit known).best
    exact (sorted.and selection.nodup).imp fun order => Nat.lt_of_le_of_ne order.1 order.2
  -- It is no dearer than the known cover, so it has no more implicants.
  · have cheap := (Cost.le_iff _ _).mp (cost_exactCover_le solution limit)
    have known_le := solution.length_le
    simp only [cost] at cheap
    omega

end

/-! ### Solutions -/

theorem solve_eq_ok (chart : Chart) (settings : Settings) {greedy : List Nat}
    (coverable : chart.IsCover (List.range chart.primes.size))
    (returned : chart.greedyCover = .ok greedy) :
    chart.solve settings = .ok (match settings.strategy with
      | .greedy => greedy
      | .exact => chart.exactCover settings.nodeLimit greedy) := by
  have solvable : chart.orphans.isEmpty = true :=
    List.isEmpty_iff.mpr ((orphans_eq_nil_iff chart).mpr coverable)
  rw [solve, if_pos solvable, returned]
  rfl

/-- Without an orphan, every strategy yields a solution, and an exact search that is not cut one of
least cost. -/
theorem exists_solve (chart : Chart) (settings : Settings)
    (coverable : chart.IsCover (List.range chart.primes.size)) :
    ∃ selected, chart.solve settings = .ok selected ∧ chart.IsSolution selected
      ∧ (settings.strategy = .exact → chart.cutByLimit settings.nodeLimit = false →
        ∀ cover, chart.IsCover cover → chart.cost selected ≤ chart.cost cover) := by
  obtain ⟨greedy, returned, solution⟩ := exists_greedyCover chart coverable
  refine ⟨_, solve_eq_ok chart settings coverable returned, ?_⟩
  cases strategy : settings.strategy with
  | greedy => exact ⟨solution, fun exact_ => nomatch exact_⟩
  | exact =>
    exact ⟨isSolution_exactCover solution _, fun _ finished cover covers =>
      cost_exactCover_le_of_not_cut solution _ returned finished covers⟩

end TwoLevel.Chart
