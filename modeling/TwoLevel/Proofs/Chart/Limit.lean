import TwoLevel.Proofs.Chart.Solution

/-!
# The node limit of the exact search

Two searches that differ only in their limits do the same until the smaller limit cuts one of them.
From there this one only unwinds and keeps its best cover, while the other one goes on and can only
improve on it. So a larger limit never makes the answer dearer. Under the limit 0 the answer is the
greedy cover, and once no limit cuts the search it has least cost. On every chart there is a limit
that never cuts.
-/
namespace TwoLevel.Chart

namespace Search

/-- A search that has not parted from another one, or that has used up its limit with a best cover
that is at least as dear. -/
def Trails (limit : Nat) (short long : Search) : Prop :=
  short = long ∨ (limit ≤ short.nodes ∧ long.bestCost ≤ short.bestCost)

end Search

open Search

/-- A search that has used up its limit keeps its best cover. -/
theorem bestCost_explore_of_limit_le (chart : Chart) {limit : Nat} (budget : Nat) {state : Search}
    (reached : limit ≤ state.nodes) :
    (chart.explore limit budget state).bestCost = state.bestCost := by
  cases budget with
  | zero => rfl
  | succ budget => rw [explore_of_limit_le chart budget reached]

section

variable {chart : Chart} {limit : Nat} {inner outer : Search → Search}
  (trails : ∀ short long : Search, short.Trails limit long →
    (inner short).Trails limit (outer long))

include trails

theorem Search.Trails.branch {short long : Search} (behind : short.Trails limit long) (p : Nat) :
    (short.branch chart inner p).Trails limit (long.branch chart outer p) := by
  -- Neither choosing nor releasing touches the nodes or the best cover.
  have chosen : (short.choose chart p).Trails limit (long.choose chart p) := by
    rcases behind with rfl | used
    · exact .inl rfl
    · exact .inr used
  rcases trails _ _ chosen with same | used
  · exact .inl (congrArg (release chart p) same)
  · exact .inr used

theorem Search.Trails.foldl_branch (branches : List Nat) {short long : Search}
    (behind : short.Trails limit long) :
    (branches.foldl (Search.branch chart inner) short).Trails limit
      (branches.foldl (Search.branch chart outer) long) := by
  induction branches generalizing short long with
  | nil => exact behind
  | cons p rest ih => exact ih (behind.branch trails p)

theorem Search.trails_visit (state : Search) :
    (state.visit chart inner).Trails limit (state.visit chart outer) := by
  unfold visit
  split
  · exact .inl rfl
  · split
    · exact .inl rfl
    · exact Search.Trails.foldl_branch trails _ (.inl rfl)

end

/-- A search that has used up its limit stays where it is, and the other one advances. -/
theorem trails_explore_of_limit_le (chart : Chart) {less : Nat} (more budget : Nat)
    {short long : Search} (reached : less ≤ short.nodes) (dearer : long.bestCost ≤ short.bestCost) :
    (chart.explore less budget short).Trails less (chart.explore more budget long) := by
  right
  constructor
  · exact Nat.le_trans reached (advances_explore chart less budget short).nodes_le
  · rw [bestCost_explore_of_limit_le chart budget reached]
    exact le_trans (advances_explore chart more budget long).bestCost_le dearer

/-- Exploring under two limits keeps the search under the smaller one behind. -/
theorem trails_explore (chart : Chart) {less more : Nat} (order : less ≤ more) (budget : Nat)
    (short long : Search) (behind : short.Trails less long) :
    (chart.explore less budget short).Trails less (chart.explore more budget long) := by
  induction budget generalizing short long with
  | zero => exact behind
  | succ budget ih =>
    rcases behind with rfl | ⟨reached, dearer⟩
    · by_cases reached : less ≤ short.nodes
      · exact trails_explore_of_limit_le chart more _ reached (le_refl _)
      -- Neither limit cuts this node, so both searches do the same at it.
      · have room : short.nodes < less := Nat.lt_of_not_le reached
        rw [explore_of_nodes_lt chart budget room,
          explore_of_nodes_lt chart budget (Nat.lt_of_lt_of_le room order)]
        exact trails_visit ih short.enter
    · exact trails_explore_of_limit_le chart more _ reached dearer

/-- A larger limit never leaves a dearer best cover. -/
theorem bestCost_exactSearch_anti (chart : Chart) (known : List Nat) {less more : Nat}
    (order : less ≤ more) :
    (chart.exactSearch more known).bestCost ≤ (chart.exactSearch less known).bestCost := by
  have behind :=
    trails_explore chart order (chart.required.size + 1) (.start chart known) _ (.inl rfl)
  rcases behind with same | ⟨-, dearer⟩
  · rw [exactSearch, exactSearch, same]
  · exact dearer

/-- Under the limit 0 nothing is explored. -/
theorem exactCover_zero (chart : Chart) {known : List Nat} (ascending : known.Pairwise (· < ·)) :
    chart.exactCover 0 known = known := by
  have kept : (chart.exactSearch 0 known).best = known := by
    rw [exactSearch, explore_of_limit_le chart _ (Nat.zero_le _)]
    rfl
  rw [exactCover, kept]
  exact List.mergeSort_of_pairwise (ascending.imp fun order => by simpa using Nat.le_of_lt order)

/-- How the answers of the exact strategy under all limits relate to the greedy one. -/
structure Anytime (chart : Chart) (greedy : List Nat) (answer : Nat → List Nat) : Prop where
  /-- Each answer covers every term with distinct implicants. -/
  selection : ∀ limit, chart.IsSelection (answer limit)
  cover : ∀ limit, chart.IsCover (answer limit)
  /-- A larger limit never makes the answer dearer. -/
  antitone : ∀ less more, less ≤ more → chart.cost (answer more) ≤ chart.cost (answer less)
  le_greedy : ∀ limit, chart.cost (answer limit) ≤ chart.cost greedy
  zero : answer 0 = greedy
  /-- An answer of a search that the limit did not cut costs no more than any cover. -/
  least : ∀ limit, chart.cutByLimit limit = false →
    ∀ cover, chart.IsCover cover → chart.cost (answer limit) ≤ chart.cost cover

/-- On a chart without an orphan the exact strategy improves on the greedy one with its limit, from
the greedy cover itself to a cover of least cost. -/
theorem solve_exact_falls_from_greedy_to_least (chart : Chart) (settings : Settings)
    (full : chart.orphans = []) :
    ∃ greedy answer, chart.solve { settings with strategy := .greedy } = .ok greedy
      ∧ (∀ limit,
        chart.solve { settings with strategy := .exact, nodeLimit := limit } = .ok (answer limit))
      ∧ chart.Anytime greedy answer := by
  have coverable := (orphans_eq_nil_iff chart).mp full
  obtain ⟨greedy, returned, solution⟩ := exists_greedyCover chart coverable
  refine ⟨greedy, fun limit => chart.exactCover limit greedy, ?_, ?_, ?_⟩
  · exact solve_eq_ok chart { settings with strategy := .greedy } coverable returned
  · exact fun limit =>
      solve_eq_ok chart { settings with strategy := .exact, nodeLimit := limit } coverable returned
  · refine ⟨fun limit => (isSolution_exactCover solution limit).selection,
      fun limit => (isSolution_exactCover solution limit).cover, ?_, cost_exactCover_le solution,
      exactCover_zero chart solution.ascending, ?_⟩
    · intro less more order
      rw [cost_exactCover solution, cost_exactCover solution]
      exact bestCost_exactSearch_anti chart greedy order
    · exact fun limit finished cover covers =>
        cost_exactCover_le_of_not_cut solution limit returned finished covers

/-! ### Limits that never cut -/

theorem length_column_le (chart : Chart) (r : Nat) :
    (chart.column r).length ≤ chart.primes.size := by
  have inside : ∀ p ∈ chart.column r, p ∈ List.range chart.primes.size := fun p member =>
    List.mem_range.mpr (lt_of_mem_row ((mem_column chart p r).mp member)).1
  simpa using ((chart.nodup_column r).subperm inside).length_le

/-- A stretch of the search that enters at most so many nodes and is not cut. -/
structure Search.Ends (nodes : Nat) (before after : Search) : Prop where
  nodes_le : after.nodes ≤ before.nodes + nodes
  exhausted_eq : after.exhausted = before.exhausted

theorem Search.ends_finish (chart : Chart) (state : Search) :
    state.Ends 0 (state.finish chart) := by
  rcases finish_cases chart state with ⟨-, replaced⟩ | ⟨-, kept⟩
  · rw [replaced]
    exact ⟨Nat.le_refl _, rfl⟩
  · rw [kept]
    exact ⟨Nat.le_refl _, rfl⟩

theorem Search.ends_foldl_branch (chart : Chart) {inner : Search → Search} {limit nodes : Nat}
    (ends : ∀ state : Search, state.nodes + nodes ≤ limit → state.Ends nodes (inner state))
    (branches : List Nat) (state : Search) (room : state.nodes + branches.length * nodes ≤ limit) :
    state.Ends (branches.length * nodes) (branches.foldl (Search.branch chart inner) state) := by
  induction branches generalizing state with
  | nil => exact ⟨Nat.le_add_right _ _, rfl⟩
  | cons p rest ih =>
    rw [List.length_cons, Nat.succ_mul] at room ⊢
    -- Choosing and releasing an implicant are no nodes.
    have first : state.Ends nodes (state.branch chart inner p) := by
      obtain ⟨nodes_le, exhausted_eq⟩ := ends (state.choose chart p) (by simp only [choose]; omega)
      exact ⟨nodes_le, exhausted_eq⟩
    have entered := first.nodes_le
    obtain ⟨nodes_le, exhausted_eq⟩ := ih (state.branch chart inner p) (by omega)
    exact ⟨Nat.le_trans nodes_le (by omega), exhausted_eq.trans first.exhausted_eq⟩

/-- Each node has at most as many branches as there are implicants, and each branch uses up one of
the budget. -/
theorem ends_explore (chart : Chart) {limit : Nat} (budget : Nat) (state : Search)
    (room : state.nodes + (chart.primes.size + 1) ^ budget ≤ limit) :
    state.Ends ((chart.primes.size + 1) ^ budget) (chart.explore limit budget state) := by
  induction budget generalizing state with
  | zero => exact ⟨Nat.le_add_right _ _, rfl⟩
  | succ budget ih =>
    have positive : 0 < (chart.primes.size + 1) ^ budget := Nat.pow_pos (Nat.succ_pos _)
    rw [Nat.pow_succ, Nat.mul_succ, Nat.mul_comm] at room ⊢
    have entered : state.enter.nodes = state.nodes + 1 := rfl
    rcases explore_cases chart limit budget state with
      ⟨cut, -⟩ | ⟨-, -, leaf⟩ | ⟨-, -, -, -, pruned⟩ | ⟨-, r, -, -, branched⟩
    · omega
    · rw [leaf]
      obtain ⟨nodes_le, exhausted_eq⟩ := ends_finish chart state.enter
      exact ⟨by omega, exhausted_eq⟩
    · rw [pruned]
      exact ⟨by omega, rfl⟩
    · rw [branched]
      have fewer := Nat.mul_le_mul_right ((chart.primes.size + 1) ^ budget)
        (chart.length_column_le r)
      obtain ⟨nodes_le, exhausted_eq⟩ := ends_foldl_branch chart ih (chart.column r) state.enter
        (by omega)
      exact ⟨by omega, exhausted_eq⟩

/-- A limit beyond the nodes that a search on the chart can enter never cuts. -/
theorem cutByLimit_eq_false (chart : Chart) {limit : Nat}
    (enough : (chart.primes.size + 1) ^ (chart.required.size + 1) ≤ limit) :
    chart.cutByLimit limit = false := by
  unfold cutByLimit
  split
  next greedy _ =>
    have room : (Search.start chart greedy).nodes
        + (chart.primes.size + 1) ^ (chart.required.size + 1) ≤ limit := by
      simpa only [Search.start, Nat.zero_add] using enough
    exact (ends_explore chart _ (.start chart greedy) room).exhausted_eq
  next => rfl

theorem cutByLimit_ofTerms (members : List Implicant) (required : List Nat) {limit : Nat}
    (enough : (members.length + 1) ^ (required.length + 1) ≤ limit) :
    (ofTerms members required).cutByLimit limit = false := by
  have fewer : (ofTerms members required).required.size ≤ required.length :=
    length_ascending_le required
  refine cutByLimit_eq_false _ (Nat.le_trans ?_ enough)
  rw [size_primes_ofTerms]
  exact Nat.pow_le_pow_right (Nat.succ_pos _) (Nat.succ_le_succ fewer)

/-- A chart on which the implicant that covers most terms is in no least cover. -/
def misleading : Chart :=
  ofTerms [⟨[.zero, .dash, .dash]⟩, ⟨[.dash, .dash, .zero]⟩, ⟨[.dash, .dash, .zero]⟩,
    ⟨[.dash, .dash, .one]⟩, ⟨[.dash, .dash, .one]⟩] [0, 1, 2, 3, 4, 5]

theorem orphans_misleading : misleading.orphans = [] :=
  (orphans_ofTerms_eq_nil_iff _ _).mpr (by decide)

theorem solve_exact_falls_from_greedy_to_least_misleading :
    misleading.orphans = [] ∧ misleading.cutByLimit (6 ^ 7) = false
      ∧ ∃ greedy answer,
        misleading.solve { Settings.standard with strategy := .greedy } = .ok greedy
        ∧ (∀ limit,
          misleading.solve { Settings.standard with strategy := .exact, nodeLimit := limit }
            = .ok (answer limit))
        ∧ misleading.Anytime greedy answer
        ∧ ∀ cover, misleading.IsCover cover →
          misleading.cost (answer (6 ^ 7)) ≤ misleading.cost cover := by
  obtain ⟨greedy, answer, first, answers, anytime⟩ :=
    solve_exact_falls_from_greedy_to_least misleading .standard orphans_misleading
  have finished : misleading.cutByLimit (6 ^ 7) = false := cutByLimit_ofTerms _ _ (by decide)
  exact ⟨orphans_misleading, finished, greedy, answer, first, answers, anytime,
    anytime.least _ finished⟩

example : misleading.solve .standard = .ok [0, 1, 3] ∧ misleading.solve .exact = .ok [1, 3] :=
  ⟨by cbv, by cbv⟩

end TwoLevel.Chart
