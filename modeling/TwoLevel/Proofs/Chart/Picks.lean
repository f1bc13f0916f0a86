import TwoLevel.Proofs.Chart.Solution

/-!
# The picks of the greedy cover

The greedy cover comes as an ascending list, which no longer shows how it was found. It consists of
the essential implicants and of picks, each of which covers the most required terms that neither the
essential implicants nor the picks before it cover, and is the first of those that cover as many.
Each pick finds such a term, and after the last one there is none.

The gains that decide about a pick are taken from the hits, which are kept up to date from pick to
pick. They are the numbers of these terms.
-/
namespace TwoLevel.Chart

/-- Whether the implicant at a position covers a term. -/
def includes (chart : Chart) (p term : Nat) : Bool :=
  chart.primes[p]?.any fun prime => prime.covers term

/-- The required terms that an implicant covers and no selected one does. -/
def newTerms (chart : Chart) (selected : List Nat) (p : Nat) : List Nat :=
  chart.required.toList.filter fun term =>
    chart.includes p term && !selected.any fun q => chart.includes q term

/-- Of all positions, the first that covers the most new terms, of which there is one. -/
structure PicksMost (chart : Chart) (selected : List Nat) (p : Nat) : Prop where
  inside : p < chart.primes.size
  positive : 0 < (chart.newTerms selected p).length
  most : ∀ q, (chart.newTerms selected q).length ≤ (chart.newTerms selected p).length
  first : ∀ q < p, (chart.newTerms selected q).length < (chart.newTerms selected p).length

/-! ### New terms and gains -/

theorem mem_row_iff_includes {chart : Chart} {r term : Nat} (asked : chart.required[r]? = some term)
    (p : Nat) : r ∈ chart.row p ↔ chart.includes p term = true := by
  simp [mem_row, includes, asked, Option.any_eq_true]

theorem isCover_iff_includes (chart : Chart) (selected : List Nat) :
    chart.IsCover selected
      ↔ ∀ term ∈ chart.required, ∃ p ∈ selected, chart.includes p term = true := by
  constructor
  · intro cover term member
    obtain ⟨r, inside, rfl⟩ := Array.mem_iff_getElem.mp member
    obtain ⟨p, chosen, covered⟩ := cover r inside
    exact ⟨p, chosen, (mem_row_iff_includes (Array.getElem?_eq_getElem inside) p).mp covered⟩
  · intro cover r inside
    obtain ⟨p, chosen, covered⟩ := cover _ (Array.getElem_mem inside)
    exact ⟨p, chosen, (mem_row_iff_includes (Array.getElem?_eq_getElem inside) p).mpr covered⟩

theorem newTerms_congr (chart : Chart) {left right : List Nat} (same : ∀ q, q ∈ left ↔ q ∈ right) :
    chart.newTerms left = chart.newTerms right := by
  have listed (term : Nat) : (left.any fun q => chart.includes q term)
      = right.any fun q => chart.includes q term := by
    rw [Bool.eq_iff_iff, List.any_eq_true, List.any_eq_true]
    simp only [same]
  funext p
  simp only [newTerms, listed]

/-- The gain of an implicant is the number of its new terms. -/
theorem gain_eq_length_newTerms (chart : Chart) (selected : List Nat) (p : Nat) :
    chart.gain (chart.hits selected) p = (chart.newTerms selected p).length := by
  have counted : (chart.newTerms selected p).length = (positions chart.required fun term =>
      chart.includes p term && !selected.any fun q => chart.includes q term).length := by
    rw [length_positions, newTerms, List.countP_eq_length_filter]
  have free_nodup : (uncovered (chart.hits selected)).Nodup := nodup_positions _ _
  rw [gain_eq_length, counted]
  apply List.Perm.length_eq
  apply (List.perm_ext_iff_of_nodup (free_nodup.filter _) (nodup_positions _ _)).mpr
  intro r
  rw [List.mem_filter, mem_uncovered, mem_positions]
  cases asked : chart.required[r]? with
  | none => simp [Nat.not_lt_of_le (Array.getElem?_eq_none_iff.mp asked)]
  | some term =>
    have inside : r < chart.required.size := (Array.getElem?_eq_some_iff.mp asked).1
    simp [inside, mem_row_iff_includes asked, and_comm]

theorem IsBestPick.picksMost {chart : Chart} {selected : List Nat} {pick : Pick}
    (best : chart.IsBestPick (chart.hits selected) chart.primes.size pick) :
    chart.PicksMost selected pick.position := by
  have gain_eq := best.gain_eq
  rw [gain_eq_length_newTerms] at gain_eq
  refine ⟨best.inside, gain_eq ▸ best.positive, fun q => ?_, fun q before => ?_⟩
  · rw [← gain_eq, ← gain_eq_length_newTerms]
    exact best.gain_le q
  · rw [← gain_eq, ← gain_eq_length_newTerms]
    exact best.first q before

theorem PicksMost.congr {chart : Chart} {left right : List Nat} {p : Nat}
    (pick : chart.PicksMost left p) (same : ∀ q, q ∈ left ↔ q ∈ right) :
    chart.PicksMost right p := by
  have terms := chart.newTerms_congr same
  exact ⟨pick.inside, terms ▸ pick.positive, terms ▸ pick.most, terms ▸ pick.first⟩

theorem PicksMost.exists_open {chart : Chart} {selected : List Nat} {p : Nat}
    (pick : chart.PicksMost selected p) :
    ∃ term ∈ chart.required, ∀ q ∈ selected, chart.includes q term = false := by
  obtain ⟨term, new⟩ := List.exists_mem_of_length_pos pick.positive
  simp only [newTerms, List.mem_filter, Array.mem_toList_iff, Bool.and_eq_true, Bool.not_eq_true',
    List.any_eq_false, Bool.not_eq_true] at new
  exact ⟨term, new.1, new.2.2⟩

/-! ### The sequence of picks -/

/-- Each pick of a run is made against the selection that it started from and the picks before. -/
theorem GreedyRun.picksMost {chart : Chart} {selected picked : List Nat}
    (run : chart.GreedyRun selected picked) {front back : List Nat} {p : Nat}
    (split : picked = front ++ p :: back) : chart.PicksMost (selected ++ front) p := by
  induction run generalizing front with
  | done => simp at split
  | pick _ best _ ih =>
    cases front with
    | nil =>
      cases split
      rw [List.append_nil]
      exact best.picksMost
    -- The run keeps its latest pick in front of the selection.
    | cons first front =>
      cases split
      apply (ih rfl).congr
      intro q
      rw [List.cons_append]
      simp only [List.mem_cons, List.mem_append]
      exact or_left_comm

/-- How a greedy cover was picked, in the order of the picks. -/
structure PickedInOrder (chart : Chart) (greedy picked : List Nat) : Prop where
  /-- The cover is the ascending list of the essential implicants and of the picks. -/
  ascending : greedy.Pairwise (· < ·)
  mem_iff : ∀ p, p ∈ greedy ↔ p ∈ chart.essentials ∨ p ∈ picked
  /-- Each pick is the first of the implicants that cover the most required terms that neither the
  essential ones nor the picks before it cover. -/
  most : ∀ front p back, picked = front ++ p :: back →
    chart.PicksMost (chart.essentials ++ front) p
  /-- There is such a term before each pick, and none after the last one. -/
  needed : ∀ front p back, picked = front ++ p :: back →
    ∃ term ∈ chart.required, ∀ q ∈ chart.essentials ++ front, chart.includes q term = false
  complete : ∀ term ∈ chart.required,
    ∃ p ∈ chart.essentials ++ picked, chart.includes p term = true

/-- On a chart without an orphan the greedy cover is put together from the essential implicants and
from picks. -/
theorem solve_greedy_picks (chart : Chart) (settings : Settings) (full : chart.orphans = []) :
    ∃ greedy picked, chart.solve { settings with strategy := .greedy } = .ok greedy
      ∧ chart.PickedInOrder greedy picked := by
  have coverable := (orphans_eq_nil_iff chart).mp full
  obtain ⟨picked, returned, run⟩ := greedyCover_eq_ok chart coverable
  refine ⟨ascending (chart.essentials ++ picked), picked, ?_, pairwise_ascending _, fun p => ?_,
    fun front p back split => run.picksMost split,
    fun front p back split => (run.picksMost split).exists_open, ?_⟩
  · exact solve_eq_ok chart { settings with strategy := .greedy } coverable returned
  · rw [mem_ascending, List.mem_append]
  · exact (isCover_iff_includes chart _).mp run.isCover

/-- The last implicant is essential, and each term that it leaves open is covered by two others. -/
def tied : Chart :=
  ofTerms [⟨[.zero, .dash, .zero]⟩, ⟨[.dash, .zero, .zero]⟩, ⟨[.dash, .zero, .one]⟩,
    ⟨[.zero, .dash, .one]⟩, ⟨[.one, .one, .dash]⟩] [0, 1, 7]

theorem solve_greedy_picks_tied :
    tied.orphans = [] ∧ ∃ greedy picked,
      tied.solve { Settings.standard with strategy := .greedy } = .ok greedy
        ∧ tied.PickedInOrder greedy picked := by
  have full : tied.orphans = [] := (orphans_ofTerms_eq_nil_iff _ _).mpr (by decide)
  exact ⟨full, solve_greedy_picks tied .standard full⟩

example : tied.solve .standard = .ok [0, 2, 4] := by cbv

end TwoLevel.Chart
