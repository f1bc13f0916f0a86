import Mathlib.Data.List.Dedup
import TwoLevel.Proofs.Chart.Solution

/-!
# What solving answers

A chart is refused exactly if it has an orphan, and the refusal lists the orphans; otherwise it has
a solution. For the chart of a list of implicants and a list of terms, the orphans are the listed
terms that no implicant covers, and there are as many terms in the chart as there are distinct ones
in the list.
-/
namespace TwoLevel.Chart

theorem solve_eq_error_iff (chart : Chart) (settings : Settings) (uncovered : List Nat) :
    chart.solve settings = .error (.unsolvable uncovered)
      ↔ chart.orphans ≠ [] ∧ uncovered = chart.orphans := by
  by_cases full : chart.orphans = []
  · obtain ⟨selected, solved, -⟩ := chart.exists_solve settings ((orphans_eq_nil_iff chart).mp full)
    simp [solved, full]
  · have refused : chart.solve settings = .error (.unsolvable chart.orphans) := by
      rw [solve, if_neg (by simpa using full)]
    simp [refused, full, eq_comm]

theorem pairwise_orphans (chart : Chart) : chart.orphans.Pairwise (· < ·) := by
  rw [orphans_eq_filter]
  exact chart.sorted.filter _

theorem size_required_ofTerms (members : List Implicant) (required : List Nat) :
    (ofTerms members required).required.size = required.dedup.length := by
  have nodup : (ascending required).Nodup := (pairwise_ascending required).imp Nat.ne_of_lt
  have perm : (ascending required).Perm required.dedup :=
    (List.perm_ext_iff_of_nodup nodup required.nodup_dedup).mpr fun term => by simp
  exact perm.length_eq

theorem ofTerms?_eq_some {members : List Implicant} (required : List Nat)
    (narrow : ∀ p ∈ members, p.width ≤ Word.size) :
    ofTerms? members required = some (ofTerms members required) := by
  have fits : members.all Implicant.fitsWord = true :=
    List.all_eq_true.mpr fun p member => Implicant.fitsWord_of_width_le (narrow p member)
  rw [ofTerms?, fits, Bool.or_true, if_pos rfl]

/-- How solving a chart of a list of implicants and a list of terms ends. -/
structure Outcome (chart : Chart) (settings : Settings) (members : List Implicant)
    (required : List Nat) : Prop where
  /-- It is refused exactly if some required term is covered by no implicant. -/
  refused_iff : (∃ uncovered, chart.solve settings = .error (.unsolvable uncovered))
    ↔ ∃ term ∈ required, ∀ p ∈ members, p.covers term = false
  /-- The refusal lists these terms, ascending and each once. -/
  uncovered : ∀ uncovered, chart.solve settings = .error (.unsolvable uncovered) →
    uncovered.Pairwise (· < ·)
      ∧ ∀ term, term ∈ uncovered ↔ term ∈ required ∧ ∀ p ∈ members, p.covers term = false
  /-- Otherwise the answer is an ascending list of positions that covers every required term,
  contains the essential ones, and is no longer than the list of distinct required terms. -/
  solved : (∀ term ∈ required, ∃ p ∈ members, p.covers term = true) →
    ∃ selected, chart.solve settings = .ok selected
      ∧ selected.Pairwise (· < ·)
      ∧ (∀ position ∈ selected, position < members.length)
      ∧ (∀ term ∈ required, ∃ position ∈ selected, ∃ p,
        members[position]? = some p ∧ p.covers term = true)
      ∧ (∀ position ∈ chart.essentials, position ∈ selected)
      ∧ selected.length ≤ required.dedup.length

/-- A chart of words has this outcome under all settings. -/
theorem ofTerms?_solve (members : List Implicant) (required : List Nat) (settings : Settings)
    (narrow : ∀ p ∈ members, p.width ≤ Word.size) :
    ∃ chart, ofTerms? members required = some chart
      ∧ chart.Outcome settings members required := by
  refine ⟨ofTerms members required, ofTerms?_eq_some required narrow, ?_, ?_, ?_⟩
  · simp only [solve_eq_error_iff, exists_and_left, exists_eq, and_true, ne_eq,
      List.eq_nil_iff_forall_not_mem, mem_orphans_ofTerms, not_forall, not_not]
  · intro uncovered refused
    obtain ⟨-, rfl⟩ := (solve_eq_error_iff _ settings uncovered).mp refused
    exact ⟨pairwise_orphans _, mem_orphans_ofTerms members required⟩
  · intro coverable
    have full := (orphans_ofTerms_eq_nil_iff members required).mpr coverable
    obtain ⟨selected, solved, solution, -⟩ :=
      (ofTerms members required).exists_solve settings ((orphans_eq_nil_iff _).mp full)
    refine ⟨selected, solved, solution.ascending, solution.selection.lt_size, ?_,
      solution.selection.essential, ?_⟩
    · exact (isCover_ofTerms_iff members required selected).mp solution.cover
    · exact Nat.le_trans solution.length_le (Nat.le_of_eq (size_required_ofTerms members required))

/-- Implicants of several widths, one of them repeated. -/
def mixedWidths : List Implicant := [⟨[.one, .dash, .one]⟩, ⟨[.one]⟩, ⟨[.one]⟩, ⟨[.zero, .dash]⟩]

theorem ofTerms?_solve_mixedWidths :
    (∀ p ∈ mixedWidths, p.width ≤ Word.size)
    ∧ ∃ chart, ofTerms? mixedWidths [7, 4, 2, 4, 9] = some chart
      ∧ chart.Outcome .exact mixedWidths [7, 4, 2, 4, 9] := by
  have narrow : ∀ p ∈ mixedWidths, p.width ≤ Word.size := by decide
  exact ⟨narrow, ofTerms?_solve mixedWidths [7, 4, 2, 4, 9] .exact narrow⟩

example : (ofTerms mixedWidths [7, 4, 2, 4, 9]).solve .exact = .error (.unsolvable [2]) := by cbv

example : (ofTerms mixedWidths [9, 4, 7, 4]).solve .exact = .ok [1, 3] := by cbv

end TwoLevel.Chart
