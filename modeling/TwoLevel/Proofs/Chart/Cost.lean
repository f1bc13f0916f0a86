import Mathlib.Algebra.Order.BigOperators.Group.List
import Mathlib.Algebra.Order.Ring.Nat
import Mathlib.Data.List.Perm.Subperm
import Mathlib.Data.Prod.Lex
import TwoLevel.Chart.Basic

/-!
# The order of costs

Costs are ordered by the number of implicants first and by the number of literals second. Leaving
implicants out of a selection, or putting others with no more literals in their place, does not make
it dearer.
-/
namespace TwoLevel

namespace Cost

/-- The number of implicants and the number of literals, of which the first decides first. -/
def key (cost : Cost) : Nat ×ₗ Nat := toLex (cost.count, cost.literals)

theorem key_injective : Function.Injective key := by
  intro left right same
  cases left
  cases right
  simpa [key] using same

instance : LinearOrder Cost := LinearOrder.lift' key key_injective

theorem le_iff (left right : Cost) : left ≤ right
    ↔ left.count < right.count ∨ left.count = right.count ∧ left.literals ≤ right.literals :=
  Prod.Lex.toLex_le_toLex

theorem lt_iff (left right : Cost) : left < right
    ↔ left.count < right.count ∨ left.count = right.count ∧ left.literals < right.literals :=
  Prod.Lex.toLex_lt_toLex

/-- The comparison that decides about the best cover is the order of costs. -/
theorem cheaper_iff_lt (left right : Cost) : left.cheaper right = true ↔ left < right := by
  simp [cheaper, lt_iff]

theorem le_of_count_le_of_literals_le {left right : Cost} (counts : left.count ≤ right.count)
    (literals : left.literals ≤ right.literals) : left ≤ right := by
  rw [le_iff]
  omega

end Cost

namespace Chart

theorem literals_cost (chart : Chart) (selected : List Nat) : (chart.cost selected).literals
    = (selected.map fun p => (chart.primes[p]?.map Implicant.literalCount).getD 0).sum :=
  List.foldr_map.symm

/-- A selection without repetitions costs no more than one that contains it. -/
theorem cost_le_of_subset (chart : Chart) {small large : List Nat} (nodup : small.Nodup)
    (included : ∀ p ∈ small, p ∈ large) : chart.cost small ≤ chart.cost large := by
  -- In another order it is a sublist of the larger one.
  obtain ⟨reordered, perm, sublist⟩ := nodup.subperm included
  apply Cost.le_of_count_le_of_literals_le
  · exact Nat.le_trans (Nat.le_of_eq perm.length_eq.symm) sublist.length_le
  · rw [literals_cost, literals_cost, ← (perm.map _).sum_nat]
    exact (sublist.map _).sum_le_sum fun literals _ => Nat.zero_le literals

end Chart

end TwoLevel
