/-!
# Ascending lists

Sets of term indices and of chart positions are kept as strictly ascending lists, so that equal sets
are equal lists. `ascending` gives the list of a set from any list of its members.
-/
namespace TwoLevel

/-- Keeps the first of each run of equal neighbours. -/
def dropRepeats : List Nat → List Nat
  | [] => []
  | [only] => [only]
  | first :: second :: rest =>
    if first = second then dropRepeats (second :: rest)
    else first :: dropRepeats (second :: rest)

/-- The members of a list in ascending order, each once. -/
def ascending (members : List Nat) : List Nat :=
  dropRepeats members.mergeSort

theorem mem_dropRepeats (members : List Nat) (x : Nat) : x ∈ dropRepeats members ↔ x ∈ members := by
  fun_induction dropRepeats members with
  | case1 => rfl
  | case2 only => rfl
  | case3 second rest ih => simp [ih]
  | case4 first second rest distinct ih => simp [ih]

theorem pairwise_dropRepeats (members : List Nat) (sorted : members.Pairwise (· ≤ ·)) :
    (dropRepeats members).Pairwise (· < ·) := by
  fun_induction dropRepeats members with
  | case1 => exact .nil
  | case2 only => exact List.pairwise_singleton _ _
  | case3 second rest ih => exact ih (List.pairwise_cons.mp sorted).2
  | case4 first second rest distinct ih =>
    obtain ⟨least, tail⟩ := List.pairwise_cons.mp sorted
    refine List.pairwise_cons.mpr ⟨fun x member => ?_, ih tail⟩
    have at_second := least second (by simp)
    rcases List.mem_cons.mp ((mem_dropRepeats _ x).mp member) with rfl | later
    · omega
    · have := (List.pairwise_cons.mp tail).1 x later
      omega

/-- The ascending list has the members of the list that it was made from. -/
@[simp] theorem mem_ascending (members : List Nat) (x : Nat) :
    x ∈ ascending members ↔ x ∈ members := by
  simp [ascending, mem_dropRepeats]

theorem length_dropRepeats_le (members : List Nat) :
    (dropRepeats members).length ≤ members.length := by
  fun_induction dropRepeats members with
  | case1 => simp
  | case2 only => simp
  | case3 second rest ih => exact Nat.le_succ_of_le ih
  | case4 first second rest distinct ih => exact Nat.succ_le_succ ih

/-- The ascending list is no longer than the list that it was made from. -/
theorem length_ascending_le (members : List Nat) : (ascending members).length ≤ members.length := by
  rw [ascending, ← members.length_mergeSort]
  exact length_dropRepeats_le _

theorem pairwise_mergeSort (members : List Nat) : members.mergeSort.Pairwise (· ≤ ·) := by
  have sorted := @List.pairwise_mergeSort Nat (fun a b => decide (a ≤ b))
    (fun a b c => by simpa using Nat.le_trans) (fun a b => by simpa using Nat.le_total a b) members
  simpa using sorted

/-- The ascending list is strictly ascending. -/
theorem pairwise_ascending (members : List Nat) : (ascending members).Pairwise (· < ·) :=
  pairwise_dropRepeats _ (pairwise_mergeSort members)

theorem dropRepeats_of_pairwise {members : List Nat} (sorted : members.Pairwise (· < ·)) :
    dropRepeats members = members := by
  fun_induction dropRepeats members with
  | case1 => rfl
  | case2 only => rfl
  | case3 second rest ih =>
    exact absurd ((List.pairwise_cons.mp sorted).1 second List.mem_cons_self) (Nat.lt_irrefl _)
  | case4 first second rest distinct ih => rw [ih (List.pairwise_cons.mp sorted).2]

/-- A list that is strictly ascending already is left as it is. -/
theorem ascending_of_pairwise {members : List Nat} (sorted : members.Pairwise (· < ·)) :
    ascending members = members := by
  have ordered := sorted.imp fun {a b : Nat} before => decide_eq_true (Nat.le_of_lt before)
  rw [ascending, List.mergeSort_of_pairwise ordered, dropRepeats_of_pairwise sorted]

end TwoLevel
