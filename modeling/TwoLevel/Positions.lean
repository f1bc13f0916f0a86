/-!
# Positions

The positions of an array at which a test holds, in ascending order.
-/
namespace TwoLevel

/-- The positions of the members that pass a test, in order. -/
def positions {α : Type} (members : Array α) (test : α → Bool) : List Nat :=
  (List.range members.size).filter fun position => members[position]?.any test

theorem mem_positions {α : Type} (members : Array α) (test : α → Bool) (position : Nat) :
    position ∈ positions members test
      ↔ ∃ member, members[position]? = some member ∧ test member := by
  simp only [positions, List.mem_filter, List.mem_range, Option.any_eq_true, and_iff_right_iff_imp]
  rintro ⟨member, found, -⟩
  exact (Array.getElem?_eq_some_iff.mp found).1

theorem nodup_positions {α : Type} (members : Array α) (test : α → Bool) :
    (positions members test).Nodup :=
  List.nodup_range.filter _

theorem length_positions {α : Type} (members : Array α) (test : α → Bool) :
    (positions members test).length = members.toList.countP test := by
  have looked_up : (List.range members.size).map (members[·]?) = members.toList.map some := by
    apply List.ext_getElem?
    intro position
    by_cases inside : position < members.size <;> simp [inside]
  have tested := congrArg (List.countP (Option.any test)) looked_up
  rw [List.countP_map, List.countP_map] at tested
  rw [positions, ← List.countP_eq_length_filter]
  exact tested

theorem isEmpty_positions {α : Type} (members : Array α) (test : α → Bool) :
    (positions members test).isEmpty = !members.any test := by
  rw [Bool.eq_iff_iff, List.isEmpty_iff, List.eq_nil_iff_forall_not_mem, Bool.not_eq_true',
    Array.any_eq_false]
  simp only [mem_positions, not_exists, not_and, Bool.not_eq_true]
  constructor
  · intro fails position inside
    exact fails position _ (Array.getElem?_eq_getElem inside)
  · intro fails position member found
    obtain ⟨inside, rfl⟩ := Array.getElem?_eq_some_iff.mp found
    exact fails position inside

end TwoLevel
