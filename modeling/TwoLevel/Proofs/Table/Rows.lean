import TwoLevel.Table.Basic

/-!
# Rows of a table

Every row is listed under the value that it holds and under no other, and a function has no
disagreement with a table exactly if it has the bit of every specified row. A new table holds zeros,
and setting a row changes this row and nothing else.
-/
namespace TwoLevel

theorem Value.bit?_eq_some_iff (value : Value) (bit : Bool) :
    value.bit? = some bit ↔ value = .ofBit bit := by
  cases value <;> cases bit <;> simp [bit?, ofBit]

theorem Value.ofBit_ne_dontCare (bit : Bool) : ofBit bit ≠ .dontCare := by
  cases bit <;> simp [ofBit]

namespace TruthTable

theorem getElem?_values (t : TruthTable) {index : Nat} (inside : index < Word.count t.arity) :
    t.values[index]? = some (t.get index) := by
  have bounded : index < t.values.size := by rw [t.size_values]; exact inside
  simp [get, bounded]

theorem mem_indicesOf (t : TruthTable) (value : Value) (index : Nat) :
    index ∈ t.indicesOf value ↔ index < Word.count t.arity ∧ t.get index = value := by
  rw [indicesOf, mem_positions]
  constructor
  · rintro ⟨held, found, same⟩
    have inside : index < Word.count t.arity := by
      rw [← t.size_values]
      exact (Array.getElem?_eq_some_iff.mp found).1
    rw [t.getElem?_values inside, Option.some.injEq] at found
    exact ⟨inside, by rw [found]; exact eq_of_beq same⟩
  · rintro ⟨inside, rfl⟩
    exact ⟨t.get index, t.getElem?_values inside, beq_self_eq_true _⟩

theorem disagreements_eq_nil_iff (t : TruthTable) (function : Nat → Bool) :
    t.disagreements function = [] ↔ ∀ index < Word.count t.arity, ∀ bit,
      (t.get index).bit? = some bit → function index = bit := by
  simp only [disagreements, List.filter_eq_nil_iff, List.mem_range, size, t.size_values]
  refine forall₂_congr fun index inside => ?_
  cases (t.get index).bit? with
  | none => simp
  | some bit => simp [eq_comm (a := bit)]

/-! ### Tables as they are made and changed -/

theorem zeros?_eq_ok {arity : Nat} (bounds : 1 ≤ arity ∧ arity ≤ maxVariables) :
    ∃ t, zeros? arity = .ok t ∧ t.arity = arity ∧ t.labels = Label.defaults arity
      ∧ ∀ index, t.get index = .zero := by
  refine ⟨_, dif_pos bounds, rfl, rfl, fun index => ?_⟩
  simp only [get, Array.getD_eq_getD_getElem?, Array.getElem?_replicate]
  split <;> rfl

theorem zeros?_eq_error {arity : Nat} (outside : ¬ (1 ≤ arity ∧ arity ≤ maxVariables)) :
    zeros? arity = .error (.invalidVariableCount arity) := dif_neg outside

theorem get_fill (t : TruthTable) (values : List Value) {index : Nat}
    (inside : index < Word.count t.arity) :
    (t.fill values).get index = values.getD index (t.get index) := by
  simp [fill, get, inside]

theorem ofValues_eq_ok {arity : Nat} (bounds : 1 ≤ arity ∧ arity ≤ maxVariables)
    (values : List Value) :
    ∃ t, ofValues arity values = .ok t ∧ t.arity = arity
      ∧ ∀ index < Word.count arity, t.get index = values.getD index .zero := by
  obtain ⟨t, made, rfl, -, zeros⟩ := zeros?_eq_ok bounds
  refine ⟨t.fill values, by rw [ofValues, made]; rfl, rfl, fun index inside => ?_⟩
  rw [get_fill t values inside, zeros]

theorem set_eq_ok (t : TruthTable) {index : Nat} (inside : index < Word.count t.arity)
    (value : Value) :
    ∃ changed, t.set index value = .ok changed ∧ changed.arity = t.arity ∧ changed.labels = t.labels
      ∧ ∀ other, changed.get other = if other = index then value else t.get other := by
  have bounded : index < t.values.size := by rw [t.size_values]; exact inside
  refine ⟨_, dif_pos bounded, rfl, rfl, fun other => ?_⟩
  simp only [get, Array.getD_eq_getD_getElem?, Array.getElem?_set]
  split
  next same => rw [if_pos same.symm]; rfl
  next differ => rw [if_neg (Ne.symm differ)]

theorem set_eq_error (t : TruthTable) {index : Nat} (outside : Word.count t.arity ≤ index)
    (value : Value) : t.set index value = .error (.indexOutOfRange index (Word.count t.arity)) := by
  rw [set, dif_neg (by rw [t.size_values]; exact Nat.not_lt.mpr outside), size, t.size_values]

end TruthTable

end TwoLevel
