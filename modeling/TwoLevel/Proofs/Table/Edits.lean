import Mathlib.Algebra.Group.Nat.Defs
import TwoLevel.Table.Text
import TwoLevel.Proofs.Table.Labels
import TwoLevel.Proofs.Table.Rows

/-!
# Tables that are made and edited

A table is made from a number of variables, from values, from cells or from a text, and then edited.
Whatever is done to it in whatever order, it keeps a row for each index, its labels can be told
apart and read back, and its rows fall into the ones, the don't-cares and the zeros. Conversely
there is no table that cannot be reached in this way.
-/
namespace TwoLevel

namespace TruthTable

/-! ### Edits -/

inductive Edit where
  | set (index : Nat) (value : Value)
  | clear
  | relabel (labels : List String)

def Edit.apply (t : TruthTable) : Edit → Except TableError TruthTable
  | set index value => t.set index value
  | clear => .ok t.clear
  | relabel labels => t.withLabels labels

/-- The table after an edit, which is the one before it if the edit is refused. -/
def Edit.run (t : TruthTable) (edit : Edit) : TruthTable :=
  match edit.apply t with
  | .ok changed => changed
  | .error _ => t

/-- The value that an edit gives to a row. -/
def Edit.value? (index : Nat) : Edit → Option Value
  | set other value => if index = other then some value else none
  | clear => some .zero
  | relabel _ => none

theorem arity_run (t : TruthTable) (edit : Edit) : (edit.run t).arity = t.arity := by
  cases edit with
  | set index value =>
    by_cases inside : index < Word.count t.arity
    · obtain ⟨changed, done, arity, -⟩ := t.set_eq_ok inside value
      simpa [Edit.run, Edit.apply, done] using arity
    · simp [Edit.run, Edit.apply, t.set_eq_error (Nat.not_lt.mp inside)]
  | clear => rfl
  | relabel labels =>
    rcases Label.fit_or_refused t.arity labels with fit | ⟨error, refused⟩
    · simp [Edit.run, Edit.apply, withLabels_eq_ok fit]
    · simp [Edit.run, Edit.apply, withLabels_eq_error refused]

theorem get_run (t : TruthTable) (edit : Edit) {index : Nat} (inside : index < Word.count t.arity) :
    (edit.run t).get index = (edit.value? index).getD (t.get index) := by
  cases edit with
  | set other value =>
    by_cases bounded : other < Word.count t.arity
    · obtain ⟨changed, done, -, -, rows⟩ := t.set_eq_ok bounded value
      simp only [Edit.run, Edit.apply, done, rows, Edit.value?]
      split <;> rfl
    · have differ : index ≠ other := fun same => bounded (same ▸ inside)
      simp [Edit.run, Edit.apply, t.set_eq_error (Nat.not_lt.mp bounded), Edit.value?, differ]
  | clear => simp [Edit.run, Edit.apply, clear, get, Edit.value?, inside]
  | relabel labels =>
    rcases Label.fit_or_refused t.arity labels with fit | ⟨error, refused⟩
    · simp [Edit.run, Edit.apply, withLabels_eq_ok fit, Edit.value?, get]
    · simp [Edit.run, Edit.apply, withLabels_eq_error refused, Edit.value?]

/-- After any edits a row holds the last value that they gave to it, or else the one that it held
before. -/
theorem get_foldl_run (t : TruthTable) (edits : List Edit) {index : Nat}
    (inside : index < Word.count t.arity) :
    (edits.foldl Edit.run t).arity = t.arity
      ∧ (edits.foldl Edit.run t).get index
          = (edits.filterMap (Edit.value? index)).getLast?.getD (t.get index) := by
  induction edits generalizing t with
  | nil => exact ⟨rfl, rfl⟩
  | cons edit edits ih =>
    -- The later edits start from what the first one gave to the row.
    obtain ⟨arity, row⟩ := ih (edit.run t) (by rwa [arity_run])
    rw [List.foldl_cons, arity, arity_run, row, get_run t edit inside]
    refine ⟨rfl, ?_⟩
    cases given : edit.value? index with
    | none => rw [List.filterMap_cons_none given]; rfl
    | some value => rw [List.filterMap_cons_some given, List.getLast?_cons]; rfl

/-! ### What can be reached -/

/-- The tables that are reached by edits from one that is made or read. -/
inductive Reached : TruthTable → Prop
  | zeros {arity : Nat} {t : TruthTable} (made : zeros? arity = .ok t) : Reached t
  | values {arity : Nat} {values : List Value} {t : TruthTable}
      (made : ofValues arity values = .ok t) : Reached t
  | cells {arity : Nat} {cells : List (Nat × String)} {t : TruthTable}
      (made : ofCells arity cells = .ok t) : Reached t
  | text {text : String} {t : TruthTable} (made : TableText.read text = .ok t) : Reached t
  | edit {t : TruthTable} (reached : Reached t) (edit : Edit) : Reached (edit.run t)

/-- No table is out of reach: its values and then its labels can be given to a new one. -/
theorem reached (t : TruthTable) : Reached t := by
  obtain ⟨u, made, arity, rows⟩ := ofValues_eq_ok ⟨t.one_le_arity, t.arity_le⟩ t.values.toList
  -- The values fix every row, and giving the labels changes none.
  have whole : (Edit.relabel t.labels).run u = t := by
    simp only [Edit.run, Edit.apply,
      withLabels_eq_ok (arity ▸ t.labels_fit : Label.Fit u.arity t.labels)]
    refine ext_get arity rfl fun index inside => ?_
    have row : u.get index = t.get index := by simpa [get] using rows index (arity ▸ inside)
    exact row
  exact whole ▸ .edit (.values made) (.relabel t.labels)

/-! ### The rows by their values -/

theorem pairwise_indicesOf (t : TruthTable) (value : Value) :
    (t.indicesOf value).Pairwise (· < ·) :=
  List.pairwise_lt_range.filter _

theorem disjoint_indicesOf (t : TruthTable) {value other : Value} (differ : value ≠ other) :
    (t.indicesOf value).Disjoint (t.indicesOf other) := by
  intro index held held'
  exact differ (((t.mem_indicesOf value index).mp held).2.symm.trans
    ((t.mem_indicesOf other index).mp held').2)

theorem mem_indicesOf_any (t : TruthTable) (index : Nat) :
    index ∈ t.minterms ∨ index ∈ t.dontCares ∨ index ∈ t.zeros ↔ index < 2 ^ t.arity := by
  simp only [minterms, dontCares, zeros, mem_indicesOf, ← and_or_left]
  cases t.get index <;> simp [Word.count]

/-- The three lists have each row of a table once, in order. -/
structure Partitioned (t : TruthTable) : Prop where
  ones_ascending : t.minterms.Pairwise (· < ·)
  dontCares_ascending : t.dontCares.Pairwise (· < ·)
  zeros_ascending : t.zeros.Pairwise (· < ·)
  ones_dontCares : t.minterms.Disjoint t.dontCares
  ones_zeros : t.minterms.Disjoint t.zeros
  dontCares_zeros : t.dontCares.Disjoint t.zeros
  all : ∀ index, index ∈ t.minterms ∨ index ∈ t.dontCares ∨ index ∈ t.zeros ↔ index < 2 ^ t.arity

theorem partitioned (t : TruthTable) : Partitioned t where
  ones_ascending := pairwise_indicesOf t _
  dontCares_ascending := pairwise_indicesOf t _
  zeros_ascending := pairwise_indicesOf t _
  ones_dontCares := disjoint_indicesOf t (by decide)
  ones_zeros := disjoint_indicesOf t (by decide)
  dontCares_zeros := disjoint_indicesOf t (by decide)
  all := mem_indicesOf_any t

/-! ### What holds of every table that is reached -/

/-- What can be relied on in every table that is reached, and what its labels and its rows can be
changed to. -/
theorem reached_sound {t : TruthTable} (reached : Reached t) :
    (1 ≤ t.arity ∧ t.arity ≤ 10) ∧ t.values.size = 2 ^ t.arity ∧ Label.Valid t.arity t.labels
      ∧ Partitioned t
      ∧ (∀ labels, (∃ changed, t.withLabels labels = .ok changed) ↔ Label.Valid t.arity labels)
      ∧ (∀ index value, 2 ^ t.arity ≤ index →
          t.set index value = .error (.indexOutOfRange index (2 ^ t.arity))
            ∧ (Edit.set index value).run t = t)
      ∧ ∀ index value, index < 2 ^ t.arity →
        ∃ changed, t.set index value = .ok changed ∧ Reached changed
          ∧ changed.arity = t.arity ∧ changed.labels = t.labels ∧ changed.get index = value
          ∧ ∀ other, other ≠ index → changed.get other = t.get other := by
  refine ⟨⟨t.one_le_arity, t.arity_le⟩, t.size_values, (Label.fit_iff _ _).mp t.labels_fit,
    partitioned t, fun labels => ?labels, fun index value outside => ?refused,
    fun index value inside => ?accepted⟩
  case labels =>
    rw [← Label.fit_iff]
    constructor
    · rintro ⟨changed, taken⟩
      exact ((withLabels_eq_ok_iff changed).mp taken).1
    · exact fun fit => ⟨_, withLabels_eq_ok fit⟩
  case refused =>
    have error := t.set_eq_error outside value
    exact ⟨error, by simp [Edit.run, Edit.apply, error]⟩
  case accepted =>
    obtain ⟨changed, done, arity, labels, rows⟩ := t.set_eq_ok inside value
    have after : (Edit.set index value).run t = changed := by simp [Edit.run, Edit.apply, done]
    refine ⟨changed, done, after ▸ reached.edit _, arity, labels, ?_, fun other differ => ?_⟩
    · rw [rows, if_pos rfl]
    · rw [rows, if_neg differ]

/-- Row 3 of a new table over two variables is set, and then a row that the table does not have. -/
theorem reached_sound_two_edits :
    ∃ t u, zeros? 2 = .ok t ∧ t.set 3 .one = .ok u ∧ (Edit.set 4 .one).run u = u ∧ u.minterms = [3]
      ∧ Label.Valid 2 u.labels ∧ Partitioned u := by
  have made : ∃ t u, zeros? 2 = .ok t ∧ t.set 3 .one = .ok u ∧ (Edit.set 3 .one).run t = u
      ∧ u.minterms = [3] ∧ u.arity = 2 := ⟨_, _, rfl, rfl, rfl, by decide, rfl⟩
  obtain ⟨t, u, made, set, after, ones, arity⟩ := made
  have reached : Reached u := after ▸ .edit (.zeros made) (.set 3 .one)
  have sound := reached_sound reached
  rw [arity] at sound
  obtain ⟨-, -, valid, partitioned, -, refused, -⟩ := sound
  exact ⟨t, u, made, set, (refused 4 .one (by decide)).2, ones, valid, partitioned⟩

end TruthTable

end TwoLevel
