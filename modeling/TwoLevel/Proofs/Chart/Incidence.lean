import Mathlib.Data.List.Nodup
import Mathlib.Tactic.Choose
import TwoLevel.Chart.Basic

/-!
# Rows, columns and hits of a chart

Rows and columns are two readings of one relation: an implicant is in the column of a term exactly
if the term is in the row of the implicant. The hits of a selection count, term by term, the
selected implicants in its column, in whatever order they were selected, so the terms without a hit
are those that the selection leaves uncovered.

The orphans are the terms that no implicant covers. Every essential implicant has a term that no
other implicant covers.
-/
namespace TwoLevel.Chart

/-- The selected implicants leave no required term out. -/
def IsCover (chart : Chart) (selected : List Nat) : Prop :=
  ∀ r < chart.required.size, ∃ p ∈ selected, r ∈ chart.row p

/-! ### Rows and columns -/

theorem mem_row (chart : Chart) (p r : Nat) :
    r ∈ chart.row p ↔ ∃ prime term, chart.primes[p]? = some prime
      ∧ chart.required[r]? = some term ∧ prime.covers term = true := by
  rw [row, Array.getD_eq_getD_getElem?, chart.rows_eq, Array.getElem?_map]
  cases chart.primes[p]? with
  | none => simp
  | some prime => simp [mem_positions]

theorem mem_column (chart : Chart) (p r : Nat) : p ∈ chart.column r ↔ r ∈ chart.row p := by
  rw [mem_row, column, Array.getD_eq_getD_getElem?, chart.columns_eq, Array.getElem?_map]
  cases chart.required[r]? with
  | none => simp
  | some term => simp [mem_positions]

theorem lt_of_mem_row {chart : Chart} {p r : Nat} (member : r ∈ chart.row p) :
    p < chart.primes.size ∧ r < chart.required.size := by
  obtain ⟨prime, term, found, asked, -⟩ := (mem_row chart p r).mp member
  exact ⟨(Array.getElem?_eq_some_iff.mp found).1, (Array.getElem?_eq_some_iff.mp asked).1⟩

theorem row_eq_nil {chart : Chart} {p : Nat} (outside : chart.primes.size ≤ p) :
    chart.row p = [] := by
  apply List.eq_nil_iff_forall_not_mem.mpr
  intro r member
  have inside := (lt_of_mem_row member).1
  omega

/-- A row lists terms in ascending order, so it is what a test on positions leaves of all of
them. -/
theorem row_eq_filter (chart : Chart) (p : Nat) :
    chart.row p = (List.range chart.required.size).filter fun r => (chart.row p).contains r := by
  rw [row, Array.getD_eq_getD_getElem?, chart.rows_eq, Array.getElem?_map]
  cases chart.primes[p]? with
  | none => simp
  | some prime =>
    simp only [Option.map_some, Option.getD_some, positions]
    apply List.filter_congr
    intro r inside
    simp only [List.contains_eq_mem, List.mem_filter, inside, true_and, Bool.decide_eq_true]

theorem nodup_row (chart : Chart) (p : Nat) : (chart.row p).Nodup := by
  rw [row, Array.getD_eq_getD_getElem?, chart.rows_eq, Array.getElem?_map]
  cases chart.primes[p]? with
  | none => exact .nil
  | some prime => exact nodup_positions chart.required _

theorem nodup_column (chart : Chart) (r : Nat) : (chart.column r).Nodup := by
  rw [column, Array.getD_eq_getD_getElem?, chart.columns_eq, Array.getElem?_map]
  cases chart.required[r]? with
  | none => exact .nil
  | some term => exact nodup_positions chart.primes _

/-- The orphans are the terms that no implicant covers, in the order of the terms. -/
theorem orphans_eq_filter (chart : Chart) : chart.orphans
    = chart.required.toList.filter fun term => !chart.primes.any fun p => p.covers term := by
  rw [orphans, chart.columns_eq, Array.toList_map]
  induction chart.required.toList with
  | nil => rfl
  | cons term rest ih =>
    rw [List.map_cons, List.zip_cons_cons, List.filterMap_cons, ih, List.filter_cons]
    simp only [isEmpty_positions]
    cases chart.primes.any fun p => p.covers term <;> rfl

theorem orphans_eq_nil_iff (chart : Chart) :
    chart.orphans = [] ↔ chart.IsCover (List.range chart.primes.size) := by
  simp only [orphans_eq_filter, List.filter_eq_nil_iff, Array.mem_toList_iff, Bool.not_eq_true',
    Bool.not_eq_false, IsCover, mem_row, List.mem_range]
  constructor
  · intro full r inside
    have covered := full _ (Array.getElem_mem inside)
    obtain ⟨p, within, covers⟩ := Array.any_eq_true.mp covered
    exact ⟨p, within, _, _, Array.getElem?_eq_getElem within, Array.getElem?_eq_getElem inside,
      covers⟩
  · intro cover term member
    obtain ⟨r, inside, rfl⟩ := Array.mem_iff_getElem.mp member
    obtain ⟨p, within, prime, term, found, asked, covers⟩ := cover r inside
    rw [Array.getElem?_eq_getElem inside, Option.some.injEq] at asked
    rw [Array.getElem?_eq_getElem within, Option.some.injEq] at found
    subst asked found
    exact Array.any_eq_true.mpr ⟨p, within, covers⟩

theorem onlyMember_eq_some_iff (column : List Nat) (p : Nat) :
    onlyMember column = some p ↔ column = [p] := by
  constructor
  · intro only
    unfold onlyMember at only
    split at only
    · rw [Option.some.inj only]
    · cases only
  · rintro rfl
    rfl

theorem mem_essentials (chart : Chart) (p : Nat) :
    p ∈ chart.essentials ↔ ∃ r < chart.required.size, chart.column r = [p] := by
  have size : chart.columns.size = chart.required.size := by rw [chart.columns_eq, Array.size_map]
  simp only [essentials, mem_ascending, List.mem_filterMap, onlyMember_eq_some_iff,
    Array.mem_toList_iff]
  constructor
  -- A column in the list of columns is the column of the term at its position.
  · rintro ⟨listed, member, rfl⟩
    obtain ⟨r, inside, found⟩ := Array.mem_iff_getElem.mp member
    exact ⟨r, size ▸ inside, by simp [column, Array.getD_eq_getD_getElem?, inside, found]⟩
  · rintro ⟨r, inside, only⟩
    rw [← size] at inside
    refine ⟨[p], ?_, rfl⟩
    rw [← only, column, Array.getD_eq_getD_getElem?, Array.getElem?_eq_getElem inside,
      Option.getD_some]
    exact Array.getElem_mem inside

/-- An essential implicant is in every cover. -/
theorem mem_of_mem_essentials {chart : Chart} {p : Nat} (essential : p ∈ chart.essentials)
    {cover : List Nat} (covers : chart.IsCover cover) : p ∈ cover := by
  obtain ⟨r, inside, only⟩ := (mem_essentials chart p).mp essential
  obtain ⟨q, member, covered⟩ := covers r inside
  have listed := (mem_column chart q r).mpr covered
  rw [only, List.mem_singleton] at listed
  exact listed ▸ member

theorem lt_of_mem_essentials {chart : Chart} {p : Nat} (essential : p ∈ chart.essentials) :
    p < chart.primes.size := by
  obtain ⟨r, -, only⟩ := (mem_essentials chart p).mp essential
  have listed : p ∈ chart.column r := by rw [only, List.mem_singleton]
  exact (lt_of_mem_row ((mem_column chart p r).mp listed)).1

/-! ### Hits -/

@[simp] theorem size_raise (hits : Array Nat) (row : List Nat) :
    (raise hits row).size = hits.size := by
  unfold raise
  induction row generalizing hits with
  | nil => rfl
  | cons r rest ih => rw [List.foldl_cons, ih, Array.size_modify]

theorem getElem?_raise (hits : Array Nat) (row : List Nat) (r : Nat) :
    (raise hits row)[r]? = hits[r]?.map (· + row.count r) := by
  unfold raise
  induction row generalizing hits with
  | nil => simp
  | cons first rest ih =>
    rw [List.foldl_cons, ih, Array.getElem?_modify, List.count_cons]
    by_cases here : first = r
    · cases hits[r]? <;> simp [here]
      omega
    · simp [here]

theorem getElem?_lower (hits : Array Nat) (row : List Nat) (r : Nat) :
    (lower hits row)[r]? = hits[r]?.map (· - row.count r) := by
  unfold lower
  induction row generalizing hits with
  | nil => simp
  | cons first rest ih =>
    rw [List.foldl_cons, ih, Array.getElem?_modify, List.count_cons]
    by_cases here : first = r
    · cases hits[r]? <;> simp [here]
      omega
    · simp [here]

@[simp] theorem lower_raise (hits : Array Nat) (row : List Nat) :
    lower (raise hits row) row = hits := by
  apply Array.ext_getElem?
  intro r
  rw [getElem?_lower, getElem?_raise, Option.map_map]
  simp [Function.comp_def]

/-- The hits of a term are the selected implicants that cover it. -/
theorem getElem?_hits (chart : Chart) (selected : List Nat) (r : Nat) :
    (chart.hits selected)[r]? = if r < chart.required.size then
      some (selected.countP fun p => (chart.row p).contains r) else none := by
  have general : ∀ hits : Array Nat,
      (selected.foldl (fun hits p => raise hits (chart.row p)) hits)[r]?
        = hits[r]?.map (· + selected.countP fun p => (chart.row p).contains r) := by
    induction selected with
    | nil => simp
    | cons p rest ih =>
      intro hits
      rw [List.foldl_cons, ih, getElem?_raise, Option.map_map, List.countP_cons,
        (nodup_row chart p).count]
      simp [Function.comp_def, Nat.add_assoc, Nat.add_comm]
  rw [hits, general, Array.getElem?_replicate]
  split <;> simp

theorem hits_cons (chart : Chart) (p : Nat) (selected : List Nat) :
    chart.hits (p :: selected) = raise (chart.hits selected) (chart.row p) := by
  apply Array.ext_getElem?
  intro r
  rw [getElem?_raise, getElem?_hits, getElem?_hits, (nodup_row chart p).count, List.countP_cons]
  split <;> simp

theorem hits_reverse (chart : Chart) (selected : List Nat) :
    chart.hits selected.reverse = chart.hits selected := by
  apply Array.ext_getElem?
  intro r
  rw [getElem?_hits, getElem?_hits, List.countP_reverse]

@[simp] theorem size_hits (chart : Chart) (selected : List Nat) :
    (chart.hits selected).size = chart.required.size := by
  have general : ∀ hits : Array Nat,
      (selected.foldl (fun hits p => raise hits (chart.row p)) hits).size = hits.size := by
    induction selected with
    | nil => simp
    | cons p rest ih =>
      intro hits
      rw [List.foldl_cons, ih, size_raise]
  rw [hits, general, Array.size_replicate]

/-! ### Uncovered terms -/

theorem mem_uncovered (chart : Chart) (selected : List Nat) (r : Nat) :
    r ∈ uncovered (chart.hits selected)
      ↔ r < chart.required.size ∧ ∀ p ∈ selected, r ∉ chart.row p := by
  rw [uncovered, mem_positions, getElem?_hits]
  by_cases inside : r < chart.required.size
  · simp [inside, List.countP_eq_zero]
  · simp [inside]

theorem length_uncovered_le (chart : Chart) (selected : List Nat) :
    (uncovered (chart.hits selected)).length ≤ chart.required.size := by
  rw [uncovered, positions, size_hits]
  exact Nat.le_trans (List.length_filter_le _ _) (Nat.le_of_eq List.length_range)

theorem uncovered_eq_nil_iff (chart : Chart) (selected : List Nat) :
    uncovered (chart.hits selected) = [] ↔ chart.IsCover selected := by
  rw [List.eq_nil_iff_forall_not_mem]
  simp only [mem_uncovered, not_and, not_forall, not_not, exists_prop, IsCover]

/-- Every essential implicant has a term of its own, and these terms are covered. -/
theorem length_essentials_add_uncovered_le (chart : Chart) :
    chart.essentials.length + (uncovered (chart.hits chart.essentials)).length
      ≤ chart.required.size := by
  -- An essential implicant is alone in the column of some term. No two are alone in the same one,
  -- and this term has a hit from it.
  have alone (p : Nat) (essential : p ∈ chart.essentials) := (mem_essentials chart p).mp essential
  choose! own inside only using alone
  have nodup : chart.essentials.Nodup := (pairwise_ascending _).imp Nat.ne_of_lt
  have own_nodup : (chart.essentials.map own).Nodup := by
    apply nodup.map_on
    intro p essential q other same
    have columns := (only p essential).symm.trans (same ▸ only q other)
    exact List.singleton_injective columns
  have uncovered_nodup : (uncovered (chart.hits chart.essentials)).Nodup :=
    List.nodup_range.filter _
  have apart : ∀ r ∈ chart.essentials.map own, r ∉ uncovered (chart.hits chart.essentials) := by
    intro r owned free
    obtain ⟨p, essential, rfl⟩ := List.mem_map.mp owned
    have listed : p ∈ chart.column (own p) := by rw [only p essential, List.mem_singleton]
    exact ((mem_uncovered chart _ _).mp free).2 p essential ((mem_column chart p _).mp listed)
  have together := own_nodup.append uncovered_nodup fun r owned free => apart r owned free
  have within : ∀ r ∈ chart.essentials.map own ++ uncovered (chart.hits chart.essentials),
      r ∈ List.range chart.required.size := by
    intro r member
    rw [List.mem_range]
    rcases List.mem_append.mp member with owned | free
    · obtain ⟨p, essential, rfl⟩ := List.mem_map.mp owned
      exact inside p essential
    · exact ((mem_uncovered chart _ r).mp free).1
  have count := together.length_le_of_subset within
  rwa [List.length_append, List.length_map, List.length_range] at count

/-! ### Charts of lists -/

@[simp] theorem getElem?_primes_ofTerms (members : List Implicant) (required : List Nat)
    (position : Nat) : (ofTerms members required).primes[position]? = members[position]? := by
  simp [ofTerms]

@[simp] theorem size_primes_ofTerms (members : List Implicant) (required : List Nat) :
    (ofTerms members required).primes.size = members.length := rfl

theorem ofTerms_of_pairwise (members : List Implicant) {required : List Nat}
    (sorted : required.Pairwise (· < ·)) : ofTerms members required
      = { primes := members.toArray, required := required.toArray,
          sorted := by simpa using sorted } := by
  simp only [ofTerms, ascending_of_pairwise sorted]

theorem mem_orphans_ofTerms (members : List Implicant) (required : List Nat) (term : Nat) :
    term ∈ (ofTerms members required).orphans
      ↔ term ∈ required ∧ ∀ p ∈ members, p.covers term = false := by
  rw [orphans_eq_filter, List.mem_filter]
  simp [ofTerms]

theorem orphans_ofTerms_eq_nil_iff (members : List Implicant) (required : List Nat) :
    (ofTerms members required).orphans = []
      ↔ ∀ term ∈ required, ∃ p ∈ members, p.covers term = true := by
  simp only [List.eq_nil_iff_forall_not_mem, mem_orphans_ofTerms, not_and, not_forall, exists_prop,
    Bool.not_eq_false]

theorem isCover_ofTerms_iff (members : List Implicant) (required selected : List Nat) :
    (ofTerms members required).IsCover selected ↔ ∀ term ∈ required, ∃ position ∈ selected, ∃ p,
      members[position]? = some p ∧ p.covers term = true := by
  have asked (r : Nat) : (ofTerms members required).required[r]? = (ascending required)[r]? := by
    simp [ofTerms]
  simp only [IsCover, mem_row, asked, getElem?_primes_ofTerms]
  constructor
  · intro cover term member
    obtain ⟨r, found⟩ := List.mem_iff_getElem?.mp ((mem_ascending required term).mpr member)
    have inside : r < (ofTerms members required).required.size :=
      (Array.getElem?_eq_some_iff.mp ((asked r).trans found)).1
    obtain ⟨position, chosen, p, other, given, same, covers⟩ := cover r inside
    rw [found, Option.some.injEq] at same
    subst same
    exact ⟨position, chosen, p, given, covers⟩
  · intro cover r inside
    have found := Array.getElem?_eq_getElem inside
    rw [asked] at found
    have member := (mem_ascending required _).mp (List.mem_of_getElem? found)
    obtain ⟨position, chosen, p, given, covers⟩ := cover _ member
    exact ⟨position, chosen, p, _, given, found, covers⟩

end TwoLevel.Chart
