import TwoLevel.Implicant.Set

/-!
# Members of implicant sets

Inserting a list adds its members and nothing else. A new member goes behind the old ones, so a set
that is in some order stays in it when no added member belongs before an old one.
-/
namespace TwoLevel.ImplicantSet

theorem nodup_toList (set : ImplicantSet) : set.toList.Nodup := set.nodup

theorem isEmpty_iff (set : ImplicantSet) : set.isEmpty = true ↔ set.toList = [] := by
  simp [isEmpty, toList]

theorem get?_eq (set : ImplicantSet) (position : Nat) :
    set.get? position = set.toList[position]? := by
  simp [get?, toList]

theorem mem_insert (set : ImplicantSet) (p q : Implicant) :
    q ∈ (set.insert p).toList ↔ q ∈ set.toList ∨ q = p := by
  rw [toList_insert]
  split
  next present =>
    constructor
    · exact .inl
    · rintro (member | rfl)
      · exact member
      · exact present
  next => rw [List.mem_append, List.mem_singleton]

@[simp] theorem mem_insertAll (set : ImplicantSet) (added : List Implicant) (q : Implicant) :
    q ∈ (set.insertAll added).toList ↔ q ∈ set.toList ∨ q ∈ added := by
  induction added generalizing set with
  | nil => simp [insertAll]
  | cons p rest ih =>
    have step : set.insertAll (p :: rest) = (set.insert p).insertAll rest := rfl
    rw [step, ih, mem_insert, List.mem_cons, or_assoc]

@[simp] theorem mem_ofList (members : List Implicant) (q : Implicant) :
    q ∈ (ofList members).toList ↔ q ∈ members := by
  simp [ofList]

/-- New and distinct members come behind the old ones as they stand. -/
theorem toList_insertAll (set : ImplicantSet) (added : List Implicant)
    (fresh : (set.toList ++ added).Nodup) : (set.insertAll added).toList = set.toList ++ added := by
  induction added generalizing set with
  | nil => simp [insertAll]
  | cons p rest ih =>
    have step : set.insertAll (p :: rest) = (set.insert p).insertAll rest := rfl
    have absent : p ∉ set.toList := by
      intro member
      exact (List.nodup_append.mp fresh).2.2 p member p (by simp) rfl
    have appended : (set.insert p).toList ++ rest = set.toList ++ p :: rest := by
      rw [toList_insert, if_neg absent, List.append_assoc, List.singleton_append]
    rw [step, ih _ (appended ▸ fresh), appended]

/-- An order is kept if the added members are in it and belong behind the old ones. -/
theorem pairwise_insertAll {R : Implicant → Implicant → Prop} (set : ImplicantSet)
    (added : List Implicant) (sorted : set.toList.Pairwise R) (order : added.Pairwise R)
    (behind : ∀ p ∈ set.toList, ∀ q ∈ added, R p q) : (set.insertAll added).toList.Pairwise R := by
  induction added generalizing set with
  | nil => exact sorted
  | cons p rest ih =>
    obtain ⟨first, later⟩ := List.pairwise_cons.mp order
    have step : set.insertAll (p :: rest) = (set.insert p).insertAll rest := rfl
    rw [step]
    apply ih _ _ later
    · intro q member r added
      rcases (mem_insert set p q).mp member with old | rfl
      · exact behind q old r (List.mem_cons_of_mem _ added)
      · exact first r added
    · rw [toList_insert]
      split
      · exact sorted
      · refine List.pairwise_append.mpr
          ⟨sorted, List.pairwise_singleton _ _, fun q member r single => ?_⟩
        rw [List.mem_singleton.mp single]
        exact behind q member p (by simp)

end TwoLevel.ImplicantSet
