import TwoLevel.Proofs.Implicant.Set

/-!
# Sets that are made and extended

Whatever is inserted into a set, it lists what was offered to it, each implicant where it came
first. This one equation says where a new member goes, that no member is lost or doubled, and that
offering members again changes nothing.
-/
namespace TwoLevel.ImplicantSet

/-! ### One insertion -/

theorem insert_of_mem {set : ImplicantSet} {p : Implicant} (present : p ∈ set.toList) :
    set.insert p = set := by
  rw [insert, dif_pos ((contains_iff_mem_toList set p).mpr present)]

theorem insertAll_of_forall_mem {set : ImplicantSet} {added : List Implicant}
    (present : ∀ p ∈ added, p ∈ set.toList) : set.insertAll added = set := by
  induction added with
  | nil => rfl
  | cons p rest ih =>
    obtain ⟨first, later⟩ := List.forall_mem_cons.mp present
    rw [insertAll, List.foldl_cons, insert_of_mem first]
    exact ih later

theorem insertNew_of_mem {set : ImplicantSet} {p : Implicant} (present : p ∈ set.toList) :
    set.insertNew p = (false, set) :=
  if_pos ((contains_iff_mem_toList set p).mpr present)

theorem insertNew_of_not_mem {set : ImplicantSet} {p : Implicant} (absent : p ∉ set.toList) :
    set.insertNew p = (true, set.insert p) :=
  if_neg fun found => absent ((contains_iff_mem_toList set p).mp found)

theorem insertNew_snd (set : ImplicantSet) (p : Implicant) :
    (set.insertNew p).2 = set.insert p := by
  by_cases present : p ∈ set.toList
  · rw [insertNew_of_mem present, insert_of_mem present]
  · rw [insertNew_of_not_mem present]

/-! ### First occurrences -/

/-- The set lists the first occurrences of what was offered to it. -/
def Keeps (set : ImplicantSet) (offered : List Implicant) : Prop := set.toList = offered.eraseDups

theorem keeps_empty : empty.Keeps [] := List.eraseDups_nil.symm

namespace Keeps

variable {set : ImplicantSet} {offered : List Implicant} (keeps : set.Keeps offered)

include keeps

theorem insert (p : Implicant) : (set.insert p).Keeps (offered ++ [p]) := by
  have same : p ∈ set.toList ↔ p ∈ offered := by rw [keeps, List.mem_eraseDups]
  rw [Keeps, toList_insert, List.eraseDups_append, ← keeps]
  -- What was offered before is a member already, and its new occurrence is not the first.
  by_cases present : p ∈ offered
  · simp [same, List.removeAll, present]
  · simp [same, List.removeAll, present, List.eraseDups_cons]

theorem insertAll (added : List Implicant) : (set.insertAll added).Keeps (offered ++ added) := by
  induction added generalizing set offered with
  | nil => rwa [List.append_nil]
  | cons p rest ih =>
    rw [List.append_cons]
    exact ih (keeps.insert p)

end Keeps

theorem keeps_ofList (members : List Implicant) : (ofList members).Keeps members :=
  keeps_empty.insertAll members

/-! ### Changes -/

/-- What can be done to a set: one implicant or the members of a list are inserted, or the set of
the members of a list takes its place. -/
inductive Change where
  | insert (p : Implicant)
  | extend (added : List Implicant)
  | collect (members : List Implicant)

namespace Change

def run (set : ImplicantSet) : Change → ImplicantSet
  | insert p => (set.insertNew p).2
  | extend added => set.insertAll added
  | collect members => ofList members

/-- What was offered to the set since it was made, from what had been offered before the change. -/
def offer (offered : List Implicant) : Change → List Implicant
  | insert p => offered ++ [p]
  | extend added => offered ++ added
  | collect members => members

end Change

theorem Keeps.run {set : ImplicantSet} {offered : List Implicant} (keeps : set.Keeps offered)
    (change : Change) : (change.run set).Keeps (change.offer offered) := by
  cases change with
  | insert p =>
    rw [Change.run, insertNew_snd]
    exact keeps.insert p
  | extend added => exact keeps.insertAll added
  | collect members => exact keeps_ofList members

theorem Keeps.foldl_run {set : ImplicantSet} {offered : List Implicant} (keeps : set.Keeps offered)
    (changes : List Change) :
    (changes.foldl Change.run set).Keeps (changes.foldl Change.offer offered) := by
  induction changes generalizing set offered with
  | nil => exact keeps
  | cons change later ih => exact ih (keeps.run change)

/-- After any changes a set lists, without repetition, the first occurrences of what was offered to
it since it was made, and finds exactly these. A member that is inserted again is refused, and
anything else goes behind the members. The set of a list lists its first occurrences and is not
changed by its members. -/
theorem run_lists_first_occurrences (changes : List Change) :
    let set := changes.foldl Change.run empty
    set.toList = (changes.foldl Change.offer []).eraseDups
    ∧ set.toList.Nodup
    ∧ (∀ p, set.contains p = true ↔ p ∈ set.toList)
    ∧ (∀ p ∈ set.toList, set.insertNew p = (false, set))
    ∧ (∀ p ∉ set.toList, ∃ larger,
      set.insertNew p = (true, larger) ∧ larger.toList = set.toList ++ [p])
    ∧ ∀ members, (ofList members).toList = members.eraseDups
      ∧ ∀ added, (∀ p ∈ added, p ∈ (ofList members).toList) →
        (ofList members).insertAll added = ofList members := by
  intro set
  refine ⟨keeps_empty.foldl_run changes, set.nodup_toList, contains_iff_mem_toList set,
    fun p => insertNew_of_mem, fun p absent => ⟨_, insertNew_of_not_mem absent, ?_⟩,
    fun members => ⟨keeps_ofList members, fun added => insertAll_of_forall_mem⟩⟩
  rw [toList_insert, if_neg absent]

/-- The set of `01-` takes in `1--`, and then `01-` once more. -/
def offeredTwice : List Change :=
  [.collect [⟨[.zero, .one, .dash]⟩], .insert ⟨[.one, .dash, .dash]⟩,
    .extend [⟨[.zero, .one, .dash]⟩]]

theorem run_lists_first_occurrences_offeredTwice :
    let set := offeredTwice.foldl Change.run empty
    set.toList = [⟨[.zero, .one, .dash]⟩, ⟨[.one, .dash, .dash]⟩]
    ∧ set.insertNew ⟨[.one, .dash, .dash]⟩ = (false, set)
    ∧ (∃ larger,
      set.insertNew ⟨[.dash]⟩ = (true, larger) ∧ larger.toList = set.toList ++ [⟨[.dash]⟩])
    ∧ (ofList [⟨[.dash]⟩, ⟨[.one]⟩]).insertAll [⟨[.one]⟩] = ofList [⟨[.dash]⟩, ⟨[.one]⟩] := by
  intro set
  obtain ⟨listed, -, -, refused, appended, made⟩ := run_lists_first_occurrences offeredTwice
  have members : set.toList = [⟨[.zero, .one, .dash]⟩, ⟨[.one, .dash, .dash]⟩] :=
    listed.trans (by decide)
  refine ⟨members, refused _ ?_, appended _ ?_, (made _).2 _ ?_⟩
  · rw [members]
    decide
  · rw [members]
    decide
  · rw [(made _).1]
    decide

end TwoLevel.ImplicantSet
