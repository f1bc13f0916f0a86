import Mathlib.Data.List.Induction

/-!
# Lists that are read from front to back

What a reader of a list meets: the first member that is at fault, given those before it, and the
last member with a property, which counts as long as no later one has it. A list either has a first
fault or is free of faults, and all these notions follow a list that grows at its end.
-/
namespace TwoLevel

variable {α ε : Type}

/-- A member of a list that has grown at its end is the new one or stands before it. -/
theorem append_singleton_eq_iff {members front back : List α} {last member : α} :
    members ++ [last] = front ++ member :: back
      ↔ members = front ∧ last = member ∧ back = []
        ∨ ∃ rest, back = rest ++ [last] ∧ members = front ++ member :: rest := by
  constructor
  · intro whole
    induction back using List.reverseRecOn with
    | nil =>
      obtain ⟨same, ends⟩ := List.append_inj' whole rfl
      exact .inl ⟨same, List.singleton_inj.mp ends, rfl⟩
    | append_singleton rest other _ =>
      rw [← List.cons_append, ← List.append_assoc] at whole
      obtain ⟨same, ends⟩ := List.append_inj' whole rfl
      exact .inr ⟨rest, by rw [List.singleton_inj.mp ends], same⟩
  · rintro (⟨rfl, rfl, rfl⟩ | ⟨rest, rfl, rfl⟩)
    · rfl
    · simp

/-- No member is at fault, given those before it. -/
def Faultless (Fault : List α → α → ε → Prop) (members : List α) : Prop :=
  ∀ front member back fault, members = front ++ member :: back → ¬ Fault front member fault

/-- The fault of the first member that has one. -/
def FirstFault (Fault : List α → α → ε → Prop) (members : List α) (fault : ε) : Prop :=
  ∃ front member back, members = front ++ member :: back
    ∧ Faultless Fault front ∧ Fault front member fault

section

variable {Fault : List α → α → ε → Prop}

theorem faultless_nil : Faultless Fault [] := by
  intro front member back _ whole
  simp at whole

theorem Faultless.front {front back : List α} (clean : Faultless Fault (front ++ back)) :
    Faultless Fault front := by
  rintro earlier member later fault rfl
  exact clean earlier member (later ++ back) fault (by simp)

theorem faultless_append_singleton (members : List α) (last : α) :
    Faultless Fault (members ++ [last])
      ↔ Faultless Fault members ∧ ∀ fault, ¬ Fault members last fault := by
  constructor
  · exact fun clean => ⟨clean.front, fun fault => clean members last [] fault rfl⟩
  · rintro ⟨clean, fine⟩ front member back fault whole
    rcases append_singleton_eq_iff.mp whole with ⟨rfl, rfl, -⟩ | ⟨rest, -, earlier⟩
    · exact fine fault
    · exact clean front member rest fault earlier

theorem FirstFault.append {members : List α} {fault : ε} (found : FirstFault Fault members fault)
    (more : List α) : FirstFault Fault (members ++ more) fault := by
  obtain ⟨front, member, back, rfl, clean, bad⟩ := found
  exact ⟨front, member, back ++ more, by simp, clean, bad⟩

theorem faultless_or_firstFault (Fault : List α → α → ε → Prop) (members : List α) :
    Faultless Fault members ∨ ∃ fault, FirstFault Fault members fault := by
  induction members using List.reverseRecOn with
  | nil => exact .inl faultless_nil
  | append_singleton members last ih =>
    rcases ih with clean | ⟨fault, found⟩
    · by_cases bad : ∃ fault, Fault members last fault
      · obtain ⟨fault, bad⟩ := bad
        exact .inr ⟨fault, members, last, [], rfl, clean, bad⟩
      · exact .inl ((faultless_append_singleton members last).mpr ⟨clean, not_exists.mp bad⟩)
    · exact .inr ⟨fault, found.append [last]⟩

end

/-- The last member with a property. -/
def Last (property : α → Prop) (members : List α) (found : α) : Prop :=
  ∃ front back, members = front ++ found :: back ∧ property found ∧ ∀ later ∈ back, ¬ property later

section

variable {property : α → Prop}

theorem Last.mem {members : List α} {found : α} (last : Last property members found) :
    found ∈ members := by
  obtain ⟨front, back, rfl, -, -⟩ := last
  exact List.mem_append_right front List.mem_cons_self

theorem Last.holds {members : List α} {found : α} (last : Last property members found) :
    property found := by
  obtain ⟨front, back, -, holds, -⟩ := last
  exact holds

theorem not_last_nil (found : α) : ¬ Last property [] found := fun last => nomatch last.mem

theorem last_append_singleton (members : List α) (member found : α) :
    Last property (members ++ [member]) found
      ↔ property member ∧ found = member ∨ ¬ property member ∧ Last property members found := by
  constructor
  · rintro ⟨front, back, whole, holds, fails⟩
    rcases append_singleton_eq_iff.mp whole with ⟨-, rfl, -⟩ | ⟨rest, rfl, rfl⟩
    · exact .inl ⟨holds, rfl⟩
    · have earlier := fun later inside => fails later (List.mem_append_left _ inside)
      exact .inr ⟨fails member (by simp), front, rest, rfl, holds, earlier⟩
  · rintro (⟨holds, rfl⟩ | ⟨fails, front, back, rfl, holds, earlier⟩)
    · exact ⟨members, [], rfl, holds, by simp⟩
    · refine ⟨front, back ++ [member], by simp, holds, fun later inside => ?_⟩
      rcases List.mem_append.mp inside with inside | inside
      · exact earlier later inside
      · exact List.mem_singleton.mp inside ▸ fails

theorem Last.append {members : List α} {found member : α} (last : Last property members found)
    (fails : ¬ property member) : Last property (members ++ [member]) found :=
  (last_append_singleton _ _ _).mpr (.inr ⟨fails, last⟩)

theorem last_end (members : List α) {member : α} (holds : property member) :
    Last property (members ++ [member]) member :=
  (last_append_singleton _ _ _).mpr (.inl ⟨holds, rfl⟩)

theorem Last.unique {members : List α} {one other : α} (first : Last property members one)
    (second : Last property members other) : one = other := by
  induction members using List.reverseRecOn with
  | nil => exact absurd first (not_last_nil one)
  | append_singleton members member ih =>
    rw [last_append_singleton] at first second
    rcases first with ⟨holds, rfl⟩ | ⟨fails, first⟩
    · rcases second with ⟨-, rfl⟩ | ⟨fails, -⟩
      · rfl
      · exact absurd holds fails
    · exact ih first (second.resolve_left fun found => fails found.1).2

theorem exists_last {members : List α} (possessed : ∃ member ∈ members, property member) :
    ∃ found, Last property members found := by
  induction members using List.reverseRecOn with
  | nil => simp at possessed
  | append_singleton members member ih =>
    by_cases holds : property member
    · exact ⟨member, last_end members holds⟩
    · obtain ⟨found, last⟩ := ih <| by
        obtain ⟨other, inside, holding⟩ := possessed
        rcases List.mem_append.mp inside with inside | inside
        · exact ⟨other, inside, holding⟩
        · exact absurd (List.mem_singleton.mp inside ▸ holding) holds
      exact ⟨found, last.append holds⟩

/-- Members without the property change nothing behind the last one that has it. -/
theorem last_append_of_forall_not {front back : List α} {found : α}
    (fails : ∀ later ∈ back, ¬ property later) :
    Last property (front ++ back) found ↔ Last property front found := by
  induction back using List.reverseRecOn with
  | nil => rw [List.append_nil]
  | append_singleton back member ih =>
    obtain ⟨earlier, here⟩ := List.forall_mem_append.mp fails
    have other : ¬ property member := here member List.mem_cons_self
    rw [← List.append_assoc, last_append_singleton, ih earlier]
    exact ⟨fun last =>
      (last.resolve_left fun found => other found.1).2, fun last => .inr ⟨other, last⟩⟩

end

/-- The last member with a property that depends on the members before it, and the members behind
it. -/
def LastAt (property : List α → α → Prop) (members : List α) (found : α) (behind : List α) : Prop :=
  ∃ front, members = front ++ found :: behind ∧ property front found
    ∧ ∀ between later rest, behind = between ++ later :: rest →
      ¬ property (front ++ found :: between) later

theorem exists_lastAt {property : List α → α → Prop} {members : List α}
    (possessed : ∃ front member back, members = front ++ member :: back ∧ property front member) :
    ∃ found behind, LastAt property members found behind := by
  induction members using List.reverseRecOn with
  | nil => simp at possessed
  | append_singleton members last ih =>
    by_cases holds : property members last
    · exact ⟨last, [], members, rfl, holds, by simp⟩
    · obtain ⟨found, behind, front, rfl, held, later⟩ := ih <| by
        obtain ⟨front, member, back, whole, held⟩ := possessed
        rcases append_singleton_eq_iff.mp whole with ⟨rfl, rfl, -⟩ | ⟨rest, -, earlier⟩
        · exact absurd held holds
        · exact ⟨front, member, rest, earlier, held⟩
      refine ⟨found, behind ++ [last], front, by simp, held, fun between other rest whole => ?_⟩
      rcases append_singleton_eq_iff.mp whole with ⟨rfl, rfl, -⟩ | ⟨rest, -, earlier⟩
      · exact holds
      · exact later between other rest earlier

end TwoLevel
