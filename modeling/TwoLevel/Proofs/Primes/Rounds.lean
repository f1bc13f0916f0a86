import Mathlib.Data.List.Sort
import TwoLevel.Proofs.Primes.Generation

/-!
# The rounds and their end

The members of a generation have as many free positions as there were rounds before. So when two of
them merge, neither can be free where the other is fixed, for then their numbers of free positions
would differ: the one with fewer ones has a 0 there, the other a 1, and the result has one free
position more. This is why partners may be looked up by their fixed positions. Trying every member
against all that have one more 1 finds the same joins in the same order.

No generation shares a member with an earlier one, so nothing is promoted twice; and no implicant
has more free positions than variables, so over `n` variables at most `n + 1` rounds have something
to do.
-/
namespace TwoLevel

/-- The joins that are found when the members are grouped by their numbers of ones and each group is
tried against the next, whatever positions are free. -/
def neighbourJoins (generation : List Implicant) : List Join :=
  (ascending (generation.map Implicant.ones)).flatMap fun count =>
    (generation.filter fun p => p.ones == count).flatMap
      (joinsOf (generation.filter fun p => p.ones == count + 1))

/-- What a round over a generation promotes to prime. -/
def promoted (generation : ImplicantSet) : List Implicant :=
  unmerged generation.toList (neighbourJoins generation.toList)

/-- The generations of the rounds that are done from one on, until one is empty. -/
inductive Rounds : ImplicantSet → List ImplicantSet → Prop
  | done {generation : ImplicantSet} (empty : generation.toList = []) : Rounds generation []
  | round {generation : ImplicantSet} {later : List ImplicantSet} (filled : generation.toList ≠ [])
      (next : Rounds (nextGeneration (neighbourJoins generation.toList)) later) :
      Rounds generation (generation :: later)

/-- The members have one width and one number of free positions. -/
structure IsLayer (arity round : Nat) (members : List Implicant) : Prop where
  width_eq : ∀ p ∈ members, p.width = arity
  dashes_eq : ∀ p ∈ members, p.dashes = round

/-! ### Joins of neighbours -/

/-- Implicants with equally many free positions merge over a 0 and a 1. -/
theorem freesOne_of_combine {join : Join} (dashes : join.lower.dashes = join.upper.dashes)
    (ones : join.upper.ones = join.lower.ones + 1)
    (joined : join.lower.combine join.upper = some join.merged) : join.FreesOne := by
  obtain ⟨⟨low⟩, ⟨high⟩, ⟨merged⟩⟩ := join
  obtain ⟨front, a, b, back, differ, rfl, rfl, rfl⟩ :=
    (Implicant.combine_eq_some_iff _ _ _).mp joined
  simp only [Implicant.dashes_append_cons, ones_append_cons] at dashes ones
  -- A dash facing a symbol unbalances the free positions, a 1 facing a 0 the ones.
  cases a <;> cases b <;> simp at differ dashes ones
  · exact ⟨front, back, rfl, rfl, rfl⟩
  · omega

theorem Join.FreesOne.shape_upper {join : Join} (frees : join.FreesOne) :
    shape join.upper = (join.lower.ones + 1, (shape join.lower).2) := by
  obtain ⟨⟨low⟩, ⟨high⟩, ⟨merged⟩⟩ := join
  obtain ⟨front, back, rfl, rfl, rfl⟩ := frees
  exact (shape_neighbours_iff front back (by decide)).mpr ⟨rfl, rfl⟩

theorem Join.FreesOne.dashes_merged {join : Join} (frees : join.FreesOne) :
    join.merged.dashes = join.lower.dashes + 1 := by
  obtain ⟨⟨low⟩, ⟨high⟩, ⟨merged⟩⟩ := join
  obtain ⟨front, back, rfl, rfl, rfl⟩ := frees
  simp [Implicant.dashes_append_cons]

theorem mem_neighbourJoins (generation : List Implicant) (join : Join) :
    join ∈ neighbourJoins generation
      ↔ join.lower ∈ generation ∧ join.upper ∈ generation ∧ join.upper.ones = join.lower.ones + 1
        ∧ join.lower.combine join.upper = some join.merged := by
  simp only [neighbourJoins, List.mem_flatMap, mem_ascending, List.mem_map, List.mem_filter,
    mem_joinsOf, beq_iff_eq]
  constructor
  · rintro ⟨count, -, lower, ⟨low, rfl⟩, rfl, ⟨high, ones⟩, joined⟩
    exact ⟨low, high, ones, joined⟩
  · rintro ⟨low, high, ones, joined⟩
    exact ⟨_, ⟨_, low, rfl⟩, join.lower, ⟨low, rfl⟩, rfl, ⟨high, ones⟩, joined⟩

theorem flatMap_eq_of_ascending {α : Type} {left right : List Nat} (attached : Nat → List α)
    (left_sorted : left.Pairwise (· < ·)) (right_sorted : right.Pairwise (· < ·))
    (same : ∀ x, attached x ≠ [] → (x ∈ left ↔ x ∈ right)) :
    left.flatMap attached = right.flatMap attached := by
  -- Only the numbers to which something is attached matter, and both lists have the same of them.
  have useful (numbers : List Nat) :
      (numbers.filter fun x => !(attached x).isEmpty).flatMap attached
      = numbers.flatMap attached := by
    induction numbers with
    | nil => rfl
    | cons x rest ih =>
      rw [List.filter_cons, List.flatMap_cons, ← ih]
      cases nothing : attached x <;> simp [nothing]
  rw [← useful left, ← useful right]
  congr 1
  apply (left_sorted.filter _).eq_of_mem_iff (right_sorted.filter _)
  intro x
  simp only [List.mem_filter, Bool.not_eq_true', List.isEmpty_eq_false_iff]
  exact and_congr_left (same x)

namespace IsLayer

variable {arity round : Nat} {members : List Implicant} (layer : IsLayer arity round members)

include layer

theorem freesOne {join : Join} (found : join ∈ neighbourJoins members) : join.FreesOne := by
  obtain ⟨lower, upper, ones, joined⟩ := (mem_neighbourJoins members join).mp found
  exact freesOne_of_combine ((layer.dashes_eq _ lower).trans (layer.dashes_eq _ upper).symm)
    ones joined

theorem joinsOf_shape {lower : Implicant} (member : lower ∈ members) :
    joinsOf (members.filter fun p => shape p == (lower.ones + 1, (shape lower).2)) lower
      = joinsOf (members.filter fun p => p.ones == lower.ones + 1) lower := by
  rw [joinsOf, joinsOf, List.filterMap_filter, List.filterMap_filter]
  apply List.filterMap_congr
  intro upper listed
  -- Of the partners by number of ones, those with other free positions merge with nothing.
  cases joined : lower.combine upper with
  | none => simp
  | some merged =>
    have dashes := (layer.dashes_eq lower member).trans (layer.dashes_eq upper listed).symm
    have shaped :
        shape upper = (lower.ones + 1, (shape lower).2) ↔ upper.ones = lower.ones + 1 := by
      constructor
      · exact congrArg Prod.fst
      · intro ones
        have frees : (Join.mk lower upper merged).FreesOne := freesOne_of_combine dashes ones joined
        exact frees.shape_upper
    simp only [beq_iff_eq, shaped]

theorem ones_le {p : Implicant} (member : p ∈ members) : p.ones ≤ arity := by
  rw [← layer.width_eq p member]
  exact List.count_le_length

/-- Looking partners up by their shapes finds the joins of neighbours, in their order. -/
theorem joins_eq : joins arity members = neighbourJoins members := by
  have looked_up : joins arity members = (List.range arity).flatMap fun count =>
      (members.filter fun p => p.ones == count).flatMap
        (joinsOf (members.filter fun p => p.ones == count + 1)) := by
    apply List.flatMap_congr
    intro count _
    apply List.flatMap_congr
    intro lower grouped
    obtain ⟨member, ones⟩ := List.mem_filter.mp grouped
    rw [beq_iff_eq] at ones
    rw [getD_byShape, ← ones, layer.joinsOf_shape member]
  rw [looked_up, neighbourJoins]
  apply flatMap_eq_of_ascending _ List.pairwise_lt_range (pairwise_ascending _)
  -- Where a join is found, its lower part shows the number of ones and its upper part the bound.
  intro count found
  obtain ⟨join, joined⟩ := List.exists_mem_of_ne_nil _ found
  simp only [List.mem_flatMap, List.mem_filter, mem_joinsOf, beq_iff_eq] at joined
  obtain ⟨lower, ⟨member, ones⟩, -, ⟨partner, more⟩, -⟩ := joined
  have bound := layer.ones_le partner
  simp only [List.mem_range, mem_ascending, List.mem_map]
  exact ⟨fun _ => ⟨lower, member, ones⟩, fun _ => by omega⟩

theorem next : IsLayer arity (round + 1) (nextGeneration (neighbourJoins members)).toList := by
  constructor
  · intro p listed
    obtain ⟨join, found, rfl⟩ := (mem_nextGeneration _ p).mp listed
    obtain ⟨lower, -, -, joined⟩ := (mem_neighbourJoins members join).mp found
    rw [← (Implicant.width_eq_of_combine joined).1, layer.width_eq _ lower]
  · intro p listed
    obtain ⟨join, found, rfl⟩ := (mem_nextGeneration _ p).mp listed
    obtain ⟨lower, -, -, -⟩ := (mem_neighbourJoins members join).mp found
    rw [(layer.freesOne found).dashes_merged, layer.dashes_eq _ lower]

end IsLayer

/-! ### The run -/

theorem isLayer_first (terms : List Nat) (arity : Nat) :
    IsLayer arity 0 (firstGeneration terms arity).toList := by
  constructor
  · exact (isGeneration_first terms arity).width_eq
  · exact fun p member => ((isGeneration_first terms arity p).mp member).2

theorem mem_promoted {generation : ImplicantSet} {p : Implicant}
    (member : p ∈ promoted generation) : p ∈ generation.toList :=
  ((mem_unmerged _ _ p).mp member).1

theorem nodup_promoted (generation : ImplicantSet) : (promoted generation).Nodup :=
  generation.nodup_toList.filter _

theorem exists_rounds {arity round : Nat} (generation : ImplicantSet)
    (layer : IsLayer arity round generation.toList) (early : round ≤ arity + 1) :
    ∃ generations, Rounds generation generations ∧ round + generations.length ≤ arity + 1 := by
  -- The measure counts the rounds until the free positions outnumber the variables.
  induction left : arity + 1 - round generalizing round generation with
  | zero =>
    have empty : generation.toList = [] := by
      apply List.eq_nil_iff_forall_not_mem.mpr
      intro p member
      have all := p.literalCount_add_dashes
      rw [layer.dashes_eq p member, layer.width_eq p member] at all
      omega
    exact ⟨[], .done empty, early⟩
  | succ left ih =>
    by_cases empty : generation.toList = []
    · exact ⟨[], .done empty, early⟩
    · obtain ⟨later, rounds, bound⟩ := ih _ layer.next (by omega) (by omega)
      exact ⟨generation :: later, .round empty rounds, by rw [List.length_cons]; omega⟩

theorem Rounds.isLayer {arity round : Nat} {generation : ImplicantSet}
    {generations : List ImplicantSet}
    (rounds : Rounds generation generations) (layer : IsLayer arity round generation.toList)
    {k : Nat} {current : ImplicantSet} (reached : generations[k]? = some current) :
    IsLayer arity (round + k) current.toList := by
  induction rounds generalizing round k with
  | done => simp at reached
  | round _ _ ih =>
    cases k with
    | zero =>
      rw [List.getElem?_cons_zero, Option.some.injEq] at reached
      exact reached ▸ layer
    | succ k =>
      have later := ih layer.next reached
      rwa [Nat.add_assoc, Nat.add_comm 1 k] at later

/-- With a budget for each of its rounds, a run yields what the rounds promote, in their order. -/
theorem Rounds.toList_primesFrom {arity round : Nat} {generation : ImplicantSet}
    {generations : List ImplicantSet} (rounds : Rounds generation generations)
    (layer : IsLayer arity round generation.toList) {budget : Nat}
    (enough : generations.length ≤ budget) (found : ImplicantSet)
    (earlier : ∀ p ∈ found.toList, p.dashes < round) :
    (primesFrom arity budget generation found).toList
      = found.toList ++ generations.flatMap promoted := by
  induction rounds generalizing round budget found with
  | done empty =>
    cases budget with
    | zero => simp [primesFrom]
    | succ budget => simp [primesFrom, (ImplicantSet.isEmpty_iff _).mpr empty]
  | @round generation later filled _ ih =>
    rw [List.length_cons] at enough
    obtain ⟨budget, rfl⟩ := Nat.exists_eq_add_of_le' (Nat.le_of_add_left_le enough)
    have dashes (p : Implicant) (member : p ∈ promoted generation) : p.dashes = round :=
      layer.dashes_eq p (mem_promoted member)
    -- Earlier rounds promoted implicants with fewer free positions.
    have added :
        (found.insertAll (promoted generation)).toList = found.toList ++ promoted generation := by
      apply ImplicantSet.toList_insertAll
      refine List.nodup_append.mpr ⟨found.nodup_toList, nodup_promoted generation, ?_⟩
      rintro p old q new rfl
      exact absurd (dashes p new) (Nat.ne_of_lt (earlier p old))
    rw [primesFrom, if_neg (mt (ImplicantSet.isEmpty_iff _).mp filled), layer.joins_eq]
    change (primesFrom arity budget _ (found.insertAll (promoted generation))).toList = _
    rw [ih layer.next (Nat.le_of_succ_le_succ enough), added, List.flatMap_cons, List.append_assoc]
    intro p member
    rw [added] at member
    rcases List.mem_append.mp member with old | new
    · exact Nat.lt_succ_of_lt (earlier p old)
    · rw [dashes p new]
      exact Nat.lt_succ_self round

/-- Over as many variables as a word has bits or fewer, the primes are found in at most one round
more than there are variables. Before each round all implicants at hand have one width and as many
free positions as there were rounds before; the round merges over a 0 and a 1 only, to implicants
with one free position more; and nothing is promoted twice. -/
theorem primes?_rounds (terms : List Nat) (arity : Nat) (fits : arity ≤ Word.size) :
    ∃ generations found, Rounds (firstGeneration terms arity) generations
      ∧ generations.length ≤ arity + 1
      ∧ primes? terms arity = some found
      ∧ found.toList = generations.flatMap promoted
      ∧ (generations.flatMap promoted).Nodup
      ∧ ∀ (round : Nat) generation, generations[round]? = some generation →
        IsLayer arity round generation.toList
        ∧ joins arity generation.toList = neighbourJoins generation.toList
        ∧ (∀ join ∈ neighbourJoins generation.toList, join.FreesOne)
        ∧ IsLayer arity (round + 1) (nextGeneration (neighbourJoins generation.toList)).toList := by
  have first := isLayer_first terms arity
  obtain ⟨generations, rounds, bound⟩ :=
    exists_rounds (firstGeneration terms arity) first (Nat.zero_le _)
  rw [Nat.zero_add] at bound
  have listed : (primes terms arity).toList = generations.flatMap promoted := by
    have run := rounds.toList_primesFrom first bound .empty (by simp)
    rwa [ImplicantSet.toList_empty, List.nil_append] at run
  refine ⟨generations, primes terms arity, rounds, bound, primes?_eq_some fits terms,
    listed, ?_, ?_⟩
  · rw [← listed]
    exact ImplicantSet.nodup_toList _
  · intro round generation reached
    have layer := rounds.isLayer first reached
    rw [Nat.zero_add] at layer
    exact ⟨layer, layer.joins_eq, fun join found => layer.freesOne found, layer.next⟩

theorem primes?_rounds_of_mixed_terms :
    3 ≤ Word.size ∧ ∃ generations found, Rounds (firstGeneration [5, 0, 2, 8, 6, 4] 3) generations
      ∧ generations.length ≤ 3 + 1
      ∧ primes? [5, 0, 2, 8, 6, 4] 3 = some found
      ∧ found.toList = generations.flatMap promoted
      ∧ (generations.flatMap promoted).Nodup
      ∧ ∀ (round : Nat) generation, generations[round]? = some generation →
        IsLayer 3 round generation.toList
        ∧ joins 3 generation.toList = neighbourJoins generation.toList
        ∧ (∀ join ∈ neighbourJoins generation.toList, join.FreesOne)
        ∧ IsLayer 3 (round + 1) (nextGeneration (neighbourJoins generation.toList)).toList :=
  ⟨by decide, primes?_rounds [5, 0, 2, 8, 6, 4] 3 (by decide)⟩

end TwoLevel
