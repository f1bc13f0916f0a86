import TwoLevel.Proofs.Primes.Joins
import TwoLevel.Proofs.Implicant.Prime

/-!
# The primes are found

The generation of a round holds exactly the implicants of the terms with as many free positions as
there were rounds before. For the first one this is so because an implicant without a free position
is that of a term. For the next it follows because an implicant with one more free position is the
join of the two that fix this position to 0 and to 1, which are implicants of the terms as well.

A member of a generation takes part in a join exactly if one of its fixed positions can be freed, so
what the round leaves over is prime. A round therefore adds the primes with its number of free
positions, and the primes come in the order of these numbers.
-/
namespace TwoLevel

/-- The members are the implicants of the terms with a number of free positions. -/
def IsGeneration (terms : List Nat) (arity round : Nat) (members : List Implicant) : Prop :=
  ∀ p, p ∈ members ↔ p.IsImplicantOf terms arity ∧ p.dashes = round

theorem isGeneration_first (terms : List Nat) (arity : Nat) :
    IsGeneration terms arity 0 (firstGeneration terms arity).toList := by
  intro p
  simp only [firstGeneration, ImplicantSet.mem_ofList, List.mem_map, mem_ascending]
  constructor
  · rintro ⟨term, member, rfl⟩
    exact ⟨Implicant.isImplicantOf_ofIndex member arity, Implicant.dashes_ofIndex term arity⟩
  · rintro ⟨implicant, fixed⟩
    obtain ⟨term, member, rfl⟩ := implicant.exists_eq_ofIndex fixed
    exact ⟨term, member, rfl⟩

section

variable {terms : List Nat} {arity round : Nat} {members : List Implicant}

theorem IsGeneration.width_eq (exact : IsGeneration terms arity round members) (p : Implicant)
    (member : p ∈ members) : p.width = arity :=
  ((exact p).mp member).1.width_eq

/-- Of an implicant with a position fixed to 0 and the same with that position fixed to 1, both are
in the generation exactly if the implicant with the position free belongs to the next one. -/
theorem IsGeneration.fixed_iff_free (exact : IsGeneration terms arity round members)
    (front back : List Symbol) :
    (⟨front ++ .zero :: back⟩ ∈ members ∧ ⟨front ++ .one :: back⟩ ∈ members)
      ↔ (Implicant.mk (front ++ .dash :: back)).IsImplicantOf terms arity
        ∧ (Implicant.mk (front ++ .dash :: back)).dashes = round + 1 := by
  rw [exact, exact, Implicant.isImplicantOf_dash_iff]
  simp only [Implicant.dashes_append_cons, reduceCtorEq, ite_false, ite_true, Nat.add_zero,
    Nat.add_right_cancel_iff]
  tauto

theorem IsGeneration.mem_joins_iff (exact : IsGeneration terms arity round members) (join : Join) :
    join ∈ joins arity members ↔ join.FreesOne ∧ join.merged.IsImplicantOf terms arity
      ∧ join.merged.dashes = round + 1 := by
  obtain ⟨⟨low⟩, ⟨high⟩, ⟨merged⟩⟩ := join
  rw [TwoLevel.mem_joins_iff exact.width_eq]
  constructor
  · rintro ⟨lower, upper, frees⟩
    obtain ⟨front, back, rfl, rfl, rfl⟩ := id frees
    exact ⟨frees, (exact.fixed_iff_free front back).mp ⟨lower, upper⟩⟩
  · rintro ⟨frees, larger⟩
    obtain ⟨front, back, rfl, rfl, rfl⟩ := id frees
    obtain ⟨lower, upper⟩ := (exact.fixed_iff_free front back).mpr larger
    exact ⟨lower, upper, frees⟩

theorem IsGeneration.next (exact : IsGeneration terms arity round members) :
    IsGeneration terms arity (round + 1) (nextGeneration (joins arity members)).toList := by
  intro p
  rw [mem_nextGeneration]
  constructor
  · rintro ⟨join, found, rfl⟩
    exact ((exact.mem_joins_iff join).mp found).2
  -- Fixing one of the free positions to either bit gives two implicants of this round.
  · rintro ⟨larger, dashes⟩
    obtain ⟨front, back, rfl⟩ := Implicant.exists_dash dashes
    refine ⟨⟨⟨front ++ .zero :: back⟩, ⟨front ++ .one :: back⟩, _⟩, ?_, rfl⟩
    exact (exact.mem_joins_iff _).mpr ⟨⟨front, back, rfl, rfl, rfl⟩, larger, dashes⟩

/-- A member takes part in a join exactly if one of its fixed positions can be freed. -/
theorem IsGeneration.joined_iff (exact : IsGeneration terms arity round members) {p : Implicant}
    (member : p ∈ members) :
    (∃ join ∈ joins arity members, p = join.lower ∨ p = join.upper)
      ↔ ∃ front symbol back, symbol ≠ .dash ∧ p.symbols = front ++ symbol :: back
        ∧ (Implicant.mk (front ++ .dash :: back)).IsImplicantOf terms arity := by
  obtain ⟨symbols⟩ := p
  constructor
  · rintro ⟨⟨⟨low⟩, ⟨high⟩, ⟨merged⟩⟩, found, part⟩
    obtain ⟨⟨front, back, rfl, rfl, rfl⟩, larger, -⟩ := (exact.mem_joins_iff _).mp found
    rcases part with lower | upper
    · cases lower
      exact ⟨front, .zero, back, by decide, rfl, larger⟩
    · cases upper
      exact ⟨front, .one, back, by decide, rfl, larger⟩
  -- The member and its partner with the other bit at the position are joined.
  · rintro ⟨front, symbol, back, fixed, rfl, larger⟩
    have dashes := ((exact _).mp member).2
    rw [Implicant.dashes_append_cons, if_neg fixed] at dashes
    have found :
        (⟨⟨front ++ .zero :: back⟩, ⟨front ++ .one :: back⟩, ⟨front ++ .dash :: back⟩⟩ : Join)
          ∈ joins arity members := by
      refine (exact.mem_joins_iff _).mpr ⟨⟨front, back, rfl, rfl, rfl⟩, larger, ?_⟩
      rw [Implicant.dashes_append_cons, if_pos rfl]
      omega
    refine ⟨_, found, ?_⟩
    cases symbol with
    | zero => exact .inl rfl
    | one => exact .inr rfl
    | dash => exact absurd rfl fixed

/-- What a round leaves over are the primes among its implicants. -/
theorem IsGeneration.mem_unmerged (exact : IsGeneration terms arity round members) (p : Implicant) :
    p ∈ unmerged members (joins arity members) ↔ p.IsPrimeOf terms arity ∧ p.dashes = round := by
  rw [TwoLevel.mem_unmerged, Implicant.isPrimeOf_iff]
  constructor
  · rintro ⟨member, alone⟩
    obtain ⟨implicant, dashes⟩ := (exact p).mp member
    refine ⟨⟨implicant, fun front symbol back fixed split larger => ?_⟩, dashes⟩
    obtain ⟨join, found, part⟩ :=
      (exact.joined_iff member).mpr ⟨front, symbol, back, fixed, split, larger⟩
    rcases part with lower | upper
    · exact (alone join found).1 lower
    · exact (alone join found).2 upper
  -- A join of the member would show a position of it that can be freed.
  · rintro ⟨⟨implicant, maximal⟩, dashes⟩
    have member := (exact p).mpr ⟨implicant, dashes⟩
    refine ⟨member, fun join found => ?_⟩
    rw [← not_or]
    intro part
    obtain ⟨front, symbol, back, fixed, split, larger⟩ :=
      (exact.joined_iff member).mp ⟨join, found, part⟩
    exact maximal front symbol back fixed split larger

/-- When a generation is empty, no implicant has as many free positions or more. -/
theorem IsGeneration.dashes_lt_of_nil (exact : IsGeneration terms arity round []) (p : Implicant)
    (implicant : p.IsImplicantOf terms arity) : p.dashes < round := by
  -- Fixing free positions one by one would lead down to a member of the empty generation.
  induction count : p.dashes generalizing p with
  | zero =>
    by_contra late
    have here : p.dashes = round := by omega
    exact List.not_mem_nil ((exact p).mpr ⟨implicant, here⟩)
  | succ fewer ih =>
    obtain ⟨front, back, rfl⟩ := Implicant.exists_dash count
    have smaller := ((Implicant.isImplicantOf_dash_iff front back terms arity).mp implicant).1
    have dashes : (Implicant.mk (front ++ .zero :: back)).dashes = fewer := by
      rw [Implicant.dashes_append_cons, if_pos rfl] at count
      rw [Implicant.dashes_append_cons, if_neg (by decide)]
      omega
    have bound := ih _ smaller dashes
    by_contra late
    have here : fewer + 1 = round := by omega
    exact List.not_mem_nil ((exact _).mpr ⟨implicant, count.trans here⟩)

end

/-! ### All rounds -/

/-- From the generation of a round on, the primes with at least that many free positions are found.
An implicant has no more free positions than variables, which bounds the number of rounds. -/
theorem mem_primesFrom (terms : List Nat) (arity budget round : Nat)
    (generation found : ImplicantSet) (exact : IsGeneration terms arity round generation.toList)
    (enough : arity + 1 ≤ round + budget) (p : Implicant) :
    p ∈ (primesFrom arity budget generation found).toList
      ↔ p ∈ found.toList ∨ p.IsPrimeOf terms arity ∧ round ≤ p.dashes := by
  induction budget generalizing round generation found with
  | zero =>
    -- The rounds so far have reached beyond the number of variables.
    simp only [primesFrom, iff_self_or, and_imp]
    intro prime late
    have all := p.literalCount_add_dashes
    rw [prime.isImplicantOf.width_eq] at all
    omega
  | succ budget ih =>
    rw [primesFrom]
    split
    next empty =>
      rw [ImplicantSet.isEmpty_iff] at empty
      rw [empty] at exact
      simp only [iff_self_or, and_imp]
      intro prime late
      have early := exact.dashes_lt_of_nil p prime.isImplicantOf
      omega
    next =>
      -- The round adds the primes with its number of free positions; the later ones have more.
      rw [ih (round + 1) _ _ exact.next (by omega), ImplicantSet.mem_insertAll, exact.mem_unmerged,
        or_assoc, ← and_or_left]
      have rounds : p.dashes = round ∨ round + 1 ≤ p.dashes ↔ round ≤ p.dashes := by omega
      rw [rounds]

theorem pairwise_primesFrom (terms : List Nat) (arity budget round : Nat)
    (generation found : ImplicantSet) (exact : IsGeneration terms arity round generation.toList)
    (sorted : found.toList.Pairwise fun p q => p.dashes ≤ q.dashes)
    (earlier : ∀ p ∈ found.toList, p.dashes < round) :
    (primesFrom arity budget generation found).toList.Pairwise fun p q => p.dashes ≤ q.dashes := by
  induction budget generalizing round generation found with
  | zero => exact sorted
  | succ budget ih =>
    rw [primesFrom]
    split
    next => exact sorted
    next =>
      have dashes (p : Implicant)
          (left : p ∈ unmerged generation.toList (joins arity generation.toList)) :
          p.dashes = round := ((exact.mem_unmerged p).mp left).2
      apply ih (round + 1) _ _ exact.next
      -- All primes of a round have one number of free positions, above those found before.
      · apply ImplicantSet.pairwise_insertAll _ _ sorted
        · apply List.pairwise_of_forall_mem_list
          intro p left q right
          exact Nat.le_of_eq ((dashes p left).trans (dashes q right).symm)
        · intro p member q left
          have before := earlier p member
          rw [dashes q left]
          omega
      · intro p member
        rcases (ImplicantSet.mem_insertAll _ _ p).mp member with old | left
        · exact Nat.lt_succ_of_lt (earlier p old)
        · rw [dashes p left]
          exact Nat.lt_succ_self round

theorem mem_primes (terms : List Nat) (arity : Nat) (p : Implicant) :
    p ∈ (primes terms arity).toList ↔ p.IsPrimeOf terms arity := by
  have all := mem_primesFrom terms arity (arity + 1) 0 _ .empty (isGeneration_first terms arity)
    (by omega) p
  simpa [primes] using all

theorem pairwise_primes (terms : List Nat) (arity : Nat) :
    (primes terms arity).toList.Pairwise fun p q => p.dashes ≤ q.dashes :=
  pairwise_primesFrom terms arity (arity + 1) 0 _ .empty (isGeneration_first terms arity)
    List.Pairwise.nil (by simp)

theorem primes?_eq_some {arity : Nat} (fits : arity ≤ Word.size) (terms : List Nat) :
    primes? terms arity = some (primes terms arity) := by
  rw [primes?, if_pos (by simp [fits])]

/-- Over as many variables as a word has bits or fewer, the listing exists, repeats nothing,
consists of the prime implicants of the low bits of the terms, and has those with fewer free
positions first. -/
theorem primes?_lists_prime_implicants (terms : List Nat) (arity : Nat) (fits : arity ≤ Word.size) :
    ∃ found, primes? terms arity = some found ∧ found.toList.Nodup
      ∧ (∀ p, p ∈ found.toList ↔ p.IsPrimeOf terms arity)
      ∧ found.toList.Pairwise fun p q => p.dashes ≤ q.dashes := by
  refine ⟨primes terms arity, ?_, ImplicantSet.nodup_toList _, mem_primes terms arity,
    pairwise_primes terms arity⟩
  rw [primes?, if_pos (by simp [fits])]

theorem primes?_lists_prime_implicants_of_repeated_terms :
    3 ≤ Word.size ∧ ∃ found, primes? [5, 1, 13, 3, 5] 3 = some found ∧ found.toList.Nodup
      ∧ (∀ p, p ∈ found.toList ↔ p.IsPrimeOf [5, 1, 13, 3, 5] 3)
      ∧ found.toList.Pairwise fun p q => p.dashes ≤ q.dashes :=
  ⟨by decide, primes?_lists_prime_implicants [5, 1, 13, 3, 5] 3 (by decide)⟩

end TwoLevel
