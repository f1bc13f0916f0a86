import Std.Data.HashMap.Lemmas
import TwoLevel.Ascending
import TwoLevel.Word
import TwoLevel.Implicant.Set

/-!
# Prime implicants

The prime implicants of a set of terms are found in rounds. The first generation holds one implicant
for each term. A round joins every two members of a generation that differ in one position, where
one has a 0 and the other a 1; such a pair has its free positions in common, and its numbers of ones
differ by one, so partners are looked up by these two. The results form the next generation, and
what no pair used is prime.

Each generation has one more free position than the one before, so over `n` variables there are at
most `n + 1` of them: that is the budget of `primesFrom`.
-/
namespace TwoLevel

/-- Two implicants of one generation together with what they merge to. -/
structure Join where
  lower : Implicant
  upper : Implicant
  merged : Implicant

/-- The number of ones of an implicant and, position by position, whether it is fixed there. -/
def shape (p : Implicant) : Nat × List Bool := (p.ones, p.symbols.map Symbol.isLiteral)

/-- The members of a generation by their shapes, each list in the order of the generation. -/
def byShape (generation : List Implicant) : Std.HashMap (Nat × List Bool) (List Implicant) :=
  generation.foldr (fun p known => known.insert (shape p) (p :: known.getD (shape p) [])) ∅

theorem getD_byShape (generation : List Implicant) (wanted : Nat × List Bool) :
    (byShape generation).getD wanted [] = generation.filter fun p => shape p == wanted := by
  induction generation with
  | nil => simp [byShape]
  | cons p rest ih =>
    have step : byShape (p :: rest)
        = (byShape rest).insert (shape p) (p :: (byShape rest).getD (shape p) []) := rfl
    rw [step, Std.HashMap.getD_insert]
    by_cases same : shape p = wanted
    · subst same
      simp [ih]
    · simp [same, ih]

/-- The joins of one implicant with the members of a list, in the order of the list. -/
def joinsOf (uppers : List Implicant) (lower : Implicant) : List Join :=
  uppers.filterMap fun upper => (lower.combine upper).map fun merged => ⟨lower, upper, merged⟩

/-- All joins of a generation over a number of variables, by ascending number of ones. -/
def joins (arity : Nat) (generation : List Implicant) : List Join :=
  let known := byShape generation
  (List.range arity).flatMap fun count =>
    (generation.filter fun p => p.ones == count).flatMap fun lower =>
      joinsOf (known.getD (count + 1, (shape lower).2) []) lower

/-- The generation that follows: what the joins merge to, in the order in which it is first met. -/
def nextGeneration (found : List Join) : ImplicantSet :=
  .ofList (found.map Join.merged)

/-- The members of the generation that take part in a join. -/
def consumed (found : List Join) : Std.HashSet Implicant :=
  found.foldl (fun used join => (used.insert join.lower).insert join.upper) ∅

/-- The members of the generation that take part in no join: these are prime. -/
def unmerged (generation : List Implicant) (found : List Join) : List Implicant :=
  let used := consumed found
  generation.filter fun p => !used.contains p

/-- Runs rounds from a generation until one is empty, adding the primes of each to those found. -/
def primesFrom (arity : Nat) : Nat → ImplicantSet → ImplicantSet → ImplicantSet
  | 0, _, found => found
  | budget + 1, generation, found =>
    if generation.isEmpty then found
    else
      let pairs := joins arity generation.toList
      primesFrom arity budget (nextGeneration pairs)
        (found.insertAll (unmerged generation.toList pairs))

/-- One implicant for each term, in ascending order of the terms. -/
def firstGeneration (terms : List Nat) (arity : Nat) : ImplicantSet :=
  .ofList ((ascending terms).map (Implicant.ofIndex · arity))

/-- The prime implicants of a set of terms over a number of variables, in the order in which the
rounds find them. Of each term only the low `arity` bits count. -/
def primes (terms : List Nat) (arity : Nat) : ImplicantSet :=
  primesFrom arity (arity + 1) (firstGeneration terms arity) .empty

/-- The prime implicants of term index words: no answer for a term with more variables than a word
has bits. -/
def primes? (terms : List Nat) (arity : Nat) : Option ImplicantSet :=
  if terms.isEmpty || arity ≤ Word.size then some (primes terms arity) else none

end TwoLevel
