import TwoLevel.Chart.Basic

/-!
# Greedy covers

From the essential primes the greedy completion goes on in picks. A pick is the implicant that
covers the most terms still without a hit; of several it is the first. Every pick covers at least
one more term, so there are at most as many picks as terms: that is the budget of `picks`.
-/
namespace TwoLevel.Chart

/-- A candidate and the number of uncovered terms that it would cover. -/
structure Pick where
  position : Nat
  gain : Nat

/-- The number of terms without a hit that an implicant covers. -/
def gain (chart : Chart) (hits : Array Nat) (p : Nat) : Nat :=
  (chart.row p).countP fun r => hits[r]?.any (· == 0)

/-- Keeps the best candidate so far unless the next one gains more. -/
def keepBest (chart : Chart) (hits : Array Nat) (best : Option Pick) (p : Nat) : Option Pick :=
  let gain := chart.gain hits p
  if (best.map Pick.gain).getD 0 < gain then some ⟨p, gain⟩ else best

/-- The first implicant of largest gain, if any implicant gains a term. -/
def bestPick (chart : Chart) (hits : Array Nat) : Option Pick :=
  (List.range chart.primes.size).foldl (chart.keepBest hits) none

/-- The picks that complete a selection with the given hits, in the order in which they are made. -/
def picks (chart : Chart) : Nat → Array Nat → Except CoverError (List Nat)
  | 0, _ => .ok []
  | budget + 1, hits =>
    if (uncovered hits).isEmpty then .ok []
    else
      match chart.bestPick hits with
      | none => .error (.unsolvable ((uncovered hits).filterMap fun r => chart.required[r]?))
      | some pick =>
        (picks chart budget (raise hits (chart.row pick.position))).map (pick.position :: ·)

/-- The essential primes and the picks that complete them, in ascending order. -/
def greedyCover (chart : Chart) : Except CoverError (List Nat) :=
  (chart.picks chart.required.size (chart.hits chart.essentials)).map fun picked =>
    ascending (chart.essentials ++ picked)

end TwoLevel.Chart
