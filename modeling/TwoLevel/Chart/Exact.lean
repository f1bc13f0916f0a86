import TwoLevel.Settings
import TwoLevel.Chart.Greedy

/-!
# Exact covers by branch and bound

The search starts from the essential primes and from a cover already known. At each node it branches
on the uncovered term with the fewest coverers and tries them in order. A selection that covers
every term replaces the best cover if it is cheaper; a branch is cut when one more implicant would
exceed the number in the best cover.

Each node counts against a limit. When the limit is reached the search only unwinds, and the best
cover found so far stands. A choice is undone after its branch, so a node leaves the choices and the
hits as it found them. Every choice covers a term that was uncovered, so the number of uncovered
terms bounds the depth: that is the budget of `explore`.

A chart has a cover exactly if it has no orphan. The greedy cover is always found; the exact
strategy improves on it.
-/
namespace TwoLevel.Chart

/-- The state of a search: the selection being built, its hits, and the best cover so far. -/
structure Search where
  /-- The implicants chosen, the latest first. -/
  chosen : List Nat
  /-- For each term the number of chosen implicants that cover it. -/
  hits : Array Nat
  best : List Nat
  bestCost : Cost
  nodes : Nat
  /-- Whether the limit has cut the search. -/
  exhausted : Bool

namespace Search

/-- Adds an implicant to the selection. -/
def choose (chart : Chart) (p : Nat) (state : Search) : Search :=
  { state with chosen := p :: state.chosen, hits := raise state.hits (chart.row p) }

/-- Takes the latest implicant from the selection, which is the given one. -/
def release (chart : Chart) (p : Nat) (state : Search) : Search :=
  { state with chosen := state.chosen.tail, hits := lower state.hits (chart.row p) }

/-- The selection covers every term: it becomes the best cover if it is cheaper. -/
def finish (chart : Chart) (state : Search) : Search :=
  let cost := chart.cost state.chosen
  if cost.cheaper state.bestCost then { state with best := state.chosen, bestCost := cost }
  else state

end Search

/-- Of two terms the one with fewer coverers, the earlier one if they have equally many. -/
def fewerCoverers (chart : Chart) (kept r : Nat) : Nat :=
  if chart.counts.getD r 0 < chart.counts.getD kept 0 then r else kept

/-- The first uncovered term with the fewest coverers. -/
def branchTerm (chart : Chart) (hits : Array Nat) : Option Nat :=
  match uncovered hits with
  | [] => none
  | first :: rest => some (rest.foldl chart.fewerCoverers first)

/-- Enters a node of the search. -/
def explore (chart : Chart) (limit : Nat) : Nat → Search → Search
  | 0, state => state
  | budget + 1, state =>
    if limit ≤ state.nodes then { state with exhausted := true }
    else
      let entered := { state with nodes := state.nodes + 1 }
      match chart.branchTerm entered.hits with
      | none => entered.finish chart
      | some r =>
        if entered.bestCost.count < entered.chosen.length + 1 then entered
        else
          (chart.column r).foldl
            (fun state p => (explore chart limit budget (state.choose chart p)).release chart p)
            entered

/-- The search before its first node. -/
def Search.start (chart : Chart) (known : List Nat) : Search where
  chosen := chart.essentials.reverse
  hits := chart.hits chart.essentials
  best := known
  bestCost := chart.cost known
  nodes := 0
  exhausted := false

/-- The search at its end, started from a known cover. -/
def exactSearch (chart : Chart) (limit : Nat) (known : List Nat) : Search :=
  chart.explore limit (chart.required.size + 1) (.start chart known)

/-- The best cover that the search finds within the limit, in ascending order. -/
def exactCover (chart : Chart) (limit : Nat) (known : List Nat) : List Nat :=
  (chart.exactSearch limit known).best.mergeSort

/-- The positions of a cover of every required term, in ascending order. -/
def solve (chart : Chart) (settings : Settings) : Except CoverError (List Nat) :=
  if chart.orphans.isEmpty then
    chart.greedyCover.map fun greedy =>
      match settings.strategy with
      | .greedy => greedy
      | .exact => chart.exactCover settings.nodeLimit greedy
  else .error (.unsolvable chart.orphans)

end TwoLevel.Chart
