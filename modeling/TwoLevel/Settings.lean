/-!
# Settings of a minimization

What a caller chooses: how a cover is completed, how long an exact search may run, and whether the
product of sums is derived beside the sum of products.
-/
namespace TwoLevel

/-- How a cover is completed once the essential primes are in it. -/
inductive Strategy where
  /-- Take the prime with the largest gain until every term is covered. -/
  | greedy
  /-- Search for a cover of minimum cost, starting from the greedy one. -/
  | exact
  deriving DecidableEq

structure Settings where
  strategy : Strategy := .greedy
  /-- The number of nodes after which an exact search gives up and keeps its best cover. -/
  nodeLimit : Nat := 100000
  productOfSums : Bool := true
  deriving DecidableEq

namespace Settings

/-- The settings when nothing is chosen. -/
def standard : Settings := {}

/-- The standard settings with the exact strategy. -/
def exact : Settings := { strategy := .exact }

end Settings

end TwoLevel
