import Mathlib.Data.List.Sort
import TwoLevel.Proofs.Minimization.PrimeCover

/-!
# What a minimization depends on

The terms are put in ascending order, each once, before anything is made of them: the first
generation comes from such a list, and so do the columns of the chart. All later choices go by the
order of these two lists. So lists with the same members have the same primes in the same order, and
the same cover. Of the free terms it matters only which of them join the required ones.
-/
namespace TwoLevel

/-- A strictly ascending list is known by its members. -/
theorem ascending_congr {members others : List Nat} (same : ∀ x, x ∈ members ↔ x ∈ others) :
    ascending members = ascending others := by
  apply (pairwise_ascending members).eq_of_mem_iff (pairwise_ascending others)
  simpa using same

theorem primes_congr {terms others : List Nat} (same : ∀ term, term ∈ terms ↔ term ∈ others)
    (arity : Nat) : primes terms arity = primes others arity := by
  rw [primes, primes, firstGeneration, firstGeneration, ascending_congr same]

theorem Chart.ofTerms_congr (found : List Implicant) {required others : List Nat}
    (same : ∀ term, term ∈ required ↔ term ∈ others) :
    ofTerms found required = ofTerms found others := by
  have terms : (ascending required).toArray = (ascending others).toArray := by
    rw [ascending_congr same]
  simp only [ofTerms, terms]

theorem minimizeTerms?_eq_some {arity : Nat} (fits : arity ≤ Word.size) (required free : List Nat)
    (settings : Settings) :
    minimizeTerms? required free arity settings
      = some (minimizeTerms required free arity settings) := by
  rw [minimizeTerms?, if_pos (by simp [fits])]

section

variable {required others free spare : List Nat}
  (sameRequired : ∀ term, term ∈ required ↔ term ∈ others)
  (sameTerms : ∀ term, term ∈ required ++ free ↔ term ∈ others ++ spare) (arity : Nat)
  (settings : Settings)

include sameRequired sameTerms

theorem primeCover_congr :
    primeCover required free arity settings = primeCover others spare arity settings := by
  simp only [primeCover, primes_congr sameTerms, Chart.ofTerms_congr _ sameRequired]

theorem minimizeTerms_congr :
    minimizeTerms required free arity settings = minimizeTerms others spare arity settings := by
  rw [minimizeTerms, minimizeTerms, primeCover_congr sameRequired sameTerms]

end

/-- Over as many variables as a word has bits or fewer, neither the order of the terms nor how often
a term is listed matters: lists with the same members have the same primes, and pairs of lists with
the same members have the same cover, both in the same order. -/
theorem minimization_of_same_terms {arity : Nat} (fits : arity ≤ Word.size) (settings : Settings) :
    (∀ terms others : List Nat, (∀ term, term ∈ terms ↔ term ∈ others) →
      ∃ found, primes? terms arity = some found ∧ primes? others arity = some found)
    ∧ ∀ required others free spare : List Nat, (∀ term, term ∈ required ↔ term ∈ others) →
      (∀ term, term ∈ free ↔ term ∈ spare) →
      ∃ cover, minimizeTerms? required free arity settings = some (.ok cover)
        ∧ minimizeTerms? others spare arity settings = some (.ok cover) := by
  constructor
  · intro terms others same
    refine ⟨primes terms arity, primes?_eq_some fits terms, ?_⟩
    rw [primes?_eq_some fits, primes_congr same]
  · intro required others free spare sameRequired sameFree
    have sameTerms (term : Nat) : term ∈ required ++ free ↔ term ∈ others ++ spare := by
      rw [List.mem_append, List.mem_append, sameRequired, sameFree]
    obtain ⟨cover, found, -⟩ := exists_minimizeTerms required free arity settings
    refine ⟨cover, ?_, ?_⟩
    · rw [minimizeTerms?_eq_some fits, found]
    · rw [minimizeTerms?_eq_some fits, ← minimizeTerms_congr sameRequired sameTerms, found]

/-- Terms of a chart without essential primes, listed forwards and, with repetitions, backwards. -/
theorem minimization_of_same_terms_backwards :
    3 ≤ Word.size ∧ (∀ term, term ∈ [0, 1, 2, 5, 6] ↔ term ∈ [6, 5, 2, 6, 1, 0, 0])
      ∧ (∀ term, term ∈ [7, 15] ↔ term ∈ [15, 7, 15])
      ∧ (∃ found, primes? [0, 1, 2, 5, 6] 3 = some found
        ∧ primes? [6, 5, 2, 6, 1, 0, 0] 3 = some found)
      ∧ ∃ cover, minimizeTerms? [0, 1, 2, 5, 6] [7, 15] 3 .exact = some (.ok cover)
        ∧ minimizeTerms? [6, 5, 2, 6, 1, 0, 0] [15, 7, 15] 3 .exact = some (.ok cover) := by
  have sameRequired (term : Nat) : term ∈ [0, 1, 2, 5, 6] ↔ term ∈ [6, 5, 2, 6, 1, 0, 0] := by
    simp only [List.mem_cons, List.not_mem_nil, or_false]
    omega
  have sameFree (term : Nat) : term ∈ [7, 15] ↔ term ∈ [15, 7, 15] := by
    simp only [List.mem_cons, List.not_mem_nil, or_false]
    omega
  have fits : 3 ≤ Word.size := by decide
  obtain ⟨found, covered⟩ := minimization_of_same_terms fits .exact
  exact ⟨fits, sameRequired, sameFree, found _ _ sameRequired,
    covered _ _ _ _ sameRequired sameFree⟩

end TwoLevel
