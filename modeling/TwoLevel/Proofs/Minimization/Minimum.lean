import TwoLevel.Proofs.Minimization.PrimeCover
import TwoLevel.Proofs.Chart.Limit

/-!
# Minimum covers

With the exact strategy the cover found is a minimum among all lists of implicants that realize the
terms, prime or not, whenever the search comes to its end within the limit. There are no more primes
than words of symbols, which bounds the nodes of the search.
-/
namespace TwoLevel

/-- With the exact strategy, and unless the limit cuts the search, no list of implicants that
realizes the terms has fewer implicants than the cover found, nor as many with fewer literals. -/
theorem minimizeTerms?_finds_minimum_cover (required free : List Nat) (arity : Nat)
    (settings : Settings) (fits : arity ≤ Word.size) (strategy : settings.strategy = .exact)
    (finished : (primeChart required free arity).cutByLimit settings.nodeLimit = false) :
    ∃ cover, minimizeTerms? required free arity settings = some (.ok cover)
      ∧ Cover.Realizes cover required free arity
      ∧ ∀ other, Cover.Realizes other required free arity →
        Cover.cost cover ≤ Cover.cost other := by
  obtain ⟨cover, found, realizes, least⟩ := exists_minimizeTerms required free arity settings
  refine ⟨cover, ?_, realizes, least strategy finished⟩
  rw [minimizeTerms?, if_pos (by simp [fits]), found]

/-! ### How many nodes there can be -/

/-- The words of some length over the symbols. -/
def symbolWords : Nat → List (List Symbol)
  | 0 => [[]]
  | length + 1 => [.zero, .one, .dash].flatMap fun symbol => (symbolWords length).map (symbol :: ·)

theorem length_symbolWords (length : Nat) : (symbolWords length).length = 3 ^ length := by
  induction length with
  | zero => rfl
  | succ length ih =>
    simp only [symbolWords, List.flatMap_cons, List.flatMap_nil, List.length_append,
      List.length_map, List.length_nil, ih]
    omega

theorem mem_symbolWords (symbols : List Symbol) : symbols ∈ symbolWords symbols.length := by
  induction symbols with
  | nil => exact List.mem_singleton_self []
  | cons symbol rest ih =>
    refine List.mem_flatMap.mpr ⟨symbol, ?_, List.mem_map_of_mem ih⟩
    cases symbol <;> decide

theorem length_primes_le (terms : List Nat) (arity : Nat) :
    (primes terms arity).toList.length ≤ 3 ^ arity := by
  have nodup : ((primes terms arity).toList.map Implicant.symbols).Nodup :=
    (ImplicantSet.nodup_toList _).map fun p q same => congrArg Implicant.mk same
  have inside : ∀ symbols ∈ (primes terms arity).toList.map Implicant.symbols,
      symbols ∈ symbolWords arity := by
    refine List.forall_mem_map.mpr fun p member => ?_
    have width := ((mem_primes terms arity p).mp member).isImplicantOf.width_eq
    exact width ▸ mem_symbolWords p.symbols
  simpa [length_symbolWords] using (nodup.subperm inside).length_le

/-- A limit that is large enough for the numbers of variables and of terms never cuts. -/
theorem cutByLimit_primeChart (required free : List Nat) (arity : Nat) {limit : Nat}
    (enough : (3 ^ arity + 1) ^ (required.length + 1) ≤ limit) :
    (primeChart required free arity).cutByLimit limit = false :=
  Chart.cutByLimit_ofTerms _ _ (Nat.le_trans
    (Nat.pow_le_pow_left (Nat.succ_le_succ (length_primes_le (required ++ free) arity)) _) enough)

/-- The exact strategy with a limit that is large enough for five terms over three variables. -/
def Settings.patient : Settings := { strategy := .exact, nodeLimit := 28 ^ 6 }

/-- Each of the terms is a neighbour of the next one, and the last of the first. -/
theorem minimizeTerms?_finds_minimum_cover_of_cyclic_chart :
    3 ≤ Word.size ∧ Settings.patient.strategy = .exact
      ∧ (primeChart [0, 1, 2, 5, 6] [7, 15] 3).cutByLimit Settings.patient.nodeLimit = false
      ∧ ∃ cover, minimizeTerms? [0, 1, 2, 5, 6] [7, 15] 3 .patient = some (.ok cover)
        ∧ Cover.Realizes cover [0, 1, 2, 5, 6] [7, 15] 3
        ∧ ∀ other, Cover.Realizes other [0, 1, 2, 5, 6] [7, 15] 3 →
          Cover.cost cover ≤ Cover.cost other := by
  have finished :
      (primeChart [0, 1, 2, 5, 6] [7, 15] 3).cutByLimit Settings.patient.nodeLimit = false :=
    cutByLimit_primeChart _ _ 3 (Nat.le_refl _)
  exact ⟨by decide, rfl, finished,
    minimizeTerms?_finds_minimum_cover _ _ 3 .patient (by decide) rfl finished⟩

end TwoLevel
