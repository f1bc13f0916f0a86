import Mathlib.Tactic.Choose
import TwoLevel.Minimization
import TwoLevel.Proofs.Chart.Solution
import TwoLevel.Proofs.Primes.Generation

/-!
# Covers by prime implicants

Every required term lies in a prime implicant of the required and the free terms, so the chart of
the primes has no orphan and a cover is found under all settings. A term is made an implicant by its
low bits, and an implicant is tested against a term by the same bits, so terms that agree in them
are covered together. The cover is selected by position from the list of primes, which repeats
nothing.

In any cover, each implicant can be exchanged for a prime to which it relaxes: that keeps the number
of implicants, adds no literal and leaves no term out. So what has least cost among the selections
of primes has least cost among all covers.
-/
namespace TwoLevel

namespace Cover

/-- Each implicant covers required and free terms only, and each required term is covered. -/
structure Realizes (cover : List Implicant) (required free : List Nat) (arity : Nat) : Prop where
  isImplicantOf : ∀ p ∈ cover, p.IsImplicantOf (required ++ free) arity
  covered : ∀ term ∈ required, ∃ p ∈ cover, p.covers term = true

/-- The number of implicants of a cover and of the literals in them. -/
def cost (cover : List Implicant) : Cost where
  count := cover.length
  literals := (cover.map Implicant.literalCount).sum

end Cover

namespace ImplicantSet

theorem mem_select (set : ImplicantSet) (selected : List Nat) (p : Implicant) :
    p ∈ set.select selected ↔ ∃ position ∈ selected, set.toList[position]? = some p := by
  simp only [select, List.mem_filterMap, get?_eq]

theorem nodup_select (set : ImplicantSet) {selected : List Nat} (nodup : selected.Nodup) :
    (set.select selected).Nodup := by
  apply nodup.filterMap
  intro first second p found again
  rw [Option.mem_def, get?_eq] at found again
  obtain ⟨inside, -⟩ := List.getElem?_eq_some_iff.mp found
  exact (List.getElem?_inj inside set.nodup_toList).mp (found.trans again.symm)

theorem cost_select (set : ImplicantSet) (required selected : List Nat)
    (inside : ∀ position ∈ selected, position < set.toList.length) :
    Cover.cost (set.select selected) = (Chart.ofTerms set.toList required).cost selected := by
  induction selected with
  | nil => rfl
  | cons position rest ih =>
    have found := List.getElem?_eq_getElem (inside position List.mem_cons_self)
    have later := ih fun other member => inside other (List.mem_cons_of_mem _ member)
    simp only [Cover.cost, Chart.cost, Cost.mk.injEq, select, get?_eq,
      Chart.getElem?_primes_ofTerms] at later ⊢
    simp [found, later]

end ImplicantSet

/-- Every implicant of the terms relaxes to one of the primes found. -/
theorem exists_relaxesTo_prime {terms : List Nat} {arity : Nat} {p : Implicant}
    (implicant : p.IsImplicantOf terms arity) :
    ∃ (position : Nat) (q : Implicant), (primes terms arity).toList[position]? = some q
      ∧ p.RelaxesTo q := by
  obtain ⟨q, relaxed, prime⟩ := implicant.exists_prime
  obtain ⟨position, found⟩ := List.mem_iff_getElem?.mp ((mem_primes terms arity q).mpr prime)
  exact ⟨position, q, found, relaxed⟩

section

variable (required free : List Nat) (arity : Nat)

/-- The chart from which a cover of the required terms is chosen. -/
def primeChart : Chart := .ofTerms (primes (required ++ free) arity).toList required

/-- For each implicant of a cover, a prime to which it relaxes can be selected instead, and the
selection is no dearer than the cover. -/
theorem exists_selection_le {other : List Implicant}
    (realizes : Cover.Realizes other required free arity) :
    ∃ selected, (primeChart required free arity).IsCover selected
      ∧ (primeChart required free arity).cost selected ≤ Cover.cost other := by
  have relaxed (p : Implicant) (member : p ∈ other) :=
    exists_relaxesTo_prime (realizes.isImplicantOf p member)
  choose! position prime found relaxes using relaxed
  refine ⟨other.map position, ?_, ?_⟩
  -- A prime covers what the implicant covers that relaxes to it.
  · rw [primeChart, Chart.isCover_ofTerms_iff]
    intro term member
    obtain ⟨p, chosen, covers⟩ := realizes.covered term member
    exact ⟨position p, List.mem_map_of_mem chosen, prime p, found p chosen,
      (relaxes p chosen).covers covers⟩
  -- There are as many primes as implicants, and each has no more literals.
  · apply Cost.le_of_count_le_of_literals_le
    · simp [Chart.cost, Cover.cost]
    · rw [Chart.literals_cost, Cover.cost, List.map_map]
      apply List.sum_le_sum
      intro p chosen
      rw [Function.comp_apply, primeChart, Chart.getElem?_primes_ofTerms, found p chosen]
      exact (relaxes p chosen).literalCount_le

theorem isCover_primeChart :
    (primeChart required free arity).IsCover
      (List.range (primeChart required free arity).primes.size) := by
  rw [primeChart, Chart.isCover_ofTerms_iff]
  intro term member
  -- The implicant of the term alone relaxes to a prime.
  have implicant := Implicant.isImplicantOf_ofIndex (List.mem_append_left free member) arity
  obtain ⟨position, q, found, relaxed⟩ := exists_relaxesTo_prime implicant
  refine ⟨position, ?_, q, found,
    relaxed.covers ((Implicant.covers_ofIndex term term arity).mpr rfl)⟩
  rw [List.mem_range, Chart.size_primes_ofTerms]
  exact (List.getElem?_eq_some_iff.mp found).1

/-- The chart of the primes is solved under all settings. -/
theorem exists_selection (settings : Settings) :
    ∃ selected, primeCover required free arity settings
        = .ok (primes (required ++ free) arity, selected)
      ∧ (primeChart required free arity).IsSolution selected
      ∧ (settings.strategy = .exact →
        (primeChart required free arity).cutByLimit settings.nodeLimit = false →
        ∀ cover, (primeChart required free arity).IsCover cover →
          (primeChart required free arity).cost selected
            ≤ (primeChart required free arity).cost cover) := by
  obtain ⟨selected, solved, solution, least⟩ :=
    (primeChart required free arity).exists_solve settings (isCover_primeChart required free arity)
  refine ⟨selected, ?_, solution, least⟩
  rw [primeChart] at solved
  simp only [primeCover, solved, Except.map]

theorem realizes_select {selected : List Nat}
    (cover : (primeChart required free arity).IsCover selected) :
    Cover.Realizes ((primes (required ++ free) arity).select selected) required free arity := by
  constructor
  · intro p member
    obtain ⟨position, -, found⟩ := (ImplicantSet.mem_select _ _ p).mp member
    exact ((mem_primes _ arity p).mp (List.mem_of_getElem? found)).isImplicantOf
  · intro term member
    rw [primeChart, Chart.isCover_ofTerms_iff] at cover
    obtain ⟨position, chosen, p, found, covers⟩ := cover term member
    exact ⟨p, (ImplicantSet.mem_select _ _ p).mpr ⟨position, chosen, found⟩, covers⟩

/-- A cover by primes is found under all settings, and an exact search that is not cut finds one of
least cost among all covers. -/
theorem exists_primeCover (settings : Settings) :
    ∃ selected, primeCover required free arity settings
        = .ok (primes (required ++ free) arity, selected)
      ∧ Cover.Realizes ((primes (required ++ free) arity).select selected) required free arity
      ∧ (settings.strategy = .exact →
        (primeChart required free arity).cutByLimit settings.nodeLimit = false →
        ∀ other, Cover.Realizes other required free arity →
          Cover.cost ((primes (required ++ free) arity).select selected) ≤ Cover.cost other) := by
  obtain ⟨selected, found, solution, least⟩ := exists_selection required free arity settings
  refine ⟨selected, found, realizes_select required free arity solution.cover, ?_⟩
  -- Least among the selections and no dearer than the exchanged cover.
  intro strategy finished other realizes
  obtain ⟨exchanged, covers, cheap⟩ := exists_selection_le required free arity realizes
  have inside (position : Nat) (chosen : position ∈ selected) :
      position < (primes (required ++ free) arity).toList.length :=
    solution.selection.lt_size position chosen
  rw [ImplicantSet.cost_select _ required selected inside]
  exact (least strategy finished exchanged covers).trans cheap

theorem exists_minimizeTerms (settings : Settings) :
    ∃ cover, minimizeTerms required free arity settings = .ok cover
      ∧ Cover.Realizes cover required free arity
      ∧ (settings.strategy = .exact →
        (primeChart required free arity).cutByLimit settings.nodeLimit = false →
        ∀ other, Cover.Realizes other required free arity →
          Cover.cost cover ≤ Cover.cost other) := by
  obtain ⟨selected, found, realizes, least⟩ := exists_primeCover required free arity settings
  refine ⟨_, ?_, realizes, least⟩
  simp only [minimizeTerms, found, Except.map]

end

theorem Implicant.IsImplicantOf.exists_term {p : Implicant} {terms : List Nat} {arity index : Nat}
    (implicant : p.IsImplicantOf terms arity) (covered : p.covers index = true) :
    ∃ term ∈ terms, term % Word.count arity = index % Word.count arity := by
  apply implicant.listed
  · exact Nat.mod_lt _ (Nat.two_pow_pos arity)
  · rw [← implicant.width_eq, p.covers_mod]
    exact covered

/-- Over as many variables as a word has bits or fewer, a cover is found whatever the lists and the
settings are. It consists of distinct primes of the terms, covers every required term, and covers
only indices that share their low bits with a term. -/
theorem minimizeTerms?_selects_primes (required free : List Nat) (arity : Nat) (settings : Settings)
    (fits : arity ≤ Word.size) :
    ∃ cover found, minimizeTerms? required free arity settings = some (.ok cover)
      ∧ primes? (required ++ free) arity = some found
      ∧ (∀ p ∈ cover, p ∈ found.toList)
      ∧ cover.Nodup
      ∧ (∀ term ∈ required, ∃ p ∈ cover, p.covers term = true)
      ∧ ∀ p ∈ cover, ∀ index, p.covers index = true →
        ∃ term ∈ required ++ free, term % Word.count arity = index % Word.count arity := by
  obtain ⟨selected, found, solution, -⟩ := exists_selection required free arity settings
  have realizes := realizes_select required free arity solution.cover
  refine ⟨_, primes (required ++ free) arity, ?_, ?_, ?_, ?_, realizes.covered, ?_⟩
  · rw [minimizeTerms?, if_pos (by simp [fits]), minimizeTerms, found]
    rfl
  · rw [primes?, if_pos (by simp [fits])]
  · intro p member
    obtain ⟨position, -, listed⟩ := (ImplicantSet.mem_select _ _ p).mp member
    exact List.mem_of_getElem? listed
  · exact ImplicantSet.nodup_select _ solution.selection.nodup
  · exact fun p member index => (realizes.isImplicantOf p member).exists_term

theorem minimizeTerms?_selects_primes_of_aliases :
    2 ≤ Word.size ∧ ∃ cover found, minimizeTerms? [1, 5, 1] [5, 7, 2] 2 .exact = some (.ok cover)
      ∧ primes? ([1, 5, 1] ++ [5, 7, 2]) 2 = some found
      ∧ (∀ p ∈ cover, p ∈ found.toList)
      ∧ cover.Nodup
      ∧ (∀ term ∈ [1, 5, 1], ∃ p ∈ cover, p.covers term = true)
      ∧ ∀ p ∈ cover, ∀ index, p.covers index = true →
        ∃ term ∈ [1, 5, 1] ++ [5, 7, 2], term % Word.count 2 = index % Word.count 2 :=
  ⟨by decide, minimizeTerms?_selects_primes [1, 5, 1] [5, 7, 2] 2 .exact (by decide)⟩

end TwoLevel
