import TwoLevel.Proofs.Minimization.PrimeCover
import TwoLevel.Proofs.Table.Rows

/-!
# Soundness of minimization

Minimizing a table never fails. The cover of the minterms includes every row that holds 1 and none
that holds 0; the cover of the zeros, if it is derived, includes every row that holds 0 and none
that holds 1, so the product of its clauses has the same bits. Nothing is said of the rows that hold
a don't-care.
-/
namespace TwoLevel

/-- Over the rows of a table, a cover that realizes the rows of one value covers none of the rows
that hold neither this value nor a don't-care. -/
theorem Cover.Realizes.any_covers {cover : List Implicant} {t : TruthTable} {value : Value}
    (realizes : Cover.Realizes cover (t.indicesOf value) t.dontCares t.arity) {index : Nat}
    (inside : index < Word.count t.arity) (specified : t.get index ≠ .dontCare) :
    (cover.any fun p => p.covers index) = decide (t.get index = value) := by
  rw [Bool.eq_iff_iff, List.any_eq_true, decide_eq_true_iff]
  constructor
  -- A row that is covered is a listed row, since no row has bits above those of the variables.
  · rintro ⟨p, member, covers⟩
    obtain ⟨term, listed, same⟩ := (realizes.isImplicantOf p member).listed index inside covers
    rw [List.mem_append, TruthTable.dontCares, t.mem_indicesOf, t.mem_indicesOf, ← and_or_left]
      at listed
    rw [Nat.mod_eq_of_lt listed.1] at same
    rw [← same] at specified ⊢
    exact listed.2.resolve_right specified
  · intro holds
    exact realizes.covered index ((t.mem_indicesOf value index).mpr ⟨inside, holds⟩)

namespace Minimization

/-- What a minimization of a table under given settings consists of. -/
structure Derives (m : Minimization) (t : TruthTable) (settings : Settings) : Prop where
  table_eq : m.table = t
  products : Cover.Realizes m.products t.minterms t.dontCares t.arity
  clauses : ∀ cover, m.clauses? = some cover → Cover.Realizes cover t.zeros t.dontCares t.arity
  isSome_clauses : m.clauses?.isSome = settings.productOfSums

/-- Minimizing a table never fails. -/
theorem exists_ofTable (t : TruthTable) (settings : Settings) :
    ∃ m, ofTable t settings = .ok m ∧ m.Derives t settings := by
  obtain ⟨selected, found, products, -⟩ := exists_primeCover t.minterms t.dontCares t.arity settings
  let primes := TwoLevel.primes (t.minterms ++ t.dontCares) t.arity
  cases asked : settings.productOfSums with
  | false =>
    refine ⟨⟨t, primes, _, none⟩, ?_, rfl, products, ?_, asked.symm⟩
    · rw [ofTable, found, clauseCover?, asked]
      rfl
    · rintro cover ⟨⟩
  | true =>
    obtain ⟨clauses, derived, realizes, -⟩ :=
      exists_minimizeTerms t.zeros t.dontCares t.arity settings
    refine ⟨⟨t, primes, _, some clauses⟩, ?_, rfl, products, ?_, asked.symm⟩
    · rw [ofTable, found, clauseCover?, asked, if_pos rfl, derived]
      rfl
    · rintro cover ⟨⟩
      exact realizes

section

variable {m : Minimization} {t : TruthTable} {settings : Settings} (derives : m.Derives t settings)
  {index : Nat} (inside : index < Word.count t.arity) {bit : Bool}
  (specified : (t.get index).bit? = some bit)

include derives inside specified

/-- The sum of products has the bit of every specified row. -/
theorem Derives.any_products : (m.products.any fun p => p.covers index) = bit := by
  have holds := (Value.bit?_eq_some_iff _ _).mp specified
  rw [derives.products.any_covers inside (holds ▸ Value.ofBit_ne_dontCare bit), holds]
  cases bit <;> rfl

theorem Derives.any_clauses {cover : List Implicant} (derived : m.clauses? = some cover) :
    (!cover.any fun p => p.covers index) = bit := by
  have holds := (Value.bit?_eq_some_iff _ _).mp specified
  have realizes := derives.clauses cover derived
  rw [realizes.any_covers inside (holds ▸ Value.ofBit_ne_dontCare bit), holds]
  cases bit <;> rfl

end

/-- Every table has a minimization under all settings. It has the bit of every specified row, and so
has the product of sums, which is derived exactly if the settings ask for it. -/
theorem ofTable_sound (t : TruthTable) (settings : Settings) :
    ∃ m, ofTable t settings = .ok m ∧ m.table = t
      ∧ (∀ index < Word.count t.arity, ∀ bit, (t.get index).bit? = some bit →
        m.evaluate index = bit)
      ∧ m.mismatches = []
      ∧ (settings.productOfSums = true → ∀ index < Word.count t.arity, ∀ bit,
        (t.get index).bit? = some bit → m.evaluateClauses? index = some bit)
      ∧ (settings.productOfSums = false → ∀ index, m.evaluateClauses? index = none) := by
  obtain ⟨m, found, derives⟩ := exists_ofTable t settings
  have evaluates : ∀ index < Word.count t.arity, ∀ bit, (t.get index).bit? = some bit →
      m.evaluate index = bit := fun index inside bit specified =>
    derives.any_products inside specified
  refine ⟨m, found, derives.table_eq, evaluates, ?_, ?_, ?_⟩
  · rw [mismatches, derives.table_eq, TruthTable.disagreements_eq_nil_iff]
    exact evaluates
  · intro asked index inside bit specified
    have derived := derives.isSome_clauses.trans asked
    obtain ⟨cover, given⟩ := Option.isSome_iff_exists.mp derived
    rw [evaluateClauses?, given, Option.map_some, derives.any_clauses inside specified given]
  · intro declined index
    have absent := derives.isSome_clauses.trans declined
    rw [Option.isSome_eq_false_iff, Option.isNone_iff_eq_none] at absent
    rw [evaluateClauses?, absent, Option.map_none]

end Minimization

end TwoLevel
