import TwoLevel.Proofs.Chart.Outcome

/-!
# Essential implicants

An implicant that is alone in some column is in every cover. The converse holds on a chart without
an orphan: where an implicant is never alone, each term that it covers is covered by another one,
perhaps by an equal one at another position. So all of the other implicants together are a cover.
-/
namespace TwoLevel.Chart

section

variable {chart : Chart} (coverable : chart.IsCover (List.range chart.primes.size)) {p : Nat}
  (dispensable : p ∉ chart.essentials)

include coverable dispensable

theorem exists_other_coverer {r : Nat} (inside : r < chart.required.size) :
    ∃ q ∈ chart.column r, q ≠ p := by
  obtain ⟨first, -, covered⟩ := coverable r inside
  have listed := (mem_column chart first r).mpr covered
  by_contra! alone
  -- The column has no repetition, so with nothing but this implicant in it, it would be essential.
  have only (q : Nat) : q ∈ chart.column r ↔ q ∈ [p] := by
    rw [List.mem_singleton]
    refine ⟨alone q, ?_⟩
    rintro rfl
    exact alone first listed ▸ listed
  have perm := (List.perm_ext_iff_of_nodup (nodup_column chart r) (List.nodup_singleton p)).mpr only
  exact dispensable ((mem_essentials chart p).mpr ⟨r, inside, List.perm_singleton.mp perm⟩)

/-- Without an implicant that is not essential, the others still cover every term. -/
theorem isCover_without : chart.IsCover ((List.range chart.primes.size).filter (· ≠ p)) := by
  intro r inside
  obtain ⟨q, listed, other⟩ := exists_other_coverer coverable dispensable inside
  have covered := (mem_column chart q r).mp listed
  refine ⟨q, ?_, covered⟩
  simpa [other] using (lt_of_mem_row covered).1

end

/-- On a chart without an orphan, exactly the essential implicants are in every cover. -/
theorem mem_essentials_iff_forall_cover {chart : Chart} (full : chart.orphans = []) (p : Nat) :
    p ∈ chart.essentials
      ↔ ∀ chosen, (∀ q ∈ chosen, q < chart.primes.size) → chart.IsCover chosen → p ∈ chosen := by
  constructor
  · exact fun essential chosen _ cover => mem_of_mem_essentials essential cover
  · intro always
    by_contra dispensable
    have cover := isCover_without ((orphans_eq_nil_iff chart).mp full) dispensable
    have member := always _ (fun q chosen => List.mem_range.mp (List.mem_filter.mp chosen).1) cover
    simp at member

/-- In the chart of a list of implicants, repeated or not, that leaves none of the required terms
out, the essential positions are those that belong to every set of positions that covers all
required terms. -/
theorem ofTerms?_essentials (members : List Implicant) (required : List Nat)
    (narrow : ∀ p ∈ members, p.width ≤ Word.size)
    (coverable : ∀ term ∈ required, ∃ p ∈ members, p.covers term = true) :
    ∃ chart, ofTerms? members required = some chart
      ∧ ∀ position, position ∈ chart.essentials
        ↔ ∀ chosen : List Nat, (∀ q ∈ chosen, q < members.length) →
          (∀ term ∈ required, ∃ q ∈ chosen, ∃ p, members[q]? = some p ∧ p.covers term = true) →
          position ∈ chosen := by
  refine ⟨ofTerms members required, ofTerms?_eq_some required narrow, fun position => ?_⟩
  have full := (orphans_ofTerms_eq_nil_iff members required).mpr coverable
  simp only [mem_essentials_iff_forall_cover full, isCover_ofTerms_iff, size_primes_ofTerms]

/-- Implicants of several widths. The third repeats the second, so neither is essential. -/
def repeatedProduct : List Implicant :=
  [⟨[.zero, .dash]⟩, ⟨[.one, .dash]⟩, ⟨[.one, .dash]⟩, ⟨[.dash, .one, .one]⟩]

theorem ofTerms?_essentials_repeatedProduct :
    (∀ p ∈ repeatedProduct, p.width ≤ Word.size)
    ∧ (∀ term ∈ [7, 0, 2, 0], ∃ p ∈ repeatedProduct, p.covers term = true)
    ∧ ∃ chart, ofTerms? repeatedProduct [7, 0, 2, 0] = some chart
      ∧ ∀ position, position ∈ chart.essentials
        ↔ ∀ chosen : List Nat, (∀ q ∈ chosen, q < repeatedProduct.length) →
          (∀ term ∈ [7, 0, 2, 0], ∃ q ∈ chosen, ∃ p,
            repeatedProduct[q]? = some p ∧ p.covers term = true) →
          position ∈ chosen := by
  have narrow : ∀ p ∈ repeatedProduct, p.width ≤ Word.size := by decide
  have coverable : ∀ term ∈ [7, 0, 2, 0], ∃ p ∈ repeatedProduct, p.covers term = true := by decide
  exact ⟨narrow, coverable, ofTerms?_essentials repeatedProduct [7, 0, 2, 0] narrow coverable⟩

example : (ofTerms repeatedProduct [7, 0, 2, 0]).essentials = [0] := by cbv

end TwoLevel.Chart
