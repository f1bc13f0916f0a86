import TwoLevel.Cover.Text
import TwoLevel.Proofs.Expr.Writing
import TwoLevel.Proofs.Implicant.Literals

/-!
# Texts of covers are read back

In each of the three dialects the text of a cover is read as the expression of the cover, if its
labels are readable and there are enough of them. A product needs no parentheses as a summand; with
parentheses it is an atom, and so is a clause, which stands among the factors of a product of sums.
-/
namespace TwoLevel

open TwoLevel.Expr

/-- The operators of a dialect stand alone, and its constants are read as constants. -/
structure Dialect.Legible (dialect : Dialect) : Prop where
  negation : StandsAlone dialect.negation.toList .not
  conjunction : StandsAlone dialect.conjunction.toList .and
  disjunction : StandsAlone dialect.disjunction.toList .or
  zero : Writes .atom dialect.zero (.const false)
  one : Writes .atom dialect.one (.const true)

namespace Dialect

theorem writes_zero : Writes .atom "0" (.const false) := writes_digit '0' (by decide) fun _ => rfl

theorem writes_one : Writes .atom "1" (.const true) := writes_digit '1' (by decide) fun _ => rfl

theorem legible_human : human.Legible where
  negation := standsAlone_singleton '~' (by decide) (by decide) fun _ => rfl
  conjunction := standsAlone_spaced '&' [] (by decide) fun _ => rfl
  disjunction := standsAlone_spaced '+' [] (by decide) fun _ => rfl
  zero := writes_zero
  one := writes_one

theorem legible_code : code.Legible where
  negation := standsAlone_singleton '!' (by decide) (by decide) fun _ => rfl
  conjunction := standsAlone_spaced '&' ['&'] (by decide) fun _ => rfl
  disjunction := standsAlone_spaced '|' ['|'] (by decide) fun _ => rfl
  zero := writes_zero
  one := writes_one

theorem legible_verilog : verilog.Legible where
  negation := standsAlone_singleton '~' (by decide) (by decide) fun _ => rfl
  conjunction := standsAlone_spaced '&' [] (by decide) fun _ => rfl
  disjunction := standsAlone_spaced '|' [] (by decide) fun _ => rfl
  zero := writes_zero
  one := writes_one

end Dialect

/-- A list of readable labels, at least as many as the implicants of a cover have positions. -/
structure Cover.Labelled (cover : List Implicant) (labels : List String) : Prop where
  readable : ∀ label ∈ labels, Readable label
  width_le : ∀ p ∈ cover, p.width ≤ labels.length

section

variable {cover : List Implicant} {labels : List String} {dialect : Dialect}
  (labelled : Cover.Labelled cover labels) (legible : dialect.Legible)

include labelled

theorem Cover.Labelled.readable_atPosition {p : Implicant} (member : p ∈ cover)
    {literal : Nat × Bool} (listed : literal ∈ p.literals) :
    Readable (Label.atPosition labels literal.1) := by
  have inside : literal.1 < labels.length :=
    Nat.lt_of_lt_of_le (Implicant.lt_width_of_mem_literals listed) (labelled.width_le p member)
  rw [Label.atPosition_eq_getElem inside]
  exact labelled.readable _ (List.getElem_mem inside)

include legible

omit labelled in
theorem writes_literal {name : String} (readable : Readable name) (positive : Bool) :
    Writes .factor (dialect.literal name positive) (Expr.literal name positive) := by
  cases positive with
  | true => exact readable.writes.factor
  | false => exact Writes.not legible.negation readable.writes.factor

theorem writes_productText {p : Implicant} (member : p ∈ cover) :
    Writes .product (p.productText labels dialect) (ofProduct labels p) := by
  rw [Implicant.productText, ofProduct]
  split
  next bare =>
    rw [List.isEmpty_iff.mp bare]
    exact legible.one.factor.product
  next nonempty =>
    apply writes_product_chain legible.conjunction (by simpa using nonempty)
    intro literal listed
    exact writes_literal legible (labelled.readable_atPosition member listed) _

theorem writes_clauseText {p : Implicant} (member : p ∈ cover) :
    Writes .atom (p.clauseText labels dialect) (ofClause labels p) := by
  rw [Implicant.clauseText, ofClause]
  split
  next bare =>
    rw [List.isEmpty_iff.mp bare]
    exact legible.zero
  next nonempty =>
    apply Writes.parentheses
    apply writes_sum_chain legible.disjunction (by simpa using nonempty)
    intro literal listed
    exact (writes_literal legible (labelled.readable_atPosition member listed) _).product

/-- The sum of products is written so that it is read back, grouped or not. -/
theorem writes_sumOfProducts :
    Writes .sum (Cover.sumOfProducts cover labels dialect) (ofSumOfProducts cover labels) := by
  rw [Cover.sumOfProducts, ofSumOfProducts]
  split
  next empty =>
    rw [List.isEmpty_iff.mp empty]
    exact legible.zero.factor.product.sum
  next nonempty =>
    apply writes_sum_chain legible.disjunction (by simpa using nonempty)
    intro p member
    have product := writes_productText labelled legible member
    -- Parentheses change the layer of the text and not the expression.
    rw [Cover.summandText]
    split
    · exact product.sum.parentheses.factor.product
    · exact product

theorem writes_productOfSums :
    Writes .sum (Cover.productOfSums cover labels dialect) (ofProductOfSums cover labels) := by
  rw [Cover.productOfSums, ofProductOfSums]
  split
  next empty =>
    rw [List.isEmpty_iff.mp empty]
    exact legible.one.factor.product.sum
  next nonempty =>
    apply Writes.sum
    apply writes_product_chain legible.conjunction (by simpa using nonempty)
    intro p member
    exact (writes_clauseText labelled legible member).factor

end

theorem Dialect.legible {dialect : Dialect} (preset : dialect ∈ [human, code, verilog]) :
    dialect.Legible := by
  simp only [List.mem_cons, List.not_mem_nil, or_false] at preset
  rcases preset with rfl | rfl | rfl
  · exact legible_human
  · exact legible_code
  · exact legible_verilog

/-- Both texts of a cover are read back as the expressions of the cover, in each of the three
dialects. -/
theorem Cover.parse_texts {cover : List Implicant} {labels : List String} {dialect : Dialect}
    (labelled : Cover.Labelled cover labels)
    (preset : dialect ∈ [Dialect.human, Dialect.code, Dialect.verilog]) :
    parse (Cover.sumOfProducts cover labels dialect) = .ok (ofSumOfProducts cover labels)
    ∧ parse (Cover.productOfSums cover labels dialect) = .ok (ofProductOfSums cover labels) :=
  have legible := Dialect.legible preset
  ⟨(writes_sumOfProducts labelled legible).parse, (writes_productOfSums labelled legible).parse⟩

theorem Cover.parse_texts_of_keyword_like_labels :
    Cover.Labelled [⟨[.one, .zero]⟩, ⟨[.dash, .dash]⟩, ⟨[.dash, .one]⟩] ["true1", "_"]
    ∧ Dialect.code ∈ [Dialect.human, Dialect.code, Dialect.verilog]
    ∧ parse (Cover.sumOfProducts [⟨[.one, .zero]⟩, ⟨[.dash, .dash]⟩, ⟨[.dash, .one]⟩]
        ["true1", "_"] .code)
      = .ok (ofSumOfProducts [⟨[.one, .zero]⟩, ⟨[.dash, .dash]⟩, ⟨[.dash, .one]⟩] ["true1", "_"])
    ∧ parse (Cover.productOfSums [⟨[.one, .zero]⟩, ⟨[.dash, .dash]⟩, ⟨[.dash, .one]⟩]
        ["true1", "_"] .code)
      = .ok (ofProductOfSums [⟨[.one, .zero]⟩, ⟨[.dash, .dash]⟩, ⟨[.dash, .one]⟩]
        ["true1", "_"]) := by
  have labelled :
      Cover.Labelled [⟨[.one, .zero]⟩, ⟨[.dash, .dash]⟩, ⟨[.dash, .one]⟩] ["true1", "_"] := by
    refine ⟨?_, by decide⟩
    simp only [List.mem_cons, List.not_mem_nil, or_false, forall_eq_or_imp, forall_eq]
    exact ⟨⟨by decide, by decide, by decide⟩, ⟨by decide, by decide, by decide⟩⟩
  have preset : Dialect.code ∈ [Dialect.human, Dialect.code, Dialect.verilog] := by simp
  exact ⟨labelled, preset, Cover.parse_texts labelled preset⟩

example :
    Cover.sumOfProducts [⟨[.one, .zero]⟩, ⟨[.dash, .dash]⟩, ⟨[.dash, .one]⟩] ["true1", "_"] .code
    = "(true1 && !_) || 1 || _" := by cbv

end TwoLevel
