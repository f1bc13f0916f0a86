import TwoLevel.Expr.Display
import TwoLevel.Proofs.Expr.Grouping
import TwoLevel.Proofs.Expr.Names
import TwoLevel.Proofs.Expr.Writing

/-!
# Expressions are read back from their texts

The text of an expression has no parentheses around an operand that is a chain of the operator that
it is an operand of, so it does not tell how the chain is grouped: regrouping keeps the text. What
is nested to the left is read back as it is. A conjunction on the left of a conjunction is read as
the product before the sign, and any other operand is written as a factor; for sums it is the same
one layer up.

So a text is read as the grouping to the left of the expression that was written.
-/
namespace TwoLevel.Expr

/-! ### Texts do not tell the grouping -/

theorem Regroups.textIn_eq {e other : Expr} (regroups : e.Regroups other)
    (surrounding : Surrounding) : other.textIn surrounding = e.textIn surrounding := by
  induction regroups generalizing surrounding with
  | refl => rfl
  | trans _ _ first second => rw [second, first]
  | turn op a b c =>
    -- Neither operator is put in parentheses inside itself.
    cases op <;> simp [Operator.join, textIn, parenthesized, String.append_assoc]
  | not _ ih => simp [textIn, ih]
  | join op _ _ left right => cases op <;> simp [Operator.join, textIn, left, right]

/-! ### Expressions that are nested to the left -/

/-- The layers to which the texts of an expression belong as an operand. -/
structure WritesOperands (e : Expr) : Prop where
  sum : Writes .sum (e.textIn .sum) e
  summand : e.operator? ≠ some .or → Writes .product (e.textIn .sum) e
  product : Writes .product (e.textIn .product) e
  factor : e.operator? ≠ some .and → Writes .factor (e.textIn .product) e
  negated : Writes .factor (e.textIn .negation) e

theorem WritesOperands.of_factor {e : Expr} {text : String}
    (same : ∀ surrounding, e.textIn surrounding = text) (writes : Writes .factor text e) :
    e.WritesOperands := by
  constructor <;> simp only [same]
  · exact writes.product.sum
  · exact fun _ => writes.product
  · exact writes.product
  · exact fun _ => writes
  · exact writes

theorem WritesOperands.of_and {left right : Expr}
    (writes : Writes .product (left.textIn .product ++ " * " ++ right.textIn .product)
      (and left right)) : (and left right).WritesOperands where
  sum := writes.sum
  summand := fun _ => writes
  product := writes
  factor := fun other => absurd rfl other
  negated := writes.sum.parentheses.factor

theorem WritesOperands.of_or {left right : Expr}
    (writes : Writes .sum (left.textIn .sum ++ " + " ++ right.textIn .sum) (or left right)) :
    (or left right).WritesOperands where
  sum := writes
  summand := fun other => absurd rfl other
  product := writes.parentheses.factor.product
  factor := fun _ => writes.parentheses.factor
  negated := writes.parentheses.factor

theorem writes_constant (value : Bool) :
    Writes .atom (if value then "1" else "0") (const value) := by
  cases value with
  | false => exact writes_digit '0' (by decide) fun _ => rfl
  | true => exact writes_digit '1' (by decide) fun _ => rfl

theorem LeftNested.writesOperands {e : Expr} (nested : e.LeftNested)
    (readable : ∀ name ∈ e.occurrences, Readable name) : e.WritesOperands := by
  induction e with
  | var name =>
    exact .of_factor (fun _ => rfl) (readable name (by simp [occurrences])).writes.factor
  | const value => exact .of_factor (fun _ => rfl) (writes_constant value).factor
  | not operand ih =>
    have sign : StandsAlone "~".toList .not :=
      standsAlone_singleton '~' (by decide) (by decide) fun _ => rfl
    exact .of_factor (fun _ => rfl) (Writes.not sign (ih nested readable).negated)
  | and left right left_ih right_ih =>
    obtain ⟨front, last, apart⟩ := nested
    have sign : StandsAlone " * ".toList .and := standsAlone_spaced '*' [] (by decide) fun _ => rfl
    have before := left_ih front fun name occurs => readable name (by simp [occurrences, occurs])
    have behind := right_ih last fun name occurs => readable name (by simp [occurrences, occurs])
    exact .of_and (Writes.and sign before.product (behind.factor apart))
  | or left right left_ih right_ih =>
    obtain ⟨front, last, apart⟩ := nested
    have sign : StandsAlone " + ".toList .or := standsAlone_spaced '+' [] (by decide) fun _ => rfl
    have before := left_ih front fun name occurs => readable name (by simp [occurrences, occurs])
    have behind := right_ih last fun name occurs => readable name (by simp [occurrences, occurs])
    exact .of_or (Writes.or sign before.sum (behind.summand apart))

theorem toText_eq (e : Expr) : e.toText = e.textIn .sum := by
  cases e <;> rfl

theorem LeftNested.parse_toText {e : Expr} (nested : e.LeftNested)
    (readable : ∀ name ∈ e.occurrences, Readable name) : parse e.toText = .ok e := by
  rw [toText_eq]
  exact (nested.writesOperands readable).sum.parse

/-! ### All expressions -/

/-- The text of an expression with readable names is read as an expression with the same names,
values and text. This is the one that the expression regroups to and that is nested to the left, so
it is the expression itself exactly if that is nested to the left. -/
theorem parse_toText_regrouped (e : Expr) (readable : ∀ name ∈ e.names, Readable name) :
    ∃ read, parse e.toText = .ok read
      ∧ read.names = e.names
      ∧ (∀ assignment, read.eval assignment = e.eval assignment)
      ∧ read.toText = e.toText
      ∧ (read = e ↔ e.LeftNested)
      ∧ e.Regroups read ∧ read.LeftNested
      ∧ ∀ other, e.Regroups other → other.LeftNested → other = read := by
  have regroups := regroups_nestLeft e
  have nested := leftNested_nestLeft e
  have same : e.nestLeft.toText = e.toText := regroups.textIn_eq .nothing
  refine ⟨e.nestLeft, ?_, regroups.names_eq, regroups.eval_eq, same, nestLeft_eq_self_iff e,
    regroups, nested, fun other => Regroups.eq_nestLeft⟩
  -- The text written is also the text of the grouping to the left, which is read back as it is.
  rw [← same]
  apply nested.parse_toText
  intro name occurs
  rw [← mem_names, regroups.names_eq] at occurs
  exact readable name occurs

/-- Chains that are grouped to the right, one of them inside a negation. -/
def rightChains : Expr :=
  .and (.var "a")
    (.and (.not (.or (.var "true1") (.or (.const true) (.var "_")))) (.or (.var "a") (.var "b")))

theorem parse_toText_regrouped_right_chains : (∀ name ∈ rightChains.names, Readable name)
    ∧ ∃ read, parse rightChains.toText = .ok read
      ∧ read.names = rightChains.names
      ∧ (∀ assignment, read.eval assignment = rightChains.eval assignment)
      ∧ read.toText = rightChains.toText
      ∧ (read = rightChains ↔ rightChains.LeftNested)
      ∧ rightChains.Regroups read ∧ read.LeftNested
      ∧ ∀ other, rightChains.Regroups other → other.LeftNested → other = read := by
  have readable : ∀ name ∈ rightChains.names, Readable name := by
    simp only [mem_names, rightChains, occurrences, List.cons_append, List.nil_append,
      List.mem_cons, List.not_mem_nil, or_false, forall_eq_or_imp, forall_eq]
    exact ⟨⟨by decide, by decide, by decide⟩, ⟨by decide, by decide, by decide⟩,
      ⟨by decide, by decide, by decide⟩, ⟨by decide, by decide, by decide⟩,
      ⟨by decide, by decide, by decide⟩⟩
  exact ⟨readable, parse_toText_regrouped rightChains readable⟩

example : rightChains.toText = "a * ~(true1 + 1 + _) * (a + b)" := by cbv

end TwoLevel.Expr
