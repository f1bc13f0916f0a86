import TwoLevel.Expr.Basic

/-!
# Grouping of chains

The operands of a chain of one operator can be grouped in several ways. Regrouping moves parentheses
in such chains from the right to the left, anywhere in an expression. It keeps the names, in the
order in which they occur, and the values.

When nothing is left to be moved, the expression is nested to the left. Every expression regroups to
exactly one such expression: attaching an operand in front of a chain is associative, so it does not
matter in which order parentheses were moved.
-/
namespace TwoLevel.Expr

/-- The operators that chains are made of. -/
inductive Operator where
  | and
  | or
  deriving DecidableEq

def Operator.join : Operator → Expr → Expr → Expr
  | .and => Expr.and
  | .or => Expr.or

/-- The operator that joins the two operands of an expression. -/
def operator? : Expr → Option Operator
  | and _ _ => some .and
  | or _ _ => some .or
  | _ => none

/-- Moves parentheses in chains of one operator from the right to the left. -/
inductive Regroups : Expr → Expr → Prop
  | refl (e : Expr) : Regroups e e
  | trans {a b c : Expr} (first : Regroups a b) (second : Regroups b c) : Regroups a c
  | turn (op : Operator) (a b c : Expr) :
      Regroups (op.join a (op.join b c)) (op.join (op.join a b) c)
  | not {a b : Expr} (operand : Regroups a b) : Regroups (.not a) (.not b)
  | join (op : Operator) {a b c d : Expr} (left : Regroups a b) (right : Regroups c d) :
      Regroups (op.join a c) (op.join b d)

/-- No conjunction has a conjunction on its right, and no disjunction a disjunction. -/
def LeftNested : Expr → Prop
  | var _ => True
  | const _ => True
  | not operand => operand.LeftNested
  | and left right => left.LeftNested ∧ right.LeftNested ∧ right.operator? ≠ some .and
  | or left right => left.LeftNested ∧ right.LeftNested ∧ right.operator? ≠ some .or

/-! ### What regrouping keeps -/

section

variable {e other : Expr} (regroups : e.Regroups other)

include regroups

theorem Regroups.eval_eq (assignment : String → Bool) :
    other.eval assignment = e.eval assignment := by
  induction regroups with
  | refl => rfl
  | trans _ _ first second => rw [second, first]
  | turn op a b c => cases op <;> simp [Operator.join, eval, Bool.and_assoc, Bool.or_assoc]
  | not _ ih => simp [eval, ih]
  | join op _ _ left right => cases op <;> simp [Operator.join, eval, left, right]

theorem Regroups.collectNames_eq (known : List String) :
    other.collectNames known = e.collectNames known := by
  induction regroups generalizing known with
  | refl => rfl
  | trans _ _ first second => rw [second, first]
  | turn op a b c => cases op <;> rfl
  | not _ ih => exact ih known
  | join op _ _ left right => cases op <;> simp [Operator.join, collectNames, left, right]

theorem Regroups.names_eq : other.names = e.names := regroups.collectNames_eq []

end

/-! ### Nesting to the left -/

/-- Joins an expression to the front of a chain. -/
def attach : Operator → Expr → Expr → Expr
  | .and, left, and a b => and (attach .and left a) b
  | .or, left, or a b => or (attach .or left a) b
  | op, left, right => op.join left right

theorem attach_join (op : Operator) (left a b : Expr) :
    attach op left (op.join a b) = op.join (attach op left a) b := by
  cases op <;> rfl

theorem attach_of_ne {op : Operator} {right : Expr} (apart : right.operator? ≠ some op)
    (left : Expr) : attach op left right = op.join left right := by
  cases op <;> cases right <;> simp [operator?, attach] at apart ⊢

/-- Induction on a chain of one operator: its last operand is joined to the shorter chain before
it. -/
theorem chain_induction {P : Expr → Prop} (op : Operator)
    (link : ∀ a b, P a → P (op.join a b)) (single : ∀ e, e.operator? ≠ some op → P e)
    (e : Expr) : P e := by
  induction e with
  | var | const | not => exact single _ (by simp [operator?])
  | and a b front =>
    cases op with
    | and => exact link a b front
    | or => exact single _ (by simp [operator?])
  | or a b front =>
    cases op with
    | and => exact single _ (by simp [operator?])
    | or => exact link a b front

theorem regroups_attach (op : Operator) (left right : Expr) :
    (op.join left right).Regroups (attach op left right) := by
  induction right using chain_induction op with
  | link a b ih =>
    rw [attach_join]
    -- The last operand is set apart first, then the rest of the chain is attached.
    exact .trans (.turn op left a b) (.join op ih (.refl b))
  | single right apart =>
    rw [attach_of_ne apart]
    exact .refl _

theorem leftNested_join_iff (op : Operator) (left right : Expr) : (op.join left right).LeftNested
    ↔ left.LeftNested ∧ right.LeftNested ∧ right.operator? ≠ some op := by
  cases op <;> rfl

theorem leftNested_attach {op : Operator} {left right : Expr} (nested : left.LeftNested)
    (chain : right.LeftNested) : (attach op left right).LeftNested := by
  induction right using chain_induction op with
  | link a b ih =>
    rw [leftNested_join_iff] at chain
    rw [attach_join, leftNested_join_iff]
    exact ⟨ih chain.1, chain.2⟩
  | single right apart =>
    rw [attach_of_ne apart, leftNested_join_iff]
    exact ⟨nested, chain, apart⟩

theorem attach_assoc (op : Operator) (a b c : Expr) :
    attach op a (attach op b c) = attach op (attach op a b) c := by
  induction c using chain_induction op with
  | link front last ih => rw [attach_join, attach_join, attach_join, ih]
  | single c apart => rw [attach_of_ne apart, attach_of_ne apart, attach_join]

/-- The grouping to the left. -/
def nestLeft : Expr → Expr
  | var name => var name
  | const value => const value
  | not operand => not operand.nestLeft
  | and left right => attach .and left.nestLeft right.nestLeft
  | or left right => attach .or left.nestLeft right.nestLeft

theorem nestLeft_join (op : Operator) (left right : Expr) :
    (op.join left right).nestLeft = attach op left.nestLeft right.nestLeft := by
  cases op <;> rfl

theorem regroups_nestLeft (e : Expr) : e.Regroups e.nestLeft := by
  induction e with
  | var | const => exact .refl _
  | not operand ih => exact .not ih
  | and left right left_ih right_ih =>
    exact .trans (.join .and left_ih right_ih) (regroups_attach .and _ _)
  | or left right left_ih right_ih =>
    exact .trans (.join .or left_ih right_ih) (regroups_attach .or _ _)

theorem leftNested_nestLeft (e : Expr) : e.nestLeft.LeftNested := by
  induction e with
  | var | const => trivial
  | not operand ih => exact ih
  | and left right left_ih right_ih => exact leftNested_attach left_ih right_ih
  | or left right left_ih right_ih => exact leftNested_attach left_ih right_ih

theorem LeftNested.nestLeft_eq {e : Expr} (nested : e.LeftNested) : e.nestLeft = e := by
  induction e with
  | var | const => rfl
  | not operand ih => exact congrArg Expr.not (ih nested)
  | and left right left_ih right_ih =>
    obtain ⟨front, last, apart⟩ := nested
    rw [nestLeft, left_ih front, right_ih last]
    exact attach_of_ne apart left
  | or left right left_ih right_ih =>
    obtain ⟨front, last, apart⟩ := nested
    rw [nestLeft, left_ih front, right_ih last]
    exact attach_of_ne apart left

theorem Regroups.nestLeft_eq {e other : Expr} (regroups : e.Regroups other) :
    other.nestLeft = e.nestLeft := by
  induction regroups with
  | refl => rfl
  | trans _ _ first second => rw [second, first]
  | turn op a b c => simp only [nestLeft_join, attach_assoc]
  | not _ ih => simp [nestLeft, ih]
  | join op _ _ left right => simp only [nestLeft_join, left, right]

/-- What an expression regroups to and is nested to the left is its grouping to the left. -/
theorem Regroups.eq_nestLeft {e other : Expr} (regroups : e.Regroups other)
    (nested : other.LeftNested) : other = e.nestLeft := by
  rw [← regroups.nestLeft_eq, nested.nestLeft_eq]

theorem nestLeft_eq_self_iff (e : Expr) : e.nestLeft = e ↔ e.LeftNested := by
  constructor
  · intro same
    rw [← same]
    exact leftNested_nestLeft e
  · exact LeftNested.nestLeft_eq

end TwoLevel.Expr
