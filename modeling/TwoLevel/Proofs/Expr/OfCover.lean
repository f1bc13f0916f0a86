import TwoLevel.Expr.OfCover
import TwoLevel.Proofs.Expr.Index
import TwoLevel.Proofs.Expr.Names
import TwoLevel.Proofs.Implicant.Coverage
import TwoLevel.Proofs.Implicant.Literals

/-!
# Values of cover expressions

A chain of conjunctions is true if all of its operands are, a chain of disjunctions if any is. So by
De Morgan's law the product of sums of a cover is the negation of its sum of products, under every
assignment.

Over distinct labels, one for each position, the literals of an implicant hold at an index exactly
if they agree with the bits of the index, and the sum of products holds where the cover covers the
index. If there are no more labels than a word has bits, evaluation on index words answers the same.
-/
namespace TwoLevel

namespace Expr

/-! ### Chains -/

section

variable (assignment : String → Bool)

theorem eval_chain_and (operands : List Expr) :
    (chain and true operands).eval assignment = operands.all fun e => e.eval assignment := by
  have joined (rest : List Expr) (first : Expr) : (rest.foldl and first).eval assignment
      = (first.eval assignment && rest.all fun e => e.eval assignment) := by
    induction rest generalizing first with
    | nil => simp
    | cons e rest ih => rw [List.foldl_cons, ih, eval, List.all_cons, Bool.and_assoc]
  cases operands with
  | nil => rfl
  | cons first rest => exact joined rest first

theorem eval_chain_or (operands : List Expr) :
    (chain or false operands).eval assignment = operands.any fun e => e.eval assignment := by
  have joined (rest : List Expr) (first : Expr) : (rest.foldl or first).eval assignment
      = (first.eval assignment || rest.any fun e => e.eval assignment) := by
    induction rest generalizing first with
    | nil => simp
    | cons e rest ih => rw [List.foldl_cons, ih, eval, List.any_cons, Bool.or_assoc]
  cases operands with
  | nil => rfl
  | cons first rest => exact joined rest first

theorem eval_literal (name : String) (positive : Bool) :
    (literal name positive).eval assignment = (assignment name == positive) := by
  cases positive <;> simp [literal, eval]

theorem eval_ofProduct (labels : List String) (p : Implicant) :
    (ofProduct labels p).eval assignment = p.literals.all fun literal =>
      assignment (Label.atPosition labels literal.1) == literal.2 := by
  rw [ofProduct, eval_chain_and, List.all_map]
  congr 1
  funext literal
  exact eval_literal assignment _ _

theorem eval_ofClause (labels : List String) (p : Implicant) :
    (ofClause labels p).eval assignment = !(ofProduct labels p).eval assignment := by
  rw [ofClause, eval_chain_or, List.any_map, eval_ofProduct, List.not_all_eq_any_not]
  congr 1
  funext literal
  rw [Function.comp_apply, eval_literal]
  cases assignment (Label.atPosition labels literal.1) <;> cases literal.2 <;> rfl

theorem eval_ofSumOfProducts (cover : List Implicant) (labels : List String) :
    (ofSumOfProducts cover labels).eval assignment
      = cover.any fun p => (ofProduct labels p).eval assignment := by
  rw [ofSumOfProducts, eval_chain_or, List.any_map]
  rfl

/-- The product of sums is the negation of the sum of products, whatever the labels are. -/
theorem eval_ofProductOfSums (cover : List Implicant) (labels : List String) :
    (ofProductOfSums cover labels).eval assignment
      = !(ofSumOfProducts cover labels).eval assignment := by
  rw [ofProductOfSums, eval_chain_and, List.all_map, eval_ofSumOfProducts, List.not_any_eq_all_not]
  congr 1
  funext p
  exact eval_ofClause assignment labels p

end

/-! ### Values at term indices -/

theorem bitOfName_atPosition {labels : List String} (distinct : labels.Nodup) (index : Nat)
    {position : Nat} (inside : position < labels.length) :
    bitOfName labels index (Label.atPosition labels position)
      = index.testBit (labels.length - 1 - position) := by
  have found : labels.idxOf? labels[position] = some position := by
    rw [List.idxOf?_eq_some_iff]
    -- No earlier label binds the name, because the labels are distinct.
    refine ⟨inside, rfl, fun earlier before same => ?_⟩
    exact List.pairwise_iff_getElem.mp distinct earlier position _ inside before same
  rw [bitOfName, Label.atPosition_eq_getElem inside, found]

/-- Over distinct labels a product holds at the indices that its implicant covers. -/
theorem evalAt_ofProduct {labels : List String} (distinct : labels.Nodup) {p : Implicant}
    (width : p.width = labels.length) (index : Nat) :
    (ofProduct labels p).evalAt labels index = p.covers index := by
  rw [evalAt, eval_ofProduct, Bool.eq_iff_iff, List.all_eq_true, Implicant.covers_iff]
  refine forall₂_congr fun literal member => ?_
  have inside : literal.1 < labels.length := by
    rw [← width]
    exact Implicant.lt_width_of_mem_literals member
  rw [bitOfName_atPosition distinct index inside, beq_iff_eq, width]

theorem evalAt_ofSumOfProducts {labels : List String} (distinct : labels.Nodup)
    {cover : List Implicant} (width : ∀ p ∈ cover, p.width = labels.length) (index : Nat) :
    (ofSumOfProducts cover labels).evalAt labels index = cover.any fun p => p.covers index := by
  rw [evalAt, eval_ofSumOfProducts, Bool.eq_iff_iff, List.any_eq_true, List.any_eq_true]
  refine exists_congr fun p => and_congr_right fun member => ?_
  rw [← evalAt, evalAt_ofProduct distinct (width p member)]

theorem evalAt_ofProductOfSums {labels : List String} (distinct : labels.Nodup)
    {cover : List Implicant} (width : ∀ p ∈ cover, p.width = labels.length) (index : Nat) :
    (ofProductOfSums cover labels).evalAt labels index = !cover.any fun p => p.covers index := by
  rw [evalAt, eval_ofProductOfSums, ← evalAt, evalAt_ofSumOfProducts distinct width]

/-- Over distinct labels, one for each position and no more than a word has bits, a sum of products
is true at the index words that some implicant of the cover covers, and a product of sums at those
that none covers. Over any labels, the product of sums is the negation of the sum of products under
every assignment. -/
theorem values_of_cover (cover : List Implicant) :
    (∀ labels : List String, labels.length ≤ Word.size → labels.Nodup →
      (∀ p ∈ cover, p.width = labels.length) → ∀ index,
        (∃ value, (ofSumOfProducts cover labels).evalAt? labels index = some value
          ∧ (value = true ↔ ∃ p ∈ cover, p.covers? index = some true))
        ∧ ∃ value, (ofProductOfSums cover labels).evalAt? labels index = some value
          ∧ (value = true ↔ ∀ p ∈ cover, p.covers? index = some false))
    ∧ ∀ labels assignment, (ofProductOfSums cover labels).eval assignment
        = !(ofSumOfProducts cover labels).eval assignment := by
  refine ⟨fun labels within distinct width index => ?_, fun labels assignment =>
    eval_ofProductOfSums assignment cover labels⟩
  have tested (p : Implicant) (member : p ∈ cover) : p.covers? index = some (p.covers index) :=
    Implicant.covers?_eq_some (width p member ▸ within) index
  refine ⟨⟨_, evalAt?_eq_some within index _, ?_⟩, ⟨_, evalAt?_eq_some within index _, ?_⟩⟩
  · rw [evalAt_ofSumOfProducts distinct width, List.any_eq_true]
    refine exists_congr fun p => and_congr_right fun member => ?_
    rw [tested p member, Option.some.injEq]
  · rw [evalAt_ofProductOfSums distinct width, Bool.not_eq_true', List.any_eq_false]
    refine forall₂_congr fun p member => ?_
    rw [tested p member, Option.some.injEq, Bool.not_eq_true]

/-- Products that overlap at the indices 3 and 7 and leave out 4 and 5. -/
def overlapping : List Implicant :=
  [⟨[.dash, .one, .one]⟩, ⟨[.one, .one, .dash]⟩, ⟨[.zero, .dash, .dash]⟩]

theorem values_of_cover_overlapping :
    ["a", "b", "c"].length ≤ Word.size ∧ ["a", "b", "c"].Nodup
    ∧ (∀ p ∈ overlapping, p.width = ["a", "b", "c"].length)
    ∧ ∀ index,
      (∃ value,
        (ofSumOfProducts overlapping ["a", "b", "c"]).evalAt? ["a", "b", "c"] index = some value
        ∧ (value = true ↔ ∃ p ∈ overlapping, p.covers? index = some true))
      ∧ ∃ value,
        (ofProductOfSums overlapping ["a", "b", "c"]).evalAt? ["a", "b", "c"] index = some value
        ∧ (value = true ↔ ∀ p ∈ overlapping, p.covers? index = some false) := by
  have distinct : ["a", "b", "c"].Nodup := by decide
  have width : ∀ p ∈ overlapping, p.width = ["a", "b", "c"].length := by decide
  exact ⟨by decide, distinct, width, (values_of_cover overlapping).1 _ (by decide) distinct width⟩

example : (List.range 8).map ((ofProductOfSums overlapping ["a", "b", "c"]).evalAt ["a", "b", "c"])
    = [false, false, false, false, true, true, false, false] := by decide

/-! ### Variables -/

section

variable {cover : List Implicant} {labels : List String}
  (width_le : ∀ p ∈ cover, p.width ≤ labels.length)

include width_le

end

end Expr

end TwoLevel
