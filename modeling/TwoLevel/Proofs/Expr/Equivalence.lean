import Mathlib.Data.List.Dedup
import TwoLevel.Proofs.Expr.Index
import TwoLevel.Proofs.Expr.Names
import TwoLevel.Proofs.Implicant.Expansion
import TwoLevel.Proofs.Implicant.Literals

/-!
# Equivalence of expressions

Two expressions are compared by their values at all indices over the names that occur in them. Any
assignment gives these names the bits of one of the indices, and the value of an expression depends
on no other name. So the comparison decides whether the two agree under every assignment, and under
every map of values as well, because on finitely many names an assignment is a map.
-/
namespace TwoLevel.Expr

/-- The names that occur in either of two expressions. -/
def jointNames (left right : Expr) : List String := right.collectNames left.names

theorem mem_jointNames (left right : Expr) (name : String) :
    name ∈ jointNames left right ↔ name ∈ left.occurrences ∨ name ∈ right.occurrences := by
  rw [jointNames, mem_collectNames, mem_names]

theorem length_jointNames (left right : Expr) :
    (jointNames left right).length = (left.occurrences ++ right.occurrences).dedup.length := by
  have ascending := pairwise_collectNames right (pairwise_names left)
  have nodup : (jointNames left right).Nodup := ascending.imp String.ne_of_lt
  have perm := (List.perm_ext_iff_of_nodup nodup (List.nodup_dedup _)).mpr fun name => by
    rw [mem_jointNames, List.mem_dedup, List.mem_append]
  exact perm.length_eq

/-- Some index binds to every label the value that an assignment gives to it. -/
theorem exists_index (labels : List String) (assignment : String → Bool) :
    ∃ index < Word.count labels.length,
      ∀ name ∈ labels, bitOfName labels index name = assignment name := by
  -- The implicant that fixes each label to its value covers such an index.
  obtain ⟨index, inside, covered⟩ :=
    Implicant.exists_covered ⟨labels.map fun name => Symbol.ofBit (assignment name)⟩
  refine ⟨index, by simpa [Implicant.width] using inside, fun name member => ?_⟩
  rw [bitOfName]
  cases found : labels.idxOf? name with
  | none => exact absurd member (List.idxOf?_eq_none_iff.mp found)
  | some position =>
    obtain ⟨within, rfl, -⟩ := List.idxOf?_eq_some_iff.mp found
    have admitted := (Implicant.coversSymbols_iff index _).mp covered position
      (Symbol.ofBit (assignment labels[position])) (by simp [within])
    rw [List.length_map] at admitted
    exact (Symbol.admits_ofBit _ _).mp admitted

/-- Some map gives to each of the names the value that an assignment gives to it. -/
theorem exists_values (names : List String) (assignment : String → Bool) :
    ∃ values : Std.HashMap String Bool,
      ∀ name ∈ names, values.getD name false = assignment name := by
  induction names with
  | nil => exact ⟨∅, by simp⟩
  | cons first rest ih =>
    obtain ⟨values, given⟩ := ih
    refine ⟨values.insert first (assignment first), fun name member => ?_⟩
    rw [Std.HashMap.getD_insert]
    split
    next same => rw [eq_of_beq same]
    next distinct =>
      rcases List.mem_cons.mp member with rfl | later
      · exact absurd (beq_self_eq_true name) distinct
      · exact given name later

theorem truthVector?_eq_some (e : Expr) {labels : List String}
    (within : labels.length < Word.size) :
    e.truthVector? labels
      = some ((List.range (Word.count labels.length)).map fun index => e.evalAt labels index) := by
  have answered : e.evalAt? labels = fun index => pure (e.evalAt labels index) :=
    funext fun index => evalAt?_eq_some (Nat.le_of_lt within) index e
  rw [truthVector?, if_pos within, answered, List.mapM_pure]
  rfl

/-! ### Agreement -/

/-- Whether two expressions agree depends only on the values of the names that occur in them. -/
theorem eval_eq_iff {left right : Expr} {first second : String → Bool}
    (same : ∀ name ∈ jointNames left right, first name = second name) :
    left.eval first = right.eval first ↔ left.eval second = right.eval second := by
  have of_left : left.eval first = left.eval second :=
    eval_congr fun name occurs => same name ((mem_jointNames left right name).mpr (.inl occurs))
  have of_right : right.eval first = right.eval second :=
    eval_congr fun name occurs => same name ((mem_jointNames left right name).mpr (.inr occurs))
  rw [of_left, of_right]

theorem forall_evalAt_eq_iff (left right : Expr) :
    (∀ index < Word.count (jointNames left right).length,
      left.evalAt (jointNames left right) index = right.evalAt (jointNames left right) index)
      ↔ ∀ assignment, left.eval assignment = right.eval assignment := by
  refine ⟨fun agree assignment => ?_, fun agree index _ => agree _⟩
  obtain ⟨index, inside, bound⟩ := exists_index (jointNames left right) assignment
  exact (eval_eq_iff bound).mp (agree index inside)

theorem forall_evalUnder_eq_iff (left right : Expr) :
    (∀ values : Std.HashMap String Bool, left.evalUnder values = right.evalUnder values)
      ↔ ∀ assignment, left.eval assignment = right.eval assignment := by
  refine ⟨fun agree assignment => ?_, fun agree values => agree _⟩
  obtain ⟨values, given⟩ := exists_values (jointNames left right) assignment
  exact (eval_eq_iff given).mp (agree values)

theorem equivalent?_eq_some (left right : Expr)
    (within : (jointNames left right).length < Word.size) :
    left.equivalent? right = some (decide (∀ index < Word.count (jointNames left right).length,
      left.evalAt (jointNames left right) index = right.evalAt (jointNames left right) index)) := by
  rw [equivalent?, ← jointNames]
  simp only [truthVector?_eq_some _ within, Option.bind_eq_bind, Option.bind_some, Option.pure_def,
    Option.some.injEq]
  rw [Bool.eq_iff_iff, beq_iff_eq, List.map_inj_left, decide_eq_true_iff]
  simp only [List.mem_range]

/-- As long as fewer names occur in two expressions than a word has bits, their comparison has an
answer, and it tells whether they have the same value under every map of values, and under every
assignment. -/
theorem equivalent?_decides_agreement (left right : Expr)
    (few : (left.occurrences ++ right.occurrences).dedup.length < Word.size) :
    ∃ answer, left.equivalent? right = some answer
      ∧ (answer = true ↔ ∀ values : Std.HashMap String Bool,
        left.evalUnder values = right.evalUnder values)
      ∧ (answer = true ↔ ∀ assignment, left.eval assignment = right.eval assignment) := by
  rw [← length_jointNames] at few
  refine ⟨_, equivalent?_eq_some left right few, ?_, ?_⟩
  · rw [decide_eq_true_iff, forall_evalAt_eq_iff, forall_evalUnder_eq_iff]
  · rw [decide_eq_true_iff, forall_evalAt_eq_iff]

/-- `a + ~a * b`. -/
def withRedundantLiteral : Expr := .or (.var "a") (.and (.not (.var "a")) (.var "b"))

/-- `b + a + c * ~c`, in which the value of `c` does not matter. -/
def withRedundantProduct : Expr :=
  .or (.or (.var "b") (.var "a")) (.and (.var "c") (.not (.var "c")))

theorem equivalent?_decides_agreement_redundant :
    (withRedundantLiteral.occurrences ++ withRedundantProduct.occurrences).dedup.length < Word.size
    ∧ ∃ answer, withRedundantLiteral.equivalent? withRedundantProduct = some answer
      ∧ (answer = true ↔ ∀ values : Std.HashMap String Bool,
        withRedundantLiteral.evalUnder values = withRedundantProduct.evalUnder values)
      ∧ (answer = true ↔ ∀ assignment,
        withRedundantLiteral.eval assignment = withRedundantProduct.eval assignment) := by
  have few : (withRedundantLiteral.occurrences ++ withRedundantProduct.occurrences).dedup.length
      < Word.size := by decide
  exact ⟨few, equivalent?_decides_agreement withRedundantLiteral withRedundantProduct few⟩

example : withRedundantLiteral.equivalent? withRedundantProduct = some true := by decide

end TwoLevel.Expr
