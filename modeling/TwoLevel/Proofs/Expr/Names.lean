import TwoLevel.Expr.Parser

/-!
# Names in expressions

The list of names of an expression holds the variables that occur anywhere in it, each once, in
ascending order, and these are the only ones on whose values the value of the expression depends.
Reading over labels accepts what is read as an expression whose variables are all among the labels.
-/
namespace TwoLevel.Expr

/-- The variables that occur in an expression, from left to right. -/
def occurrences : Expr → List String
  | var name => [name]
  | const _ => []
  | not operand => operand.occurrences
  | and left right => left.occurrences ++ right.occurrences
  | or left right => left.occurrences ++ right.occurrences

/-- Only the values of the variables that occur matter. -/
theorem eval_congr {e : Expr} {first second : String → Bool}
    (agree : ∀ name ∈ e.occurrences, first name = second name) : e.eval first = e.eval second := by
  induction e with
  | var name => exact agree name List.mem_cons_self
  | const => rfl
  | not operand ih => rw [eval, eval, ih agree]
  | and left right left_ih right_ih =>
    rw [eval, eval, left_ih fun name occurs => agree name (List.mem_append_left _ occurs),
      right_ih fun name occurs => agree name (List.mem_append_right _ occurs)]
  | or left right left_ih right_ih =>
    rw [eval, eval, left_ih fun name occurs => agree name (List.mem_append_left _ occurs),
      right_ih fun name occurs => agree name (List.mem_append_right _ occurs)]

theorem mem_insertName (name other : String) (known : List String) :
    other ∈ insertName name known ↔ other = name ∨ other ∈ known := by
  induction known with
  | nil => simp [insertName]
  | cons first rest ih =>
    rw [insertName]
    split
    next => rw [List.mem_cons]
    next =>
      split
      next same =>
        subst same
        simp
      next =>
        rw [List.mem_cons, List.mem_cons, ih]
        exact or_left_comm

theorem mem_collectNames (e : Expr) (known : List String) (name : String) :
    name ∈ e.collectNames known ↔ name ∈ known ∨ name ∈ e.occurrences := by
  induction e generalizing known with
  | var other => rw [collectNames, mem_insertName, occurrences, List.mem_singleton, or_comm]
  | const => simp [collectNames, occurrences]
  | not operand ih => exact ih known
  | and left right ih_left ih_right =>
    rw [collectNames, ih_right, ih_left, occurrences, List.mem_append, or_assoc]
  | or left right ih_left ih_right =>
    rw [collectNames, ih_right, ih_left, occurrences, List.mem_append, or_assoc]

theorem mem_names (e : Expr) (name : String) : name ∈ e.names ↔ name ∈ e.occurrences := by
  simp [names, mem_collectNames]

theorem pairwise_insertName (name : String) {known : List String}
    (ascending : known.Pairwise (· < ·)) : (insertName name known).Pairwise (· < ·) := by
  induction known with
  | nil => exact List.pairwise_singleton _ _
  | cons first rest ih =>
    obtain ⟨least, tail⟩ := List.pairwise_cons.mp ascending
    rw [insertName]
    split
    next before =>
      refine List.pairwise_cons.mpr ⟨fun other member => ?_, ascending⟩
      rcases List.mem_cons.mp member with rfl | later
      · exact before
      · exact String.lt_trans before (least other later)
    next notBefore =>
      split
      next => exact ascending
      next distinct =>
        -- The name goes further back, so it comes after the first one.
        have after : first < name := Decidable.byContradiction fun notAfter =>
          distinct (String.le_antisymm (String.not_lt.mp notAfter) (String.not_lt.mp notBefore))
        refine List.pairwise_cons.mpr ⟨fun other member => ?_, ih tail⟩
        rcases (mem_insertName name other rest).mp member with rfl | later
        · exact after
        · exact least other later

theorem pairwise_collectNames (e : Expr) {known : List String}
    (ascending : known.Pairwise (· < ·)) : (e.collectNames known).Pairwise (· < ·) := by
  induction e generalizing known with
  | var name => exact pairwise_insertName name ascending
  | const => exact ascending
  | not operand ih => exact ih ascending
  | and left right left_ih right_ih => exact right_ih (left_ih ascending)
  | or left right left_ih right_ih => exact right_ih (left_ih ascending)

theorem pairwise_names (e : Expr) : e.names.Pairwise (· < ·) :=
  pairwise_collectNames e .nil

/-- Over labels, exactly those expressions are read that have no other variables. -/
theorem parseOver_eq_ok_iff (text : String) (labels : List String) (e : Expr) :
    parseOver text labels = .ok e
      ↔ parse text = .ok e ∧ ∀ name ∈ e.occurrences, name ∈ labels := by
  rw [parseOver]
  cases parse text with
  | error => simp
  | ok read =>
    have known : (read.names.find? fun name => !labels.contains name) = none
        ↔ ∀ name ∈ read.occurrences, name ∈ labels := by
      simp [List.find?_eq_none, mem_names]
    simp only [Except.ok.injEq]
    cases unknown : read.names.find? fun name => !labels.contains name with
    | some name =>
      -- A variable that is no label stands against the condition.
      simp only [reduceCtorEq, false_iff, not_and]
      rintro rfl all
      rw [known.mpr all] at unknown
      cases unknown
    | none =>
      rw [Except.ok.injEq, iff_self_and]
      rintro rfl
      exact known.mp unknown

end TwoLevel.Expr
