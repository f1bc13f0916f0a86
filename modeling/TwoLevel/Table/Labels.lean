import TwoLevel.Label
import TwoLevel.Table.Error

/-!
# The labels of a table

A table has one label for each variable. A label is an identifier, is none of the constants' names
and not the name of the output, and no label stands twice: so every label can be read back in an
expression and binds its own variable. Without other labels the variables are `A`, `B`, `C`, ….
-/
namespace TwoLevel.Label

/-- The name of the output in generated modules. -/
def output : String := "out"

/-- Names that no variable may have. -/
def reserved : List String := ["true", "false", output]

/-- The labels that a table over a number of variables may have. -/
structure Fit (arity : Nat) (labels : List String) : Prop where
  length_eq : labels.length = arity
  identifier : ∀ label ∈ labels, isIdentifier label = true
  not_reserved : ∀ label ∈ labels, label ∉ reserved
  nodup : labels.Nodup

/-- The problem of a label, given those before it. -/
def problem? (before : List String) (label : String) : Option LabelProblem :=
  if !isIdentifier label then some .notIdentifier
  else if reserved.contains label then some .reserved
  else if before.contains label then some .duplicate
  else none

/-- The first label that has a problem, given the labels before the list. -/
def firstProblem? (before : List String) : List String → Option (String × LabelProblem)
  | [] => none
  | label :: rest =>
    match problem? before label with
    | some problem => some (label, problem)
    | none => firstProblem? (label :: before) rest

theorem problem?_eq_none_iff (before : List String) (label : String) :
    problem? before label = none
      ↔ isIdentifier label = true ∧ label ∉ reserved ∧ label ∉ before := by
  unfold problem?
  split
  case isTrue bad => simp_all
  case isFalse good =>
    split
    case isTrue bad => simp_all
    case isFalse fine =>
      split
      case isTrue bad => simp_all
      case isFalse fresh => simp_all

/-- A list has no problem exactly if it consists of distinct, unreserved identifiers that do not
occur before it. -/
theorem firstProblem?_eq_none_iff (before labels : List String) :
    firstProblem? before labels = none
      ↔ (∀ label ∈ labels, isIdentifier label = true) ∧ (∀ label ∈ labels, label ∉ reserved)
        ∧ labels.Nodup ∧ ∀ label ∈ labels, label ∉ before := by
  induction labels generalizing before with
  | nil => simp [firstProblem?]
  | cons label rest ih =>
    unfold firstProblem?
    split
    case h_1 problem found =>
      simp only [reduceCtorEq, false_iff]
      rintro ⟨identifiers, unreserved, -, fresh⟩
      have clean := (problem?_eq_none_iff before label).mpr
        ⟨identifiers label (by simp), unreserved label (by simp), fresh label (by simp)⟩
      simp [clean] at found
    case h_2 clean =>
      obtain ⟨identifier, unreserved, fresh⟩ := (problem?_eq_none_iff before label).mp clean
      rw [ih]
      simp only [List.mem_cons, forall_eq_or_imp, List.nodup_cons, not_or]
      grind

/-- The letters that name variables, as many as a table may have. -/
def letters : List Char := ['A', 'B', 'C', 'D', 'E', 'F', 'G', 'H', 'I', 'J']

/-- The labels of a table without other labels. -/
def defaults (arity : Nat) : List String := (letters.take arity).map String.singleton

theorem isStart_of_mem_letters {c : Char} (listed : c ∈ letters) : isStart c = true := by
  have all : letters.all isStart = true := by decide
  exact List.all_eq_true.mp all c listed

theorem isIdentifier_singleton (c : Char) : isIdentifier (String.singleton c) = isStart c := by
  simp [isIdentifier]

theorem defaults_fit {arity : Nat} (bounded : arity ≤ maxVariables) :
    Fit arity (defaults arity) where
  length_eq := by
    simp only [defaults, List.length_map, List.length_take]
    exact Nat.min_eq_left bounded
  identifier := by
    intro label member
    obtain ⟨c, taken, rfl⟩ := List.mem_map.mp member
    rw [isIdentifier_singleton]
    exact isStart_of_mem_letters (List.mem_of_mem_take taken)
  not_reserved := by
    intro label member same
    obtain ⟨c, -, rfl⟩ := List.mem_map.mp member
    have single : (String.singleton c).toList.length = 1 := by simp
    simp only [reserved, output, List.mem_cons, List.not_mem_nil, or_false] at same
    rcases same with equal | equal | equal <;> rw [equal] at single <;> simp at single
  nodup := by
    have distinct : (letters.take arity).Nodup :=
      List.Nodup.sublist (List.take_sublist _ _) (by decide)
    refine List.Pairwise.map _ (fun left right differ equal => differ ?_) distinct
    simpa using congrArg String.toList equal

end TwoLevel.Label
