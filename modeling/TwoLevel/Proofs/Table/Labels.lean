import TwoLevel.Table.Basic
import TwoLevel.Proofs.Label
import TwoLevel.Proofs.Scan

/-!
# Which labels a table takes

A table takes the labels that fit it, and changes nothing else. Of the labels that do not fit, their
number is reported first, and then the first label that is at fault, given those before it.
-/
namespace TwoLevel

namespace Label

/-- What is wrong with a label, given those before it. -/
inductive Fault (before : List String) (label : String) : String × LabelProblem → Prop
  | notIdentifier (other : isIdentifier label = false) : Fault before label (label, .notIdentifier)
  | reserved (identifier : isIdentifier label = true) (taken : label ∈ reserved) :
    Fault before label (label, .reserved)
  | duplicate (identifier : isIdentifier label = true) (free : label ∉ reserved)
    (repeated : label ∈ before) : Fault before label (label, .duplicate)

theorem problem?_eq_some_iff (before : List String) (label : String) (problem : LabelProblem) :
    problem? before label = some problem ↔ Fault before label (label, problem) := by
  constructor
  · intro found
    -- A label that fails a check has passed those before it.
    rw [problem?] at found
    split at found
    next other =>
      cases found
      exact .notIdentifier (by simpa using other)
    next identifier =>
      rw [Bool.not_eq_true', Bool.not_eq_false] at identifier
      split at found
      next taken =>
        cases found
        exact .reserved identifier (List.contains_iff_mem.mp taken)
      next free =>
        rw [List.contains_iff_mem] at free
        split at found
        next repeated =>
          cases found
          exact .duplicate identifier free (List.contains_iff_mem.mp repeated)
        next => cases found
  · intro fault
    cases fault with
    | notIdentifier other => simp [problem?, other]
    | reserved identifier taken => simp [problem?, identifier, taken]
    | duplicate identifier free repeated => simp [problem?, identifier, free, repeated]

theorem firstProblem?_append {before front : List String}
    (clean : firstProblem? before front = none) (rest : List String) :
    firstProblem? before (front ++ rest) = firstProblem? (front.reverse ++ before) rest := by
  induction front generalizing before with
  | nil => rfl
  | cons label front ih =>
    rw [firstProblem?] at clean
    cases fine : problem? before label with
    | some problem => simp [fine] at clean
    | none =>
      rw [fine] at clean
      rw [List.cons_append, firstProblem?, fine, List.reverse_cons, List.append_assoc]
      exact ih clean

theorem problem?_reverse (before : List String) (label : String) :
    problem? (before.reverse ++ []) label = problem? before label := by
  simp [problem?]

theorem firstProblem?_eq_none_of_faultless {labels : List String} (clean : Faultless Fault labels) :
    firstProblem? [] labels = none := by
  -- The labels before the last one are those that it is compared with.
  induction labels using List.reverseRecOn with
  | nil => rfl
  | append_singleton front label ih =>
    obtain ⟨earlier, fine⟩ := (faultless_append_singleton front label).mp clean
    rw [firstProblem?_append (ih earlier), firstProblem?, problem?_reverse]
    cases found : problem? front label with
    | none => rfl
    | some problem => exact absurd ((problem?_eq_some_iff front label problem).mp found) (fine _)

theorem firstProblem?_eq_some {labels : List String} {label : String} {problem : LabelProblem}
    (first : FirstFault Fault labels (label, problem)) :
    firstProblem? [] labels = some (label, problem) := by
  obtain ⟨front, faulty, back, rfl, clean, fault⟩ := first
  obtain rfl : label = faulty := by cases fault <;> rfl
  rw [firstProblem?_append (firstProblem?_eq_none_of_faultless clean), firstProblem?,
    problem?_reverse, (problem?_eq_some_iff front label problem).mpr fault]

/-- Why a table of some variables refuses labels. -/
inductive Refused (arity : Nat) (labels : List String) : TableError → Prop
  | count (other : labels.length ≠ arity) :
    Refused arity labels (.labelCountMismatch arity labels.length)
  | label {label : String} {problem : LabelProblem} (count : labels.length = arity)
    (first : FirstFault Fault labels (label, problem)) :
    Refused arity labels (.invalidLabel label problem)

theorem fit_or_refused (arity : Nat) (labels : List String) :
    Fit arity labels ∨ ∃ error, Refused arity labels error := by
  by_cases count : labels.length = arity
  · rcases faultless_or_firstFault Fault labels with clean | ⟨⟨label, problem⟩, first⟩
    · have sound := firstProblem?_eq_none_of_faultless clean
      obtain ⟨identifiers, unreserved, distinct, -⟩ :=
        (firstProblem?_eq_none_iff [] labels).mp sound
      exact .inl ⟨count, identifiers, unreserved, distinct⟩
    · exact .inr ⟨_, .label count first⟩
  · exact .inr ⟨_, .count count⟩

/-- The labels that a table of some variables may have: one for each, spelled as a name, none of
them the name of a constant or of the output, and no two the same. -/
structure Valid (arity : Nat) (labels : List String) : Prop where
  length_eq : labels.length = arity
  spelled : ∀ label ∈ labels, Spelled label
  free : ∀ label ∈ labels, label ≠ "true" ∧ label ≠ "false" ∧ label ≠ "out"
  distinct : labels.Pairwise (· ≠ ·)

theorem fit_iff (arity : Nat) (labels : List String) : Fit arity labels ↔ Valid arity labels := by
  have reserved_iff (label : String) :
      label ∉ reserved ↔ label ≠ "true" ∧ label ≠ "false" ∧ label ≠ "out" := by
    simp [reserved, output]
  constructor
  · rintro ⟨length, identifier, free, distinct⟩
    exact ⟨length, fun label member => (isIdentifier_iff label).mp (identifier label member),
      fun label member => (reserved_iff label).mp (free label member), distinct⟩
  · rintro ⟨length, spelled, free, distinct⟩
    exact ⟨length, fun label member => (isIdentifier_iff label).mpr (spelled label member),
      fun label member => (reserved_iff label).mpr (free label member), distinct⟩

end Label

namespace TruthTable

theorem ext_get {t u : TruthTable} (arity : t.arity = u.arity) (labels : t.labels = u.labels)
    (rows : ∀ index < Word.count t.arity, t.get index = u.get index) : t = u := by
  have values : t.values = u.values := by
    have size : t.values.size = u.values.size := by rw [t.size_values, u.size_values, arity]
    refine Array.ext size fun index inside inside' => ?_
    have row := rows index (t.size_values ▸ inside)
    simpa [get, inside, inside'] using row
  obtain ⟨⟩ := t
  obtain ⟨⟩ := u
  simp_all

variable {t : TruthTable} {labels : List String}

theorem withLabels_eq_ok (fit : Label.Fit t.arity labels) :
    t.withLabels labels = .ok { t with labels := labels, labels_fit := fit } := by
  have clean : Label.firstProblem? [] labels = none :=
    (Label.firstProblem?_eq_none_iff [] labels).mpr
      ⟨fit.identifier, fit.not_reserved, fit.nodup, by simp⟩
  rw [withLabels, dif_pos fit.length_eq]
  split
  next found => simp [clean] at found
  next => rfl

theorem withLabels_eq_error {error : TableError} (refused : Label.Refused t.arity labels error) :
    t.withLabels labels = .error error := by
  rw [withLabels]
  cases refused with
  | count other => rw [dif_neg other]
  | label count first =>
    rw [dif_pos count]
    split
    next found =>
      rw [Label.firstProblem?_eq_some first] at found
      cases found
      rfl
    next clean => simp [Label.firstProblem?_eq_some first] at clean

/-- A table takes exactly the labels that fit it, and only its labels change. -/
theorem withLabels_eq_ok_iff (changed : TruthTable) :
    t.withLabels labels = .ok changed
      ↔ Label.Fit t.arity labels ∧ changed.arity = t.arity ∧ changed.labels = labels
        ∧ ∀ index, changed.get index = t.get index := by
  constructor
  · intro taken
    rcases Label.fit_or_refused t.arity labels with fit | ⟨error, refused⟩
    · rw [withLabels_eq_ok fit] at taken
      cases taken
      exact ⟨fit, rfl, rfl, fun _ => rfl⟩
    · rw [withLabels_eq_error refused] at taken
      cases taken
  · rintro ⟨fit, sameArity, rfl, rows⟩
    rw [withLabels_eq_ok fit]
    exact congrArg Except.ok (ext_get sameArity.symm rfl fun index _ => (rows index).symm)

end TruthTable

end TwoLevel
