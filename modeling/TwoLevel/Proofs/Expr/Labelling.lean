import TwoLevel.Proofs.Expr.Index
import TwoLevel.Proofs.Expr.Names
import TwoLevel.Proofs.Text.Bytes

/-!
# Expressions over labels

What is read over labels has no other variables than these. Of several unknown names the list of
names has the least one first, and the refusal names it. Since every variable of what was read is
bound to a bit, the value at an index is the value under any map that binds the labels to the bits
of the index: that other names are false at an index is never used.
-/
namespace TwoLevel.Expr

/-- Of the variables that are no labels, the one whose bytes come first. -/
structure LeastUnknown (e : Expr) (labels : List String) (name : String) : Prop where
  occurs : name ∈ e.occurrences
  unknown : name ∉ labels
  least : ∀ other ∈ e.occurrences, other ∉ labels → Text.bytes name ≤ Text.bytes other

/-- The map gives to each label its bit of an index. A label that it leaves out counts as false. -/
def Binds (values : Std.HashMap String Bool) (labels : List String) (index : Nat) : Prop :=
  ∀ (position : Nat) (inside : position < labels.length),
    values.getD labels[position] false = index.testBit (labels.length - 1 - position)

/-! ### Unknown names -/

theorem le_of_find?_eq_some {names : List String} (ascending : names.Pairwise (· < ·))
    {test : String → Bool} {name other : String} (found : names.find? test = some name)
    (member : other ∈ names) (passes : test other = true) : name ≤ other := by
  obtain ⟨-, earlier, later, rfl, failing⟩ := List.find?_eq_some_iff_append.mp found
  rcases List.mem_append.mp member with before | behind
  · have fails := failing other before
    rw [passes] at fails
    cases fails
  · rcases List.mem_cons.mp behind with rfl | behind
    · exact String.le_refl _
    · have order := (List.pairwise_append.mp ascending).2.1
      have after := (List.pairwise_cons.mp order).1 other behind
      exact String.not_lt.mp (String.lt_asymm after)

theorem leastUnknown_of_find? {e : Expr} {labels : List String} {name : String}
    (found : (e.names.find? fun name => !labels.contains name) = some name) :
    e.LeastUnknown labels name where
  occurs := (mem_names e name).mp (List.mem_of_find?_eq_some found)
  unknown := by simpa using List.find?_some found
  least := by
    intro other occurs missing
    rw [Text.bytes_le_bytes_iff]
    exact le_of_find?_eq_some (pairwise_names e) found ((mem_names e other).mpr occurs)
      (by simpa using missing)

/-- The first name that is no label is the least one. -/
theorem find?_names_eq_some_iff (e : Expr) (labels : List String) (name : String) :
    (e.names.find? fun name => !labels.contains name) = some name ↔ e.LeastUnknown labels name := by
  refine ⟨leastUnknown_of_find?, fun given => ?_⟩
  cases found : e.names.find? fun name => !labels.contains name with
  | none =>
    have known := List.find?_eq_none.mp found name ((mem_names e name).mpr given.occurs)
    exact absurd (by simpa using given.unknown) known
  | some first =>
    -- Of two least names neither is less than the other.
    have least := leastUnknown_of_find? found
    have before := least.least name given.occurs given.unknown
    have after := given.least first least.occurs least.unknown
    rw [Text.bytes_le_bytes_iff] at before after
    rw [String.le_antisymm before after]

theorem parseOver_eq_error_iff (text : String) (labels : List String) (error : ParseError) :
    parseOver text labels = .error error
      ↔ (∃ refusal, parse text = .error refusal ∧ error = .syntactic refusal)
        ∨ ∃ e name, parse text = .ok e ∧ e.LeastUnknown labels name
          ∧ error = .unknownVariable name := by
  rw [parseOver]
  cases parse text with
  | error refusal => simp [eq_comm]
  | ok e =>
    simp only [reduceCtorEq, false_and, exists_false, false_or, Except.ok.injEq, exists_and_left,
      exists_eq_left', ← find?_names_eq_some_iff]
    cases e.names.find? fun name => !labels.contains name <;> simp [eq_comm]

/-! ### Values -/

theorem evalAt_eq_evalUnder {e : Expr} {labels : List String} {index : Nat}
    {values : Std.HashMap String Bool} (known : ∀ name ∈ e.occurrences, name ∈ labels)
    (binds : Binds values labels index) : e.evalAt labels index = e.evalUnder values := by
  apply eval_congr
  intro name occurs
  rw [bitOfName]
  cases found : labels.idxOf? name with
  | none => exact absurd (known name occurs) (List.idxOf?_eq_none_iff.mp found)
  | some position =>
    -- Of equal labels the first one gives the bit, and the map agrees with each of them.
    obtain ⟨inside, rfl, -⟩ := List.idxOf?_eq_some_iff.mp found
    exact (binds position inside).symm

/-- Over labels a text is read as an expression exactly if it is read as that expression and every
variable of it is a label. It is refused for what makes it no expression, or else for the unknown
variable whose bytes come first. Over at most as many labels as a word has bits, the value of what
was read at an index is its value under any map that gives the labels their bits of the index. -/
theorem parseOver_outcomes (text : String) (labels : List String) :
    (∀ e, parseOver text labels = .ok e
      ↔ parse text = .ok e ∧ ∀ name ∈ e.occurrences, name ∈ labels)
    ∧ (∀ error, parseOver text labels = .error error
      ↔ (∃ refusal, parse text = .error refusal ∧ error = .syntactic refusal)
        ∨ ∃ e name, parse text = .ok e ∧ e.LeastUnknown labels name ∧ error = .unknownVariable name)
    ∧ ∀ e, parseOver text labels = .ok e → labels.length ≤ Word.size →
      ∀ (index : Nat) (values : Std.HashMap String Bool), Binds values labels index →
        e.evalAt? labels index = some (e.evalUnder values) := by
  refine ⟨parseOver_eq_ok_iff text labels, parseOver_eq_error_iff text labels, ?_⟩
  intro e read within index values binds
  have known := ((parseOver_eq_ok_iff text labels e).mp read).2
  rw [evalAt?_eq_some within, evalAt_eq_evalUnder known binds]

/-- The bits of the index 1 over the labels `a` and `b`, and a value for a name that is no label. -/
def valuesAtOne : Std.HashMap String Bool :=
  ((∅ : Std.HashMap String Bool).insert "b" true).insert "c" true

theorem parseOver_outcomes_spareName :
    parseOver "b & ~a" ["a", "b"] = .ok (.and (.var "b") (.not (.var "a")))
    ∧ ["a", "b"].length ≤ Word.size ∧ Binds valuesAtOne ["a", "b"] 1
    ∧ (and (.var "b") (.not (.var "a"))).evalAt? ["a", "b"] 1
      = some ((and (.var "b") (.not (.var "a"))).evalUnder valuesAtOne) := by
  have outcomes := parseOver_outcomes "b & ~a" ["a", "b"]
  have cut : lexemes 0 "b & ~a".toList
      = ⟨[⟨.name "b", ['b'], 0⟩, ⟨.and, ['&'], 2⟩, ⟨.not, ['~'], 4⟩, ⟨.name "a", ['a'], 5⟩],
          none⟩ := by decide +kernel
  have read : parse "b & ~a" = .ok (.and (.var "b") (.not (.var "a"))) := by
    rw [parse, cut]
    rfl
  have accepted : parseOver "b & ~a" ["a", "b"] = .ok (.and (.var "b") (.not (.var "a"))) :=
    (outcomes.1 _).mpr ⟨read, by decide⟩
  have within : ["a", "b"].length ≤ Word.size := by decide
  have first : valuesAtOne.getD "a" false = false := by simp [valuesAtOne, Std.HashMap.getD_insert]
  have second : valuesAtOne.getD "b" false = true := by simp [valuesAtOne, Std.HashMap.getD_insert]
  have binds : Binds valuesAtOne ["a", "b"] 1 := by
    intro position inside
    rcases position with _ | _ | position
    · exact first
    · exact second
    · exact absurd inside (by simp)
  exact ⟨accepted, within, binds, outcomes.2.2 _ accepted within 1 valuesAtOne binds⟩

end TwoLevel.Expr
