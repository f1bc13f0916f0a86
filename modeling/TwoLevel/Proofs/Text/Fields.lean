import Mathlib.Data.List.Induction
import TwoLevel.Text.Lines
import TwoLevel.Proofs.Label

/-!
# Lines and fields are cut apart again

The lines of a text are the parts between its newlines, and the fields of a line are the parts
between its blanks that are not empty. So lines that hold no newline, each with a newline behind it,
are cut apart again, and so are words that hold no blank, each with a blank before it.
-/
namespace TwoLevel.Text

/-! ### Lines -/

theorem splitAtEach_eq_splitOn {α : Type} [DecidableEq α] (separator : α) (members : List α) :
    splitAtEach separator members = members.splitOn separator := by
  induction members with
  | nil => rfl
  | cons first rest ih =>
    rw [splitAtEach, List.splitOn_cons_eq_if_modifyHead, ih]
    simp only [beq_iff_eq]
    split
    · rfl
    · cases found : List.splitOn separator rest with
      | nil => exact absurd found (List.splitOn_ne_nil separator rest)
      | cons line more => rfl

/-- The characters of lines that all end in a newline. -/
def terminated (lines : List (List Char)) : List Char := lines.flatMap fun line => line ++ ['\n']

theorem splitOn_terminated {lines : List (List Char)} (whole : ∀ line ∈ lines, '\n' ∉ line) :
    (terminated lines).splitOn '\n' = lines ++ [[]] := by
  induction lines with
  | nil => rfl
  | cons line rest ih =>
    obtain ⟨here, later⟩ := List.forall_mem_cons.mp whole
    rw [terminated, List.flatMap_cons, List.append_assoc, List.singleton_append,
      List.splitOn_append_cons_self_of_not_mem here]
    exact congrArg (line :: ·) (ih later)

theorem terminated_append (front back : List (List Char)) :
    terminated (front ++ back) = terminated front ++ terminated back := List.flatMap_append

/-- A text without a newline. -/
def OnOneLine (text : String) : Prop := '\n' ∉ text.toList

instance (text : String) : Decidable (OnOneLine text) :=
  inferInstanceAs (Decidable ('\n' ∉ text.toList))

@[simp] theorem onOneLine_append (front back : String) :
    OnOneLine (front ++ back) ↔ OnOneLine front ∧ OnOneLine back := by
  simp [OnOneLine]

theorem onOneLine_intercalate {separator : String} {parts : List String}
    (between : OnOneLine separator) (each : ∀ part ∈ parts, OnOneLine part) :
    OnOneLine (String.intercalate separator parts) := by
  induction parts with
  | nil => simp [OnOneLine]
  | cons part rest ih =>
    obtain ⟨here, later⟩ := List.forall_mem_cons.mp each
    cases rest with
    | nil => simpa using here
    | cons next more =>
      rw [String.intercalate_cons_cons, onOneLine_append, onOneLine_append]
      exact ⟨⟨here, between⟩, ih later⟩

/-! ### Fields -/

theorem fields_eq (chars : List Char) :
    fields chars = (chars.splitOnP isBlank).filter (!·.isEmpty) := by
  induction chars with
  | nil => rfl
  | cons c rest ih =>
    rw [List.splitOnP_cons_eq_if_modifyHead]
    cases blank : isBlank c with
    | true => rw [fields.eq_def]; simpa [blank] using ih
    | false =>
      cases rest with
      | nil => simp [fields, blank]
      | cons next more =>
        -- The first part of the rest belongs to the same field unless it is empty.
        rw [List.splitOnP_cons_eq_if_modifyHead] at ih ⊢
        rw [fields.eq_def]
        cases apart : isBlank next with
        | true => simpa [blank, apart] using ih
        | false =>
          cases found : List.splitOnP isBlank more with
          | nil => exact absurd found (List.splitOnP_ne_nil _ _)
          | cons word words =>
            rw [apart, found] at ih
            simp [blank, apart, ih]

theorem fields_append_cons (front back : List Char) :
    fields (front ++ ' ' :: back) = fields front ++ fields back := by
  rw [fields_eq, fields_eq, fields_eq, List.splitOnP_append_cons front back (by decide),
    List.filter_append]

/-- A character that is no blank begins the first field of its line. -/
theorem exists_fields_cons {c : Char} (visible : isBlank c = false) (rest : List Char) :
    ∃ word words, fields (c :: rest) = (c :: word) :: words := by
  rw [fields_eq, List.splitOnP_cons_eq_if_modifyHead, visible, if_neg Bool.false_ne_true]
  cases found : List.splitOnP isBlank rest with
  | nil => exact absurd found (List.splitOnP_ne_nil _ _)
  | cons word words => exact ⟨word, words.filter (!·.isEmpty), by simp⟩

/-- A word without blanks. -/
def Solid (word : List Char) : Prop := ∀ c ∈ word, isBlank c = false

instance (word : List Char) : Decidable (Solid word) :=
  List.decidableBAll (isBlank · = false) word

theorem solid_of_isIdentifier {label : String} (identifier : Label.isIdentifier label = true) :
    Solid label.toList ∧ label.toList ≠ [] := by
  rw [Label.isIdentifier] at identifier
  split at identifier
  next => cases identifier
  next first rest spelled =>
    obtain ⟨start, parts⟩ := Bool.and_eq_true_iff.mp identifier
    rw [spelled]
    refine ⟨fun c member => ?_, List.cons_ne_nil first rest⟩
    rcases List.mem_cons.mp member with rfl | member
    · exact isBlank_of_isStart start
    · exact isBlank_of_isPart (List.all_eq_true.mp parts c member)

theorem Solid.onOneLine {text : String} (solid : Solid text.toList) : OnOneLine text :=
  fun inside => absurd (solid _ inside) (by decide)

theorem solid_toString (number : Nat) :
    Solid (toString number).toList ∧ (toString number).toList ≠ [] := by
  rw [Nat.toString_eq_ofList_toDigits, String.toList_ofList]
  refine ⟨fun c member => isBlank_of_isDigit ?_, Nat.toDigits_ne_nil⟩
  exact Nat.isDigit_of_mem_toDigits (by decide) (by decide) member

theorem onOneLine_toString (number : Nat) : OnOneLine (toString number) :=
  (solid_toString number).1.onOneLine

theorem Solid.fields {word : List Char} (solid : Solid word) (nonempty : word ≠ []) :
    fields word = [word] := by
  rw [fields_eq, List.splitOnP_eq_singleton solid]
  simpa using nonempty

/-- Words with a blank between them. -/
def spaced (word : List Char) (words : List (List Char)) : List Char :=
  word ++ words.flatMap fun other => ' ' :: other

section

variable {word : List Char} {words : List (List Char)}
  (solid : ∀ other ∈ word :: words, Solid other) (nonempty : ∀ other ∈ word :: words, other ≠ [])

include solid nonempty

theorem fields_spaced : fields (spaced word words) = word :: words := by
  rw [spaced]
  induction words generalizing word with
  | nil =>
    rw [List.flatMap_nil, List.append_nil]
    exact (solid word List.mem_cons_self).fields (nonempty word List.mem_cons_self)
  | cons next words ih =>
    obtain ⟨solid_word, solid_words⟩ := List.forall_mem_cons.mp solid
    obtain ⟨nonempty_word, nonempty_words⟩ := List.forall_mem_cons.mp nonempty
    rw [List.flatMap_cons, List.cons_append, fields_append_cons, solid_word.fields nonempty_word,
      ih solid_words nonempty_words, List.singleton_append]

omit nonempty in
theorem newline_not_mem_spaced : '\n' ∉ spaced word words := by
  -- A newline is a blank, and the blanks between the words are no newlines.
  have outside : ∀ other ∈ word :: words, '\n' ∉ other := fun other member inside =>
    absurd (solid other member _ inside) (by decide)
  simp only [spaced, List.mem_append, List.mem_flatMap, List.mem_cons, not_or, not_exists, not_and]
  refine ⟨outside word List.mem_cons_self, fun other member => ⟨by decide, ?_⟩⟩
  exact outside other (List.mem_cons_of_mem word member)

end

/-! ### Trimming -/

theorem dropWhile_isBlank_eq_self {chars : List Char}
    (solid : chars.head?.all (!isBlank ·) = true) : chars.dropWhile isBlank = chars := by
  cases chars with
  | nil => rfl
  | cons c rest => rw [List.dropWhile_cons_of_neg (by simpa using solid)]

theorem trimmed_eq_self {chars : List Char} (first : chars.head?.all (!isBlank ·) = true)
    (last : chars.getLast?.all (!isBlank ·) = true) : trimmed chars = chars := by
  rw [trimmed, dropWhile_isBlank_eq_self first, dropWhile_isBlank_eq_self, List.reverse_reverse]
  rw [List.head?_reverse]
  exact last

/-- What is left of a line begins with no blank. -/
theorem isBlank_head_trimmed {chars rest : List Char} {c : Char}
    (left : trimmed chars = c :: rest) : isBlank c = false := by
  have bounded : trimmed chars <+: chars.dropWhile isBlank := by
    rw [trimmed, ← List.reverse_suffix, List.reverse_reverse]
    exact List.dropWhile_suffix _
  rw [left] at bounded
  obtain ⟨more, whole⟩ := bounded
  have stopped := List.head?_dropWhile_not isBlank chars
  rw [← whole] at stopped
  simpa using stopped

theorem fields_trimmed_ne_nil {chars rest : List Char} {c : Char}
    (left : trimmed chars = c :: rest) : fields (c :: rest) ≠ [] := by
  obtain ⟨word, words, found⟩ := exists_fields_cons (isBlank_head_trimmed left) rest
  exact found ▸ List.cons_ne_nil _ _

theorem trimmed_spaced {word : List Char} {words : List (List Char)}
    (solid : ∀ other ∈ word :: words, Solid other)
    (nonempty : ∀ other ∈ word :: words, other ≠ []) :
    trimmed (spaced word words) = spaced word words := by
  have ends {other : List Char} (member : other ∈ word :: words) :
      other.getLast?.all (!isBlank ·) = true := by
    rw [List.getLast?_eq_some_getLast (nonempty other member)]
    simpa using solid other member _ (List.getLast_mem _)
  apply trimmed_eq_self
  · cases word with
    | nil => exact absurd rfl (nonempty [] List.mem_cons_self)
    | cons c rest => simpa [spaced] using solid (c :: rest) List.mem_cons_self c List.mem_cons_self
  · rw [spaced]
    cases words using List.reverseRecOn with
    | nil => simpa using ends List.mem_cons_self
    | append_singleton words last =>
      have behind : last.getLast?.all (!isBlank ·) = true := ends (by simp)
      rw [List.getLast?_eq_some_getLast (nonempty last (by simp))] at behind
      simpa [List.getLast?_append, List.getLast?_cons,
        List.getLast?_eq_some_getLast (nonempty last (by simp))] using behind

end TwoLevel.Text
