import TwoLevel.Table.Text
import TwoLevel.Proofs.Scan
import TwoLevel.Proofs.Table.Labels
import TwoLevel.Proofs.Text.Fields
import TwoLevel.Proofs.Text.Number

/-!
# The format of table texts

What a table text means, said without reading it line by line. A line means one of five things, by
its first characters and its fields. Of the numbers of variables and of the labels the last ones
count, and of the rows that name an index the last one behind the last number of variables. A text
is accepted if every line can be followed, given the lines before it, and the labels fit in the end.
-/
namespace TwoLevel.TableText

/-! ### What a line means -/

/-- What the characters of a line mean, the blanks at its ends aside. -/
inductive Means (chars : List Char) : Line → Prop
  | blank (left : Text.trimmed chars = []) : Means chars .nothing
  | comment {rest : List Char} (left : Text.trimmed chars = '#' :: rest) : Means chars .nothing
  | variableCount {rest : List Char} {arguments : List (List Char)}
    (left : Text.trimmed chars = '.' :: rest)
    (cut : Text.fields rest = ['i'] :: arguments) :
    Means chars (.variableCount (arguments.headD []))
  | labels {rest : List Char} {names : List (List Char)} (left : Text.trimmed chars = '.' :: rest)
    (cut : Text.fields rest = ['i', 'l', 'b'] :: names) : Means chars (.labels names)
  | finish {rest name : List Char} {arguments : List (List Char)}
    (left : Text.trimmed chars = '.' :: rest) (cut : Text.fields rest = name :: arguments)
    (known : name = ['e'] ∨ name = ['e', 'n', 'd']) : Means chars .finish
  | unknown {rest : List Char} (left : Text.trimmed chars = '.' :: rest)
    (other : ∀ name ∈ (Text.fields rest).head?,
      name ∉ [['i'], ['i', 'l', 'b'], ['e'], ['e', 'n', 'd']]) : Means chars .nothing
  | row {first : Char} {rest key : List Char} {more : List (List Char)}
    (left : Text.trimmed chars = first :: rest) (data : first ≠ '#' ∧ first ≠ '.')
    (cut : Text.fields (first :: rest) = key :: more) : Means chars (.row key more.head?)

theorem Means.ofChars {chars : List Char} {line : Line} (means : Means chars line) :
    Line.ofChars chars = line := by
  cases means with
  | blank left => simp [Line.ofChars, left]
  | comment left => simp [Line.ofChars, left]
  | variableCount left cut => simp [Line.ofChars, Line.ofDirective, left, cut]
  | labels left cut => simp [Line.ofChars, Line.ofDirective, left, cut]
  | finish left cut known =>
    rcases known with rfl | rfl <;> simp [Line.ofChars, Line.ofDirective, left, cut]
  | @unknown rest left other =>
    cases cut : Text.fields rest with
    | nil => simp [Line.ofChars, Line.ofDirective, left, cut]
    | cons name arguments =>
      rw [cut] at other
      have distinct := other name rfl
      simp only [List.mem_cons, List.not_mem_nil, or_false, not_or] at distinct
      simp [Line.ofChars, Line.ofDirective, left, cut, distinct]
  | @row first rest key more left data cut =>
    cases more <;> simp [Line.ofChars, Line.ofRow, left, data, cut]

theorem means_ofDirective {chars rest : List Char} (left : Text.trimmed chars = '.' :: rest) :
    Means chars (Line.ofDirective rest) := by
  rw [Line.ofDirective]
  split
  next cut => exact .unknown left (by simp [cut])
  next name arguments cut =>
    split
    next known => exact .variableCount left (known ▸ cut)
    next not_count =>
      split
      next known => exact .labels left (known ▸ cut)
      next not_labels =>
        split
        next known => exact .finish left cut known
        next not_finish => exact .unknown left (by simp_all)

theorem means_ofChars (chars : List Char) : Means chars (Line.ofChars chars) := by
  rw [Line.ofChars]
  split
  next left => exact .blank left
  next first rest left =>
    split
    next comment => exact .comment (comment ▸ left)
    next not_comment =>
      split
      next directive => exact means_ofDirective (directive ▸ left)
      next data =>
        rw [Line.ofRow]
        split
        -- What is left of a line has a field, because it begins with no blank.
        next cut => exact absurd cut (Text.fields_trimmed_ne_nil left)
        next key cut => exact .row left ⟨not_comment, data⟩ cut
        next key value more cut => exact .row left ⟨not_comment, data⟩ cut

/-! ### What the lines of a text mean -/

/-- The index that a key names among those of some variables: a bit pattern if the key has a binary
digit for each variable, and a decimal number otherwise. -/
inductive Names (arity : Nat) (key : List Char) : Nat → Prop
  | pattern (bits : key.length = arity ∧ ∀ c ∈ key, c = '0' ∨ c = '1') :
    Names arity key (Nat.ofDigitChars 2 key 0)
  | number {index : Nat} (other : ¬ (key.length = arity ∧ ∀ c ∈ key, c = '0' ∨ c = '1'))
    (decimal : Text.Decimal key index) : Names arity key index

theorem indexOfKey?_eq_some_iff (arity : Nat) (key : List Char) (index : Nat) :
    indexOfKey? arity key = some index ↔ Names arity key index := by
  have bits : (key.length = arity ∧ key.all (fun c => c == '0' || c == '1') = true)
      ↔ key.length = arity ∧ ∀ c ∈ key, c = '0' ∨ c = '1' := by simp
  rw [indexOfKey?, Text.valueOfDigits_eq]
  constructor
  · intro found
    split at found
    next pattern =>
      cases found
      exact .pattern (bits.mp pattern)
    next other =>
      have decimal := (Text.readNumber?_eq_some_iff key index).mp found
      exact .number (fun pattern => other (bits.mpr pattern)) decimal
  · intro names
    cases names with
    | pattern pattern => rw [if_pos (bits.mpr pattern)]
    | number other decimal =>
      rw [if_neg fun pattern => other (bits.mp pattern)]
      exact (Text.readNumber?_eq_some_iff key index).mpr decimal

theorem Names.unique {arity : Nat} {key : List Char} {one other : Nat} (first : Names arity key one)
    (second : Names arity key other) : one = other :=
  Option.some.inj (((indexOfKey?_eq_some_iff arity key one).mpr first).symm.trans
    ((indexOfKey?_eq_some_iff arity key other).mpr second))

/-- A number of variables. -/
def Line.IsCount (line : Line) : Prop := ∃ word, line = .variableCount word

def Line.IsLabels (line : Line) : Prop := ∃ names, line = .labels names

/-- A row whose key names an index. -/
def Line.IsRowOf (arity index : Nat) (line : Line) : Prop :=
  ∃ key value?, line = .row key value? ∧ Names arity key index

/-- The number of variables behind some lines is the last that they name. -/
def InForce (lines : List Line) (count : Nat) : Prop :=
  ∃ word, Last Line.IsCount lines (.variableCount word) ∧ Text.Decimal word count

/-- The value that some lines leave at an index. A number of variables starts over with zeros. -/
inductive Leaves (lines : List Line) (arity index : Nat) : Value → Prop
  | zero {word : List Char}
    (last : Last (fun line => line.IsCount ∨ line.IsRowOf arity index) lines
      (.variableCount word)) : Leaves lines arity index .zero
  | row {key symbol : List Char}
    (last : Last (fun line => line.IsCount ∨ line.IsRowOf arity index) lines
      (.row key (some symbol))) :
    Leaves lines arity index (Value.coerce (String.ofList symbol))

/-- Why a line cannot be followed, given the lines before it. -/
inductive Offends (before : List Line) : Line → TableError → Prop
  | notNumber {word : List Char} (other : ∀ count, ¬ Text.Decimal word count) :
    Offends before (.variableCount word) (.invalidVariableDirective (String.ofList word))
  | outOfBounds {word : List Char} {count : Nat} (decimal : Text.Decimal word count)
    (outside : ¬ (1 ≤ count ∧ count ≤ 10)) :
    Offends before (.variableCount word) (.invalidVariableCount count)
  | undeclared {key : List Char} {value? : Option (List Char)}
    (countless : ∀ line ∈ before, ¬ line.IsCount) :
    Offends before (.row key value?) .missingVariableDirective
  | noValue {key : List Char} {count : Nat} (declared : InForce before count) :
    Offends before (.row key none) (.missingValue (before.length + 1))
  | notKey {key symbol : List Char} {count : Nat} (declared : InForce before count)
    (other : ∀ index, ¬ Names count key index) :
    Offends before (.row key (some symbol)) (.invalidIndex (before.length + 1) (String.ofList key))
  | outside {key symbol : List Char} {count index : Nat} (declared : InForce before count)
    (names : Names count key index) (outside : 2 ^ count ≤ index) :
    Offends before (.row key (some symbol)) (.indexOutOfRange index (2 ^ count))

/-- Why the lines of a text make no table although each of them can be followed. -/
inductive Lacks (lines : List Line) : TableError → Prop
  | undeclared (countless : ∀ line ∈ lines, ¬ line.IsCount) : Lacks lines .missingVariableDirective
  | labels {names : List (List Char)} {count : Nat} {error : TableError}
    (last : Last Line.IsLabels lines (.labels names)) (declared : InForce lines count)
    (refused : Label.Refused count (names.map String.ofList) error) : Lacks lines error

/-- The lines of a text that make a table. -/
structure Accepted (lines : List Line) : Prop where
  declared : ∃ line ∈ lines, line.IsCount
  counts : ∀ word, .variableCount word ∈ lines →
    ∃ count, Text.Decimal word count ∧ 1 ≤ count ∧ count ≤ 10
  rows : ∀ front key value? back, lines = front ++ .row key value? :: back →
    ∃ count, InForce front count ∧ value?.isSome ∧ ∃ index < 2 ^ count, Names count key index
  labels : ∀ names, Last Line.IsLabels lines (.labels names) →
    ∃ count, InForce lines count ∧ Label.Fit count (names.map String.ofList)

/-- The table that the lines of a text make. -/
structure Represents (lines : List Line) (t : TruthTable) : Prop where
  arity : InForce lines t.arity
  labels : ∀ names, Last Line.IsLabels lines (.labels names) → t.labels = names.map String.ofList
  defaults : (∀ line ∈ lines, ¬ line.IsLabels) → t.labels = Label.defaults t.arity
  rows : ∀ index < 2 ^ t.arity, Leaves lines t.arity index (t.get index)

/-- Why the lines of a text make no table: the first line that cannot be followed, or else what is
missing in the end. -/
def Rejected (lines : List Line) (error : TableError) : Prop :=
  FirstFault Offends lines error ∨ Faultless Offends lines ∧ Lacks lines error

/-! ### Accepted and rejected texts -/

theorem decimal_unique {word : List Char} {one other : Nat} (first : Text.Decimal word one)
    (second : Text.Decimal word other) : one = other :=
  Option.some.inj (((Text.readNumber?_eq_some_iff word one).mpr first).symm.trans
    ((Text.readNumber?_eq_some_iff word other).mpr second))

theorem InForce.unique {lines : List Line} {one other : Nat} (first : InForce lines one)
    (second : InForce lines other) : one = other := by
  obtain ⟨word, last, decimal⟩ := first
  obtain ⟨word', last', decimal'⟩ := second
  cases last.unique last'
  exact decimal_unique decimal decimal'

theorem InForce.exists_isCount {lines : List Line} {count : Nat} (declared : InForce lines count) :
    ∃ line ∈ lines, line.IsCount := by
  obtain ⟨word, last, -⟩ := declared
  exact ⟨_, last.mem, last.holds⟩

theorem Accepted.faultless {lines : List Line} (accepted : Accepted lines) :
    Faultless Offends lines := by
  rintro front line back error rfl offends
  cases offends with
  | notNumber other =>
    obtain ⟨count, decimal, -⟩ := accepted.counts _ (List.mem_append_right front List.mem_cons_self)
    exact other count decimal
  | outOfBounds decimal outside =>
    obtain ⟨count, decimal', bounds⟩ :=
      accepted.counts _ (List.mem_append_right front List.mem_cons_self)
    exact outside (decimal_unique decimal decimal' ▸ bounds)
  | undeclared countless =>
    obtain ⟨count, declared, -⟩ := accepted.rows front _ _ back rfl
    obtain ⟨line, member, counts⟩ := declared.exists_isCount
    exact countless line member counts
  | noValue =>
    obtain ⟨count, -, valued, -⟩ := accepted.rows front _ _ back rfl
    cases valued
  | notKey declared other =>
    obtain ⟨count, declared', -, index, -, names⟩ := accepted.rows front _ _ back rfl
    exact other index (declared.unique declared' ▸ names)
  | outside declared names outside =>
    obtain ⟨count, declared', -, index, inside, names'⟩ := accepted.rows front _ _ back rfl
    cases declared.unique declared'
    cases names.unique names'
    exact Nat.not_lt.mpr outside inside

theorem exists_decimal_of_fine {before : List Line} {word : List Char}
    (fine : ∀ error, ¬ Offends before (.variableCount word) error) :
    ∃ count, Text.Decimal word count ∧ 1 ≤ count ∧ count ≤ 10 := by
  obtain ⟨count, decimal⟩ : ∃ count, Text.Decimal word count := by
    by_contra absent
    exact fine _ (.notNumber (not_exists.mp absent))
  refine ⟨count, decimal, ?_⟩
  by_contra outside
  exact fine _ (.outOfBounds decimal outside)

theorem exists_names_of_fine {before : List Line} {count : Nat} (declared : InForce before count)
    {key : List Char} {value? : Option (List Char)}
    (fine : ∀ error, ¬ Offends before (.row key value?) error) :
    ∃ symbol, value? = some symbol ∧ ∃ index < 2 ^ count, Names count key index := by
  cases value? with
  | none => exact absurd (.noValue declared) (fine _)
  | some symbol =>
    obtain ⟨index, names⟩ : ∃ index, Names count key index := by
      by_contra absent
      exact fine _ (.notKey declared (not_exists.mp absent))
    refine ⟨symbol, rfl, index, ?_, names⟩
    by_contra outside
    exact fine _ (.outside declared names (Nat.not_lt.mp outside))

section

variable {lines : List Line} (clean : Faultless Offends lines)

include clean

theorem exists_decimal_of_faultless {word : List Char} (member : .variableCount word ∈ lines) :
    ∃ count, Text.Decimal word count ∧ 1 ≤ count ∧ count ≤ 10 := by
  obtain ⟨front, back, whole⟩ := List.append_of_mem member
  exact exists_decimal_of_fine fun error => clean front _ back error whole

theorem exists_inForce_of_faultless (declared : ∃ line ∈ lines, line.IsCount) :
    ∃ count, InForce lines count := by
  obtain ⟨line, last⟩ := exists_last declared
  obtain ⟨word, rfl⟩ := last.holds
  obtain ⟨count, decimal, -⟩ := exists_decimal_of_faultless clean last.mem
  exact ⟨count, word, last, decimal⟩

theorem names_of_faultless {front back : List Line} {key : List Char} {value? : Option (List Char)}
    (whole : lines = front ++ .row key value? :: back) :
    ∃ count, InForce front count ∧ value?.isSome ∧ ∃ index < 2 ^ count, Names count key index := by
  have fine (error : TableError) := clean front (.row key value?) back error whole
  obtain ⟨count, declared⟩ : ∃ count, InForce front count := by
    apply exists_inForce_of_faultless (whole ▸ clean).front
    by_contra absent
    simp only [not_exists, not_and] at absent
    exact fine _ (.undeclared absent)
  obtain ⟨symbol, rfl, named⟩ := exists_names_of_fine declared fine
  exact ⟨count, declared, rfl, named⟩

/-- Lines that can all be followed make a table, unless something is missing in the end. -/
theorem accepted_or_lacks : Accepted lines ∨ ∃ error, Lacks lines error := by
  by_cases declared : ∃ line ∈ lines, line.IsCount
  -- With a number of variables, all that can be missing is labels that fit it.
  · obtain ⟨count, inForce⟩ := exists_inForce_of_faultless clean declared
    have accepted (fit : ∀ names, Last Line.IsLabels lines (.labels names) →
        Label.Fit count (names.map String.ofList)) : Accepted lines :=
      ⟨declared, fun _ member => exists_decimal_of_faultless clean member,
        fun _ _ _ _ whole => names_of_faultless clean whole,
        fun names last => ⟨count, inForce, fit names last⟩⟩
    by_cases labelled : ∃ line ∈ lines, line.IsLabels
    · obtain ⟨line, last⟩ := exists_last labelled
      obtain ⟨names, rfl⟩ := last.holds
      rcases Label.fit_or_refused count (names.map String.ofList) with fit | ⟨error, refused⟩
      · refine .inl (accepted fun others last' => ?_)
        cases last.unique last'
        exact fit
      · exact .inr ⟨error, .labels last inForce refused⟩
    · exact .inl (accepted fun names last => absurd ⟨_, last.mem, last.holds⟩ labelled)
  · simp only [not_exists, not_and] at declared
    exact .inr ⟨_, .undeclared declared⟩

end

end TwoLevel.TableText
