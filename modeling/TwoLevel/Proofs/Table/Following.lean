import TwoLevel.Proofs.Table.Format
import TwoLevel.Proofs.Table.Rows

/-!
# Following the lines of a text

What has been read always stands for the lines read so far: the table at hand has the last number of
variables, no labels of its own and the values that the lines leave, and the labels kept are the
last ones. One line keeps this or is refused with its offence; so a text is read up to its first
offence, or up to its end.
-/
namespace TwoLevel.TableText

/-! ### One more line -/

section

variable {lines : List Line} {line : Line} {arity index : Nat}

theorem InForce.append {count : Nat} (declared : InForce lines count) (other : ¬ line.IsCount) :
    InForce (lines ++ [line]) count := by
  obtain ⟨word, last, decimal⟩ := declared
  exact ⟨word, last.append other, decimal⟩

theorem inForce_count {word : List Char} {count : Nat} (decimal : Text.Decimal word count) :
    InForce (lines ++ [.variableCount word]) count :=
  ⟨word, last_end lines ⟨word, rfl⟩, decimal⟩

theorem Leaves.append {value : Value} (left : Leaves lines arity index value)
    (count : ¬ line.IsCount) (row : ¬ line.IsRowOf arity index) :
    Leaves (lines ++ [line]) arity index value := by
  have other : ¬ (line.IsCount ∨ line.IsRowOf arity index) := not_or.mpr ⟨count, row⟩
  cases left with
  | zero last => exact .zero (last.append other)
  | row last => exact .row (last.append other)

theorem leaves_count (word : List Char) :
    Leaves (lines ++ [.variableCount word]) arity index .zero :=
  .zero (last_end lines (.inl ⟨word, rfl⟩))

theorem leaves_row {key : List Char} (symbol : List Char) (names : Names arity key index) :
    Leaves (lines ++ [.row key (some symbol)]) arity index (Value.coerce (String.ofList symbol)) :=
  .row (last_end lines (.inr ⟨key, some symbol, rfl, names⟩))

theorem not_isRowOf_of_ne {key : List Char} {value? : Option (List Char)} {other : Nat}
    (names : Names arity key other) (differ : index ≠ other) :
    ¬ (Line.row key value?).IsRowOf arity index := by
  rintro ⟨_, _, ⟨⟩, named⟩
  exact differ (named.unique names)

end

/-! ### What has been read -/

/-- A table without labels of its own that stands for some lines. -/
structure Drafts (lines : List Line) (t : TruthTable) : Prop where
  arity : InForce lines t.arity
  labels : t.labels = Label.defaults t.arity
  rows : ∀ index < 2 ^ t.arity, Leaves lines t.arity index (t.get index)

/-- What has been read stands for some lines. -/
structure Reading.Follows (reading : Reading) (lines : List Line) : Prop where
  undeclared : reading.table? = none → ∀ line ∈ lines, ¬ line.IsCount
  drafts : ∀ t, reading.table? = some t → Drafts lines t
  unlabelled : reading.labels? = none → ∀ line ∈ lines, ¬ line.IsLabels
  labelled : ∀ labels, reading.labels? = some labels →
    ∃ names, Last Line.IsLabels lines (.labels names) ∧ labels = names.map String.ofList

theorem follows_start : (Reading.mk none none).Follows [] where
  undeclared := by simp
  drafts := by simp
  unlabelled := by simp
  labelled := by simp

variable {lines : List Line} {reading : Reading} (follows : reading.Follows lines)

include follows

/-- A line that is no row and names no variables leaves the table as it is. -/
theorem Reading.Follows.keepsTable {line : Line} (count : ¬ line.IsCount)
    (row : ∀ arity index, ¬ line.IsRowOf arity index) :
    (reading.table? = none → ∀ other ∈ lines ++ [line], ¬ other.IsCount)
      ∧ ∀ t, reading.table? = some t → Drafts (lines ++ [line]) t := by
  constructor
  · intro absent
    exact List.forall_mem_append.mpr ⟨follows.undeclared absent, by simpa using count⟩
  · intro t held
    have drafts := follows.drafts t held
    exact ⟨drafts.arity.append count, drafts.labels,
      fun index inside => (drafts.rows index inside).append count (row _ _)⟩

theorem Reading.Follows.keepsLabels {line : Line} (other : ¬ line.IsLabels) :
    (reading.labels? = none → ∀ other ∈ lines ++ [line], ¬ other.IsLabels)
      ∧ ∀ labels, reading.labels? = some labels →
        ∃ names, Last Line.IsLabels (lines ++ [line]) (.labels names)
          ∧ labels = names.map String.ofList := by
  constructor
  · intro absent
    exact List.forall_mem_append.mpr ⟨follows.unlabelled absent, by simpa using other⟩
  · intro labels held
    obtain ⟨names, last, rfl⟩ := follows.labelled labels held
    exact ⟨names, last.append other, rfl⟩

theorem Reading.Follows.idle {line : Line} (count : ¬ line.IsCount) (labels : ¬ line.IsLabels)
    (row : ∀ arity index, ¬ line.IsRowOf arity index) : reading.Follows (lines ++ [line]) where
  undeclared := (follows.keepsTable count row).1
  drafts := (follows.keepsTable count row).2
  unlabelled := (follows.keepsLabels labels).1
  labelled := (follows.keepsLabels labels).2

theorem Reading.Follows.step_labels (number : Nat) (names : List (List Char)) :
    ∃ next, reading.follow number (.labels names) = .ok next
      ∧ next.Follows (lines ++ [.labels names]) := by
  have count : ¬ (Line.labels names).IsCount := by rintro ⟨_, ⟨⟩⟩
  have row : ∀ arity index, ¬ (Line.labels names).IsRowOf arity index := by rintro _ _ ⟨_, _, ⟨⟩, _⟩
  refine ⟨_, rfl, (follows.keepsTable count row).1, (follows.keepsTable count row).2, nofun, ?_⟩
  rintro labels ⟨⟩
  exact ⟨names, last_end lines ⟨names, rfl⟩, rfl⟩

theorem Reading.Follows.step_count (number : Nat) {word : List Char} {count : Nat}
    (decimal : Text.Decimal word count) (bounds : 1 ≤ count ∧ count ≤ maxVariables) :
    ∃ next, reading.follow number (.variableCount word) = .ok next
      ∧ next.Follows (lines ++ [.variableCount word]) := by
  have read := (Text.readNumber?_eq_some_iff word count).mpr decimal
  obtain ⟨t, made, rfl, labels, zero⟩ := TruthTable.zeros?_eq_ok bounds
  have other : ¬ (Line.variableCount word).IsLabels := by rintro ⟨_, ⟨⟩⟩
  have kept := follows.keepsLabels other
  refine ⟨{ reading with table? := some t }, by simp [Reading.follow, read, made, Except.map],
    nofun, ?_, kept.1, kept.2⟩
  -- The new table holds zeros, which is what a number of variables leaves.
  rintro _ ⟨⟩
  exact ⟨inForce_count decimal, labels, fun index _ => zero index ▸ leaves_count word⟩

theorem Reading.Follows.step_row {t : TruthTable} (held : reading.table? = some t)
    (number : Nat) {key : List Char} (symbol : List Char) {index : Nat}
    (names : Names t.arity key index) (inside : index < 2 ^ t.arity) :
    ∃ next, reading.follow number (.row key (some symbol)) = .ok next
      ∧ next.Follows (lines ++ [.row key (some symbol)]) := by
  have found := (indexOfKey?_eq_some_iff t.arity key index).mpr names
  obtain ⟨changed, set, arity, labels, rows⟩ :=
    t.set_eq_ok inside (Value.coerce (String.ofList symbol))
  have drafts := follows.drafts t held
  have count : ¬ (Line.row key (some symbol)).IsCount := by rintro ⟨_, ⟨⟩⟩
  have unlabelled : ¬ (Line.row key (some symbol)).IsLabels := by rintro ⟨_, ⟨⟩⟩
  have kept := follows.keepsLabels unlabelled
  refine ⟨{ reading with table? := some changed },
    by simp [Reading.follow, held, setRow, found, set, Except.map], nofun, ?_, kept.1, kept.2⟩
  rintro _ ⟨⟩
  refine ⟨arity ▸ drafts.arity.append count, by rw [labels, arity, drafts.labels],
    fun other bounded => ?_⟩
  rw [arity] at bounded ⊢
  rw [rows]
  -- The row settles its own index, and at every other one the value stays.
  split
  next same => exact same ▸ leaves_row symbol names
  next differ => exact (drafts.rows other bounded).append count (not_isRowOf_of_ne names differ)

theorem Reading.Follows.step {line : Line} (clean : ∀ error, ¬ Offends lines line error) :
    ∃ next, reading.follow (lines.length + 1) line = .ok next ∧ next.Follows (lines ++ [line]) := by
  cases line with
  | nothing =>
    exact ⟨reading, rfl, follows.idle (by rintro ⟨_, ⟨⟩⟩) (by rintro ⟨_, ⟨⟩⟩)
      (by rintro _ _ ⟨_, _, ⟨⟩, _⟩)⟩
  | finish =>
    exact ⟨reading, rfl, follows.idle (by rintro ⟨_, ⟨⟩⟩) (by rintro ⟨_, ⟨⟩⟩)
      (by rintro _ _ ⟨_, _, ⟨⟩, _⟩)⟩
  | labels names => exact follows.step_labels _ names
  | variableCount word =>
    obtain ⟨count, decimal, bounds⟩ := exists_decimal_of_fine clean
    exact follows.step_count _ decimal bounds
  | row key value? =>
    cases held : reading.table? with
    | none => exact absurd (Offends.undeclared (follows.undeclared held)) (clean _)
    | some t =>
      obtain ⟨symbol, rfl, index, inside, names⟩ :=
        exists_names_of_fine (follows.drafts t held).arity clean
      exact follows.step_row held _ symbol names inside

theorem Reading.Follows.exists_table {count : Nat} (declared : InForce lines count) :
    ∃ t, reading.table? = some t ∧ Drafts lines t ∧ t.arity = count := by
  cases held : reading.table? with
  | none =>
    obtain ⟨line, member, counts⟩ := declared.exists_isCount
    exact absurd counts (follows.undeclared held line member)
  | some t =>
    have drafts := follows.drafts t held
    exact ⟨t, rfl, drafts, drafts.arity.unique declared⟩

theorem Reading.Follows.follow_eq_error {line : Line} {error : TableError}
    (offends : Offends lines line error) :
    reading.follow (lines.length + 1) line = .error error := by
  cases offends with
  | @notNumber word other =>
    have unread : Text.readNumber? word = none := by
      rw [Option.eq_none_iff_forall_ne_some]
      exact fun count read => other count ((Text.readNumber?_eq_some_iff word count).mp read)
    simp [Reading.follow, unread]
  | @outOfBounds word count decimal outside =>
    have read := (Text.readNumber?_eq_some_iff word count).mpr decimal
    simp [Reading.follow, read, TruthTable.zeros?_eq_error outside, Except.map]
  | undeclared countless =>
    -- A table is only at hand behind a number of variables.
    have absent : reading.table? = none := by
      rw [Option.eq_none_iff_forall_ne_some]
      intro t held
      obtain ⟨line, member, counts⟩ := (follows.drafts t held).arity.exists_isCount
      exact countless line member counts
    simp [Reading.follow, absent]
  | noValue declared =>
    obtain ⟨t, held, -⟩ := follows.exists_table declared
    simp [Reading.follow, held, setRow, Except.map]
  | @notKey key symbol count declared other =>
    obtain ⟨t, held, -, rfl⟩ := follows.exists_table declared
    have unnamed : indexOfKey? t.arity key = none := by
      rw [Option.eq_none_iff_forall_ne_some]
      exact fun index found => other index ((indexOfKey?_eq_some_iff _ _ index).mp found)
    simp [Reading.follow, held, setRow, unnamed, Except.map]
  | outside declared names outside =>
    obtain ⟨t, held, -, rfl⟩ := follows.exists_table declared
    have found := (indexOfKey?_eq_some_iff _ _ _).mpr names
    simp only [Reading.follow, held, setRow, found, t.set_eq_error outside, Except.map]
    rfl

end TwoLevel.TableText
