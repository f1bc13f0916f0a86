import TwoLevel.Proofs.Table.Reading

/-!
# Which rows of a text are kept

A number of variables starts a new table, also behind rows. So the last row that names an index
settles it only if no number of variables stands behind that row; otherwise the index holds 0,
whatever the row says. A text whose numbers of variables all stand before its rows loses none of
them.
-/
namespace TwoLevel

theorem TruthTable.get_of_le (t : TruthTable) {index : Nat} (outside : Word.count t.arity ≤ index) :
    t.get index = .zero := by
  have absent : ¬ index < t.values.size := by rw [t.size_values]; exact Nat.not_lt.mpr outside
  simp [get, absent]

namespace TableText

/-- A row that names an index, in the number of variables that is in force behind the lines before
it. -/
def Gives (index : Nat) (before : List Line) (line : Line) : Prop :=
  ∃ count, InForce before count ∧ line.IsRowOf count index

/-- The symbol on the last row that names an index, and the lines behind this row. -/
def LastRow (lines : List Line) (index : Nat) (symbol : List Char) (behind : List Line) : Prop :=
  ∃ key, LastAt (Gives index) lines (.row key (some symbol)) behind

/-- No row is lost: an index has the value of the last row that names it. -/
def KeepsRows (lines : List Line) (t : TruthTable) : Prop :=
  ∀ index symbol behind, LastRow lines index symbol behind →
    t.get index = Value.coerce (String.ofList symbol)

theorem inForce_append_iff {front back : List Line} {count : Nat}
    (countless : ∀ line ∈ back, ¬ line.IsCount) :
    InForce (front ++ back) count ↔ InForce front count := by
  simp only [InForce, last_append_of_forall_not countless]

theorem not_isCount_row (key : List Char) (value? : Option (List Char)) :
    ¬ (Line.row key value?).IsCount := by
  rintro ⟨_, ⟨⟩⟩

section

variable {lines : List Line} {arity index : Nat} {value : Value}
  (left : Leaves lines arity index value)

include left

theorem Leaves.eq_zero {word : List Char}
    (last : Last (fun line => line.IsCount ∨ line.IsRowOf arity index) lines
      (.variableCount word)) : value = .zero := by
  cases left with
  | zero => rfl
  | row last' => cases last.unique last'

theorem Leaves.eq_coerce {key symbol : List Char}
    (last : Last (fun line => line.IsCount ∨ line.IsRowOf arity index) lines
      (.row key (some symbol))) : value = Value.coerce (String.ofList symbol) := by
  cases left with
  | zero last' => cases last.unique last'
  | row last' =>
    cases last.unique last'
    rfl

end

/-- Where no number of variables and no row that gives a value to an index stands any more, nothing
settles the index. -/
theorem settled_behind {front behind : List Line} {found : Line} {arity index : Nat}
    (declared : InForce (front ++ found :: behind) arity)
    (countless : ∀ line ∈ behind, ¬ line.IsCount)
    (later : ∀ between line rest, behind = between ++ line :: rest →
      ¬ Gives index (front ++ found :: between) line) :
    ∀ line ∈ behind, ¬ (line.IsCount ∨ line.IsRowOf arity index) := by
  intro line member
  refine not_or.mpr ⟨countless line member, fun names => ?_⟩
  obtain ⟨between, rest, rfl⟩ := List.append_of_mem member
  have whole : InForce ((front ++ found :: between) ++ (line :: rest)) arity := by
    simpa using declared
  rw [inForce_append_iff (List.forall_mem_append.mp countless).2] at whole
  exact later between line rest rfl ⟨arity, whole, names⟩

section

variable {lines : List Line} {t : TruthTable} (represents : Represents lines t) {index : Nat}
  {symbol : List Char} {behind : List Line} (last : LastRow lines index symbol behind)

include represents last

/-- A row stays if no number of variables stands behind it. -/
theorem Represents.get_of_countless (accepted : Accepted lines)
    (countless : ∀ line ∈ behind, ¬ line.IsCount) :
    t.get index = Value.coerce (String.ofList symbol) := by
  obtain ⟨key, front, rfl, ⟨count, declared, names⟩, later⟩ := last
  have whole := represents.arity
  rw [inForce_append_iff (List.forall_mem_cons.mpr ⟨not_isCount_row key _, countless⟩)] at whole
  cases declared.unique whole
  have inside : index < 2 ^ t.arity := by
    obtain ⟨count, declared', -, other, inside, names'⟩ := accepted.rows front key _ behind rfl
    cases declared.unique declared'
    obtain ⟨_, _, ⟨⟩, named⟩ := names
    exact named.unique names' ▸ inside
  apply (represents.rows index inside).eq_coerce
  exact ⟨front, behind, rfl, .inr names, settled_behind represents.arity countless later⟩

/-- A number of variables behind a row takes its value away. -/
theorem Represents.get_of_isCount (restarts : ∃ line ∈ behind, line.IsCount) :
    t.get index = .zero := by
  obtain ⟨key, front, rfl, -, later⟩ := last
  by_cases inside : index < 2 ^ t.arity
  · obtain ⟨line, lastCount⟩ := exists_last restarts
    obtain ⟨word, rfl⟩ := lastCount.holds
    obtain ⟨between, rest, rfl, counts, countless⟩ := lastCount
    -- Behind this number of variables no row names the index, for such a row would be a later one.
    have split : front ++ .row key (some symbol) :: (between ++ .variableCount word :: rest)
        = (front ++ .row key (some symbol) :: between) ++ .variableCount word :: rest := by simp
    have declared := represents.arity
    rw [split] at declared
    apply (represents.rows index inside).eq_zero
    refine ⟨_, rest, split, .inl counts,
      settled_behind declared countless fun middle line back whole => ?_⟩
    simpa using later (between ++ .variableCount word :: middle) line back (by simp [whole])
  · exact t.get_of_le (Nat.not_lt.mp inside)

end

theorem Accepted.exists_lastRow {lines : List Line} (accepted : Accepted lines) {index : Nat}
    (named : ∃ front line back, lines = front ++ line :: back ∧ Gives index front line) :
    ∃ symbol behind, LastRow lines index symbol behind := by
  obtain ⟨line, behind, front, whole, gives, later⟩ := exists_lastAt named
  have ⟨_, _, key, value?, same, _⟩ := gives
  subst same
  obtain ⟨_, -, valued, -⟩ := accepted.rows front key value? behind whole
  obtain ⟨symbol, rfl⟩ := Option.isSome_iff_exists.mp valued
  exact ⟨symbol, behind, key, front, whole, gives, later⟩

theorem forall₂_means (raw : List (List Char)) : List.Forall₂ Means raw (raw.map Line.ofChars) := by
  rw [List.forall₂_map_right_iff, List.forall₂_same]
  exact fun chars _ => means_ofChars chars

/-- The lines of a text that is read are accepted, and the table represents them. -/
theorem accepted_of_read {text : String} {t : TruthTable} (made : read text = .ok t) :
    ∃ meant, List.Forall₂ Means (text.toList.splitOn '\n') meant ∧ Accepted (body meant)
      ∧ Represents (body meant) t := by
  let raw := text.toList.splitOn '\n'
  have readsLines : read text = readLines (raw.map some) := by rw [read, linesOfText_eq]
  rw [readsLines] at made
  refine ⟨raw.map Line.ofChars, forall₂_means raw, ?_⟩
  rcases accepted_or_rejected (body (raw.map Line.ofChars)) with accepted | ⟨reason, rejected⟩
  · obtain ⟨u, made', represents⟩ := readLines_of_accepted raw accepted
    cases made.symm.trans made'
    exact ⟨accepted, represents⟩
  · cases made.symm.trans (readLines_of_rejected raw rejected)

/-- What a table has of the rows among the lines that it was read from. -/
structure Retains (lines : List Line) (t : TruthTable) : Prop where
  /-- Every index that a row names has a last such row. -/
  exists_last : ∀ index,
    (∃ front line back, lines = front ++ line :: back ∧ Gives index front line) →
      ∃ symbol behind, LastRow lines index symbol behind
  /-- The index holds the value of this row if no number of variables stands behind it. -/
  kept : ∀ index symbol behind, LastRow lines index symbol behind →
    (∀ line ∈ behind, ¬ line.IsCount) → t.get index = Value.coerce (String.ofList symbol)
  /-- Otherwise it holds 0. -/
  lost : ∀ index symbol behind, LastRow lines index symbol behind →
    (∃ line ∈ behind, line.IsCount) → t.get index = .zero
  /-- So no row is lost exactly if each of these rows that has a number of variables behind it gives
  0. -/
  keepsRows_iff : KeepsRows lines t ↔ ∀ index symbol behind, LastRow lines index symbol behind →
    (∃ line ∈ behind, line.IsCount) → Value.coerce (String.ofList symbol) = .zero

/-- A text that is read retains its rows up to the last number of variables behind them. -/
theorem read_keepsRows_iff (text : String) (t : TruthTable) (made : read text = .ok t) :
    ∃ meant, List.Forall₂ Means (text.toList.splitOn '\n') meant ∧ Retains (body meant) t := by
  obtain ⟨meant, means, accepted, represents⟩ := accepted_of_read made
  have kept {index symbol behind} (last : LastRow (body meant) index symbol behind) :=
    represents.get_of_countless last accepted
  have lost {index symbol behind} (last : LastRow (body meant) index symbol behind) :=
    represents.get_of_isCount last
  refine ⟨meant, means, fun index => accepted.exists_lastRow, fun _ _ _ => kept, fun _ _ _ => lost,
    fun keeps index symbol behind last restarts => ?_, fun zero index symbol behind last => ?_⟩
  · rw [← keeps index symbol behind last, lost last restarts]
  · by_cases restarts : ∃ line ∈ behind, line.IsCount
    · rw [lost last restarts, zero index symbol behind last restarts]
    · exact kept last fun line member counts => restarts ⟨line, member, counts⟩

/-- Row 0 stands before the second number of variables and is lost, row 3 stands behind it and is
kept. -/
theorem read_keepsRows_iff_of_two_counts :
    ∃ t, read ".i 1\n0 1\n.i 2\n11 x" = .ok t
      ∧ ∃ meant, List.Forall₂ Means (".i 1\n0 1\n.i 2\n11 x".toList.splitOn '\n') meant
        ∧ Retains (body meant) t := by
  obtain ⟨t, made⟩ : ∃ t, read ".i 1\n0 1\n.i 2\n11 x" = .ok t := ⟨_, rfl⟩
  exact ⟨t, made, read_keepsRows_iff _ t made⟩

/-- A text that is read although a number of variables stands behind a row. The row gives 1 to index
1 and is the last one to name it, and the index holds 0. -/
theorem read_loses_row :
    ∃ t, read ".i 2\n1 1\n.i 2" = .ok t
      ∧ ∃ meant, List.Forall₂ Means (".i 2\n1 1\n.i 2".toList.splitOn '\n') meant
        ∧ LastRow (body meant) 1 ['1'] [.variableCount ['2']]
        ∧ Value.coerce (String.ofList ['1']) = .one ∧ t.get 1 = .zero
        ∧ ¬ KeepsRows (body meant) t := by
  obtain ⟨t, made, zero⟩ : ∃ t, read ".i 2\n1 1\n.i 2" = .ok t ∧ t.get 1 = .zero :=
    ⟨_, rfl, by decide⟩
  have lines : body ((".i 2\n1 1\n.i 2".toList.splitOn '\n').map Line.ofChars)
      = [.variableCount ['2'], .row ['1'] (some ['1']), .variableCount ['2']] := by decide
  have names : Gives 1 [.variableCount ['2']] (.row ['1'] (some ['1'])) := by
    have two : Text.Decimal ['2'] 2 := (Text.readNumber?_eq_some_iff ['2'] 2).mp rfl
    have declared : InForce [.variableCount ['2']] 2 := ⟨['2'], last_end [] ⟨['2'], rfl⟩, two⟩
    exact ⟨2, declared, ['1'], some ['1'], rfl, (indexOfKey?_eq_some_iff 2 ['1'] 1).mp rfl⟩
  have last : LastRow [.variableCount ['2'], .row ['1'] (some ['1']), .variableCount ['2']] 1 ['1']
      [.variableCount ['2']] := by
    refine ⟨['1'], [.variableCount ['2']], rfl, names, fun between line rest whole => ?_⟩
    cases between with
    | nil =>
      cases whole
      rintro ⟨_, _, _, _, ⟨⟩, _⟩
    | cons => simp at whole
  rw [← lines] at last
  refine ⟨t, made, _, forall₂_means _, last, by decide, zero, fun keeps => ?_⟩
  have kept := keeps 1 ['1'] _ last
  rw [zero] at kept
  exact absurd kept (by decide)

end TableText

end TwoLevel
