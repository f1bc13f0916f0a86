import TwoLevel.Proofs.Table.Reading

/-!
# What is written is read back

Each line that is written consists of words with a blank between them, so it is cut into these words
again and means what it was written for. The keys of the rows are bit patterns, each of another
index, so each row is the last one that names its index. The format accepts these lines, and the
table that they represent is the one that was written.
-/
namespace TwoLevel.TableText

open TwoLevel.Text

variable (t : TruthTable)

/-! ### The lines of a written table -/

def keyOf (index : Nat) : List Char := (t.bitPattern index).toList

/-- The words of the row of an index. -/
def rowLine (index : Nat) : List Char := spaced (keyOf t index) [[(t.get index).symbol]]

def writtenLines : List (List Char) :=
  spaced ".i".toList [(toString t.arity).toList]
    :: spaced ".ilb".toList (t.labels.map String.toList)
    :: (List.range t.size).map (rowLine t) ++ [".e".toList]

theorem toList_write : (write t).toList = terminated (writtenLines t) := by
  simp [write, labelText, writtenLines, terminated, spaced, rowLine, keyOf, rowText,
    List.flatMap_map]

def rowOf (index : Nat) : Line := .row (keyOf t index) (some [(t.get index).symbol])

/-- What the lines of a written table mean, before the one that ends it. -/
def writtenBody : List Line :=
  .variableCount (toString t.arity).toList :: .labels (t.labels.map String.toList)
    :: (List.range t.size).map (rowOf t)

/-! ### Each line means what it was written for -/

theorem solid_symbol (value : Value) : Solid [value.symbol] := by
  cases value <;> decide

theorem coerce_symbol (value : Value) : Value.coerce (String.ofList [value.symbol]) = value := by
  cases value <;> cbv

section

variable {t} {index : Nat} (inside : index < t.size)

include inside

theorem keyOf_pattern :
    (keyOf t index).length = t.arity ∧ ∀ c ∈ keyOf t index, c = '0' ∨ c = '1' := by
  rw [TruthTable.size, t.size_values] at inside
  have digits := all_binary t.one_le_arity inside
  exact ⟨length_binary t.one_le_arity inside, by simpa [keyOf, TruthTable.bitPattern] using digits⟩

theorem names_keyOf : Names t.arity (keyOf t index) index := by
  have names := Names.pattern (keyOf_pattern inside)
  rwa [keyOf, TruthTable.bitPattern, ofDigitChars_binary] at names

theorem solid_keyOf : Solid (keyOf t index) ∧ keyOf t index ≠ [] := by
  obtain ⟨length, bits⟩ := keyOf_pattern inside
  constructor
  · intro c member
    rcases bits c member with rfl | rfl <;> decide
  · intro empty
    rw [empty, List.length_nil] at length
    exact absurd t.one_le_arity (by omega)

theorem solid_rowWords : (∀ word ∈ [keyOf t index, [(t.get index).symbol]], Solid word)
    ∧ ∀ word ∈ [keyOf t index, [(t.get index).symbol]], word ≠ [] := by
  obtain ⟨solid, nonempty⟩ := solid_keyOf inside
  simp [solid, nonempty, solid_symbol]

theorem means_rowLine : Means (rowLine t index) (rowOf t index) := by
  obtain ⟨solid, nonempty⟩ := solid_rowWords inside
  have left := trimmed_spaced solid nonempty
  have cut := fields_spaced solid nonempty
  have bits := (keyOf_pattern inside).2
  rw [rowLine, rowOf]
  cases spelled : keyOf t index with
  | nil => exact absurd spelled (solid_keyOf inside).2
  | cons first rest =>
    rw [spelled] at left cut bits
    refine .row left ?_ cut
    rcases bits first List.mem_cons_self with rfl | rfl <;> decide

end

theorem solid_labels : (∀ word ∈ t.labels.map String.toList, Solid word)
    ∧ ∀ word ∈ t.labels.map String.toList, word ≠ [] := by
  simp only [List.forall_mem_map, ← forall₂_and]
  exact fun label member => solid_of_isIdentifier (t.labels_fit.identifier label member)

theorem directive_cut (name : List Char) (words : List (List Char)) (solid : Solid name)
    (nonempty : name ≠ []) (solids : ∀ word ∈ words, Solid word)
    (nonempties : ∀ word ∈ words, word ≠ []) :
    trimmed (spaced ('.' :: name) words) = '.' :: spaced name words
      ∧ fields (spaced name words) = name :: words := by
  have dotted : Solid ('.' :: name) := List.forall_mem_cons.mpr ⟨by decide, solid⟩
  exact ⟨trimmed_spaced (List.forall_mem_cons.mpr ⟨dotted, solids⟩)
      (List.forall_mem_cons.mpr ⟨List.cons_ne_nil _ _, nonempties⟩),
    fields_spaced (List.forall_mem_cons.mpr ⟨solid, solids⟩)
      (List.forall_mem_cons.mpr ⟨nonempty, nonempties⟩)⟩

theorem means_countLine : Means (spaced ".i".toList [(toString t.arity).toList])
    (.variableCount (toString t.arity).toList) := by
  obtain ⟨solid, nonempty⟩ := solid_toString t.arity
  obtain ⟨left, cut⟩ := directive_cut ['i'] [(toString t.arity).toList] (by decide)
    (by decide) (by simpa using solid) (List.forall_mem_singleton.mpr nonempty)
  exact .variableCount left cut

theorem means_labelLine : Means (spaced ".ilb".toList (t.labels.map String.toList))
    (.labels (t.labels.map String.toList)) := by
  obtain ⟨solid, nonempty⟩ := solid_labels t
  obtain ⟨left, cut⟩ := directive_cut ['i', 'l', 'b'] _ (by decide) (by decide) solid nonempty
  exact .labels left cut

theorem means_finishLine : Means ".e".toList .finish := by
  obtain ⟨left, cut⟩ := directive_cut ['e'] [] (by decide) (by decide) (by simp) (by simp)
  exact .finish left cut (.inl rfl)

/-! ### The lines together -/

theorem body_writtenLines :
    body ((writtenLines t ++ [[]]).map Line.ofChars) = writtenBody t := by
  have rows :
      (List.range t.size).map (Line.ofChars ∘ rowLine t) = (List.range t.size).map (rowOf t) := by
    apply List.map_congr_left
    intro index member
    rw [Function.comp_apply, (means_rowLine (List.mem_range.mp member)).ofChars]
  -- No line before the last one ends the text.
  have goesOn : ∀ line ∈ writtenBody t, decide (line ≠ .finish) = true := by
    simp [writtenBody, rowOf]
  have lines :
      (writtenLines t ++ [[]]).map Line.ofChars = writtenBody t ++ [.finish, .nothing] := by
    simp only [writtenLines, List.map_append, List.map_cons, List.map_map,
      (means_countLine t).ofChars, (means_labelLine t).ofChars, rows, List.map_nil,
      means_finishLine.ofChars, writtenBody]
    simp [Line.ofChars, trimmed]
  rw [body, lines, List.takeWhile_append_of_pos goesOn]
  simp

theorem mem_writtenBody_count {word : List Char} (member : .variableCount word ∈ writtenBody t) :
    word = (toString t.arity).toList := by
  simpa [writtenBody, rowOf] using member

theorem mem_writtenBody_labels {names : List (List Char)} (member : .labels names ∈ writtenBody t) :
    names = t.labels.map String.toList := by
  simpa [writtenBody, rowOf] using member

theorem mem_writtenBody_row {key : List Char} {value? : Option (List Char)}
    (member : .row key value? ∈ writtenBody t) :
    ∃ index < t.size, keyOf t index = key ∧ some [(t.get index).symbol] = value? := by
  simpa [writtenBody, rowOf] using member

theorem decimal_arity : Decimal (toString t.arity).toList t.arity :=
  decimal_toString (Nat.lt_of_le_of_lt t.arity_le (by decide))

theorem inForce_writtenBody {front : List Line} (initial : front <+: writtenBody t)
    (nonempty : front ≠ []) : InForce front t.arity := by
  obtain ⟨back, whole⟩ := initial
  cases front with
  | nil => exact absurd rfl nonempty
  | cons first front =>
    obtain ⟨rfl, rest⟩ := List.cons.inj whole
    refine ⟨_, ⟨[], front, rfl, ⟨_, rfl⟩, fun later member => ?_⟩, decimal_arity t⟩
    -- The lines behind the first one are the labels and the rows.
    have listed := List.mem_append_left back member
    rw [← List.append_eq, rest] at listed
    rintro ⟨word, rfl⟩
    simp [rowOf] at listed

theorem fit_labels : Label.Fit t.arity ((t.labels.map String.toList).map String.ofList) := by
  simpa [Function.comp_def] using t.labels_fit

theorem accepted_writtenBody : Accepted (writtenBody t) where
  declared := ⟨_, List.mem_cons_self, _, rfl⟩
  counts := by
    intro word member
    rw [mem_writtenBody_count t member]
    exact ⟨t.arity, decimal_arity t, t.one_le_arity, t.arity_le⟩
  rows := by
    intro front key value? back whole
    have member : .row key value? ∈ writtenBody t :=
      whole ▸ List.mem_append_right front List.mem_cons_self
    obtain ⟨index, inside, rfl, rfl⟩ := mem_writtenBody_row t member
    have behind : front ≠ [] := by
      rintro rfl
      simp [writtenBody] at whole
    refine ⟨t.arity, inForce_writtenBody t ⟨_, whole.symm⟩ behind, rfl, index, ?_,
      names_keyOf inside⟩
    rwa [TruthTable.size, t.size_values] at inside
  labels := by
    intro names last
    rw [mem_writtenBody_labels t last.mem]
    exact ⟨t.arity, inForce_writtenBody t (List.prefix_refl _) (List.cons_ne_nil _ _), fit_labels t⟩

theorem last_rowOf {index : Nat} (inside : index < t.size) :
    Last (fun line => line.IsCount ∨ line.IsRowOf t.arity index) (writtenBody t)
      (rowOf t index) := by
  obtain ⟨front, back, split⟩ := List.append_of_mem (List.mem_range.mpr inside)
  have distinct := split ▸ List.nodup_range (n := t.size)
  have whole : writtenBody t
      = (.variableCount (toString t.arity).toList :: .labels (t.labels.map String.toList)
            :: front.map (rowOf t))
          ++ rowOf t index :: back.map (rowOf t) := by
    rw [writtenBody, split, List.map_append, List.map_cons]
    rfl
  refine ⟨_, _, whole, .inr ⟨_, _, rfl, names_keyOf inside⟩, fun later member => ?_⟩
  obtain ⟨other, listed, rfl⟩ := List.mem_map.mp member
  have bounded : other < t.size := List.mem_range.mp (split ▸ by simp [listed])
  rintro (⟨word, ⟨⟩⟩ | ⟨key, value?, same, names⟩)
  cases same
  -- The keys of two rows name different indices.
  obtain rfl : other = index := (names_keyOf bounded).unique names
  exact (List.nodup_cons.mp (List.nodup_append.mp distinct).2.1).1 listed

theorem last_labels :
    Last Line.IsLabels (writtenBody t) (.labels (t.labels.map String.toList)) := by
  refine ⟨[_], _, rfl, ⟨_, rfl⟩, fun later member => ?_⟩
  rintro ⟨names, rfl⟩
  simp [rowOf] at member

theorem eq_of_represents {u : TruthTable} (represents : Represents (writtenBody t) u) : u = t := by
  have arity : u.arity = t.arity :=
    represents.arity.unique (inForce_writtenBody t (List.prefix_refl _) (List.cons_ne_nil _ _))
  have labels : u.labels = t.labels := by
    simpa [Function.comp_def] using represents.labels _ (last_labels t)
  refine TruthTable.ext_get arity labels fun index inside => ?_
  have leaves := represents.rows index inside
  rw [arity] at leaves inside
  -- The last line that settles an index is its row, which holds the symbol of its value.
  have last := last_rowOf t (by rwa [TruthTable.size, t.size_values])
  generalize u.get index = value at leaves
  cases leaves with
  | zero last' => cases last'.unique last
  | row last' =>
    cases last'.unique last
    exact coerce_symbol (t.get index)

theorem newline_not_mem_writtenLines : ∀ line ∈ writtenLines t, '\n' ∉ line := by
  intro line member
  simp only [writtenLines, List.mem_append, List.mem_cons, List.mem_map, List.mem_range,
    List.not_mem_nil, or_false] at member
  rcases member with (rfl | rfl | ⟨index, inside, rfl⟩) | rfl
  · exact newline_not_mem_spaced (List.forall_mem_cons.mpr
      ⟨by decide, List.forall_mem_singleton.mpr (solid_toString t.arity).1⟩)
  · exact newline_not_mem_spaced (List.forall_mem_cons.mpr ⟨by decide, (solid_labels t).1⟩)
  · exact newline_not_mem_spaced (solid_rowWords inside).1
  · decide

theorem read_write : read (write t) = .ok t := by
  obtain ⟨u, made, represents⟩ := readLines_of_accepted (writtenLines t ++ [[]])
    ((body_writtenLines t).symm ▸ accepted_writtenBody t)
  rw [body_writtenLines] at represents
  rw [read, linesOfText_eq, toList_write, splitOn_terminated (newline_not_mem_writtenLines t), made,
    eq_of_represents t represents]

/-- A table is read back from the text that is written for it. So a text that is read as a table can
be replaced by the one that is written for this table, which is read and written the same for
ever. -/
theorem write_reads_back :
    (∀ t : TruthTable, read (write t) = .ok t)
      ∧ ∀ text t, read text = .ok t →
        ∃ again, read (write t) = .ok again ∧ again = t ∧ write again = write t :=
  ⟨read_write, fun _ t _ => ⟨t, read_write t, rfl, rfl⟩⟩

end TwoLevel.TableText
