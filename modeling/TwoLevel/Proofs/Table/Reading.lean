import Mathlib.Data.List.Forall2
import Mathlib.Data.List.TakeWhile
import TwoLevel.Proofs.Table.Following

/-!
# Reading accepts the format

The lines of a text before the one that ends it are followed one after the other, up to the first
that has an offence. If there is none, the table at hand takes the last labels. So reading succeeds
on the texts that the format accepts, with the table that they represent, and fails on all others
with the reason for which the format rejects them.
-/
namespace TwoLevel.TableText

/-- The lines of a text before the one that ends it. -/
def body (lines : List Line) : List Line := lines.takeWhile (· ≠ .finish)

/-! ### From the first line to the last -/

theorem Reading.followAll_cons (reading : Reading) (number : Nat) {chars : List Char}
    (goesOn : Line.ofChars chars ≠ .finish) (rest : List (Option (List Char))) :
    reading.followAll number (some chars :: rest)
      = match reading.follow number (Line.ofChars chars) with
        | .error error => .error (.table error)
        | .ok next => next.followAll (number + 1) rest := by
  rw [followAll]
  split
  next ends => exact absurd ends goesOn
  next => rfl

theorem Reading.Follows.followAll {lines : List Line} {reading : Reading}
    (follows : reading.Follows lines) {front : List (List Char)}
    (goesOn : ∀ chars ∈ front, Line.ofChars chars ≠ .finish)
    (clean : Faultless Offends (lines ++ front.map Line.ofChars))
    (rest : List (Option (List Char))) :
    ∃ next : Reading, next.Follows (lines ++ front.map Line.ofChars)
      ∧ reading.followAll (lines.length + 1) (front.map some ++ rest)
        = next.followAll ((lines ++ front.map Line.ofChars).length + 1) rest := by
  -- The lines that have been read grow by the one in front, and what has been read follows them.
  induction front generalizing lines reading with
  | nil => exact ⟨reading, by simpa using follows, by simp⟩
  | cons chars front ih =>
    obtain ⟨here, later⟩ := List.forall_mem_cons.mp goesOn
    rw [List.map_cons, List.append_cons] at clean ⊢
    have fine := ((faultless_append_singleton _ _).mp clean.front).2
    obtain ⟨next, followed, nextFollows⟩ := follows.step fine
    rw [List.map_cons, List.cons_append, reading.followAll_cons _ here, followed]
    simpa using ih nextFollows later clean

/-- The lines of a text, cut where the first line stands that ends it. -/
theorem exists_body (raw : List (List Char)) :
    ∃ front back, raw = front ++ back ∧ body (raw.map Line.ofChars) = front.map Line.ofChars
      ∧ (∀ chars ∈ front, Line.ofChars chars ≠ .finish)
      ∧ ∀ chars, back.head? = some chars → Line.ofChars chars = .finish := by
  let goesOn (chars : List Char) : Bool := Line.ofChars chars ≠ .finish
  refine ⟨raw.takeWhile goesOn, raw.dropWhile goesOn, List.takeWhile_append_dropWhile.symm,
    List.takeWhile_map .., fun chars member => ?_, fun chars first => ?_⟩
  · simpa [goesOn] using List.mem_takeWhile_imp member
  · have stopped := List.head?_dropWhile_not goesOn raw
    rw [first] at stopped
    simpa [goesOn] using stopped

section

variable {raw : List (List Char)}

theorem readLines_of_faultless (clean : Faultless Offends (body (raw.map Line.ofChars))) :
    ∃ reading : Reading, reading.Follows (body (raw.map Line.ofChars))
      ∧ readLines (raw.map some) = reading.finish.mapError ReadError.table := by
  obtain ⟨front, back, rfl, cut, goesOn, ends⟩ := exists_body raw
  rw [cut] at clean ⊢
  obtain ⟨reading, follows, followed⟩ := follows_start.followAll goesOn clean (back.map some)
  refine ⟨reading, follows, ?_⟩
  -- Behind these lines the text is over, or the line that ends it stands there.
  have stops : reading.followAll (([] ++ front.map Line.ofChars).length + 1) (back.map some)
      = .ok reading := by
    cases back with
    | nil => rfl
    | cons chars rest => rw [List.map_cons, Reading.followAll, ends chars rfl]
  have whole : (Reading.mk none none).followAll 1 ((front ++ back).map some) = .ok reading := by
    rw [List.map_append]
    exact followed.trans stops
  simp only [readLines, whole]
  cases reading.finish with
  | error => rfl
  | ok => rfl

theorem readLines_of_firstFault {error : TableError}
    (first : FirstFault Offends (body (raw.map Line.ofChars)) error) :
    readLines (raw.map some) = .error (.table error) := by
  obtain ⟨front, back, rfl, cut, goesOn, -⟩ := exists_body raw
  rw [cut] at first
  obtain ⟨before, line, after, whole, clean, offends⟩ := first
  obtain ⟨before, chars, after, rfl, rfl, rfl, rfl⟩ :
      ∃ before' chars after', front = before' ++ chars :: after' ∧ before'.map Line.ofChars = before
        ∧ Line.ofChars chars = line ∧ after'.map Line.ofChars = after := by
    obtain ⟨before', rest, rfl, rfl, split⟩ := List.map_eq_append_iff.mp whole
    obtain ⟨chars, after', rfl, rfl, rfl⟩ := List.map_eq_cons_iff.mp split
    exact ⟨before', chars, after', rfl, rfl, rfl, rfl⟩
  have earlier : ∀ other ∈ before, Line.ofChars other ≠ .finish := fun other member =>
    goesOn other (List.mem_append_left _ member)
  have here : Line.ofChars chars ≠ .finish := goesOn chars (by simp)
  obtain ⟨reading, follows, followed⟩ := follows_start.followAll earlier clean
    (some chars :: (after ++ back).map some)
  rw [reading.followAll_cons _ here, follows.follow_eq_error offends] at followed
  rw [readLines, List.append_assoc, List.cons_append, List.map_append, List.map_cons,
    show (1 : Nat) = ([] : List Line).length + 1 from rfl, followed]

end

/-! ### The end -/

section

variable {lines : List Line} {reading : Reading} (follows : reading.Follows lines)

include follows

theorem Reading.Follows.labels_eq {names : List (List Char)}
    (last : Last Line.IsLabels lines (.labels names)) :
    reading.labels? = some (names.map String.ofList) := by
  cases held : reading.labels? with
  | none => exact absurd last.holds (follows.unlabelled held _ last.mem)
  | some labels =>
    obtain ⟨others, last', rfl⟩ := follows.labelled labels held
    cases last.unique last'
    rfl

theorem Reading.Follows.finish_eq_error {error : TableError} (lacks : Lacks lines error) :
    reading.finish = .error error := by
  cases lacks with
  | undeclared countless =>
    cases held : reading.table? with
    | none => rw [Reading.finish, held]
    | some t =>
      obtain ⟨line, member, counts⟩ := (follows.drafts t held).arity.exists_isCount
      exact absurd counts (countless line member)
  | labels last declared refused =>
    obtain ⟨t, held, -, rfl⟩ := follows.exists_table declared
    simp only [Reading.finish, held, follows.labels_eq last]
    exact TruthTable.withLabels_eq_error refused

theorem Reading.Follows.finish_eq_ok (accepted : Accepted lines) :
    ∃ t, reading.finish = .ok t ∧ Represents lines t := by
  obtain ⟨count, declared⟩ := exists_inForce_of_faultless accepted.faultless accepted.declared
  obtain ⟨t, held, drafts, rfl⟩ := follows.exists_table declared
  by_cases labelled : ∃ line ∈ lines, line.IsLabels
  · obtain ⟨line, last⟩ := exists_last labelled
    obtain ⟨names, rfl⟩ := last.holds
    obtain ⟨count, declared', fit⟩ := accepted.labels names last
    cases declared.unique declared'
    -- Giving the labels to the table keeps its rows.
    simp only [Reading.finish, held, follows.labels_eq last, TruthTable.withLabels_eq_ok fit]
    refine ⟨_, rfl, declared, fun others last' => ?_, fun unlabelled => ?_, drafts.rows⟩
    · cases last.unique last'
      rfl
    · exact absurd last.holds (unlabelled _ last.mem)
  · have absent : reading.labels? = none := by
      rw [Option.eq_none_iff_forall_ne_some]
      intro labels held
      obtain ⟨names, last, -⟩ := follows.labelled labels held
      exact labelled ⟨_, last.mem, last.holds⟩
    simp only [Reading.finish, held, absent]
    exact ⟨t, rfl, declared, fun names last => absurd ⟨_, last.mem, last.holds⟩ labelled,
      fun _ => drafts.labels, drafts.rows⟩

end

/-! ### The whole text -/

section

variable (raw : List (List Char))

theorem readLines_of_accepted (accepted : Accepted (body (raw.map Line.ofChars))) :
    ∃ t, readLines (raw.map some) = .ok t ∧ Represents (body (raw.map Line.ofChars)) t := by
  obtain ⟨reading, follows, read⟩ := readLines_of_faultless accepted.faultless
  obtain ⟨t, finished, represents⟩ := follows.finish_eq_ok accepted
  exact ⟨t, read.trans (congrArg (Except.mapError ReadError.table) finished), represents⟩

theorem readLines_of_rejected {error : TableError}
    (rejected : Rejected (body (raw.map Line.ofChars)) error) :
    readLines (raw.map some) = .error (.table error) := by
  rcases rejected with first | ⟨clean, lacks⟩
  · exact readLines_of_firstFault first
  · obtain ⟨reading, follows, read⟩ := readLines_of_faultless clean
    exact read.trans (congrArg (Except.mapError ReadError.table) (follows.finish_eq_error lacks))

theorem accepted_or_rejected (lines : List Line) :
    Accepted lines ∨ ∃ error, Rejected lines error := by
  rcases faultless_or_firstFault Offends lines with clean | ⟨error, first⟩
  · rcases accepted_or_lacks clean with accepted | ⟨error, lacks⟩
    · exact .inl accepted
    · exact .inr ⟨error, .inr ⟨clean, lacks⟩⟩
  · exact .inr ⟨error, .inl first⟩

end

theorem linesOfText_eq (text : String) :
    Text.linesOfText text = (text.toList.splitOn '\n').map some := by
  rw [Text.linesOfText, Text.splitAtEach_eq_splitOn]

/-- Reading a text accepts exactly the format. The lines of the text mean what they mean one by one;
those before the end make a table exactly if they are accepted, and then the table that they
represent. Otherwise the error is that of the first line that cannot be followed or, if there is
none, what is missing in the end. -/
theorem read_accepts_format (text : String) :
    ∃ meant, List.Forall₂ Means (text.toList.splitOn '\n') meant
      ∧ ((∃ t, read text = .ok t) ↔ Accepted (body meant))
      ∧ (∀ t, read text = .ok t → Represents (body meant) t)
      ∧ ∀ error, read text = .error error
        ↔ ∃ reason, error = .table reason ∧ Rejected (body meant) reason := by
  let raw := text.toList.splitOn '\n'
  have readsLines : read text = readLines (raw.map some) := by rw [read, linesOfText_eq]
  refine ⟨raw.map Line.ofChars, ?_, ?_⟩
  · rw [List.forall₂_map_right_iff, List.forall₂_same]
    exact fun chars _ => means_ofChars chars
  rw [readsLines]
  have succeeds := readLines_of_accepted raw
  have fails (reason : TableError) (rejected : Rejected (body (raw.map Line.ofChars)) reason) :=
    readLines_of_rejected raw rejected
  -- The format accepts or rejects every text, so each half excludes the other.
  rcases accepted_or_rejected (body (raw.map Line.ofChars)) with accepted | ⟨reason, rejected⟩
  · obtain ⟨t, made, represents⟩ := succeeds accepted
    refine ⟨⟨fun _ => accepted, fun _ => ⟨t, made⟩⟩, fun other made' => ?_,
      fun error => ⟨fun failed => ?_, ?_⟩⟩
    · cases made.symm.trans made'
      exact represents
    · cases made.symm.trans failed
    · rintro ⟨reason, rfl, rejected⟩
      exact fails reason rejected
  · have failed := fails reason rejected
    refine ⟨⟨?_, fun accepted => ?_⟩, fun t made => ?_, fun error => ⟨fun failed' => ?_, ?_⟩⟩
    · rintro ⟨t, made⟩
      cases made.symm.trans failed
    · obtain ⟨t, made, -⟩ := succeeds accepted
      exact ⟨t, made⟩
    · cases made.symm.trans failed
    · cases failed.symm.trans failed'
      exact ⟨reason, rfl, rejected⟩
    · rintro ⟨other, rfl, rejected'⟩
      exact fails other rejected'

example :
    (read ".ilb go\n.i 2\n0 1\n.i 1\n1 x\n+0 1\n.e\n7").map
      (fun t => (t.labels, t.minterms, t.dontCares))
    = .ok (["go"], [0], [1]) := by decide

example : read ".i 2\n.ilb a a\n3\n9 1" = .error (.table (.missingValue 3)) := by decide

end TwoLevel.TableText
