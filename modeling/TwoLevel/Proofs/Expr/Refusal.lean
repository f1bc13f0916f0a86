import TwoLevel.Proofs.Expr.Viable

/-!
# Where a text is refused

Cutting can be resumed at each place that it has reached: in front of the place the text splits into
the tokens found so far, in the way in which the whole text splits there, and what is found from the
place on is what was still to be found.

A text is refused at the first token that cannot be taken, at the first character that begins no
token if there is no such token before it, or else at its end. In each case the tokens in front of
the place have been taken, so they begin an expression.
-/
namespace TwoLevel.Expr

/-- In front of other characters a text splits into tokens. -/
inductive SplitsBefore (rest : List Char) : List Char → List Token → Prop
  | done : SplitsBefore rest [] []
  | blank {c : Char} {front : List Char} {tokens : List Token} (blank : Text.isBlank c = true)
      (later : SplitsBefore rest front tokens) : SplitsBefore rest (c :: front) tokens
  | token {word front : List Char} {token : Token} {tokens : List Token}
      (longest : token.LongestMatch word (front ++ rest)) (later : SplitsBefore rest front tokens) :
      SplitsBefore rest (word ++ front) (token :: tokens)

theorem Token.LongestMatch.front {token : Token} {word front rest : List Char}
    (longest : token.LongestMatch word (front ++ rest)) : token.LongestMatch word front where
  spelled := longest.spelled
  longest := by
    intro longer other spelled before
    apply longest.longest longer other spelled
    rw [← List.append_assoc]
    exact before.trans (List.prefix_append _ rest)

/-- Without the characters behind it, the text splits into the same tokens. -/
theorem SplitsBefore.splits {rest front : List Char} {tokens : List Token}
    (before : SplitsBefore rest front tokens) : Splits front tokens := by
  induction before with
  | done => exact .done
  | blank blank _ ih => exact .blank blank ih
  | token longest _ ih => exact .token longest.front ih

@[simp] theorem byteLength_cons (c : Char) (chars : List Char) :
    byteLength (c :: chars) = c.utf8Size + byteLength chars := by
  simp [byteLength, String.ofList_cons]

@[simp] theorem byteLength_append (front back : List Char) :
    byteLength (front ++ back) = byteLength front + byteLength back := by
  simp [byteLength]

/-! ### Places -/

section

variable {position : Nat} {chars : List Char} (solid : ∀ c ∈ chars.head?, Text.isBlank c = false)

include solid

theorem exists_longestMatch_of_found_eq_cons {lexeme : Lexeme} {after : List Lexeme}
    (first : (lexemes position chars).found = lexeme :: after) :
    ∃ behind, chars = lexeme.spelling ++ behind ∧ lexeme.position = position
      ∧ lexeme.token.LongestMatch lexeme.spelling behind
      ∧ lexemes (position + byteLength lexeme.spelling) behind
        = ⟨after, (lexemes position chars).invalidAt⟩ := by
  cases chars with
  | nil => simp [lexemes] at first
  | cons c rest =>
    rw [lexemes, if_neg (by simp [solid c rfl])] at first ⊢
    split at first
    next absent => cases first
    next token length found =>
      obtain ⟨word, behind, same, rfl, longest⟩ := Token.exists_longestMatch_of_first? found
      simp only [same, List.take_left, List.drop_left, List.cons.injEq] at first ⊢
      obtain ⟨rfl, rfl⟩ := first
      exact ⟨behind, rfl, rfl, longest, rfl⟩

theorem first?_eq_none_of_lexemes_eq_nil {place : Nat}
    (cut : lexemes position chars = ⟨[], some place⟩) :
    (∃ c rest, chars = c :: rest) ∧ place = position ∧ Token.first? chars = none := by
  cases chars with
  | nil => simp [lexemes] at cut
  | cons c rest =>
    rw [lexemes, if_neg (by simp [solid c rfl])] at cut
    split at cut
    next absent =>
      simp only [Lexemes.mk.injEq, Option.some.injEq, true_and] at cut
      exact ⟨⟨c, rest, rfl⟩, cut.symm, absent⟩
    next => simp at cut

end

theorem lexemes_dropWhile (position : Nat) (chars : List Char) :
    lexemes (position + byteLength (chars.takeWhile Text.isBlank)) (chars.dropWhile Text.isBlank)
      = lexemes position chars := by
  induction chars generalizing position with
  | nil => rfl
  | cons c rest ih =>
    cases blank : Text.isBlank c with
    | true =>
      rw [List.takeWhile_cons_of_pos blank, List.dropWhile_cons_of_pos blank, byteLength_cons,
        ← Nat.add_assoc, ih, lexemes, if_pos blank]
    | false => simp [blank, byteLength]

/-- Blanks in front of a text are passed over. -/
theorem exists_solid (position : Nat) (chars : List Char) :
    ∃ blanks rest, chars = blanks ++ rest ∧ (∀ c ∈ blanks, Text.isBlank c = true)
      ∧ (∀ c ∈ rest.head?, Text.isBlank c = false)
      ∧ lexemes position chars = lexemes (position + byteLength blanks) rest := by
  refine ⟨chars.takeWhile Text.isBlank, chars.dropWhile Text.isBlank, ?_, ?_, ?_, ?_⟩
  · exact List.takeWhile_append_dropWhile.symm
  · exact List.all_eq_true.mp List.all_takeWhile
  · intro c first
    have head := List.head?_dropWhile_not Text.isBlank chars
    rw [Option.mem_def.mp first] at head
    simpa using head
  · exact (lexemes_dropWhile position chars).symm

theorem SplitsBefore.blanks {rest front blanks : List Char} {tokens : List Token}
    (blank : ∀ c ∈ blanks, Text.isBlank c = true) (splits : SplitsBefore rest front tokens) :
    SplitsBefore rest (blanks ++ front) tokens := by
  induction blanks with
  | nil => exact splits
  | cons c later ih =>
    exact .blank (blank c (by simp)) (ih fun d member => blank d (List.mem_cons_of_mem c member))

/-- The place from which the tokens behind those already found are cut. -/
theorem exists_resumption {position : Nat} {chars : List Char} {before after : List Lexeme}
    (found : (lexemes position chars).found = before ++ after) :
    ∃ front rest, chars = front ++ rest ∧ SplitsBefore rest front (before.map Lexeme.token)
      ∧ (∀ c ∈ rest.head?, Text.isBlank c = false)
      ∧ lexemes (position + byteLength front) rest
        = ⟨after, (lexemes position chars).invalidAt⟩ := by
  induction before generalizing position chars with
  | nil =>
    obtain ⟨blanks, rest, rfl, blank, solid, passed⟩ := exists_solid position chars
    refine ⟨blanks, rest, rfl, ?_, solid, ?_⟩
    · simpa using SplitsBefore.done.blanks blank
    · rw [← passed, ← List.nil_append after, ← found]
  | cons lexeme before ih =>
    obtain ⟨blanks, rest, rfl, blank, solid, passed⟩ := exists_solid position chars
    rw [passed] at found ⊢
    -- Behind the blanks the first token is the longest match, and the others are found behind it.
    obtain ⟨behind, rfl, -, longest, later⟩ := exists_longestMatch_of_found_eq_cons solid found
    obtain ⟨front, rest, rfl, splits, solid, resumed⟩ := ih (congrArg Lexemes.found later)
    refine ⟨blanks ++ (lexeme.spelling ++ front), rest, by simp, ?_, solid, ?_⟩
    · exact (splits.token longest).blanks blank
    · rw [later] at resumed
      simpa [Nat.add_assoc] using resumed

/-! ### Refusals -/

namespace Reading

theorem exists_taken_of_takeAll_eq_error {reading last : Reading} {found : List Lexeme}
    {lexeme : Lexeme} (refused : reading.takeAll found = .error (last, lexeme)) :
    ∃ before after, found = before ++ lexeme :: after
      ∧ reading.run (before.map Lexeme.token) = some last ∧ last.take? lexeme.token = none := by
  induction found generalizing reading with
  | nil => cases refused
  | cons first rest ih =>
    rw [takeAll] at refused
    cases taken : reading.take? first.token with
    | none =>
      simp only [taken, Except.error.injEq, Prod.mk.injEq] at refused
      obtain ⟨rfl, rfl⟩ := refused
      exact ⟨[], rest, rfl, rfl, taken⟩
    | some next =>
      simp only [taken] at refused
      obtain ⟨before, after, rfl, front, absent⟩ := ih refused
      refine ⟨first :: before, after, rfl, ?_, absent⟩
      rw [List.map_cons, run_cons, taken]
      exact front

end Reading

/-- The text goes on with `rest` behind tokens that begin an expression. -/
structure Begins (text : String) (front rest : List Char) (tokens : List Token) : Prop where
  text_eq : text.toList = front ++ rest
  cut : SplitsBefore rest front tokens
  splits : Splits front tokens
  viable : Viable tokens

/-- The refusals that tell the first place at which a text stops being the beginning of an
expression. -/
inductive RefusedAt (text : String) : SyntaxError → Prop
  /-- The character at the place is not blank, and no token begins with it. -/
  | invalidToken {front rest : List Char} {tokens : List Token} {c : Char}
      (begins : Begins text front (c :: rest) tokens) (solid : Text.isBlank c = false)
      (unmatched : ∀ word token, word <+: c :: rest → ¬ Token.Matches word token) :
      RefusedAt text (.invalidToken text (String.ofList front).utf8ByteSize)
  /-- The token at the place is not the next one of any expression. -/
  | unexpectedToken {front word rest : List Char} {tokens : List Token} {token : Token}
      {expected : List String} (begins : Begins text front (word ++ rest) tokens)
      (longest : token.LongestMatch word rest) (refused : ¬ Viable (tokens ++ [token]))
      (ne_nil : expected ≠ []) (follow : ∀ entry ∈ expected, CanFollow tokens entry) :
      RefusedAt text
        (.unexpectedToken text (String.ofList word) (String.ofList front).utf8ByteSize expected)
  /-- The whole text begins an expression and is none. -/
  | unexpectedEnd {tokens : List Token} {expected : List String}
      (splits : Splits text.toList tokens) (viable : Viable tokens)
      (unfinished : ∀ e, ¬ Derives .sum tokens e) (ne_nil : expected ≠ [])
      (follow : ∀ entry ∈ expected, CanFollow tokens entry) :
      RefusedAt text (.unexpectedEnd text expected)

theorem refusedAt_of_takeAll_eq_error {text : String} {reading : Reading} {lexeme : Lexeme}
    (refused : Reading.start.takeAll (lexemes 0 text.toList).found = .error (reading, lexeme)) :
    RefusedAt text (.unexpectedToken text (String.ofList lexeme.spelling) lexeme.position
      (reading.expectedFor lexeme.token)) := by
  obtain ⟨before, after, found, taken, absent⟩ := Reading.exists_taken_of_takeAll_eq_error refused
  obtain ⟨front, rest, same, cut, solid, resumed⟩ := exists_resumption found
  rw [Nat.zero_add] at resumed
  -- Where cutting is resumed, the refused token is the first one.
  obtain ⟨behind, rfl, place, longest, -⟩ := exists_longestMatch_of_found_eq_cons solid
    (congrArg Lexemes.found resumed)
  rw [place, byteLength]
  have expected := reading.allListed_expectedFor lexeme.token
  refine .unexpectedToken ⟨same, cut, cut.splits, (viable_iff _).mpr ⟨reading, taken⟩⟩ longest ?_
    expected.ne_nil (canFollow_of_allListed taken expected)
  simp [viable_append_iff taken, absent]

theorem refusedAt_of_invalidAt {text : String} {reading : Reading} {position : Nat}
    (taken : Reading.start.run ((lexemes 0 text.toList).found.map Lexeme.token) = some reading)
    (stopped : (lexemes 0 text.toList).invalidAt = some position) :
    RefusedAt text (.invalidToken text position) := by
  obtain ⟨front, rest, same, cut, solid, resumed⟩ := exists_resumption (List.append_nil _).symm
  rw [Nat.zero_add, stopped] at resumed
  -- All tokens were taken, so cutting stops at once where it is resumed.
  obtain ⟨⟨c, rest, rfl⟩, rfl, absent⟩ := first?_eq_none_of_lexemes_eq_nil solid resumed
  rw [byteLength]
  exact .invalidToken ⟨same, cut, cut.splits, (viable_iff _).mpr ⟨reading, taken⟩⟩ (solid c rfl)
    (Token.not_matches_of_first?_eq_none absent)

theorem refusedAt_of_finish?_eq_none {text : String} {reading : Reading}
    (taken : Reading.start.run ((lexemes 0 text.toList).found.map Lexeme.token) = some reading)
    (whole : (lexemes 0 text.toList).invalidAt = none) (unfinished : reading.finish? = none) :
    RefusedAt text (.unexpectedEnd text reading.expectedAtEnd) := by
  have expected := Reading.allListed_expectedAtEnd unfinished
  refine .unexpectedEnd (splits_of_invalidAt_eq_none 0 _ whole)
    ((viable_iff _).mpr ⟨reading, taken⟩) ?_ expected.ne_nil
    (canFollow_of_allListed taken expected)
  intro e derives
  obtain ⟨other, retaken, finished⟩ := (Reading.run_finish_iff _ e).mpr derives
  obtain rfl := Option.some.inj (taken.symm.trans retaken)
  cases unfinished.symm.trans finished

/-- A refusal tells the first place at which the text stops being the beginning of an expression. -/
theorem refusedAt_of_parse_eq_error {text : String} {error : SyntaxError}
    (refused : parse text = .error error) : RefusedAt text error := by
  unfold parse ofLexemes at refused
  split at refused
  next reading lexeme stuck =>
    cases refused
    exact refusedAt_of_takeAll_eq_error stuck
  next reading all =>
    have taken := (Reading.takeAll_eq_ok_iff _ reading _).mp all
    split at refused
    next position stopped =>
      cases refused
      exact refusedAt_of_invalidAt taken stopped
    next whole =>
      split at refused
      next => cases refused
      next unfinished =>
        cases refused
        exact refusedAt_of_finish?_eq_none taken whole unfinished

/-- The blank behind the first sign takes three bytes. -/
theorem refusedAt_of_parse_eq_error_open :
    parse "(a ||\u3000| b" = .error (.unexpectedToken "(a ||\u3000| b" "|" 8 Reading.operandStarts)
    ∧ RefusedAt "(a ||\u3000| b"
      (.unexpectedToken "(a ||\u3000| b" "|" 8 Reading.operandStarts) := by
  have cut : lexemes 0 "(a ||\u3000| b".toList = ⟨[⟨.opening, ['('], 0⟩, ⟨.name "a", ['a'], 1⟩,
      ⟨.or, ['|', '|'], 3⟩, ⟨.or, ['|'], 8⟩, ⟨.name "b", ['b'], 10⟩], none⟩ := by decide +kernel
  have refused : parse "(a ||\u3000| b"
      = .error (.unexpectedToken "(a ||\u3000| b" "|" 8 Reading.operandStarts) := by
    rw [parse, cut]
    rfl
  exact ⟨refused, refusedAt_of_parse_eq_error refused⟩

end TwoLevel.Expr
