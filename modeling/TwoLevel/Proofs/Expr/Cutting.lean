import TwoLevel.Expr.Token
import TwoLevel.Proofs.Label

/-!
# Cutting texts into tokens

The tokens of a text do not depend on the place where it begins. Cutting goes on behind a token
without looking back, and of the characters behind a token only the next one can lengthen it: a name
ends where no letter, digit or underscore follows.

So texts are put together from pieces that are cut apart again, as long as two names never meet.
-/
namespace TwoLevel.Expr

/-- The text consists of the tokens, with blanks between them. -/
def Cuts (chars : List Char) (tokens : List Token) : Prop :=
  ∀ position, (lexemes position chars).found.map Lexeme.token = tokens
    ∧ (lexemes position chars).invalidAt = none

theorem cuts_nil : Cuts [] [] := by
  intro position
  rw [lexemes]
  exact ⟨rfl, rfl⟩

theorem Cuts.blank {c : Char} {rest : List Char} {tokens : List Token}
    (blank : Text.isBlank c = true) (cuts : Cuts rest tokens) : Cuts (c :: rest) tokens := by
  intro position
  rw [lexemes, if_pos blank]
  exact cuts _

theorem Cuts.token {c : Char} {rest : List Char} {token : Token} {length : Nat}
    {tokens : List Token} (solid : Text.isBlank c = false)
    (first : Token.first? (c :: rest) = some (token, length))
    (cuts : Cuts ((c :: rest).drop length) tokens) : Cuts (c :: rest) (token :: tokens) := by
  intro position
  rw [lexemes, if_neg (by simp [solid])]
  split
  next absent => simp [first] at absent
  next found =>
    rw [first, Option.some.injEq, Prod.mk.injEq] at found
    obtain ⟨rfl, rfl⟩ := found
    -- The rest is cut in the same way wherever it begins.
    obtain ⟨later, whole⟩ := cuts (position + byteLength ((c :: rest).take length))
    exact ⟨congrArg (token :: ·) later, whole⟩

/-! ### Names -/

/-- Nothing follows that could lengthen a name. -/
def Apart (rest : List Char) : Prop := ∀ c, rest.head? = some c → Label.isPart c = false

theorem takeWhile_isPart_append {word rest : List Char} (inside : word.all Label.isPart = true)
    (apart : Apart rest) : (word ++ rest).takeWhile Label.isPart = word := by
  rw [List.takeWhile_append_of_pos (List.all_eq_true.mp inside)]
  cases rest with
  | nil => simp
  | cons c tail => simp [apart c rfl]

theorem first?_word {c : Char} {word rest : List Char} (start : Label.isStart c = true)
    (inside : word.all Label.isPart = true) (apart : Apart rest) :
    Token.first? (c :: (word ++ rest)) = some (Token.ofWord (c :: word), (c :: word).length) := by
  unfold Token.first?
  simp only []
  split
  -- No other token begins with a letter or an underscore.
  case h_11 => rw [if_pos start, takeWhile_isPart_append inside apart]
  all_goals exact absurd start (by decide)

/-- A name that is read as a variable: an identifier that is not the name of a constant. -/
structure Readable (name : String) : Prop where
  identifier : Label.isIdentifier name = true
  ne_true : name ≠ "true"
  ne_false : name ≠ "false"

theorem Readable.ofWord_toList {name : String} (readable : Readable name) :
    Token.ofWord name.toList = .name name := by
  have ne_true : name.toList ≠ ['t', 'r', 'u', 'e'] := fun same =>
    readable.ne_true (String.toList_inj.mp same)
  have ne_false : name.toList ≠ ['f', 'a', 'l', 's', 'e'] := fun same =>
    readable.ne_false (String.toList_inj.mp same)
  rw [Token.ofWord, if_neg ne_true, if_neg ne_false, String.ofList_toList]

theorem Readable.cuts {name : String} (readable : Readable name) {rest : List Char}
    {tokens : List Token} (apart : Apart rest) (cuts : Cuts rest tokens) :
    Cuts (name.toList ++ rest) (.name name :: tokens) := by
  have identifier := readable.identifier
  rw [← readable.ofWord_toList]
  unfold Label.isIdentifier at identifier
  split at identifier
  next => cases identifier
  next c word spelled =>
    obtain ⟨start, inside⟩ := Bool.and_eq_true_iff.mp identifier
    rw [spelled]
    apply Cuts.token (Text.isBlank_of_isStart start) (first?_word start inside apart)
    rw [← List.cons_append, List.drop_left]
    exact cuts

/-! ### Pieces -/

/-- The text is cut into the tokens wherever nothing lengthens its last name. -/
def Spells (chars : List Char) (tokens : List Token) : Prop :=
  ∀ rest after, Apart rest → Cuts rest after → Cuts (chars ++ rest) (tokens ++ after)

/-- The text is cut off as one token whatever stands beside it. -/
structure StandsAlone (chars : List Char) (token : Token) : Prop where
  apart : ∀ rest, Apart (chars ++ rest)
  cuts : ∀ rest after, Cuts rest after → Cuts (chars ++ rest) (token :: after)

theorem Readable.spells {name : String} (readable : Readable name) :
    Spells name.toList [.name name] :=
  fun _ _ apart cuts => readable.cuts apart cuts

/-- Behind a piece and before a piece, a token that stands alone is cut off. -/
theorem Spells.append {chars more : List Char} {tokens : List Token} {token : Token}
    (spells : Spells chars tokens) (alone : StandsAlone more token) :
    Spells (chars ++ more) (tokens ++ [token]) := by
  intro rest after _ cuts
  rw [List.append_assoc, List.append_assoc]
  exact spells _ _ (alone.apart rest) (alone.cuts rest after cuts)

theorem StandsAlone.append {chars more : List Char} {token : Token} {tokens : List Token}
    (alone : StandsAlone chars token) (spells : Spells more tokens) :
    Spells (chars ++ more) (token :: tokens) := by
  intro rest after apart cuts
  rw [List.append_assoc]
  exact alone.cuts _ _ (spells rest after apart cuts)

/-- Pieces can be put beside each other with a token between them that stands alone. -/
theorem Spells.between {chars separator more : List Char} {tokens added : List Token}
    {token : Token} (spells : Spells chars tokens) (alone : StandsAlone separator token)
    (further : Spells more added) :
    Spells (chars ++ separator ++ more) (tokens ++ token :: added) := by
  intro rest after apart cuts
  have behind := alone.append further rest after apart cuts
  rw [List.append_assoc] at behind
  rw [List.append_assoc, List.append_assoc, List.append_assoc]
  exact spells _ _ (alone.apart _) behind

theorem Spells.cuts {chars : List Char} {tokens : List Token} (spells : Spells chars tokens) :
    Cuts chars tokens := by
  have whole := spells [] [] (fun _ absent => nomatch absent) cuts_nil
  simpa using whole

end TwoLevel.Expr
