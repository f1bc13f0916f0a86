import TwoLevel.Proofs.Expr.Cutting

/-!
# Longest matches

A word is a token if it is one of the fixed spellings or else an identifier. A text splits into
tokens if, blanks apart, the longest word that is a token can be taken at each place up to the end.

Cutting takes these words. A token that begins with a letter or an underscore ends where no letter,
digit or underscore follows; any other one is a sign, and of the signs only the bar and the
ampersand can be doubled. So a text is cut into tokens exactly if it splits into them, and it splits
in one way at most.
-/
namespace TwoLevel.Expr

namespace Token

/-- The tokens with fixed spellings that are no words. -/
def signs : List (List Char × Token) :=
  [(['+'], .or), (['|'], .or), (['|', '|'], .or), (['*'], .and), (['&'], .and), (['&', '&'], .and),
    (['~'], .not), (['!'], .not), (['('], .opening), ([')'], .closing),
    (['0'], .constant false), (['1'], .constant true)]

/-- The tokens with fixed spellings that are words. -/
def keywords : List (List Char × Token) :=
  [(['f', 'a', 'l', 's', 'e'], .constant false), (['t', 'r', 'u', 'e'], .constant true)]

/-- A word that is a token. An identifier that is spelled like a fixed token is this token. -/
inductive Matches (word : List Char) : Token → Prop
  | fixed {token : Token} (listed : (word, token) ∈ signs ++ keywords) : Matches word token
  | name (identifier : Label.isIdentifier (String.ofList word) = true)
      (free : ∀ token, (word, token) ∉ signs ++ keywords) :
      Matches word (.name (String.ofList word))

/-- A word that is a token, before which no longer one begins at the same place. -/
structure LongestMatch (token : Token) (word rest : List Char) : Prop where
  spelled : Matches word token
  longest :
    ∀ longer other, Matches longer other → longer <+: word ++ rest → longer.length ≤ word.length

/-! ### Words and signs -/

theorem isStart_eq_false_of_mem_signs {c : Char} {rest : List Char} {token : Token}
    (listed : (c :: rest, token) ∈ signs) : Label.isStart c = false := by
  have heads : ∀ sign ∈ signs, sign.1.head?.any Label.isStart = false := by decide
  exact heads _ listed

theorem isStart_of_mem_keywords {c : Char} {rest : List Char} {token : Token}
    (listed : (c :: rest, token) ∈ keywords) : Label.isStart c = true := by
  have heads : ∀ keyword ∈ keywords, keyword.1.head?.any Label.isStart = true := by decide
  exact heads _ listed

theorem isIdentifier_ofList_cons (c : Char) (rest : List Char) :
    Label.isIdentifier (String.ofList (c :: rest))
      = (Label.isStart c && rest.all Label.isPart) := by
  rw [Label.isIdentifier, String.toList_ofList]

theorem ofWord_of_mem_keywords {word : List Char} {token : Token}
    (listed : (word, token) ∈ keywords) : ofWord word = token := by
  have each : ∀ keyword ∈ keywords, ofWord keyword.1 = keyword.2 := by decide
  exact each _ listed

theorem ofWord_of_not_mem_keywords {word : List Char} (free : ∀ token, (word, token) ∉ keywords) :
    ofWord word = .name (String.ofList word) := by
  rw [ofWord, if_neg, if_neg]
  · rintro rfl
    exact free (.constant false) (by decide)
  · rintro rfl
    exact free (.constant true) (by decide)

theorem not_matches_nil (token : Token) : ¬ Matches [] token := by
  intro spelled
  cases spelled with
  | fixed listed => exact absurd listed (by simp [signs, keywords])
  | name identifier => exact absurd identifier (by decide)

/-- What begins like a name and is a token is a word. -/
theorem matches_iff_of_isStart {c : Char} (start : Label.isStart c = true) (rest : List Char)
    (token : Token) :
    Matches (c :: rest) token ↔ rest.all Label.isPart = true ∧ token = ofWord (c :: rest) := by
  have no_sign (token : Token) : (c :: rest, token) ∉ signs := by
    intro listed
    rw [isStart_eq_false_of_mem_signs listed] at start
    cases start
  constructor
  · intro spelled
    cases spelled with
    | fixed listed =>
      have keyword := (List.mem_append.mp listed).resolve_left (no_sign token)
      have parts : ∀ keyword ∈ keywords, keyword.1.tail.all Label.isPart = true := by decide
      exact ⟨parts _ keyword, (ofWord_of_mem_keywords keyword).symm⟩
    | name identifier free =>
      rw [isIdentifier_ofList_cons, Bool.and_eq_true] at identifier
      have no_keyword (token : Token) : (c :: rest, token) ∉ keywords := fun keyword =>
        free token (List.mem_append_right signs keyword)
      exact ⟨identifier.2, (ofWord_of_not_mem_keywords no_keyword).symm⟩
  · rintro ⟨inside, rfl⟩
    -- A keyword is fixed, and any other word a name.
    by_cases keyword : ∃ token, (c :: rest, token) ∈ keywords
    · obtain ⟨token, keyword⟩ := keyword
      rw [ofWord_of_mem_keywords keyword]
      exact .fixed (List.mem_append_right signs keyword)
    · rw [ofWord_of_not_mem_keywords fun token listed => keyword ⟨token, listed⟩]
      refine .name ?_ fun token listed => ?_
      · rw [isIdentifier_ofList_cons, start, inside, Bool.and_self]
      · rcases List.mem_append.mp listed with sign | listed
        · exact no_sign token sign
        · exact keyword ⟨token, listed⟩

/-- What does not begin like a name and is a token is a sign. -/
theorem matches_iff_of_not_isStart {c : Char} (outside : Label.isStart c = false) (rest : List Char)
    (token : Token) : Matches (c :: rest) token ↔ (c :: rest, token) ∈ signs := by
  constructor
  · intro spelled
    cases spelled with
    | fixed listed =>
      refine (List.mem_append.mp listed).resolve_right fun keyword => ?_
      rw [isStart_of_mem_keywords keyword] at outside
      cases outside
    | name identifier =>
      rw [isIdentifier_ofList_cons, outside] at identifier
      cases identifier
  · exact fun listed => .fixed (List.mem_append_left _ listed)

theorem Matches.unique {word : List Char} {one other : Token} (first : Matches word one)
    (second : Matches word other) : one = other := by
  cases word with
  | nil => exact absurd first (not_matches_nil one)
  | cons c rest =>
    cases start : Label.isStart c with
    | true =>
      rw [matches_iff_of_isStart start] at first second
      exact first.2.trans second.2.symm
    | false =>
      rw [matches_iff_of_not_isStart start] at first second
      have apart : ∀ left ∈ signs, ∀ right ∈ signs, left.1 = right.1 → left.2 = right.2 := by decide
      exact apart _ first _ second rfl

theorem isBlank_of_matches {c : Char} {rest : List Char} {token : Token}
    (spelled : Matches (c :: rest) token) : Text.isBlank c = false := by
  cases start : Label.isStart c with
  | true => exact Text.isBlank_of_isStart start
  | false =>
    rw [matches_iff_of_not_isStart start] at spelled
    have heads : ∀ sign ∈ signs, sign.1.head?.any Text.isBlank = false := by decide
    exact heads _ spelled

/-! ### The token taken -/

theorem LongestMatch.unique {word rest other later : List Char} {token mark : Token}
    (first : token.LongestMatch word rest) (second : mark.LongestMatch other later)
    (same : word ++ rest = other ++ later) : word = other ∧ rest = later ∧ token = mark := by
  have shorter := second.longest word token first.spelled (same ▸ List.prefix_append word rest)
  have longer := first.longest other mark second.spelled (same ▸ List.prefix_append other later)
  -- Neither is longer than the other, so the words are equal.
  obtain ⟨rfl, rfl⟩ := List.append_inj same (Nat.le_antisymm shorter longer)
  exact ⟨rfl, rfl, first.spelled.unique second.spelled⟩

theorem longestMatch_word {c : Char} {word rest : List Char} (start : Label.isStart c = true)
    (inside : word.all Label.isPart = true) (apart : Apart rest) :
    (ofWord (c :: word)).LongestMatch (c :: word) rest := by
  refine ⟨(matches_iff_of_isStart start word _).mpr ⟨inside, rfl⟩,
    fun longer other spelled front => ?_⟩
  cases longer with
  | nil => exact Nat.zero_le _
  | cons d tail =>
    obtain ⟨rfl, behind⟩ := List.cons_prefix_cons.mp front
    have parts := ((matches_iff_of_isStart start tail other).mp spelled).1
    -- The letters, digits and underscores at the place are those of the word.
    obtain ⟨more, split⟩ := behind
    have taken : tail ++ more.takeWhile Label.isPart = word := by
      rw [← List.takeWhile_append_of_pos (List.all_eq_true.mp parts), split]
      exact takeWhile_isPart_append inside apart
    rw [← taken, List.length_cons, List.length_cons, List.length_append]
    omega

theorem longestMatch_sign {c : Char} {tail rest : List Char} {token : Token}
    (listed : (c :: tail, token) ∈ signs)
    (longest : ∀ sign ∈ signs, sign.1.head? = some c → sign.1 <+: c :: tail ++ rest →
      sign.1.length ≤ (c :: tail).length) : token.LongestMatch (c :: tail) rest := by
  have outside := isStart_eq_false_of_mem_signs listed
  refine ⟨(matches_iff_of_not_isStart outside tail token).mpr listed,
    fun longer other spelled front => ?_⟩
  cases longer with
  | nil => exact Nat.zero_le _
  | cons d more =>
    obtain ⟨rfl, -⟩ := List.cons_prefix_cons.mp front
    exact longest _ ((matches_iff_of_not_isStart outside more other).mp spelled) rfl front

theorem apart_dropWhile (chars : List Char) : Apart (chars.dropWhile Label.isPart) := by
  intro c first
  have head := List.head?_dropWhile_not Label.isPart chars
  rw [first] at head
  simpa using head

/-- A sign that can be doubled is taken double where it stands twice. -/
theorem exists_longestMatch_doubled {c : Char} {token : Token} (single : ([c], token) ∈ signs)
    (double : ([c, c], token) ∈ signs)
    (only : ∀ sign ∈ signs, sign.1.head? = some c → sign.1 = [c] ∨ sign.1 = [c, c])
    (rest : List Char) :
    ∃ word later, c :: rest = word ++ later ∧ word.length = (if rest.head? = some c then 2 else 1)
      ∧ token.LongestMatch word later := by
  by_cases twice : rest.head? = some c
  · obtain ⟨later, rfl⟩ := List.head?_eq_some_iff.mp twice
    -- The doubled sign is the longest token that begins with it.
    refine ⟨[c, c], later, rfl, by simp, longestMatch_sign double fun sign listed first _ => ?_⟩
    rcases only sign listed first with same | same <;> simp [same]
  · refine ⟨[c], rest, rfl, by simp [twice],
      longestMatch_sign single fun sign listed first front => ?_⟩
    rcases only sign listed first with same | same
    · simp [same]
    -- The doubled sign does not stand here.
    · rw [same] at front
      obtain ⟨later, rfl⟩ := (List.cons_prefix_cons.mp front).2
      exact absurd rfl twice

/-- The token with which a text begins is a longest match. -/
theorem exists_longestMatch_of_first? {chars : List Char} {token : Token} {length : Nat}
    (found : first? chars = some (token, length)) :
    ∃ word rest, chars = word ++ rest ∧ word.length = length ∧ token.LongestMatch word rest := by
  unfold first? at found
  split at found
  · cases found
  next c rest =>
    split at found
    -- The bar and the ampersand.
    case h_2 =>
      obtain ⟨rfl, rfl⟩ := found
      exact exists_longestMatch_doubled (by decide) (by decide) (by decide) rest
    case h_4 =>
      obtain ⟨rfl, rfl⟩ := found
      exact exists_longestMatch_doubled (by decide) (by decide) (by decide) rest
    -- A word goes on as long as letters, digits and underscores follow.
    case h_11 =>
      split at found
      next start =>
        obtain ⟨rfl, rfl⟩ := found
        refine ⟨c :: rest.takeWhile Label.isPart, rest.dropWhile Label.isPart, ?_, rfl, ?_⟩
        · rw [List.cons_append, List.takeWhile_append_dropWhile]
        · exact longestMatch_word start List.all_takeWhile (apart_dropWhile rest)
      next => cases found
    -- Each of the remaining signs is the only token that begins with it.
    all_goals
      obtain ⟨rfl, rfl⟩ := found
      refine ⟨[_], rest, rfl, rfl, longestMatch_sign (by decide) fun sign listed first _ => ?_⟩
      exact (by decide : ∀ sign ∈ signs, sign.1.head? = some _ → sign.1.length ≤ 1)
        sign listed first

theorem not_matches_of_first?_eq_none {chars : List Char} (absent : first? chars = none)
    (word : List Char) (token : Token) (front : word <+: chars) : ¬ Matches word token := by
  intro spelled
  cases word with
  | nil => exact not_matches_nil token spelled
  | cons c tail =>
    obtain ⟨rest, rfl⟩ := front
    cases start : Label.isStart c with
    | true =>
      have whole := List.takeWhile_append_dropWhile (p := Label.isPart) (l := tail ++ rest)
      rw [List.cons_append, ← whole, first?_word start List.all_takeWhile (apart_dropWhile _)]
        at absent
      cases absent
    | false =>
      have listed := (matches_iff_of_not_isStart start tail token).mp spelled
      have heads : ∀ sign ∈ signs, ∀ c ∈ sign.1.head?, ∀ rest, first? (c :: rest) ≠ none := by
        simp [signs, first?]
      exact heads _ listed c rfl _ absent

theorem first?_eq_of_longestMatch {word rest : List Char} {token : Token}
    (longest : token.LongestMatch word rest) :
    first? (word ++ rest) = some (token, word.length) := by
  cases found : first? (word ++ rest) with
  | none =>
    exact absurd longest.spelled
      (not_matches_of_first?_eq_none found word token (List.prefix_append word rest))
  | some taken =>
    -- What is found is a longest match too, and there is only one.
    obtain ⟨other, later, same, measured, taken_longest⟩ := exists_longestMatch_of_first? found
    obtain ⟨rfl, -, rfl⟩ := longest.unique taken_longest same
    rw [measured]

end Token

/-! ### Whole texts -/

/-- The text splits into the tokens: between blanks the longest match is taken at each place. -/
inductive Splits : List Char → List Token → Prop
  | done : Splits [] []
  | blank {c : Char} {rest : List Char} {tokens : List Token} (blank : Text.isBlank c = true)
      (later : Splits rest tokens) : Splits (c :: rest) tokens
  | token {word rest : List Char} {token : Token} {tokens : List Token}
      (longest : token.LongestMatch word rest) (later : Splits rest tokens) :
      Splits (word ++ rest) (token :: tokens)

theorem Splits.cuts {chars : List Char} {tokens : List Token} (splits : Splits chars tokens) :
    Cuts chars tokens := by
  induction splits with
  | done => exact cuts_nil
  | blank blank _ ih => exact ih.blank blank
  | @token word rest token tokens longest _ ih =>
    have found := Token.first?_eq_of_longestMatch longest
    cases word with
    | nil => exact absurd longest.spelled (Token.not_matches_nil token)
    | cons c tail =>
      apply Cuts.token (Token.isBlank_of_matches longest.spelled) found
      change Cuts ((c :: tail ++ rest).drop (c :: tail).length) tokens
      rw [List.drop_left]
      exact ih

/-- A text that is cut to its end splits into its tokens. -/
theorem splits_of_invalidAt_eq_none (position : Nat) (chars : List Char)
    (whole : (lexemes position chars).invalidAt = none) :
    Splits chars ((lexemes position chars).found.map Lexeme.token) := by
  fun_induction lexemes position chars with
  | case1 => exact .done
  | case2 position c rest blank ih => exact .blank blank (ih whole)
  | case3 => cases whole
  | case4 position c rest solid token length found spelling later ih =>
    obtain ⟨word, after, same, rfl, longest⟩ := Token.exists_longestMatch_of_first? found
    have dropped : (c :: rest).drop word.length = after := by rw [same, List.drop_left]
    have behind : Splits after (later.found.map Lexeme.token) := by
      rw [← dropped]
      exact ih whole
    rw [same]
    exact .token longest behind

theorem Splits.unique {chars : List Char} {tokens others : List Token} (first : Splits chars tokens)
    (second : Splits chars others) : tokens = others :=
  (first.cuts 0).1.symm.trans (second.cuts 0).1

end TwoLevel.Expr
