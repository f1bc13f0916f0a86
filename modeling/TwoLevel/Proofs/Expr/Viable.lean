import TwoLevel.Proofs.Expr.Recognition

/-!
# Beginnings of expressions

Reading can be brought to an end from each of its states: where an operand is wanted a constant is
taken, and then every open parenthesis is closed. So tokens begin an expression exactly if they can
all be taken, and where a token is refused no expression goes on with it.

The tokens that a refusal lists are among those that can be taken in the place of the refused one.
-/
namespace TwoLevel.Expr

/-- Some expression begins with the tokens, or consists of them. -/
def Viable (tokens : List Token) : Prop := ∃ more e, Derives .sum (tokens ++ more) e

namespace Reading

theorem exists_closing (sum? : Option Expr) (product : Expr) (outer : List Pending) :
    ∃ more next e, (complete sum? product outer).run more = some next ∧ next.finish? = some e := by
  induction outer generalizing sum? product with
  | nil => exact ⟨[], _, _, rfl, rfl⟩
  | cons pending further ih =>
    -- Closed, the innermost parentheses are the last factor of what was pending before them.
    obtain ⟨more, next, e, taken, finished⟩ := ih pending.sum?
      (joinTo .and pending.product? (negate pending.negations (joinTo .or sum? product)))
    exact ⟨.closing :: more, next, e, taken, finished⟩

theorem exists_ending (reading : Reading) :
    ∃ more next e, reading.run more = some next ∧ next.finish? = some e := by
  cases reading with
  | complete sum? product outer => exact exists_closing sum? product outer
  | wanting pending outer =>
    obtain ⟨more, next, e, taken, finished⟩ := exists_closing pending.sum?
      (joinTo .and pending.product? (negate pending.negations (.const true))) outer
    exact ⟨.constant true :: more, next, e, taken, finished⟩

end Reading

/-- Tokens begin an expression exactly if they can all be taken. -/
theorem viable_iff (tokens : List Token) :
    Viable tokens ↔ ∃ reading, Reading.start.run tokens = some reading := by
  constructor
  · rintro ⟨more, e, derives⟩
    obtain ⟨next, taken, -⟩ := (Reading.run_finish_iff _ e).mpr derives
    rw [Reading.run_append, Option.bind_eq_some_iff] at taken
    obtain ⟨reading, front, -⟩ := taken
    exact ⟨reading, front⟩
  · rintro ⟨reading, front⟩
    obtain ⟨more, next, e, taken, finished⟩ := reading.exists_ending
    refine ⟨more, e, (Reading.run_finish_iff _ e).mp ⟨next, ?_, finished⟩⟩
    rw [Reading.run_append, front]
    exact taken

theorem viable_append_iff {tokens : List Token} {reading : Reading}
    (taken : Reading.start.run tokens = some reading) (token : Token) :
    Viable (tokens ++ [token]) ↔ (reading.take? token).isSome = true := by
  simp [viable_iff, taken, Option.isSome_iff_exists]

/-! ### Listed tokens -/

namespace Token

/-- A fixed spelling as messages list it. -/
def quoted (word : List Char) : String := "\"" ++ String.ofList word ++ "\""

/-- The tokens for which an entry stands: a fixed one, or all names. -/
inductive Listed : String → Token → Prop
  | fixed {word : List Char} {token : Token} (listed : (word, token) ∈ signs ++ keywords) :
      Listed (quoted word) token
  | name {name : String} (readable : Readable name) : Listed "IDENT" (.name name)

/-- There are entries, they stand for tokens, and all of these pass a test. -/
structure AllListed (entries : List String) (test : Token → Bool) : Prop where
  ne_nil : entries ≠ []
  known : ∀ entry ∈ entries, entry = "IDENT" ∨ ∃ fixed ∈ signs ++ keywords, quoted fixed.1 = entry
  fixed : ∀ fixed ∈ signs ++ keywords, quoted fixed.1 ∈ entries → test fixed.2 = true
  name : "IDENT" ∈ entries → ∀ name, test (.name name) = true

section

variable {entries : List String} {test : Token → Bool} (all : AllListed entries test)
  {entry : String} (member : entry ∈ entries)

include all member

theorem AllListed.exists_listed : ∃ token, Listed entry token := by
  rcases all.known entry member with rfl | ⟨fixed, listed, rfl⟩
  · exact ⟨.name "A", .name ⟨by decide, by decide, by decide⟩⟩
  · exact ⟨fixed.2, .fixed listed⟩

theorem AllListed.test_eq_true {token : Token} (listed : Listed entry token) :
    test token = true := by
  cases listed with
  | fixed listed => exact all.fixed _ listed member
  | @name name _ => exact all.name member name

end

def beginsOperand : Token → Bool
  | .not | .opening | .constant _ | .name _ => true
  | .or | .and | .closing => false

/-- A closing parenthesis goes on only inside parentheses. -/
def followsOperand (inside : Bool) : Token → Bool
  | .or | .and => true
  | .closing => inside
  | .not | .opening | .constant _ | .name _ => false

theorem allListed_operandStarts : AllListed Reading.operandStarts beginsOperand :=
  ⟨by decide, by decide, by decide, fun _ _ => rfl⟩

theorem allListed_sums (inside : Bool) :
    AllListed ["\"+\"", "\"|\"", "\"||\""] (followsOperand inside) := by
  cases inside <;> exact ⟨by decide, by decide, by decide, fun member => absurd member (by decide)⟩

theorem allListed_outside :
    AllListed ["\"&\"", "\"&&\"", "\"*\"", "\"+\"", "\"|\"", "\"||\""] (followsOperand false) :=
  ⟨by decide, by decide, by decide, fun member => absurd member (by decide)⟩

theorem allListed_inside :
    AllListed ["\"&\"", "\"&&\"", "\")\"", "\"*\"", "\"+\"", "\"|\"", "\"||\""]
      (followsOperand true) :=
  ⟨by decide, by decide, by decide, fun member => absurd member (by decide)⟩

theorem allListed_close :
    AllListed ["\")\"", "\"+\"", "\"|\"", "\"||\""] (followsOperand true) :=
  ⟨by decide, by decide, by decide, fun member => absurd member (by decide)⟩

end Token

namespace Reading

theorem isSome_take?_wanting (pending : Pending) (outer : List Pending) (token : Token) :
    ((wanting pending outer).take? token).isSome = token.beginsOperand := by
  cases token <;> rfl

theorem isSome_take?_complete (sum? : Option Expr) (product : Expr) (outer : List Pending)
    (token : Token) :
    ((complete sum? product outer).take? token).isSome = token.followsOperand !outer.isEmpty := by
  cases token <;> cases outer <;> rfl

theorem allListed_expectedFor (reading : Reading) (token : Token) :
    Token.AllListed (reading.expectedFor token) fun next => (reading.take? next).isSome := by
  cases reading with
  | wanting pending outer =>
    simp only [isSome_take?_wanting]
    exact Token.allListed_operandStarts
  | complete sum? product outer =>
    simp only [isSome_take?_complete]
    by_cases closing : token = .closing
    · subst closing
      exact Token.allListed_sums _
    · cases outer with
      | nil =>
        rw [expectedFor]
        · exact Token.allListed_outside
        · exact closing
      | cons pending further =>
        rw [expectedFor]
        · exact Token.allListed_inside
        · exact closing

/-- At an end that is refused after an operand, a parenthesis is open. -/
theorem allListed_expectedAtEnd {reading : Reading} (unfinished : reading.finish? = none) :
    Token.AllListed reading.expectedAtEnd fun next => (reading.take? next).isSome := by
  cases reading with
  | wanting pending outer =>
    simp only [isSome_take?_wanting]
    exact Token.allListed_operandStarts
  | complete sum? product outer =>
    simp only [isSome_take?_complete]
    cases outer with
    | nil => cases unfinished
    | cons pending further => exact Token.allListed_close

end Reading

/-- An entry of a message stands for tokens, and an expression can go on with each of them. -/
def CanFollow (tokens : List Token) (entry : String) : Prop :=
  (∃ token, Token.Listed entry token)
    ∧ ∀ token, Token.Listed entry token → Viable (tokens ++ [token])

theorem canFollow_of_allListed {tokens : List Token} {reading : Reading} {entries : List String}
    (taken : Reading.start.run tokens = some reading)
    (all : Token.AllListed entries fun next => (reading.take? next).isSome) :
    ∀ entry ∈ entries, CanFollow tokens entry := by
  intro entry member
  refine ⟨all.exists_listed member, fun token listed => ?_⟩
  rw [viable_append_iff taken]
  exact all.test_eq_true member listed

end TwoLevel.Expr
