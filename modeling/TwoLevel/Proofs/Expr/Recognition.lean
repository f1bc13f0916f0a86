import TwoLevel.Proofs.Expr.Grammar
import TwoLevel.Proofs.Expr.LongestMatch

/-!
# Recognition of expressions

The tokens taken so far always have the form that the state of reading tells: for each open
parenthesis what was pending before it, then a sum with its sign, a product with its sign and
negation signs, of which each may be missing, and behind them the factor that was read last. Taking
a token keeps this form, so the expression at the end is derived from all tokens.

The other direction is `Derives.reads`. So a text is read as an expression exactly if it splits into
tokens from which the grammar derives the expression, and there is at most one.
-/
namespace TwoLevel.Expr

/-! ### What stands before an operand -/

/-- Nothing, or an expression of the layer and the sign behind it. -/
inductive Before (layer : Layer) (sign : Token) : Option Expr → List Token → Prop
  | nothing : Before layer sign none []
  | chain {tokens : List Token} {e : Expr} (derives : Derives layer tokens e) :
      Before layer sign (some e) (tokens ++ [sign])

/-- The tokens before an operand, since the last open parenthesis. -/
inductive Pending.Stands : Pending → List Token → Prop
  | before {sum? product? : Option Expr} {sums products : List Token} (negations : Nat)
      (sum : Before .sum .or sum? sums) (product : Before .product .and product? products) :
      Stands ⟨sum?, product?, negations⟩ (sums ++ (products ++ List.replicate negations .not))

/-- The tokens up to the last open parenthesis, which is the innermost one. -/
inductive Opened : List Pending → List Token → Prop
  | nothing : Opened [] []
  | opening {pending : Pending} {outer : List Pending} {front tokens : List Token}
      (opened : Opened outer front) (stands : pending.Stands tokens) :
      Opened (pending :: outer) (front ++ (tokens ++ [.opening]))

/-- The tokens that lead from the start to a state of reading. -/
inductive Reading.After : Reading → List Token → Prop
  | wanting {pending : Pending} {outer : List Pending} {front tokens : List Token}
      (opened : Opened outer front) (stands : pending.Stands tokens) :
      After (.wanting pending outer) (front ++ tokens)
  | complete {sum? : Option Expr} {product : Expr} {outer : List Pending}
      {front sums products : List Token} (opened : Opened outer front)
      (sum : Before .sum .or sum? sums) (derives : Derives .product products product) :
      After (.complete sum? product outer) (front ++ (sums ++ products))

theorem Before.sum {sum? : Option Expr} {sums tokens : List Token} {e : Expr}
    (before : Before .sum .or sum? sums) (derives : Derives .product tokens e) :
    Derives .sum (sums ++ tokens) (joinTo .or sum? e) := by
  cases before with
  | nothing => exact .sum derives
  | chain sum =>
    rw [List.append_assoc]
    exact .or sum derives

theorem Before.product {product? : Option Expr} {products tokens : List Token} {e : Expr}
    (before : Before .product .and product? products) (derives : Derives .factor tokens e) :
    Derives .product (products ++ tokens) (joinTo .and product? e) := by
  cases before with
  | nothing => exact .product derives
  | chain product =>
    rw [List.append_assoc]
    exact .and product derives

theorem Derives.negate {tokens : List Token} {e : Expr} (derives : Derives .factor tokens e)
    (count : Nat) : Derives .factor (List.replicate count .not ++ tokens) (negate count e) := by
  induction count with
  | zero => exact derives
  | succ count ih => exact .not ih

theorem Pending.stands_nothing : Pending.nothing.Stands [] := .before 0 .nothing .nothing

namespace Reading

theorem after_start : start.After [] := .wanting .nothing Pending.stands_nothing

/-! ### One token -/

theorem after_operand {pending : Pending} {outer : List Pending} {front tokens own : List Token}
    {e : Expr} (opened : Opened outer front) (stands : pending.Stands tokens)
    (derives : Derives .atom own e) : (operand pending outer e).After (front ++ tokens ++ own) := by
  cases stands with
  | before negations sum product =>
    have factor := (Derives.factor derives).negate negations
    have whole := After.complete opened sum (product.product factor)
    simpa only [operand, List.append_assoc] using whole

theorem After.take {reading next : Reading} {tokens : List Token} {token : Token}
    (after : reading.After tokens) (taken : reading.take? token = some next) :
    next.After (tokens ++ [token]) := by
  cases after with
  | @wanting pending outer front tokens opened stands =>
    cases token with
    | or | and | closing => cases taken
    | not =>
      cases taken
      -- One more negation sign stands directly before the operand.
      cases stands with
      | before negations sum product =>
        have whole := After.wanting opened (.before (negations + 1) sum product)
        simpa only [List.replicate_succ', List.append_assoc] using whole
    | opening =>
      cases taken
      -- What was pending waits outside the new parenthesis, and nothing is pending inside.
      have whole := After.wanting (.opening opened stands) Pending.stands_nothing
      simpa only [List.append_nil, List.append_assoc] using whole
    | constant value =>
      cases taken
      exact after_operand opened stands (.constant value)
    | name name =>
      cases taken
      exact after_operand opened stands (.name name)
  | @complete sum? product outer front sums products opened sum derives =>
    cases token with
    | not | opening | constant | name => cases taken
    | and =>
      cases taken
      -- The product goes on.
      have whole := After.wanting opened (.before 0 sum (.chain derives))
      simpa only [List.replicate_zero, List.append_nil, List.append_assoc] using whole
    | or =>
      cases taken
      -- The product is complete and belongs to the sum.
      have whole := After.wanting opened (.before 0 (.chain (sum.sum derives)) .nothing)
      simpa only [List.replicate_zero, List.append_nil, List.append_assoc] using whole
    | closing =>
      -- The parentheses become an atom behind what was pending before them.
      cases opened with
      | nothing => cases taken
      | opening further stands =>
        cases taken
        have whole := after_operand further stands (.parentheses (sum.sum derives))
        simpa only [List.append_assoc, List.cons_append, List.nil_append] using whole

/-! ### All tokens -/

theorem After.run {reading next : Reading} {tokens more : List Token} (after : reading.After tokens)
    (taken : reading.run more = some next) : next.After (tokens ++ more) := by
  induction more generalizing reading tokens with
  | nil =>
    cases taken
    simpa using after
  | cons token rest ih =>
    rw [run_cons, Option.bind_eq_some_iff] at taken
    obtain ⟨between, first, later⟩ := taken
    have whole := ih (after.take first) later
    rwa [List.append_assoc] at whole

theorem After.finish {reading : Reading} {tokens : List Token} {e : Expr}
    (after : reading.After tokens) (finished : reading.finish? = some e) :
    Derives .sum tokens e := by
  cases after with
  | wanting => cases finished
  | complete opened sum derives =>
    cases opened with
    | nothing =>
      cases finished
      exact sum.sum derives
    | opening => cases finished

/-- Tokens are read as an expression exactly if the grammar derives it from them. -/
theorem run_finish_iff (tokens : List Token) (e : Expr) :
    (∃ reading, start.run tokens = some reading ∧ reading.finish? = some e)
      ↔ Derives .sum tokens e := by
  constructor
  · rintro ⟨reading, taken, finished⟩
    exact (after_start.run taken).finish finished
  · intro derives
    obtain ⟨sum?, product, taken, rfl⟩ := derives.reads []
    exact ⟨_, taken, rfl⟩

end Reading

theorem Derives.unique {tokens : List Token} {e other : Expr} (first : Derives .sum tokens e)
    (second : Derives .sum tokens other) : e = other := by
  obtain ⟨reading, taken, finished⟩ := (Reading.run_finish_iff tokens e).mpr first
  obtain ⟨same, retaken, refinished⟩ := (Reading.run_finish_iff tokens other).mpr second
  rw [taken, Option.some.injEq] at retaken
  rw [retaken, refinished, Option.some.injEq] at finished
  exact finished.symm

theorem parse_eq_ok_iff_lexemes (text : String) (e : Expr) : parse text = .ok e
    ↔ (lexemes 0 text.toList).invalidAt = none
      ∧ Derives .sum ((lexemes 0 text.toList).found.map Lexeme.token) e := by
  rw [← Reading.run_finish_iff, parse, ofLexemes]
  simp only [← Reading.takeAll_eq_ok_iff]
  cases Reading.start.takeAll (lexemes 0 text.toList).found with
  | error => simp
  | ok reading =>
    cases (lexemes 0 text.toList).invalidAt with
    | some => simp
    | none => cases finished : reading.finish? <;> simp [finished]

theorem parse_of_cuts {text : String} {tokens : List Token} {e : Expr}
    (cuts : Cuts text.toList tokens) (derives : Derives .sum tokens e) : parse text = .ok e := by
  obtain ⟨found, whole⟩ := cuts 0
  exact (parse_eq_ok_iff_lexemes text e).mpr ⟨whole, found ▸ derives⟩

/-- A text is read as an expression exactly if it splits into tokens from which the grammar derives
the expression, and of such expressions there is at most one. -/
theorem parse_eq_ok_iff (text : String) :
    (∀ e, parse text = .ok e ↔ ∃ tokens, Splits text.toList tokens ∧ Derives .sum tokens e)
    ∧ ∀ tokens others e other, Splits text.toList tokens → Derives .sum tokens e →
      Splits text.toList others → Derives .sum others other → tokens = others ∧ e = other := by
  constructor
  · intro e
    constructor
    · intro read
      obtain ⟨whole, derives⟩ := (parse_eq_ok_iff_lexemes text e).mp read
      exact ⟨_, splits_of_invalidAt_eq_none 0 _ whole, derives⟩
    · rintro ⟨tokens, splits, derives⟩
      exact parse_of_cuts splits.cuts derives
  · intro tokens others e other splits derives splits_other derives_other
    obtain rfl := splits.unique splits_other
    exact ⟨rfl, derives.unique derives_other⟩

example : parse "!truefalse||a1 && (0)" =
    .ok (.or (.not (.var "truefalse")) (.and (.var "a1") (.const false))) := by cbv

example : parse "a ||| b" = .error (.unexpectedToken "a ||| b" "|" 4 Reading.operandStarts) := by
  cbv

end TwoLevel.Expr
