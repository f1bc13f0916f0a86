import TwoLevel.Expr.Parser

/-!
# The grammar of expressions

The grammar has four layers: sums of products of factors, where a factor is an atom under any number
of negation signs. Chains of one operator associate to the left, and an expression in parentheses is
an atom.

Taking the tokens of an expression where its layer is wanted completes this expression, whatever
stands before it: this is shown along the derivation.
-/
namespace TwoLevel.Expr

/-- The layers of the grammar, from the loosest operator on. -/
inductive Layer where
  | sum
  | product
  | factor
  | atom
  deriving DecidableEq

/-- The token lists that belong to a layer, each with its expression. -/
inductive Derives : Layer → List Token → Expr → Prop where
  | sum {tokens : List Token} {e : Expr} (inner : Derives .product tokens e) : Derives .sum tokens e
  | or {left right : List Token} {a b : Expr} (before : Derives .sum left a)
      (operand : Derives .product right b) : Derives .sum (left ++ .or :: right) (.or a b)
  | product {tokens : List Token} {e : Expr} (inner : Derives .factor tokens e) :
      Derives .product tokens e
  | and {left right : List Token} {a b : Expr} (before : Derives .product left a)
      (operand : Derives .factor right b) : Derives .product (left ++ .and :: right) (.and a b)
  | factor {tokens : List Token} {e : Expr} (inner : Derives .atom tokens e) :
      Derives .factor tokens e
  | not {tokens : List Token} {e : Expr} (operand : Derives .factor tokens e) :
      Derives .factor (.not :: tokens) (.not e)
  | name (name : String) : Derives .atom [.name name] (.var name)
  | constant (value : Bool) : Derives .atom [.constant value] (.const value)
  | parentheses {tokens : List Token} {e : Expr} (inside : Derives .sum tokens e) :
      Derives .atom (.opening :: (tokens ++ [.closing])) e

theorem negate_not (count : Nat) (e : Expr) : negate count (not e) = negate (count + 1) e := by
  induction count with
  | zero => rfl
  | succ count ih => exact congrArg Expr.not ih

namespace Reading

/-- Takes tokens one after the other. -/
def run (reading : Reading) (tokens : List Token) : Option Reading := tokens.foldlM take? reading

@[simp] theorem run_nil (reading : Reading) : reading.run [] = some reading := rfl

@[simp] theorem run_cons (reading : Reading) (token : Token) (rest : List Token) :
    reading.run (token :: rest) = (reading.take? token).bind fun next => next.run rest := rfl

@[simp] theorem run_append (reading : Reading) (front back : List Token) :
    reading.run (front ++ back) = (reading.run front).bind fun next => next.run back :=
  List.foldlM_append

theorem takeAll_eq_ok_iff (reading next : Reading) (found : List Lexeme) :
    reading.takeAll found = .ok next ↔ reading.run (found.map Lexeme.token) = some next := by
  induction found generalizing reading with
  | nil => simp [takeAll]
  | cons lexeme rest ih =>
    rw [takeAll, List.map_cons, run_cons]
    cases reading.take? lexeme.token with
    | none => simp
    | some taken => exact ih taken

end Reading

/-- Where an expression of the layer is wanted, taking the tokens completes the expression. -/
def Layer.Reads : Layer → List Token → Expr → Prop
  | .sum, tokens, e => ∀ outer, ∃ sum? product,
      (Reading.wanting .nothing outer).run tokens = some (.complete sum? product outer)
        ∧ joinTo Expr.or sum? product = e
  | .product, tokens, e => ∀ sum? outer,
      (Reading.wanting ⟨sum?, none, 0⟩ outer).run tokens = some (.complete sum? e outer)
  | .factor, tokens, e => ∀ pending outer,
      (Reading.wanting pending outer).run tokens = some (.operand pending outer e)
  | .atom, tokens, e => ∀ pending outer,
      (Reading.wanting pending outer).run tokens = some (.operand pending outer e)

/-- The tokens of a layer are taken as the expression that they are derived with. -/
theorem Derives.reads {layer : Layer} {tokens : List Token} {e : Expr}
    (derives : Derives layer tokens e) : layer.Reads tokens e := by
  induction derives with
  | sum _ inner => exact fun outer => ⟨none, _, inner none outer, rfl⟩
  | or _ _ before operand =>
    -- The sum before the sign is complete when a new product is begun.
    intro outer
    obtain ⟨sum?, product, taken, rfl⟩ := before outer
    refine ⟨some (joinTo Expr.or sum? product), _, ?_, rfl⟩
    rw [Reading.run_append, taken]
    exact operand _ outer
  | product _ inner => exact fun sum? outer => inner ⟨sum?, none, 0⟩ outer
  | @and _ _ a _ _ _ before operand =>
    intro sum? outer
    rw [Reading.run_append, before sum? outer]
    exact operand ⟨sum?, some a, 0⟩ outer
  | factor _ inner => exact inner
  | not _ operand =>
    -- The sign is counted first and applied when its operand is complete.
    intro pending outer
    rw [Reading.operand, negate_not]
    exact operand { pending with negations := pending.negations + 1 } outer
  | name => exact fun _ _ => rfl
  | constant => exact fun _ _ => rfl
  | parentheses _ inside =>
    -- What was pending waits outside until the closing parenthesis.
    intro pending outer
    obtain ⟨sum?, product, taken, rfl⟩ := inside (pending :: outer)
    rw [Reading.run_cons, Reading.take?, Option.bind_some, Reading.run_append, taken]
    rfl

end TwoLevel.Expr
