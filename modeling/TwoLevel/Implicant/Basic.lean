/-!
# Ternary products

An implicant fixes some of the variables of a function and leaves the others free. It is written as
a word of the symbols `0`, `1` and `-`, one for each variable, with the most significant variable
first: `01-` over `A B C` is the product `~A & B`, and it stands for the term indices 2 and 3.

The merge of two implicants, `combine`, is the step from which all prime implicants are generated.
-/
namespace TwoLevel

/-- One position of an implicant: a variable fixed to 0, fixed to 1, or left free. -/
inductive Symbol where
  | zero
  | one
  | dash
  deriving DecidableEq, Hashable

namespace Symbol

/-- The symbol that fixes a variable to a bit. -/
def ofBit : Bool → Symbol
  | false => zero
  | true => one

/-- The bit to which a symbol fixes its variable, if it fixes it. -/
def bit? : Symbol → Option Bool
  | zero => some false
  | one => some true
  | dash => none

/-- A symbol that fixes its variable stands for a literal of the product. -/
def isLiteral : Symbol → Bool
  | dash => false
  | _ => true

/-- The order of symbols in the order of implicants: free, then 0, then 1. -/
def rank : Symbol → Nat
  | dash => 0
  | zero => 1
  | one => 2

instance : Ord Symbol where
  compare left right := compare left.rank right.rank

end Symbol

/-- A product over as many variables as it has symbols, most significant first. -/
structure Implicant where
  symbols : List Symbol
  deriving DecidableEq, Hashable

namespace Implicant

/-- Implicants are ordered symbol by symbol, a shorter one before its extensions. -/
instance : Ord Implicant where
  compare left right := compare left.symbols right.symbols

def width (p : Implicant) : Nat := p.symbols.length

/-- The number of variables fixed to 1. -/
def ones (p : Implicant) : Nat := p.symbols.count .one

def dashes (p : Implicant) : Nat := p.symbols.count .dash

/-- The number of fixed variables, which is the number of literals of the product. -/
def literalCount (p : Implicant) : Nat := p.symbols.countP Symbol.isLiteral

/-- The fixed positions in order, each with its bit. -/
def literals (p : Implicant) : List (Nat × Bool) :=
  p.symbols.zipIdx.filterMap fun (symbol, position) => symbol.bit?.map (position, ·)

/-- The implicant that fixes nothing: the constant true. -/
def unconstrained (width : Nat) : Implicant := ⟨List.replicate width .dash⟩

/-- The low bits of an index as symbols, most significant first. -/
def indexSymbols (index : Nat) : Nat → List Symbol
  | 0 => []
  | place + 1 => .ofBit (index.testBit place) :: indexSymbols index place

/-- The implicant that stands for one term index alone. -/
def ofIndex (index width : Nat) : Implicant := ⟨indexSymbols index width⟩

/-- Two words of one length that differ in exactly one position, with that position freed. -/
def combineSymbols : List Symbol → List Symbol → Option (List Symbol)
  | left :: lefts, right :: rights =>
    if left = right then (combineSymbols lefts rights).map (left :: ·)
    else if lefts = rights then some (.dash :: lefts)
    else none
  | _, _ => none

/-- Merges two implicants of one width that differ in exactly one position. A free position against
a fixed one counts as the difference, like a 0 against a 1. -/
def combine (p q : Implicant) : Option Implicant :=
  (combineSymbols p.symbols q.symbols).map Implicant.mk

@[simp] theorem length_indexSymbols (index width : Nat) :
    (indexSymbols index width).length = width := by
  induction width with
  | zero => rfl
  | succ place ih => simp [indexSymbols, ih]

@[simp] theorem width_ofIndex (index width : Nat) : (ofIndex index width).width = width :=
  length_indexSymbols index width

/-- Each position is fixed or free. -/
theorem literalCount_add_dashes (p : Implicant) : p.literalCount + p.dashes = p.width := by
  obtain ⟨symbols⟩ := p
  simp only [literalCount, dashes, width]
  induction symbols with
  | nil => rfl
  | cons symbol rest ih =>
    cases symbol <;> simp [List.countP_cons, Symbol.isLiteral] <;> omega

end Implicant

end TwoLevel
