import TwoLevel.Expr.OfCover
import TwoLevel.Proofs.Expr.Recognition

/-!
# Texts that are read back

A text writes an expression if it is cut into tokens that belong to the expression. What writes an
expression as a sum is read as this expression. Texts of larger expressions are put together from
those of their operands with the operators between them.
-/
namespace TwoLevel.Expr

/-- A text whose tokens belong to a layer and to the expression. -/
def Writes (layer : Layer) (text : String) (e : Expr) : Prop :=
  ∃ tokens, Spells text.toList tokens ∧ Derives layer tokens e

theorem Writes.parse {text : String} {e : Expr} (writes : Writes .sum text e) :
    parse text = .ok e := by
  obtain ⟨tokens, spells, derives⟩ := writes
  exact parse_of_cuts spells.cuts derives

section

variable {text : String} {e : Expr}

theorem Writes.factor (writes : Writes .atom text e) : Writes .factor text e := by
  obtain ⟨tokens, spells, derives⟩ := writes
  exact ⟨tokens, spells, .factor derives⟩

theorem Writes.product (writes : Writes .factor text e) : Writes .product text e := by
  obtain ⟨tokens, spells, derives⟩ := writes
  exact ⟨tokens, spells, .product derives⟩

theorem Writes.sum (writes : Writes .product text e) : Writes .sum text e := by
  obtain ⟨tokens, spells, derives⟩ := writes
  exact ⟨tokens, spells, .sum derives⟩

theorem Readable.writes {name : String} (readable : Readable name) :
    Writes .atom name (.var name) :=
  ⟨_, readable.spells, .name name⟩

theorem Writes.not {sign : String} (alone : StandsAlone sign.toList .not)
    (writes : Writes .factor text e) : Writes .factor (sign ++ text) (.not e) := by
  obtain ⟨tokens, spells, derives⟩ := writes
  refine ⟨_, ?_, .not derives⟩
  rw [String.toList_append]
  exact alone.append spells

theorem Writes.and {sign other : String} {operand : Expr} (alone : StandsAlone sign.toList .and)
    (writes : Writes .product text e) (further : Writes .factor other operand) :
    Writes .product (text ++ sign ++ other) (.and e operand) := by
  obtain ⟨tokens, spells, derives⟩ := writes
  obtain ⟨added, spelled, derived⟩ := further
  refine ⟨_, ?_, .and derives derived⟩
  rw [String.toList_append, String.toList_append]
  exact spells.between alone spelled

theorem Writes.or {sign other : String} {operand : Expr} (alone : StandsAlone sign.toList .or)
    (writes : Writes .sum text e) (further : Writes .product other operand) :
    Writes .sum (text ++ sign ++ other) (.or e operand) := by
  obtain ⟨tokens, spells, derives⟩ := writes
  obtain ⟨added, spelled, derived⟩ := further
  refine ⟨_, ?_, .or derives derived⟩
  rw [String.toList_append, String.toList_append]
  exact spells.between alone spelled

end

/-! ### Operators and parentheses -/

theorem standsAlone_singleton (c : Char) {token : Token} (solid : Text.isBlank c = false)
    (outside : Label.isPart c = false)
    (first : ∀ rest, Token.first? (c :: rest) = some (token, 1)) :
    StandsAlone [c] token where
  apart := by
    rintro rest _ ⟨⟩
    exact outside
  cuts := fun rest _ cuts => Cuts.token solid (first rest) cuts

/-- An operator between two spaces stands alone. -/
theorem standsAlone_spaced (c : Char) (tail : List Char) {token : Token}
    (solid : Text.isBlank c = false)
    (first : ∀ rest, Token.first? (c :: (tail ++ ' ' :: rest)) = some (token, tail.length + 1)) :
    StandsAlone (' ' :: c :: (tail ++ [' '])) token where
  apart := by
    rintro rest _ ⟨⟩
    decide
  cuts := by
    intro rest after cuts
    rw [List.cons_append, List.cons_append, List.append_assoc]
    apply Cuts.blank (by decide)
    apply Cuts.token solid (first rest)
    rw [List.drop_succ_cons, List.drop_left]
    exact Cuts.blank (by decide) cuts

theorem standsAlone_opening : StandsAlone ['('] .opening :=
  standsAlone_singleton '(' (by decide) (by decide) fun _ => rfl

theorem standsAlone_closing : StandsAlone [')'] .closing :=
  standsAlone_singleton ')' (by decide) (by decide) fun _ => rfl

theorem Writes.parentheses {text : String} {e : Expr} (writes : Writes .sum text e) :
    Writes .atom ("(" ++ text ++ ")") e := by
  obtain ⟨tokens, spells, derives⟩ := writes
  refine ⟨_, ?_, .parentheses derives⟩
  rw [String.toList_append, String.toList_append, List.append_assoc]
  exact standsAlone_opening.append (spells.append standsAlone_closing)

/-- A digit is cut off as one token whatever follows. -/
theorem writes_digit (c : Char) {value : Bool} (solid : Text.isBlank c = false)
    (first : ∀ rest, Token.first? (c :: rest) = some (.constant value, 1)) :
    Writes .atom (String.singleton c) (.const value) := by
  refine ⟨_, ?_, .constant value⟩
  intro rest after _ cuts
  rw [String.toList_singleton]
  exact Cuts.token solid (first rest) cuts

/-! ### Chains -/

section

variable {α : Type} {write : α → String} {tree : α → Expr} {operands : List α} {sign : String}

/-- An operand and those behind it, with an operator between every two, write the chain from the
left if the operator can be put between a chain and an operand. -/
theorem writes_chain {lower upper : Layer} {join : Expr → Expr → Expr} (unit : Bool)
    (base : ∀ {text e}, Writes lower text e → Writes upper text e)
    (step : ∀ {text e other operand}, Writes upper text e → Writes lower other operand →
      Writes upper (text ++ sign ++ other) (join e operand))
    (nonempty : operands ≠ []) (each : ∀ x ∈ operands, Writes lower (write x) (tree x)) :
    Writes upper (sign.intercalate (operands.map write)) (chain join unit (operands.map tree)) := by
  -- Text and chain both grow at their right ends, so the first operand stands for all before.
  have longer (rest : List α) (inside : ∀ x ∈ rest, Writes lower (write x) (tree x)) (text : String)
      (e : Expr) (writes : Writes upper text e) :
      Writes upper (sign.intercalate (text :: rest.map write)) ((rest.map tree).foldl join e) := by
    induction rest generalizing text e with
    | nil => simpa using writes
    | cons x rest ih =>
      rw [List.map_cons, String.intercalate_cons_cons, ← String.intercalate_cons_append]
      exact ih (fun y member => inside y (List.mem_cons_of_mem x member)) _ _
        (step writes (inside x List.mem_cons_self))
  cases operands with
  | nil => exact absurd rfl nonempty
  | cons first rest =>
    exact longer rest (fun y member => each y (List.mem_cons_of_mem first member)) _ _
      (base (each first List.mem_cons_self))

theorem writes_product_chain (alone : StandsAlone sign.toList .and) (nonempty : operands ≠ [])
    (each : ∀ x ∈ operands, Writes .factor (write x) (tree x)) :
    Writes .product (sign.intercalate (operands.map write)) (chain .and true (operands.map tree)) :=
  writes_chain true Writes.product (Writes.and alone) nonempty each

theorem writes_sum_chain (alone : StandsAlone sign.toList .or) (nonempty : operands ≠ [])
    (each : ∀ x ∈ operands, Writes .product (write x) (tree x)) :
    Writes .sum (sign.intercalate (operands.map write)) (chain .or false (operands.map tree)) :=
  writes_chain false Writes.sum (Writes.or alone) nonempty each

end

end TwoLevel.Expr
