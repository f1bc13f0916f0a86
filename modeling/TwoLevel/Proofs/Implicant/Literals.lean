import TwoLevel.Implicant.Coverage

/-!
# Literals

The literals of an implicant are its fixed positions with their bits, and it covers the indices that
have these bits at these positions.
-/
namespace TwoLevel

theorem Symbol.admits_iff (symbol : Symbol) (bit : Bool) :
    symbol.admits bit = true ↔ ∀ fixed, symbol.bit? = some fixed → bit = fixed := by
  cases symbol <;> simp [admits, bit?]

namespace Implicant

theorem mem_literals (p : Implicant) (position : Nat) (bit : Bool) :
    (position, bit) ∈ p.literals
      ↔ ∃ symbol, p.symbols[position]? = some symbol ∧ symbol.bit? = some bit := by
  simp only [literals, List.mem_filterMap, Option.map_eq_some_iff, Prod.mk.injEq]
  constructor
  · rintro ⟨⟨symbol, place⟩, listed, _, fixed, rfl, rfl⟩
    exact ⟨symbol, List.mk_mem_zipIdx_iff_getElem?.mp listed, fixed⟩
  · rintro ⟨symbol, found, fixed⟩
    exact ⟨(symbol, position), List.mk_mem_zipIdx_iff_getElem?.mpr found, bit, fixed, rfl, rfl⟩

theorem lt_width_of_mem_literals {p : Implicant} {position : Nat} {bit : Bool}
    (member : (position, bit) ∈ p.literals) : position < p.width := by
  obtain ⟨symbol, found, -⟩ := (mem_literals p position bit).mp member
  exact (List.getElem?_eq_some_iff.mp found).1

theorem coversSymbols_iff (index : Nat) (symbols : List Symbol) :
    coversSymbols index symbols = true ↔ ∀ (position : Nat) (symbol : Symbol),
      symbols[position]? = some symbol →
        symbol.admits (index.testBit (symbols.length - 1 - position)) = true := by
  induction symbols with
  | nil => simp [coversSymbols]
  | cons symbol rest ih =>
    rw [coversSymbols, Bool.and_eq_true, ih]
    -- The place of a position is the same in the rest, one position further to the left.
    constructor
    · rintro ⟨first, later⟩ position other found
      cases position with
      | zero =>
        rw [List.getElem?_cons_zero, Option.some.injEq] at found
        subst found
        exact first
      | succ position =>
        rw [List.length_cons, Nat.add_sub_cancel, Nat.sub_add_eq, Nat.sub_right_comm]
        exact later position other found
    · intro all
      refine ⟨all 0 symbol rfl, fun position other found => ?_⟩
      have admitted := all (position + 1) other found
      rw [List.length_cons, Nat.add_sub_cancel, Nat.sub_add_eq, Nat.sub_right_comm] at admitted
      exact admitted

/-- An implicant covers an index exactly if each of its literals agrees with it. -/
theorem covers_iff (p : Implicant) (index : Nat) :
    p.covers index = true ↔ ∀ literal ∈ p.literals,
      index.testBit (p.width - 1 - literal.1) = literal.2 := by
  rw [covers, coversSymbols_iff]
  constructor
  · rintro admitted ⟨position, bit⟩ member
    obtain ⟨symbol, found, fixed⟩ := (mem_literals p position bit).mp member
    exact (Symbol.admits_iff _ _).mp (admitted position symbol found) bit fixed
  · intro agree position symbol found
    refine (Symbol.admits_iff _ _).mpr fun bit fixed => ?_
    exact agree (position, bit) ((mem_literals p position bit).mpr ⟨symbol, found, fixed⟩)

end Implicant

end TwoLevel
