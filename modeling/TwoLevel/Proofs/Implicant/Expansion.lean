import TwoLevel.Proofs.Implicant.Coverage

/-!
# The listing of the indices of an implicant

The indices below `2 ^ width` that an implicant covers fall into two halves, those whose highest bit
is 0 and those whose highest bit is 1. Both halves cover the same lower bits, so the covered indices
are put together from those of the rest of the word, once for each bit that the leading symbol
admits. The listing makes the same steps, so it counts: the index at a place of the list has the
bits of this place at its free positions.
-/
namespace TwoLevel.Implicant

/-- The indices that a word of symbols covers, among those that it has positions for. -/
def coveredIndices (symbols : List Symbol) : List Nat :=
  (List.range (Word.count symbols.length)).filter fun index => coversSymbols index symbols

theorem mem_coveredIndices (symbols : List Symbol) (index : Nat) :
    index ∈ coveredIndices symbols
      ↔ index < Word.count symbols.length ∧ coversSymbols index symbols = true := by
  rw [coveredIndices, List.mem_filter, List.mem_range]

theorem pairwise_coveredIndices (symbols : List Symbol) :
    (coveredIndices symbols).Pairwise (· < ·) :=
  List.pairwise_lt_range.filter _

section

variable (symbol : Symbol) (rest : List Symbol) {low : Nat} (inside : low < Word.count rest.length)

include inside

theorem coversSymbols_cons_low :
    coversSymbols low (symbol :: rest) = (symbol.admits false && coversSymbols low rest) := by
  rw [coversSymbols, Nat.testBit_lt_two_pow inside]

theorem coversSymbols_cons_high :
    coversSymbols (Word.count rest.length + low) (symbol :: rest)
      = (symbol.admits true && coversSymbols low rest) := by
  have leading : (Word.count rest.length + low).testBit rest.length = true := by
    rw [Word.count_eq_two_pow, Nat.testBit_two_pow_add_eq, Nat.testBit_lt_two_pow inside,
      Bool.not_false]
  have later : coversSymbols (Word.count rest.length + low) rest = coversSymbols low rest :=
    coversSymbols_congr rest _ _ fun place below => Nat.testBit_two_pow_add_gt below low
  rw [coversSymbols, leading, later]

end

theorem range_count_succ (bits : Nat) : List.range (Word.count (bits + 1))
    = List.range (Word.count bits) ++ (List.range (Word.count bits)).map (Word.count bits + ·) := by
  rw [Word.count_succ, Nat.two_mul, List.range_add]

theorem filter_admitted (admitted : Bool) (rest : List Symbol) :
    (List.range (Word.count rest.length)).filter (fun low => admitted && coversSymbols low rest)
      = if admitted then coveredIndices rest else [] := by
  cases admitted <;> simp [coveredIndices]

/-- The covered indices are those of the rest of the word, once for each bit that the leading symbol
admits. -/
theorem coveredIndices_cons (symbol : Symbol) (rest : List Symbol) :
    coveredIndices (symbol :: rest)
      = (if symbol.admits false then coveredIndices rest else [])
        ++ (if symbol.admits true then coveredIndices rest else []).map
            (Word.count rest.length + ·) := by
  rw [coveredIndices, List.length_cons, range_count_succ, List.filter_append, List.filter_map,
    ← filter_admitted, ← filter_admitted]
  congr 1
  · exact List.filter_congr fun low member =>
      coversSymbols_cons_low symbol rest (List.mem_range.mp member)
  · congr 1
    exact List.filter_congr fun low member =>
      coversSymbols_cons_high symbol rest (List.mem_range.mp member)

/-! ### Counting -/

/-- The index with the low bits of a number at the free positions, the lowest bit at the last of
them. -/
def spread (number : Nat) : List Symbol → Nat
  | [] => 0
  | .zero :: rest => spread number rest
  | .one :: rest => Word.count rest.length + spread number rest
  | .dash :: rest =>
    if number.testBit (rest.count .dash) then Word.count rest.length + spread number rest
    else spread number rest

theorem spread_congr (symbols : List Symbol) {left right : Nat}
    (agree : ∀ place < symbols.count .dash, left.testBit place = right.testBit place) :
    spread left symbols = spread right symbols := by
  induction symbols with
  | nil => rfl
  | cons symbol rest ih =>
    cases symbol with
    | zero => exact ih agree
    | one => rw [spread, spread, ih agree]
    | dash =>
      rw [List.count_cons_self] at agree
      rw [spread, spread, agree _ (Nat.lt_succ_self _),
        ih fun place below => agree place (Nat.lt_succ_of_lt below)]

theorem coveredIndices_eq_map_spread (symbols : List Symbol) : coveredIndices symbols
    = (List.range (Word.count (symbols.count .dash))).map fun number => spread number symbols := by
  induction symbols with
  | nil => rfl
  | cons symbol rest ih =>
    rw [coveredIndices_cons, ih]
    cases symbol with
    | zero => simp [Symbol.admits, spread]
    | one => simp [Symbol.admits, spread, Function.comp_def]
    | dash =>
      -- The leading free position takes the highest bit of the number, which is 0 in the first
      -- half.
      have first_half (number : Nat) (inside : number < Word.count (rest.count .dash)) :
          spread number (.dash :: rest) = spread number rest := by
        simp [spread, Nat.testBit_lt_two_pow inside]
      have second_half (number : Nat) (inside : number < Word.count (rest.count .dash)) :
          spread (Word.count (rest.count .dash) + number) (.dash :: rest)
            = Word.count rest.length + spread number rest := by
        have later := spread_congr rest fun place below => Nat.testBit_two_pow_add_gt below number
        simp [spread, Word.count_eq_two_pow, Nat.testBit_two_pow_add_eq,
          Nat.testBit_lt_two_pow inside, later]
      rw [List.count_cons_self, range_count_succ, List.map_append, List.map_map]
      simp only [Symbol.admits, if_true, List.map_map]
      congr 1
      · exact (List.map_congr_left fun number member =>
          first_half number (List.mem_range.mp member)).symm
      · exact (List.map_congr_left fun number member =>
          second_half number (List.mem_range.mp member)).symm

theorem length_coveredIndices (symbols : List Symbol) :
    (coveredIndices symbols).length = Word.count (symbols.count .dash) := by
  rw [coveredIndices_eq_map_spread, List.length_map, List.length_range]

/-- Every implicant covers an index that its positions can write. -/
theorem exists_covered (p : Implicant) : ∃ index < Word.count p.width, p.covers index = true := by
  have listed : 0 < (coveredIndices p.symbols).length := by
    rw [length_coveredIndices]
    exact Nat.two_pow_pos _
  obtain ⟨index, member⟩ := List.exists_mem_of_length_pos listed
  exact ⟨index, (mem_coveredIndices p.symbols index).mp member⟩

/-- To a covered index of the rest of the word the leading bit is added by setting it. -/
theorem map_or_coveredIndices (rest : List Symbol) :
    (coveredIndices rest).map (Word.count rest.length ||| ·)
      = (coveredIndices rest).map (Word.count rest.length + ·) := by
  refine List.map_congr_left fun index member => ?_
  have inside := ((mem_coveredIndices rest index).mp member).1
  have added := Nat.two_pow_add_eq_or_of_lt inside 1
  rw [Nat.mul_one] at added
  exact added.symm

theorem expandSymbols?_eq_some {symbols : List Symbol} (narrow : symbols.length ≤ Word.size) :
    expandSymbols? symbols = some (coveredIndices symbols) := by
  induction symbols with
  | nil => rfl
  | cons symbol rest ih =>
    -- A place of a word is a number that a word holds.
    have held : rest.length < Word.count Word.size :=
      Nat.lt_trans narrow Nat.lt_two_pow_self
    have value : Word.placeValue? (Word.narrow rest.length) = some (Word.count rest.length) := by
      rw [Word.narrow_of_lt held]
      exact if_pos narrow
    have later := ih (Nat.le_of_succ_le narrow)
    rw [coveredIndices_cons]
    cases symbol <;>
      simp [expandSymbols?, Symbol.admits, value, later, map_or_coveredIndices]

/-- An implicant that is no wider than a word, with fewer free positions than a word has bits, is
expanded to a strictly ascending list. There are as many indices in it as words of its free
positions, which are counted up there, and these are the indices that its positions can write and
that it covers. -/
theorem expand?_lists_covered (p : Implicant) (narrow : p.width ≤ Word.size)
    (few : p.dashes < Word.size) :
    ∃ indices, p.expand? = some indices
      ∧ indices.Pairwise (· < ·)
      ∧ indices.length = Word.count p.dashes
      ∧ (∀ index, index ∈ indices ↔ index < Word.count p.width ∧ p.covers? index = some true)
      ∧ indices = (List.range (Word.count p.dashes)).map fun number => spread number p.symbols := by
  refine ⟨coveredIndices p.symbols, ?_, pairwise_coveredIndices _, length_coveredIndices _,
    fun index => ?_, coveredIndices_eq_map_spread _⟩
  · rw [expand?, if_pos few, expandSymbols?_eq_some narrow]
  · rw [mem_coveredIndices, covers?_eq_some narrow, Option.some.injEq]
    rfl

/-- An implicant as wide as a word and free at all of its positions but one. -/
def nearlyFree : Implicant := ⟨List.replicate 15 .dash ++ .one :: List.replicate 16 .dash⟩

theorem expand?_lists_covered_nearlyFree :
    nearlyFree.width ≤ Word.size ∧ nearlyFree.dashes < Word.size
    ∧ ∃ indices, nearlyFree.expand? = some indices
      ∧ indices.Pairwise (· < ·)
      ∧ indices.length = Word.count nearlyFree.dashes
      ∧ (∀ index, index ∈ indices
        ↔ index < Word.count nearlyFree.width ∧ nearlyFree.covers? index = some true)
      ∧ indices = (List.range (Word.count nearlyFree.dashes)).map fun number =>
          spread number nearlyFree.symbols := by
  have narrow : nearlyFree.width ≤ Word.size := by decide
  have few : nearlyFree.dashes < Word.size := by decide
  exact ⟨narrow, few, expand?_lists_covered nearlyFree narrow few⟩

example : expand? ⟨[.one, .dash, .zero, .dash]⟩ = some [8, 9, 12, 13] := by decide

end TwoLevel.Implicant
