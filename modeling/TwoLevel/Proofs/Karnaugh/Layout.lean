import Mathlib.Data.List.Dedup
import Mathlib.Data.List.ProdSigma
import TwoLevel.Karnaugh.Layout

/-!
# A layout places every index once

A Gray code lists each word of its bits once, so the words and the places of a code belong to each
other. An index is a word for the row followed by a word for the column. So the cells of a grid and
the indices belong to each other, and the grid contains each index once.
-/
namespace TwoLevel.Karnaugh

/-! ### The words of a code -/

theorem mem_gray_iff (bits word : Nat) : word ∈ gray bits ↔ word < Word.count bits := by
  induction bits generalizing word with
  | zero => simp [gray]
  | succ bits ih =>
    rw [gray, List.mem_append, List.mem_map, ih, Word.count_succ]
    simp only [List.mem_reverse, ih]
    constructor
    · rintro (low | ⟨rest, low, rfl⟩) <;> omega
    · intro inside
      by_cases low : word < Word.count bits
      · exact .inl low
      · exact .inr ⟨word - Word.count bits, by omega, by omega⟩

theorem nodup_gray (bits : Nat) : (gray bits).Nodup := by
  induction bits with
  | zero => exact List.nodup_singleton 0
  | succ bits ih =>
    -- The words of the second half have the new bit, and those of the first half have it not.
    rw [gray, List.nodup_append']
    refine ⟨ih, (List.nodup_reverse.mpr ih).map fun _ _ same => Nat.add_left_cancel same, ?_⟩
    intro word first second
    obtain ⟨rest, -, rfl⟩ := List.mem_map.mp second
    exact Nat.not_lt.mpr (Nat.le_add_right _ rest) ((mem_gray_iff bits _).mp first)

theorem grayPlace_eq {bits place : Nat} (inside : place < (gray bits).length) :
    grayPlace bits ((gray bits)[place]) = place := by
  have found : (gray bits).idxOf? (gray bits)[place] = some place := by
    rw [List.idxOf?_eq_some_iff]
    refine ⟨inside, rfl, fun earlier before same => ?_⟩
    have : earlier = place := (nodup_gray bits).getElem_inj_iff.mp same
    omega
  rw [grayPlace, found, Option.getD_some]

theorem grayWord_eq {bits place : Nat} (inside : place < (gray bits).length) :
    grayWord bits place = (gray bits)[place] := by
  rw [grayWord, List.getD_eq_getElem?_getD, List.getElem?_eq_getElem inside, Option.getD_some]

theorem grayWord_lt {bits place : Nat} (inside : place < Word.count bits) :
    grayWord bits place < Word.count bits := by
  rw [← length_gray] at inside
  rw [grayWord_eq inside]
  exact (mem_gray_iff bits _).mp (List.getElem_mem inside)

theorem grayPlace_grayWord {bits place : Nat} (inside : place < Word.count bits) :
    grayPlace bits (grayWord bits place) = place := by
  rw [← length_gray] at inside
  rw [grayWord_eq inside, grayPlace_eq inside]

/-- Every word has a place, and it is the word at that place. -/
theorem grayPlace_spec {bits word : Nat} (inside : word < Word.count bits) :
    grayPlace bits word < Word.count bits ∧ grayWord bits (grayPlace bits word) = word := by
  obtain ⟨place, within, rfl⟩ := List.mem_iff_getElem.mp ((mem_gray_iff bits word).mpr inside)
  rw [grayPlace_eq within, grayWord_eq within, ← length_gray]
  exact ⟨within, rfl⟩

namespace Layout

/-! ### The cells of a grid -/

section

variable {layout : Layout}

theorem isSome_indexAt?_iff (row column : Nat) :
    (layout.indexAt? row column).isSome = true ↔ row < layout.rows ∧ column < layout.columns := by
  unfold indexAt?
  split
  next inside => split <;> simp [inside]
  next outside => simp [outside]

theorem flatten_grid : layout.grid.flatten
    = (List.range layout.rows ×ˢ List.range layout.columns).filterMap fun cell =>
      layout.indexAt? cell.1 cell.2 := by
  show _ = ((List.range layout.rows).flatMap fun row =>
      (List.range layout.columns).map (row, ·)).filterMap _
  simp only [List.filterMap_flatMap, List.filterMap_map]
  exact List.flatMap_def.symm

/-- What stands at a place of the grid is the index of that cell. -/
theorem getElem?_grid (row column : Nat) :
    (layout.grid[row]?.bind fun indices => indices[column]?) = layout.indexAt? row column := by
  have outside (off : ¬ (row < layout.rows ∧ column < layout.columns)) :
      layout.indexAt? row column = none :=
    Option.not_isSome_iff_eq_none.mp (mt (isSome_indexAt?_iff row column).mp off)
  rw [grid, List.getElem?_map]
  by_cases onGrid : row < layout.rows
  · -- Each place of a row of the grid has an index, so none is left out and none moves.
    have held : ∀ place ∈ List.range layout.columns,
        layout.indexAt? row place = some ((layout.indexAt? row place).getD 0) := by
      intro place member
      obtain ⟨index, found⟩ := Option.isSome_iff_exists.mp
        ((isSome_indexAt?_iff row place).mpr ⟨onGrid, List.mem_range.mp member⟩)
      rw [found, Option.getD_some]
    rw [List.getElem?_range onGrid, Option.map_some, Option.bind_some, rowIndices,
      List.filterMap_congr held, List.filterMap_eq_map', List.getElem?_map]
    by_cases within : column < layout.columns
    · rw [List.getElem?_range within, Option.map_some]
      exact (held column (List.mem_range.mpr within)).symm
    · rw [outside fun inside => within inside.2, List.getElem?_eq_none (by simpa using within),
        Option.map_none]
  · rw [outside fun inside => onGrid inside.1, List.getElem?_eq_none (by simpa using onGrid),
      Option.map_none, Option.bind_none]

/-- A word for the row and a word for the column are the two parts of an index. -/
theorem indexAt?_eq_some_iff_of_gray (gray : layout.isLinear = false) (row column index : Nat) :
    layout.indexAt? row column = some index
      ↔ index < layout.rows * layout.columns ∧ layout.coordinates index = (row, column) := by
  simp only [indexAt?, coordinates, gray, if_neg Bool.false_ne_true, Prod.mk.injEq]
  constructor
  · intro found
    split at found
    next inside =>
      -- Division by the number of columns takes the two words apart, as the lower one is below it.
      have low : grayWord layout.columnBits column < layout.columns := grayWord_lt inside.2
      have high : grayWord layout.rowBits row < layout.rows := grayWord_lt inside.1
      rw [Option.some.injEq, Nat.mul_comm] at found
      subst found
      rw [Nat.mul_add_div (by omega), Nat.div_eq_of_lt low, Nat.mul_add_mod, Nat.mod_eq_of_lt low,
        Nat.add_zero]
      refine ⟨?_, grayPlace_grayWord inside.1, grayPlace_grayWord inside.2⟩
      calc layout.columns * grayWord layout.rowBits row + grayWord layout.columnBits column
          < layout.columns * (grayWord layout.rowBits row + 1) := by rw [Nat.mul_succ]; omega
        _ ≤ layout.columns * layout.rows := Nat.mul_le_mul_left _ high
        _ = layout.rows * layout.columns := Nat.mul_comm _ _
    next => cases found
  · rintro ⟨inside, rfl, rfl⟩
    have positive : 0 < layout.columns := Nat.pos_of_ne_zero fun none => by simp [none] at inside
    have high : index / layout.columns < layout.rows := (Nat.div_lt_iff_lt_mul positive).mpr inside
    have low : index % layout.columns < layout.columns := Nat.mod_lt index positive
    obtain ⟨row_lt, rowWord⟩ := grayPlace_spec high
    obtain ⟨column_lt, columnWord⟩ := grayPlace_spec low
    rw [if_pos ⟨row_lt, column_lt⟩, rowWord, columnWord, Nat.mul_comm, Nat.div_add_mod]

theorem indexAt?_eq_some_iff_of_linear (linear : layout.isLinear = true) (single : layout.rows = 1)
    (row column index : Nat) : layout.indexAt? row column = some index
      ↔ index < layout.rows * layout.columns ∧ layout.coordinates index = (row, column) := by
  simp only [indexAt?, coordinates, linear, single, Nat.one_mul, if_true, Prod.mk.injEq]
  constructor
  · intro found
    split at found
    next inside =>
      cases found
      exact ⟨inside.2, by omega, rfl⟩
    next => cases found
  · rintro ⟨inside, rfl, rfl⟩
    rw [if_pos ⟨Nat.one_pos, inside⟩]

end

/-- A layout that divides its variables, and gives them all to the columns if it is one row. -/
structure Divides (layout : Layout) : Prop where
  whole : layout.rowBits + layout.columnBits = layout.arity
  linear : layout.isLinear = true → layout.rowBits = 0

theorem divides_ofVariables {arity : Nat} (bounded : arity ≤ maxVariables) :
    (ofVariables arity).Divides := by
  unfold ofVariables
  split
  next few => exact ⟨by simp only; omega, by simp [isLinear]; omega⟩
  next => exact ⟨by simp [Nat.min_eq_left bounded], fun _ => rfl⟩

/-- A grid that has each index below a bound in one cell, and in each of its cells such an index. -/
structure PlacesEach (layout : Layout) (count : Nat) : Prop where
  once : layout.grid.flatten.Perm (List.range count)
  grid : ∀ row column, (layout.grid[row]?.bind fun indices => indices[column]?)
    = layout.indexAt? row column
  cell : ∀ index < count, ∃ row column, row < layout.rows ∧ column < layout.columns
    ∧ layout.coordinates index = (row, column) ∧ layout.indexAt? row column = some index
  index : ∀ row column, row < layout.rows → column < layout.columns → ∃ index < count,
    layout.indexAt? row column = some index ∧ layout.coordinates index = (row, column)

section

variable {layout : Layout} (divides : layout.Divides)

include divides

/-- A cell holds an index exactly if the index has the coordinates of the cell. -/
theorem Divides.indexAt?_eq_some_iff (row column index : Nat) :
    layout.indexAt? row column = some index
    ↔ index < Word.count layout.arity ∧ layout.coordinates index = (row, column) := by
  have count : Word.count layout.arity = layout.rows * layout.columns := by
    rw [← divides.whole]
    exact Nat.pow_add 2 layout.rowBits layout.columnBits
  rw [count]
  cases linear : layout.isLinear with
  | true =>
    have single : layout.rows = 1 := by rw [rows, divides.linear linear, Word.count_zero]
    exact indexAt?_eq_some_iff_of_linear linear single row column index
  | false => exact indexAt?_eq_some_iff_of_gray linear row column index

theorem Divides.exists_cell {index : Nat} (inside : index < Word.count layout.arity) :
    ∃ row column, row < layout.rows ∧ column < layout.columns
      ∧ layout.coordinates index = (row, column)
      ∧ layout.indexAt? row column = some index := by
  have held := (divides.indexAt?_eq_some_iff _ _ index).mpr ⟨inside, rfl⟩
  obtain ⟨onGrid, within⟩ := (isSome_indexAt?_iff _ _).mp (Option.isSome_of_eq_some held)
  exact ⟨_, _, onGrid, within, rfl, held⟩

/-- The grid contains each index once. -/
theorem Divides.flatten_grid_perm :
    layout.grid.flatten.Perm (List.range (Word.count layout.arity)) := by
  rw [flatten_grid]
  have distinct : (List.range layout.rows ×ˢ List.range layout.columns).Nodup :=
    List.nodup_range.product List.nodup_range
  refine (List.perm_ext_iff_of_nodup (distinct.filterMap ?_) List.nodup_range).mpr fun index => ?_
  · -- Two cells with the same index have its coordinates.
    intro cell other index here there
    exact ((divides.indexAt?_eq_some_iff _ _ index).mp here).2.symm.trans
      ((divides.indexAt?_eq_some_iff _ _ index).mp there).2
  · simp only [List.mem_filterMap, Prod.exists, divides.indexAt?_eq_some_iff, List.mem_range]
    constructor
    · rintro ⟨row, column, -, inside, -⟩
      exact inside
    · intro inside
      obtain ⟨row, column, onGrid, within, same, -⟩ := divides.exists_cell inside
      have listed :=
        List.pair_mem_product.mpr ⟨List.mem_range.mpr onGrid, List.mem_range.mpr within⟩
      exact ⟨row, column, listed, inside, same⟩

theorem Divides.placesEach : layout.PlacesEach (Word.count layout.arity) where
  once := divides.flatten_grid_perm
  grid := getElem?_grid
  cell _ := divides.exists_cell
  index row column onGrid within := by
    obtain ⟨index, held⟩ :=
      Option.isSome_iff_exists.mp ((isSome_indexAt?_iff row column).mpr ⟨onGrid, within⟩)
    obtain ⟨inside, coordinates⟩ := (divides.indexAt?_eq_some_iff row column index).mp held
    exact ⟨index, inside, held, coordinates⟩

end

end Layout

end TwoLevel.Karnaugh
