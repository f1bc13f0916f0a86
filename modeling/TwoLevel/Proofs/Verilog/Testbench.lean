import Mathlib.Data.List.Forall2
import TwoLevel.Verilog.Testbench
import TwoLevel.Proofs.Text.Fields
import TwoLevel.Proofs.Text.Number
import TwoLevel.Proofs.Expr.Index
import TwoLevel.Proofs.Verification

/-!
# Testbenches pass

The testbench of a minimization applies every index in order. At each of them the expression that is
read from the module has the bit that the testbench expects: on a specified row both have the bit of
the table, and on a don't-care the testbench asks the cover that the expression stands for.

In the text a step is a block of two lines. The digits that the first applies are the bits that the
labels are bound to at the index, and the second compares the output with the expected bit and
counts a difference. The count begins at 0, and the line behind the last block asks whether it still
is.
-/
namespace TwoLevel

open TwoLevel.Text

namespace Testbench

/-! ### The lines of a testbench -/

/-- The line that puts a module to the test: each pin is connected to the signal of its name. -/
def instanceLine (name : String) (pins : List String) : String :=
  "    " ++ name ++ " dut ("
    ++ String.intercalate ", " (pins.map fun pin => "." ++ pin ++ "(" ++ pin ++ ")") ++ ");"

/-- The line that applies a pattern to inputs. -/
def stimulusLine (inputs : List String) (pattern : String) : String :=
  "        \x7b" ++ String.intercalate ", " inputs ++ "\x7d = " ++ toString inputs.length
    ++ "'b" ++ pattern ++ "; #1;"

/-- The line that compares an output with the expected bit of a step, and counts a difference. -/
def comparisonLine (output : String) (step : TestStep) : String :=
  "        if (" ++ output ++ " !== " ++ (if step.expected then "1'b1" else "1'b0")
    ++ ") begin $display(\"FAIL index " ++ toString step.index ++ ": expected "
    ++ (if step.expected then "1" else "0") ++ ", got %b\", " ++ output
    ++ "); errors = errors + 1; end"

/-- The line that declares the count of differences. -/
def counterLine : String := "    integer errors = 0;"

/-- The line that reports the test of so many rows as passed if no difference was counted. -/
def verdictLine (rows : Nat) : String :=
  "        if (errors == 0) $display(\"PASS: all " ++ toString rows ++ " rows\");"

/-- What tells the lines that apply a pattern from all others. -/
def appliesPattern (line : List Char) : Bool := "        \x7b".toList.isPrefixOf line

variable (bench : Testbench)

def openingLines : List String :=
  ["`timescale 1ns / 1ps", "", "module " ++ bench.ownName ++ ";",
    "    reg " ++ bench.inputList ++ ";", "    wire " ++ bench.output ++ ";", counterLine, "",
    instanceLine bench.moduleName (bench.inputs ++ [bench.output]), "", "    initial begin"]

def patternOf (step : TestStep) : String := binary bench.inputs.length step.index

def stepLines (step : TestStep) : List String :=
  [stimulusLine bench.inputs (bench.patternOf step), comparisonLine bench.output step]

def closingLines : List String :=
  [verdictLine bench.steps.length, "        else $display(\"FAIL: %0d mismatches\", errors);",
    "        $finish;", "    end", "endmodule"]

def lines : List String :=
  bench.openingLines ++ bench.steps.flatMap bench.stepLines ++ bench.closingLines

theorem toList_stepText (step : TestStep) :
    (bench.stepText step).toList = terminated ((bench.stepLines step).map String.toList) := by
  unfold stepText stepLines comparisonLine stimulusLine stimulus
  cases step.expected <;> simp [terminated, inputList, patternOf, digit]

set_option maxRecDepth 2000 in
theorem toList_toText : bench.toText.toList = terminated (bench.lines.map String.toList) := by
  -- The steps are as many as there are indices; the lines around them are written out.
  have steps : (String.join (bench.steps.map bench.stepText)).toList
      = terminated ((bench.steps.flatMap bench.stepLines).map String.toList) := by
    rw [String.toList_join, List.flatMap_map]
    simp only [toList_stepText, terminated, List.flatMap_map, List.map_flatMap, List.flatMap_assoc]
  rw [lines, List.map_append, List.map_append, terminated_append, terminated_append, ← steps]
  unfold toText openingLines closingLines counterLine instanceLine verdictLine
  simp [terminated, connection, Function.comp_def]

/-- A testbench whose names have no newlines. -/
structure Plain : Prop where
  moduleName : OnOneLine bench.moduleName
  inputs : ∀ input ∈ bench.inputs, OnOneLine input
  output : OnOneLine bench.output

section

variable {bench} (plain : bench.Plain)

include plain

theorem onOneLine_instanceLine :
    OnOneLine (instanceLine bench.moduleName (bench.inputs ++ [bench.output])) := by
  have pins : OnOneLine (String.intercalate ", "
      ((bench.inputs ++ [bench.output]).map fun pin => "." ++ pin ++ "(" ++ pin ++ ")")) := by
    refine onOneLine_intercalate (by decide) (List.forall_mem_map.mpr fun pin member => ?_)
    have named : OnOneLine pin := by
      rcases List.mem_append.mp member with member | member
      · exact plain.inputs pin member
      · exact List.mem_singleton.mp member ▸ plain.output
    simp only [onOneLine_append, named]
    decide
  simp only [instanceLine, onOneLine_append, plain.moduleName, pins]
  decide

theorem onOneLine_openingLines : ∀ line ∈ bench.openingLines, OnOneLine line := by
  have inputs : OnOneLine bench.inputList := onOneLine_intercalate (by decide) plain.inputs
  unfold openingLines ownName
  simp only [List.forall_mem_cons, onOneLine_append, plain.moduleName, plain.output, inputs,
    onOneLine_instanceLine plain]
  decide

theorem onOneLine_stepLines (step : TestStep) : ∀ line ∈ bench.stepLines step, OnOneLine line := by
  have inputs : OnOneLine (String.intercalate ", " bench.inputs) :=
    onOneLine_intercalate (by decide) plain.inputs
  have digits : Solid (bench.patternOf step).toList := fun c member =>
    isBlank_of_isDigit (isDigit_of_mem_binary member)
  unfold stepLines comparisonLine stimulusLine
  cases step.expected <;>
    simp only [List.forall_mem_cons, onOneLine_append, plain.output, inputs, onOneLine_toString,
      digits.onOneLine] <;>
    decide

omit plain in
theorem onOneLine_closingLines : ∀ line ∈ bench.closingLines, OnOneLine line := by
  unfold closingLines verdictLine
  simp only [List.forall_mem_cons, onOneLine_append, onOneLine_toString]
  decide

theorem splitOn_toText :
    bench.toText.toList.splitOn '\n' = bench.lines.map String.toList ++ [[]] := by
  rw [toList_toText, splitOn_terminated]
  refine List.forall_mem_map.mpr fun line member => ?_
  simp only [lines, List.mem_append, List.mem_flatMap] at member
  rcases member with (opening | ⟨step, -, own⟩) | closing
  · exact onOneLine_openingLines plain line opening
  · exact onOneLine_stepLines plain step line own
  · exact onOneLine_closingLines line closing

end

/-! ### The blocks of a testbench -/

/-- The lines of each step. -/
def blocks : List (List (List Char)) :=
  bench.steps.map fun step => (bench.stepLines step).map String.toList

/-- The count is declared and the module is put to the test before the first block, and the line
behind the last one asks for the count. -/
theorem exists_lines_eq_blocks : ∃ opening closing,
    bench.lines.map String.toList ++ [[]]
        = opening ++ bench.blocks.flatten
          ++ (verdictLine bench.steps.length).toList :: closing
      ∧ counterLine.toList ∈ opening
      ∧ (instanceLine bench.moduleName (bench.inputs ++ [bench.output])).toList ∈ opening := by
  refine ⟨bench.openingLines.map String.toList,
    bench.closingLines.tail.map String.toList ++ [[]], ?_, ?_, ?_⟩
  · simp [lines, closingLines, blocks, List.flatMap_def, Function.comp_def]
  · exact List.mem_map_of_mem (by simp [openingLines])
  · exact List.mem_map_of_mem (by simp [openingLines])

/-! ### The lines that apply patterns -/

theorem filter_openingLines {arity : Nat}
    (named : bench.moduleName = VerilogModule.standardName arity) :
    (bench.openingLines.map String.toList).filter appliesPattern = [] := by
  -- The name of the module begins with a letter and not with the brace of a pattern.
  unfold openingLines instanceLine counterLine
  simp [named, VerilogModule.standardName, appliesPattern]

theorem filter_closingLines :
    (bench.closingLines.map String.toList).filter appliesPattern = [] := by
  unfold closingLines verdictLine
  simp [appliesPattern]

theorem filter_stepLines (step : TestStep) :
    ((bench.stepLines step).map String.toList).filter appliesPattern
    = [(stimulusLine bench.inputs (bench.patternOf step)).toList] := by
  unfold stepLines comparisonLine stimulusLine
  simp [appliesPattern]

theorem filter_lines {arity : Nat} (named : bench.moduleName = VerilogModule.standardName arity) :
    (bench.lines.map String.toList).filter appliesPattern
      = (bench.steps.map bench.patternOf).map fun pattern =>
          (stimulusLine bench.inputs pattern).toList := by
  rw [lines, List.map_append, List.map_append, List.filter_append, List.filter_append,
    filter_openingLines bench named, filter_closingLines, List.nil_append, List.append_nil,
    List.map_flatMap, List.filter_flatMap, List.map_map]
  simp only [filter_stepLines]
  exact List.map_eq_flatMap.symm

end Testbench

/-! ### The module under its testbench -/

/-- A pattern that has a digit for each input, the bit that the input is bound to at an index. -/
structure Drives (inputs : List String) (index : Nat) (pattern : String) : Prop where
  length_eq : pattern.toList.length = inputs.length
  digit : ∀ position (inside : position < inputs.length), ∃ bit,
    Expr.bitOfName? inputs index inputs[position] = some bit
      ∧ pattern.toList[position]? = some (if bit then '1' else '0')

/-- A block of lines that applies the bits of an index to the inputs of a module and then compares
its output with the bit that is expected there. -/
def Testbench.TestedBy (module : VerilogModule) (step : TestStep)
    (block : List (List Char)) : Prop :=
  ∃ pattern, Drives module.inputs step.index pattern
    ∧ block = [(stimulusLine module.inputs pattern).toList,
      (comparisonLine module.output step).toList]

/-- A testbench that applies every index over some variables to the inputs of a module, and expects
the bit that the expression of the module has there. Its text counts the differences from 0 on, has
a block for each step in order, and reports behind the last one whether there was a difference. -/
structure Testbench.Passes (bench : Testbench) (module : VerilogModule) (arity : Nat) : Prop where
  inputs : module.inputs.length = arity
  indices : bench.steps.map TestStep.index = List.range (2 ^ arity)
  agrees : ∃ e, Expr.parse module.expression = .ok e
    ∧ ∀ step ∈ bench.steps, e.evalAt? module.inputs step.index = some step.expected
  applies : ∃ patterns,
    (bench.toText.toList.splitOn '\n').filter appliesPattern
        = patterns.map (fun pattern => (stimulusLine module.inputs pattern).toList)
      ∧ List.Forall₂ (fun step pattern => Drives module.inputs step.index pattern)
          bench.steps patterns
  compares : ∃ opening blocks closing,
    bench.toText.toList.splitOn '\n'
        = opening ++ blocks.flatten ++ (verdictLine (2 ^ arity)).toList :: closing
      ∧ counterLine.toList ∈ opening
      ∧ (instanceLine module.name (module.inputs ++ [module.output])).toList ∈ opening
      ∧ List.Forall₂ (TestedBy module) bench.steps blocks

theorem drives_binary {inputs : List String} (nonempty : 0 < inputs.length)
    (within : inputs.length ≤ Word.size) (distinct : inputs.Nodup) {index : Nat}
    (bounded : index < Word.count inputs.length) :
    Drives inputs index (binary inputs.length index) where
  length_eq := length_binary nonempty bounded
  digit := by
    intro position inside
    refine ⟨_, Expr.bitOfName?_eq_some within index _, ?_⟩
    rw [← Label.atPosition_eq_getElem inside, Expr.bitOfName_atPosition distinct index inside,
      toList_binary nonempty bounded, List.getElem?_map, List.getElem?_range inside]
    rfl

namespace Minimization

variable {m : Minimization} {t : TruthTable} {settings : Settings} (derives : m.Derives t settings)

include derives

/-- What is expected of a row is the bit of the cover, also where the table has a bit of its own. -/
theorem Derives.expected_eq {index : Nat} (inside : index < Word.count t.arity) :
    m.expected index = m.products.any fun p => p.covers index := by
  rw [expected, derives.table_eq]
  cases specified : (t.get index).bit? with
  | none => rfl
  | some bit => exact (derives.any_products inside specified).symm

theorem Derives.labels_eq : m.labels = t.labels := by rw [labels, derives.table_eq]

theorem Derives.plain : (Testbench.ofMinimization m).Plain where
  moduleName := by
    simp only [Testbench.ofMinimization, VerilogModule.standardName, onOneLine_append,
      onOneLine_toString]
    decide
  inputs := by
    rw [Testbench.ofMinimization, derives.labels_eq]
    exact fun label member =>
      (solid_of_isIdentifier (t.labels_fit.identifier label member)).1.onOneLine
  output := by
    show OnOneLine Label.output
    decide

theorem Derives.mem_steps {step : TestStep} (member : step ∈ (Testbench.ofMinimization m).steps) :
    step.index < Word.count t.arity
      ∧ step.expected = m.products.any fun p => p.covers step.index := by
  simp only [Testbench.ofMinimization, derives.table_eq, TruthTable.size, t.size_values,
    List.mem_map, List.mem_range] at member
  obtain ⟨index, inside, rfl⟩ := member
  exact ⟨inside, derives.expected_eq inside⟩

theorem Derives.length_labels : m.labels.length = t.arity := by
  rw [derives.labels_eq, t.labels_fit.length_eq]

theorem Derives.length_labels_le : m.labels.length ≤ Word.size := by
  rw [derives.length_labels]
  exact Nat.le_trans t.arity_le (by decide)

theorem Derives.nodup_labels : m.labels.Nodup := derives.labels_eq ▸ t.labels_fit.nodup

theorem Derives.indices_steps :
    (Testbench.ofMinimization m).steps.map TestStep.index = List.range (2 ^ t.arity) := by
  simp [Testbench.ofMinimization, derives.table_eq, TruthTable.size, t.size_values, Word.count,
    Function.comp_def]

theorem Derives.length_steps : (Testbench.ofMinimization m).steps.length = 2 ^ t.arity := by
  have counted := congrArg List.length derives.indices_steps
  rwa [List.length_map, List.length_range] at counted

/-- The module has the expected bit at each step, as its expression is read. -/
theorem Derives.agrees : ∃ e, Expr.parse (VerilogModule.ofMinimization m).expression = .ok e
    ∧ ∀ step ∈ (Testbench.ofMinimization m).steps,
      e.evalAt? m.labels step.index = some step.expected := by
  have labelled : Cover.Labelled m.products m.labels :=
    derives.labels_eq ▸ derives.products.labelled
  have width : ∀ p ∈ m.products, p.width = m.labels.length :=
    derives.labels_eq ▸ derives.products.width_eq
  refine ⟨Expr.ofSumOfProducts m.products m.labels,
    (writes_sumOfProducts labelled Dialect.legible_verilog).parse, fun step member => ?_⟩
  -- No lookup leaves the index word, so the expression has its value, the bit of its cover.
  rw [(derives.mem_steps member).2]
  exact (Expr.evalAt?_eq_some derives.length_labels_le _ _).trans
    (congrArg some (Expr.evalAt_ofSumOfProducts derives.nodup_labels width _))

theorem Derives.drives {step : TestStep} (member : step ∈ (Testbench.ofMinimization m).steps) :
    Drives m.labels step.index ((Testbench.ofMinimization m).patternOf step) := by
  refine drives_binary ?_ derives.length_labels_le derives.nodup_labels ?_
  · rw [derives.length_labels]
    exact t.one_le_arity
  · rw [derives.length_labels]
    exact (derives.mem_steps member).1

theorem Derives.passes :
    (Testbench.ofMinimization m).Passes (VerilogModule.ofMinimization m) t.arity where
  inputs := derives.length_labels
  indices := derives.indices_steps
  agrees := derives.agrees
  applies := by
    refine ⟨(Testbench.ofMinimization m).steps.map (Testbench.ofMinimization m).patternOf, ?_, ?_⟩
    · -- The last newline ends the text, and behind it stands an empty line.
      rw [Testbench.splitOn_toText derives.plain, List.filter_append, Testbench.filter_lines _ rfl]
      exact List.append_nil _
    · rw [List.forall₂_map_right_iff, List.forall₂_same]
      exact fun step member => derives.drives member
  compares := by
    obtain ⟨opening, closing, lines, counter, tested⟩ :=
      Testbench.exists_lines_eq_blocks (Testbench.ofMinimization m)
    rw [← derives.length_steps, Testbench.splitOn_toText derives.plain]
    refine ⟨opening, _, closing, lines, counter, tested, ?_⟩
    rw [Testbench.blocks, List.forall₂_map_right_iff, List.forall₂_same]
    exact fun step member => ⟨_, derives.drives member, rfl⟩

omit derives in
/-- Every table has a minimization under all settings, whose testbench passes on its module. -/
theorem ofTable_testbench_passes (t : TruthTable) (settings : Settings) :
    ∃ m, ofTable t settings = .ok m
      ∧ (Testbench.ofMinimization m).Passes (VerilogModule.ofMinimization m) t.arity := by
  obtain ⟨m, found, derives⟩ := exists_ofTable t settings
  exact ⟨m, found, derives.passes⟩

end Minimization

end TwoLevel
