import TwoLevel.Verilog.Module

/-!
# Testbenches

The testbench of a module applies every term index to its inputs and compares the output with the
bit that the table prescribes or, for a don't-care, with the bit that the sum of products has. It
counts the differences and reports at the end.
-/
namespace TwoLevel

/-- An index that is applied and the bit that is expected. -/
structure TestStep where
  index : Nat
  expected : Bool
  deriving DecidableEq

/-- A testbench of a module. -/
structure Testbench where
  moduleName : String
  inputs : List String
  output : String
  steps : List TestStep
  deriving DecidableEq

namespace Testbench

def ofMinimization (m : Minimization) : Testbench where
  moduleName := VerilogModule.standardName m.table.arity
  inputs := m.labels
  output := Label.output
  steps := (List.range m.table.size).map fun index => ⟨index, m.expected index⟩

/-- The name of the testbench's own module. -/
def ownName (bench : Testbench) : String := bench.moduleName ++ "_tb"

def inputList (bench : Testbench) : String := String.intercalate ", " bench.inputs

/-- A pin connected to the signal of the same name. -/
def connection (pin : String) : String := "." ++ pin ++ "(" ++ pin ++ ")"

def digit (bit : Bool) : String := if bit then "1" else "0"

/-- The bits that are applied for an index, one for each input, the first input first. -/
def stimulus (bench : Testbench) (index : Nat) : String :=
  toString bench.inputs.length ++ "'b" ++ Text.binary bench.inputs.length index

def stepText (bench : Testbench) (step : TestStep) : String :=
  let bit := digit step.expected
  "        \x7b" ++ bench.inputList ++ "\x7d = " ++ bench.stimulus step.index ++ "; #1;\n"
    ++ "        if (" ++ bench.output ++ " !== 1'b" ++ bit ++ ") begin $display(\"FAIL index "
    ++ toString step.index ++ ": expected " ++ bit ++ ", got %b\", " ++ bench.output
    ++ "); errors = errors + 1; end\n"

def toText (bench : Testbench) : String :=
  "`timescale 1ns / 1ps\n"
    ++ "\n"
    ++ "module " ++ bench.ownName ++ ";\n"
    ++ "    reg " ++ bench.inputList ++ ";\n"
    ++ "    wire " ++ bench.output ++ ";\n"
    ++ "    integer errors = 0;\n"
    ++ "\n"
    ++ "    " ++ bench.moduleName ++ " dut ("
    ++ String.intercalate ", " ((bench.inputs ++ [bench.output]).map connection) ++ ");\n"
    ++ "\n"
    ++ "    initial begin\n"
    ++ String.join (bench.steps.map bench.stepText)
    ++ "        if (errors == 0) $display(\"PASS: all " ++ toString bench.steps.length
    ++ " rows\");\n"
    ++ "        else $display(\"FAIL: %0d mismatches\", errors);\n"
    ++ "        $finish;\n"
    ++ "    end\n"
    ++ "endmodule\n"

end Testbench

end TwoLevel
