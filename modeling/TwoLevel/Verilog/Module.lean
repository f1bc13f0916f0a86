import TwoLevel.Minimization

/-!
# Verilog modules

A minimized function becomes a module with an input for each variable and one output, which is
assigned the sum of products.
-/
namespace TwoLevel

/-- A module of one output. -/
structure VerilogModule where
  name : String
  inputs : List String
  output : String
  expression : String
  deriving DecidableEq

namespace VerilogModule

/-- The name of the module of a function of some variables. -/
def standardName (arity : Nat) : String := "kmap_" ++ toString arity ++ "v"

def ofMinimization (m : Minimization) : VerilogModule where
  name := standardName m.table.arity
  inputs := m.labels
  output := Label.output
  expression := m.sumOfProducts .verilog

def toText (m : VerilogModule) : String :=
  "module " ++ m.name ++ " (\n"
    ++ String.join (m.inputs.map fun input => "    input wire " ++ input ++ ",\n")
    ++ "    output wire " ++ m.output ++ "\n"
    ++ ");\n"
    ++ "\n"
    ++ "    assign " ++ m.output ++ " = " ++ m.expression ++ ";\n"
    ++ "\n"
    ++ "endmodule\n"

end VerilogModule

end TwoLevel
