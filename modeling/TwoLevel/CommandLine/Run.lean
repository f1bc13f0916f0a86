import TwoLevel.CommandLine.Invocation
import TwoLevel.Files.Tree
import TwoLevel.Karnaugh.Drawing
import TwoLevel.Verification
import TwoLevel.Verilog.Testbench

/-!
# Runs

A run answers an invocation from the contents of its file. It prints an answer, gives notices beside
it, and may ask for files to be left in a directory. Whether that succeeds is known only afterwards,
so the outcome of a run is made from the run and from what became of its files. A run that asks for
a drawing that there is not breaks off with a fault of its own.

The files of a minimization are the module, its testbench, the two forms of the function and the
table it was made from. An invocation is carried out on a tree of files: it reads its file from
there and leaves its files there.
-/
namespace TwoLevel

namespace Minimization

/-- The file of the product of sums, if it was derived. -/
def clauseArtifact (m : Minimization) : List (String × String) :=
  ((m.productOfSums? .human).map fun text => ("minimized_POS.txt", text ++ "\n")).toList

/-- The names and contents of the files, in the order in which they are written. -/
def artifacts (m : Minimization) : List (String × String) :=
  [("module.v", (VerilogModule.ofMinimization m).toText),
    ("testbench.v", (Testbench.ofMinimization m).toText),
    ("minimized_SOP.txt", m.sumOfProducts .human ++ "\n")]
    ++ m.clauseArtifact
    ++ [("kmap_run.txt", TableText.write m.table)]

end Minimization

namespace CommandLine

/-- Files to be left in a directory. -/
structure Export where
  directory : String
  files : List (String × String)
  deriving DecidableEq

/-- What a run gives before its files are written. -/
structure Run where
  answer : String := ""
  notices : List String := []
  export? : Option Export := none
  error? : Option Error := none
  /-- The fault that made the run break off. -/
  fault? : Option String := none
  deriving DecidableEq

/-- What a finished run shows. -/
structure Outcome where
  exitCode : Nat
  answer : String
  notices : List String
  deriving DecidableEq

/-- The product of sums as it is printed. -/
def clauseLine (m : Minimization) : String :=
  (m.productOfSums? .human).getD "(product of sums not derived)"

def answerText (m : Minimization) : Output → String
  | .sop => m.sumOfProducts .human ++ "\n"
  | .pos => clauseLine m ++ "\n"
  | .code => m.sumOfProducts .code ++ "\n"
  | .verilog => (VerilogModule.ofMinimization m).toText
  | .testbench => (Testbench.ofMinimization m).toText
  | .all =>
    "SOP:  " ++ m.sumOfProducts .human ++ "\n"
      ++ "POS:  " ++ clauseLine m ++ "\n"
      ++ "Code: " ++ m.sumOfProducts .code ++ "\n"
      ++ "\n"
      ++ (VerilogModule.ofMinimization m).toText
      ++ "\n"
      ++ (Testbench.ofMinimization m).toText

/-- The notices that sum up a minimization. -/
def summaryLines (m : Minimization) : List String :=
  let t := m.table
  ["Input: " ++ toString t.arity ++ " variables, " ++ toString t.minterms.length ++ " minterms, "
      ++ toString t.dontCares.length ++ " don't-cares, " ++ toString t.zeros.length ++ " zeros",
    "Prime implicants: " ++ toString m.primes.size]
    ++ m.primes.toList.map (fun p => "  " ++ p.toText)
    ++ ["SOP cover: " ++ toString m.products.length ++ " terms, " ++ toString m.literalCount
      ++ " literals"]
    ++ (m.clauses?.map fun cover => "POS cover: " ++ toString cover.length ++ " clauses").toList

namespace Invocation

/-- The settings that a command minimizes with. -/
def settings (invocation : Invocation) : Settings :=
  if invocation.command = .exact then .exact else .standard

/-- The notice of a verification that succeeded. -/
def verifiedLines (invocation : Invocation) : List String :=
  if invocation.command = .verify ∧ invocation.summary then
    ["All renderings agree with the table"]
  else []

/-- Checks a minimization if the command asks for it. -/
def check (invocation : Invocation) (m : Minimization) : Except Error Unit :=
  if invocation.command = .verify then m.verify else .ok ()

/-- The run that minimizes a table. -/
def minimize (invocation : Invocation) (t : TruthTable) : Except Error Run := do
  let m ← (Minimization.ofTable t invocation.settings).mapError .cover
  invocation.check m
  return {
    answer := answerText m invocation.output
    notices := invocation.verifiedLines ++ if invocation.summary then summaryLines m else []
    export? := invocation.directory?.map fun directory => ⟨directory, m.artifacts⟩ }

/-- The run that draws a table. -/
def drawingRun (t : TruthTable) : Run :=
  match (Karnaugh.Layout.ofVariables t.arity).draw? t with
  | some drawing => { answer := drawing }
  | none => { fault? := some "Formatting argument out of range" }

/-- The run on a table that has been read. -/
def answerTable (invocation : Invocation) (t : TruthTable) : Except Error Run :=
  match invocation.command with
  | .echo => .ok { answer := TableText.write t }
  | .map => .ok (drawingRun t)
  | _ => invocation.minimize t

/-- The run on the contents of the file, or on the failure to read it. -/
def run (invocation : Invocation) (contents : Except IoFailure ByteArray) : Run :=
  match TableText.readContents contents with
  | .error error => { error? := some (.ofReadError error) }
  | .ok t =>
    match invocation.answerTable t with
    | .error error => { error? := some error }
    | .ok done => done

end Invocation

def errorLine (error : Error) : String := "Error: " ++ error.message

/-- The notices of the files that have been written. -/
def writtenLines (summary : Bool) (files : Export) : List String :=
  if summary then files.files.map fun (name, _) => "Wrote " ++ Path.join files.directory name
  else []

/-- The exit code of a run that breaks off. -/
def faultCode : Nat := 101

/-- The outcome of a run whose files were written, or whose files could not be written. -/
def Run.outcome (run : Run) (summary : Bool) (written : Except IoFailure Unit) : Outcome :=
  match run.fault?, run.error?, run.export?, written with
  | some fault, _, _, _ => ⟨faultCode, run.answer, run.notices ++ [fault]⟩
  | none, some error, _, _ => ⟨1, run.answer, run.notices ++ [errorLine error]⟩
  | none, none, none, _ => ⟨0, run.answer, run.notices⟩
  | none, none, some _, .error failure => ⟨1, run.answer, run.notices ++ [errorLine (.io failure)]⟩
  | none, none, some files, .ok _ => ⟨0, run.answer, run.notices ++ writtenLines summary files⟩

/-- The outcome of an invocation on a tree, and the tree after it. -/
def Invocation.execute (invocation : Invocation) (tree : FileTree) : Outcome × FileTree :=
  let run := invocation.run (tree.contents invocation.file)
  match run.export? with
  | none => (run.outcome invocation.summary (.ok ()), tree)
  | some files =>
    let (after, written) := tree.leave files.directory files.files
    (run.outcome invocation.summary written, after)

end CommandLine

end TwoLevel
