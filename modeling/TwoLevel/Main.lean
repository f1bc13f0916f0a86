import TwoLevel.CommandLine.Run

/-!
# The program

Reads the file that the command line names, prints the answer and the notices of the run, and writes
its files.
-/
namespace TwoLevel.Program

/-- The help text. -/
def helpText : String :=
  "Truth table minimizer\n\nUsage: kmap [OPTIONS] <FILE>\n\nOptions:\n"
    ++ "  -D, --do <COMMAND>     minimize, exact, map, verify or echo (default: minimize)\n"
    ++ "  -o, --output <OUTPUT>  sop, pos, code, verilog, testbench or all (default: sop)\n"
    ++ "  -s, --summary          Print a summary to standard error\n"
    ++ "  -O, --out-dir <DIR>    Write the module, testbench and forms to a directory\n"
    ++ "  -v, --verbose          More messages\n"
    ++ "  -h, --help             Print this text\n"
    ++ "  -V, --version          Print the version\n"

/-- The number of a failure of the system, which may be passed on with its sign changed. -/
def magnitude (code : UInt32) : UInt32 := min code (0 - code)

/-- A failure of the system as the library describes it. -/
def failureOf (error : IO.Error) : IoFailure :=
  match error with
  | .noFileOrDirectory .. => .notFound
  | .alreadyExists .. => .alreadyExists
  | .inappropriateType _ code _ => if magnitude code = 20 then .notDirectory else .isDirectory
  | .invalidArgument _ code _ =>
    if magnitude code = 36 then .nameTooLong else ⟨.other, toString error⟩
  | other => ⟨.other, toString other⟩

/-- The bytes of a file. -/
def contentsOf (path : String) : IO (Except IoFailure ByteArray) := do
  try
    return .ok (← IO.FS.readBinFile path)
  catch error =>
    return .error (failureOf error)

/-- Writes the files of a run. -/
def leave (files : CommandLine.Export) : IO (Except IoFailure Unit) := do
  try
    IO.FS.createDirAll files.directory
    for (name, text) in files.files do
      IO.FS.writeFile (Path.join files.directory name) text
    return .ok ()
  catch error =>
    return .error (failureOf error)

/-- Runs an invocation. The answer is printed before the files are written. -/
def execute (invocation : CommandLine.Invocation) : IO UInt32 := do
  let run := invocation.run (← contentsOf invocation.file)
  for line in run.notices do
    IO.eprintln line
  IO.print run.answer
  (← IO.getStdout).flush
  let written ← match run.export? with
    | some files => leave files
    | none => pure (.ok ())
  let outcome := run.outcome invocation.summary written
  for line in outcome.notices.drop run.notices.length do
    IO.eprintln line
  return outcome.exitCode.toUInt32

end TwoLevel.Program

/-- The command line program. -/
def main (arguments : List String) : IO UInt32 :=
  match TwoLevel.CommandLine.Invocation.ofArguments arguments with
  | .ok invocation => TwoLevel.Program.execute invocation
  | .error .help => do
    IO.print TwoLevel.Program.helpText
    return 0
  | .error .version => do
    IO.println "kmap 0.1.0"
    return 0
  | .error .unusable => do
    IO.eprintln "error: the command line cannot be used; try --help"
    return 2
