/-!
# Invocations

A command line names one table file and chooses what to do with it, what to print, and where to
leave files. Arguments are taken from left to right. A long option has its value after an equals
sign or in the next argument; the letters of short options may share an argument, whose remainder is
the value of the first letter that takes one. After two hyphens every argument is a file.

The first argument that does not fit makes the command line unusable, and so does an option given
twice, with the exception of the one for verbosity, which has no effect on the answer.
-/
namespace TwoLevel.CommandLine

/-- What is done with the table. -/
inductive Command where
  | minimize
  | exact
  | map
  | verify
  | echo
  deriving DecidableEq

inductive Output where
  | sop
  | pos
  | code
  | verilog
  | testbench
  | all
  deriving DecidableEq

/-- A usable command line. -/
structure Invocation where
  file : String
  command : Command
  output : Output
  /-- Whether a summary is given beside the answer. -/
  summary : Bool
  /-- The directory in which the artifacts are left. -/
  directory? : Option String
  deriving DecidableEq

/-- Why a command line is not run. -/
inductive Stop where
  | unusable
  | help
  | version
  deriving DecidableEq

def Command.ofName? : String → Option Command
  | "minimize" => some minimize
  | "exact" => some exact
  | "map" => some map
  | "verify" => some verify
  | "echo" => some echo
  | _ => none

def Output.ofName? : String → Option Output
  | "sop" => some sop
  | "pos" => some pos
  | "code" => some code
  | "verilog" => some verilog
  | "testbench" => some testbench
  | "all" => some all
  | _ => none

/-- An option that takes a value. -/
inductive Valued where
  | command
  | output
  | directory
  deriving DecidableEq

/-- An option of either kind. -/
inductive Choice where
  | valued (which : Valued)
  | summary
  | verbose
  | help
  | version
  deriving DecidableEq

def Choice.ofName? : String → Option Choice
  | "do" => some (valued .command)
  | "output" => some (valued .output)
  | "out-dir" => some (valued .directory)
  | "summary" => some summary
  | "verbose" => some verbose
  | "help" => some help
  | "version" => some version
  | _ => none

def Choice.ofLetter? : Char → Option Choice
  | 'D' => some (valued .command)
  | 'o' => some (valued .output)
  | 'O' => some (valued .directory)
  | 's' => some summary
  | 'v' => some verbose
  | 'h' => some help
  | 'V' => some version
  | _ => none

/-- What the next argument is. -/
inductive Awaiting where
  | anything
  | value (which : Valued)
  | file
  deriving DecidableEq

/-- What the arguments so far have chosen. -/
structure Draft where
  file? : Option String := none
  command? : Option Command := none
  output? : Option Output := none
  summary : Bool := false
  directory? : Option String := none
  awaiting : Awaiting := .anything
  deriving DecidableEq

namespace Draft

/-- Names the file, which no argument has named before; the empty name is none. -/
def addFile (draft : Draft) (name : String) : Except Stop Draft :=
  if draft.file?.isSome || name.isEmpty then .error .unusable
  else .ok { draft with file? := some name }

/-- Gives an option its value, which it has not had before. -/
def give (draft : Draft) (which : Valued) (value : String) : Except Stop Draft :=
  match which with
  | .command =>
    match draft.command?, Command.ofName? value with
    | none, some command => .ok { draft with command? := some command, awaiting := .anything }
    | _, _ => .error .unusable
  | .output =>
    match draft.output?, Output.ofName? value with
    | none, some output => .ok { draft with output? := some output, awaiting := .anything }
    | _, _ => .error .unusable
  | .directory =>
    if draft.directory?.isSome || value.isEmpty then .error .unusable
    else .ok { draft with directory? := some value, awaiting := .anything }

/-- Follows an option that takes no value. -/
def choose (draft : Draft) : Choice → Except Stop Draft
  | .valued which => .ok { draft with awaiting := .value which }
  | .summary => if draft.summary then .error .unusable else .ok { draft with summary := true }
  | .verbose => .ok draft
  | .help => .error .help
  | .version => .error .version

/-- Follows a long option, read after its two hyphens. -/
def long (draft : Draft) (chars : List Char) : Except Stop Draft :=
  let name := chars.takeWhile (· ≠ '=')
  match Choice.ofName? (String.ofList name), chars.drop name.length with
  | none, _ => .error .unusable
  | some choice, [] => draft.choose choice
  | some (.valued which), _ :: value => draft.give which (String.ofList value)
  | some _, _ :: _ => .error .unusable

/-- A value that stands in one argument with its letter, perhaps after an equals sign. -/
def attached : List Char → List Char
  | '=' :: value => value
  | value => value

/-- Follows the letters of short options, read after the hyphen. -/
def short (draft : Draft) : List Char → Except Stop Draft
  | [] => .ok draft
  | letter :: rest =>
    match Choice.ofLetter? letter with
    | none => .error .unusable
    | some (.valued which) =>
      if rest.isEmpty then draft.choose (.valued which)
      else draft.give which (String.ofList (attached rest))
    | some choice => (draft.choose choice).bind fun next => next.short rest

/-- An argument that is read as options: it begins with a hyphen and is not the hyphen alone. -/
def isOption (argument : String) : Bool :=
  match argument.toList with
  | '-' :: _ :: _ => true
  | _ => false

def follow (draft : Draft) (argument : String) : Except Stop Draft :=
  match draft.awaiting with
  | .file => draft.addFile argument
  | .value which => if isOption argument then .error .unusable else draft.give which argument
  | .anything =>
    match argument.toList with
    | ['-', '-'] => .ok { draft with awaiting := .file }
    | '-' :: '-' :: name => draft.long name
    | '-' :: letter :: rest => draft.short (letter :: rest)
    | _ => draft.addFile argument

/-- The command line, if every option has its value and a file is named. -/
def finish (draft : Draft) : Except Stop Invocation :=
  match draft.awaiting, draft.file? with
  | .value _, _ => .error .unusable
  | _, none => .error .unusable
  | _, some file =>
    .ok
      { file
        command := draft.command?.getD .minimize
        output := draft.output?.getD .sop
        summary := draft.summary
        directory? := draft.directory? }

end Draft

def Invocation.ofArguments (arguments : List String) : Except Stop Invocation :=
  (arguments.foldlM Draft.follow {}).bind Draft.finish

end TwoLevel.CommandLine
