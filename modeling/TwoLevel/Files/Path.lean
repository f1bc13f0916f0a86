import TwoLevel.IoFailure
import TwoLevel.Text.Lines

/-!
# Paths

A path is a row of names between slashes. It is walked from the root if it begins with a slash and
from the working directory otherwise. A slash at its end asks for a directory. The name `.` stays
where the walk is and the name `..` leads to the directory around it.
-/
namespace TwoLevel

/-- A path that can be walked. -/
structure Path where
  /-- Whether the walk begins at the root. -/
  absolute : Bool
  names : List String
  /-- Whether a slash at the end asks for a directory. -/
  closed : Bool
  deriving DecidableEq

namespace Path

/-- The number of bytes that a path may have. -/
def maxSize : Nat := 4095

/-- The number of bytes that a name may have. -/
def maxNameSize : Nat := 255

/-- The name of the place where a walk is. -/
def here : String := "."

/-- The name of the directory around the place where a walk is. -/
def around : String := ".."

/-- Reads a path. The empty text names nothing. -/
def ofText (text : String) : Except IoFailure Path :=
  if text.isEmpty then .error .notFound
  else if maxSize < text.utf8ByteSize then .error .nameTooLong
  else
    let chars := text.toList
    .ok
      { absolute := chars.head? == some '/'
        names := ((Text.splitAtEach '/' chars).filter fun name => !name.isEmpty).map String.ofList
        closed := chars.getLast? == some '/' }

/-- The path of a name in a directory. -/
def join (directory name : String) : String :=
  if directory.toList.getLast? = some '/' then directory ++ name else directory ++ "/" ++ name

/-- The names that take a step. A point at the front of a path that begins in the working directory
is kept. -/
def steps (path : Path) : List String :=
  match path.absolute, path.names with
  | false, first :: rest => first :: rest.filter (· ≠ here)
  | _, names => names.filter (· ≠ here)

/-- The path and after it those of the directories in which it lies, from the innermost on, up to
the first name. -/
def ancestors (path : Path) : List Path :=
  path :: ((List.range' 1 (path.steps.length - 1)).reverse.map fun count =>
    { path with names := path.steps.take count, closed := false })

end Path

end TwoLevel
