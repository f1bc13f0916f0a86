/-!
# Failures of input and output

A failure of the system is a kind together with the system's own wording. The wordings given here
are those of the failures that a run can meet.
-/
namespace TwoLevel

/-- The kinds of failure that are told apart. -/
inductive FailureKind where
  | notFound
  | permissionDenied
  | alreadyExists
  | isDirectory
  | notDirectory
  | nameTooLong
  | invalidData
  | other
  deriving DecidableEq

/-- A failure of the system. -/
structure IoFailure where
  kind : FailureKind
  text : String
  deriving DecidableEq

namespace IoFailure

/-- There is no file of that name. -/
def notFound : IoFailure := ⟨.notFound, "No such file or directory (os error 2)"⟩

/-- A file stands where a directory is to be made. -/
def alreadyExists : IoFailure := ⟨.alreadyExists, "File exists (os error 17)"⟩

/-- A directory cannot be read as a file. -/
def isDirectory : IoFailure := ⟨.isDirectory, "Is a directory (os error 21)"⟩

/-- A file stands where a directory is to be entered. -/
def notDirectory : IoFailure := ⟨.notDirectory, "Not a directory (os error 20)"⟩

/-- A name or a path has too many bytes. -/
def nameTooLong : IoFailure := ⟨.nameTooLong, "File name too long (os error 36)"⟩

/-- A line is no text. -/
def notText : IoFailure := ⟨.invalidData, "stream did not contain valid UTF-8"⟩

end IoFailure

end TwoLevel
