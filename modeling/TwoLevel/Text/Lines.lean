/-!
# Lines

A text file is a sequence of lines that end at a newline. Whether its bytes are text is decided line
by line, so that a reader which stops early never looks at what follows.
-/
namespace TwoLevel.Text

/-- Splits a sequence at each occurrence of a separator. -/
def splitAtEach {α : Type} [DecidableEq α] (separator : α) : List α → List (List α)
  | [] => [[]]
  | first :: rest =>
    if first = separator then [] :: splitAtEach separator rest
    else
      match splitAtEach separator rest with
      | [] => [[first]]
      | line :: more => (first :: line) :: more

def linesOfText (text : String) : List (Option (List Char)) :=
  (splitAtEach '\n' text.toList).map some

/-- The lines of a file; nothing stands for a line that is not valid UTF-8. -/
def linesOfBytes (bytes : ByteArray) : List (Option (List Char)) :=
  (splitAtEach '\n'.toUInt8 bytes.toList).map fun line =>
    (String.fromUTF8? ⟨line.toArray⟩).map String.toList

end TwoLevel.Text
