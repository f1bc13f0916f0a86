import TwoLevel.Files.Path

/-!
# Trees of files

A tree holds directories and files, each at a place, and one directory of it is the working
directory. A place is written with the innermost name first, so that the directory around a place is
its tail and the root is the empty list.

Walking a path fails at the first name that leads nowhere. The reason is fixed by what stands there:
a name that is absent is not found, and a name after a file meets no directory. An action on a tree
keeps what it has done so far when it fails.
-/
namespace TwoLevel

/-- What stands at a place. -/
inductive Entry where
  | directory
  | file (contents : ByteArray)

/-- Directories and files. -/
structure FileTree where
  entries : List (List String × Entry)
  /-- The place of the working directory. -/
  working : List String

namespace FileTree

/-- What stands at a place. The root is always a directory. -/
def entry? (tree : FileTree) (place : List String) : Option Entry :=
  if place.isEmpty then some .directory else tree.entries.lookup place

/-- Whether a directory stands at a place. -/
def isDirectory (tree : FileTree) (place : List String) : Bool :=
  match tree.entry? place with
  | some .directory => true
  | _ => false

/-- The tree with an entry at a place, instead of the one that was there. -/
def put (tree : FileTree) (place : List String) (entry : Entry) : FileTree :=
  { tree with entries := (place, entry) :: tree.entries.filter fun (other, _) => other ≠ place }

/-- The files in the directory at a place, by name. -/
def filesIn (tree : FileTree) (place : List String) : List (String × ByteArray) :=
  tree.entries.filterMap fun (found, entry) =>
    match found, entry with
    | name :: around, .file contents => if around = place then some (name, contents) else none
    | _, _ => none

/-- Follows a name from a place. -/
def step (tree : FileTree) (place : List String) (name : String) : Except IoFailure (List String) :=
  if !tree.isDirectory place then .error .notDirectory
  else if name = Path.here then .ok place
  else if name = Path.around then .ok place.tail
  else if Path.maxNameSize < name.utf8ByteSize then .error .nameTooLong
  else if (tree.entry? (name :: place)).isSome then .ok (name :: place)
  else .error .notFound

/-- The place where the walk of a path begins. -/
def origin (tree : FileTree) (path : Path) : List String :=
  if path.absolute then [] else tree.working

/-- Follows names from the place where the walk of a path begins. -/
def walk (tree : FileTree) (path : Path) (names : List String) : Except IoFailure (List String) :=
  names.foldlM tree.step (tree.origin path)

/-- The place to which a path leads. -/
def locate (tree : FileTree) (path : Path) : Except IoFailure (List String) := do
  let place ← tree.walk path path.names
  if path.closed && !tree.isDirectory place then .error .notDirectory else .ok place

/-- Whether a path leads to a directory. -/
def leadsToDirectory (tree : FileTree) (path : Path) : Bool :=
  match tree.locate path with
  | .ok place => tree.isDirectory place
  | .error _ => false

/-- The contents of the file that a text names. -/
def contents (tree : FileTree) (text : String) : Except IoFailure ByteArray := do
  let place ← tree.locate (← Path.ofText text)
  match tree.entry? place with
  | some (.file contents) => .ok contents
  | _ => .error .isDirectory

/-- The place that the last name of a path has or would have. Nothing can be put at the root, nor
under the names that stand for directories already reached: these are occupied. -/
def placeFor (tree : FileTree) (path : Path) (occupied : IoFailure) :
    Except IoFailure (List String) := do
  match path.names.getLast? with
  | none => .error occupied
  | some name =>
    let around ← tree.walk path path.names.dropLast
    if !tree.isDirectory around then .error .notDirectory
    else if name = Path.here ∨ name = Path.around then .error occupied
    else if Path.maxNameSize < name.utf8ByteSize then .error .nameTooLong
    else .ok (name :: around)

/-- Makes a directory where nothing stands. -/
def make (tree : FileTree) (path : Path) : Except IoFailure FileTree := do
  let place ← tree.placeFor path .alreadyExists
  if (tree.entry? place).isSome then .error .alreadyExists else .ok (tree.put place .directory)

/-- Writes a file, over the one that stands there if there is one. -/
def write (tree : FileTree) (text : String) (contents : ByteArray) : Except IoFailure FileTree := do
  let path ← Path.ofText text
  let place ← tree.placeFor path .isDirectory
  if path.closed || tree.isDirectory place then .error .isDirectory
  else .ok (tree.put place (.file contents))

/-- A tree after an action, and the failure that ended the action. -/
abbrev After := FileTree × Except IoFailure Unit

/-- Makes a directory, unless it is there. -/
def makeOrFind (tree : FileTree) (path : Path) : After :=
  match tree.make path with
  | .error failure =>
    if failure = .alreadyExists ∧ tree.leadsToDirectory path then (tree, .ok ())
    else (tree, .error failure)
  | .ok made => (made, .ok ())

/-- Makes the first directory of a list. Where that is not found, the rest of the list, which holds
the directories around it, is made before. -/
def makeAll (tree : FileTree) : List Path → After
  | [] => (tree, .ok ())
  | path :: outer =>
    match tree.makeOrFind path with
    | (same, .error failure) =>
      if failure = .notFound then
        match makeAll tree outer with
        | (made, .ok _) => made.makeOrFind path
        | failed => failed
      else (same, .error failure)
    | done => done

/-- Makes the directory that a text names, together with those around it. -/
def makeDirectories (tree : FileTree) (text : String) : After :=
  match Path.ofText text with
  | .error failure => (tree, .error failure)
  | .ok path => tree.makeAll path.ancestors

/-- Writes texts into a directory under their names, up to the first that fails. -/
def writeAll (tree : FileTree) (directory : String) : List (String × String) → After
  | [] => (tree, .ok ())
  | (name, text) :: rest =>
    match tree.write (Path.join directory name) text.toUTF8 with
    | .error failure => (tree, .error failure)
    | .ok written => written.writeAll directory rest

/-- Writes texts into a directory, which is made if it is not there. -/
def leave (tree : FileTree) (directory : String) (files : List (String × String)) : After :=
  match tree.makeDirectories directory with
  | (made, .ok _) => made.writeAll directory files
  | failed => failed

end FileTree

end TwoLevel
