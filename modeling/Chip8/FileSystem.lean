/-
Files. To the program a file system is just the answer to one question: what does a path
lead to? A tree of files and directories is one such file system. It is rooted at the
current directory and there is nothing outside it, so a path that begins at the root of
the machine or climbs above the tree leads nowhere. A path is walked from name to name,
and each name is looked up in a directory; a file cannot be walked through, not even by
an empty name after a last slash. A path ends at its first NUL, and one that is too long
leads nowhere, wherever its names would.
-/

namespace Chip8

/-- What a path can lead to. -/
inductive Entry where
  | file (contents : List UInt8)
  | directory
  deriving DecidableEq, Repr

/-- What each path leads to, if anything. -/
abbrev FileSystem := String → Option Entry

namespace FileSystem

/-- Whether a path leads to a file. -/
def isFile (files : FileSystem) (path : String) : Bool :=
  match files path with
  | some (.file _) => true
  | _ => false

theorem isFile_iff {files : FileSystem} {path : String} :
    files.isFile path = true ↔ ∃ contents, files path = some (.file contents) := by
  unfold isFile
  split
  · next contents found => exact iff_of_true rfl ⟨contents, found⟩
  · next nowhere =>
    exact iff_of_false Bool.false_ne_true fun ⟨contents, found⟩ => nowhere contents found

end FileSystem

/-- A path seen from a directory. A right side that begins at the root of the machine
replaces the directory; otherwise the two are set apart by one slash. -/
def joinPath (directory path : String) : String :=
  if path.toList.head? = some '/' then path
  else if directory = "" ∨ directory.toList.getLast? = some '/' then directory ++ path
  else directory ++ "/" ++ path

/-- Behind a directory whose name ends in another character a path follows after a slash. -/
theorem joinPath_of_getLast? {directory path : String} {last : Char}
    (ends : directory.toList.getLast? = some last) (plain : last ≠ '/') :
    joinPath directory path =
      if path.toList.head? = some '/' then path else directory ++ "/" ++ path := by
  have named : directory ≠ "" := fun nameless => by
    rw [nameless] at ends
    cases ends
  have unclosed : ¬(directory = "" ∨ directory.toList.getLast? = some '/') := by
    rw [ends]
    exact not_or.mpr ⟨named, fun slash => plain (Option.some.inj slash)⟩
  rw [joinPath, if_neg unclosed]

/-! ### Paths -/

/-- How many bytes a path may have at most. -/
def maxPathSize : Nat := 4095

/-- A path as it is looked up: what stands from its first NUL on does not count. -/
def terminatedPath (path : String) : String :=
  String.ofList (path.toList.takeWhile fun character => character ≠ Char.ofNat 0)

/-- The names on the way from the current directory to a file or directory. -/
abbrev Route := List String

/-- Where a name leads to from a place. There is nothing above the current directory. -/
def Route.next? (place : Route) (name : String) : Option Route :=
  if name = "" ∨ name = "." then some place
  else if name = ".." then if place.isEmpty then none else some place.dropLast
  else some (place ++ [name])

/-- The places that a walk by names passes through and, last, the one that it ends at. -/
def Route.trail (place : Route) : List String → List Route
  | [] => [place]
  | name :: rest =>
    place :: match Route.next? place name with
      | some further => Route.trail further rest
      | none => []

/-! ### Trees -/

/-- A tree of files, with directories that may have nothing in them. -/
structure FileTree where
  files : List (Route × List UInt8)
  directories : List Route

namespace FileTree

/-- The trail of a path from the current directory. -/
def pathTrail (path : String) : List Route := Route.trail [] ((terminatedPath path).splitOn "/")

/-- The tree with files and directories at given paths. Each place that one of the paths
passes through is a directory. Of two files at one place the later one counts. -/
def ofPaths (files : List (String × List UInt8)) (directories : List String) : FileTree where
  files := files.reverse.filterMap fun (path, contents) =>
    (pathTrail path).getLast?.map fun place => (place, contents)
  directories := directories.flatMap pathTrail ++
    files.flatMap fun file => (pathTrail file.1).dropLast

/-- What is at a place. The current directory is always there, and a directory is not
replaced by a file that is said to be at its place. -/
def entry? (tree : FileTree) (place : Route) : Option Entry :=
  if place.isEmpty || tree.directories.contains place then some .directory
  else (tree.files.lookup place).map .file

/-- Walks names on from a place. The place that a name is looked up in has to be a
directory. -/
def walk (tree : FileTree) (place : Route) : List String → Option Entry
  | [] => tree.entry? place
  | name :: rest =>
    match tree.entry? place with
    | some .directory => (Route.next? place name).bind fun further => tree.walk further rest
    | _ => none

/-- The file system of a tree. -/
def fileSystem (tree : FileTree) : FileSystem := fun path =>
  let named := terminatedPath path
  if named = "" ∨ named.toList.head? = some '/' ∨ maxPathSize < named.utf8ByteSize then none
  else tree.walk [] (named.splitOn "/")

end FileTree

end Chip8
