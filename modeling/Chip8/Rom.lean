/-
Finding and reading the file that a program is in. A name that is itself a file is taken
as it is, and any other is looked for among the assets. A file is read as a whole or not
at all: each thing that can go wrong on the way is told apart, and the first one ends
the reading. An empty file is read as a whole even if the host gives no bytes.
-/

import Chip8.FileSystem
import Chip8.Host
import Chip8.Log

namespace Chip8

/-- Where a ROM is looked for if its name is not that of a file. -/
def assetPath (assets name : String) : String := joinPath (joinPath assets "roms") name

/-- Where a ROM of a given name is. -/
def romPath (files : FileSystem) (assets name : String) : String :=
  if files.isFile name then name else assetPath assets name

/-- Among the assets, a ROM is in their directory `roms`, unless its name begins at the root of
the machine. -/
theorem assetPath_eq (assets name : String) :
    assetPath assets name =
      if name.toList.head? = some '/' then name
      else if assets = "" ∨ assets.toList.getLast? = some '/' then assets ++ "roms/" ++ name
      else assets ++ "/roms/" ++ name := by
  have ends (front : String) : (front ++ "roms").toList.getLast? = some 's' := by
    rw [String.toList_append, List.getLast?_append]
    rfl
  have behind (front : String) : front ++ "roms" ++ "/" ++ name = front ++ "roms/" ++ name :=
    congrArg (· ++ name) String.append_assoc
  have relative : "roms".toList.head? ≠ some '/' := by decide
  have apart : assets ++ "/" ++ "roms/" = assets ++ "/roms/" := String.append_assoc
  unfold assetPath
  rw [joinPath.eq_def assets, if_neg relative]
  split
  · rw [joinPath_of_getLast? (ends assets) (by decide), behind]
  · rw [joinPath_of_getLast? (ends (assets ++ "/")) (by decide), behind, apart]

/-- Why a ROM could not be read. -/
inductive ReadFailure where
  | cannotOpen
  | cannotSeek
  | cannotMeasure
  /-- Fewer bytes came than the file has. -/
  | short (got size : Nat)
  deriving DecidableEq, Repr

namespace ReadFailure

/-- What went wrong with the file at a path. -/
def message (path : String) : ReadFailure → String
  | cannotOpen => "Failed to open ROM file: " ++ path
  | cannotSeek => "Error seeking to the end of ROM file: " ++ path
  | cannotMeasure => "Error determining size of ROM file: " ++ path
  | short got size =>
    "Error reading ROM file: " ++ path ++ " (" ++ toString got ++ " of " ++ toString size ++
      " bytes)"

end ReadFailure

/-- Reads the file at a path. What comes of it is of use only if all of it comes. -/
def readRom (files : FileSystem) (host : Host) (path : String) :
    Except ReadFailure (List UInt8) :=
  match files path with
  | some (.file contents) =>
    if host.refuses .openFile then .error .cannotOpen
    else if host.refuses .seekEnd then .error .cannotSeek
    else if host.refuses .measure then .error .cannotMeasure
    else
      let size := contents.length
      let got := host.gives size
      if got.val = size then .ok contents else .error (.short got.val size)
  | _ => .error .cannotOpen

/-- What is said about reading the file at a path. -/
def readRecord (path : String) : Except ReadFailure (List UInt8) → Log.Record
  | .ok contents => .info ("Read " ++ toString contents.length ++ " bytes from " ++ path)
  | .error failure => .error (failure.message path)

/-- What is left to do after a call that may be refused goes well only if it is not. -/
theorem unless_refused_eq_ok_iff {refused : Bool} {failure : ReadFailure}
    {rest : Except ReadFailure (List UInt8)} {image : List UInt8} :
    (if refused then .error failure else rest) = .ok image ↔
      refused = false ∧ rest = .ok image := by
  cases refused <;> simp

/-- A file is read if it is there and can be opened and measured, and all its bytes come. -/
theorem readRom_eq_ok_iff {files : FileSystem} {host : Host} {path : String}
    {image : List UInt8} :
    readRom files host path = .ok image ↔
      files path = some (.file image) ∧ host.refuses .openFile = false ∧
        host.refuses .seekEnd = false ∧ host.refuses .measure = false ∧
        (host.gives image.length).val = image.length := by
  unfold readRom
  split
  · next contents found =>
    rw [unless_refused_eq_ok_iff, unless_refused_eq_ok_iff, unless_refused_eq_ok_iff, found]
    constructor
    · rintro ⟨opens, seeks, measures, reads⟩
      dsimp only at reads
      split at reads
      · next whole =>
        cases reads
        exact ⟨rfl, opens, seeks, measures, whole⟩
      · cases reads
    · rintro ⟨same, opens, seeks, measures, whole⟩
      cases same
      exact ⟨opens, seeks, measures, if_pos whole⟩
  · next nowhere =>
    simp only [reduceCtorEq, false_iff, not_and]
    exact fun found => (nowhere image found).elim

end Chip8
