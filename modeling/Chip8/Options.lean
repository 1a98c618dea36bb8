/-
What the command line asks for. Two arguments are switches and mean the same wherever
they stand. The others are read in order: the first is the name of a ROM, the second the
number of instructions to a frame, and there is no third. Reading stops at the first
argument that cannot be used; what was read before it stands.
-/

import Chip8.Log

namespace Chip8

/-- What the command line asks for. -/
structure Options where
  rom : String
  instructionsPerFrame : Nat
  disassemble : Bool
  debug : Bool
  deriving DecidableEq, Repr

/-- Why an argument cannot be used. -/
inductive Complaint where
  | badInstructionsPerFrame (argument : String)
  | unexpectedArgument (argument : String)
  deriving DecidableEq, Repr

namespace Options

/-- What holds where the command line says nothing. -/
def defaults : Options := ⟨"INVADERS", 10, false, false⟩

/-- The largest number of instructions to a frame. -/
def maxInstructionsPerFrame : Nat := 1000

end Options

/-- A complaint in words. -/
def Complaint.message : Complaint → String
  | badInstructionsPerFrame argument =>
    "instructions-per-frame must be between 1 and " ++ toString Options.maxInstructionsPerFrame ++
      ", got '" ++ argument ++ "'"
  | unexpectedArgument argument => "unexpected argument '" ++ argument ++ "'"

namespace Options

/-! ### Numbers -/

/-- The blanks that may stand before a number. -/
def isBlank (character : Char) : Bool :=
  [' ', '\t', '\n', '\x0b', '\x0c', '\r'].contains character

/-- The value of a row of decimal digits. -/
def decimalValue (digits : List Char) : Nat :=
  digits.foldl (fun value digit => 10 * value + (digit.toNat - '0'.toNat)) 0

/-- The number in a text: blanks, a plus sign or none, and digits up to the end. A
negative number is none, since nothing negative is ever asked for. -/
def number? (text : List Char) : Option Nat :=
  let digits := match text.dropWhile isBlank with
    | '+' :: rest => rest
    | rest => rest
  if digits ≠ [] ∧ digits.all Char.isDigit then some (decimalValue digits) else none

/-- The number of instructions to a frame in an argument, if it is one that can be used. -/
def instructionsPerFrame? (argument : String) : Option Nat :=
  (number? argument.toList).filter fun value => 1 ≤ value && value ≤ maxInstructionsPerFrame

/-! ### Arguments -/

/-- What the next argument that is no switch will be taken for. -/
inductive Place where
  | rom
  | instructionsPerFrame
  | nothing
  deriving DecidableEq, Repr

/-- What was read of a command line, and what it was that ended the reading early. -/
structure Parse where
  options : Options
  complaint : Option Complaint
  deriving DecidableEq, Repr

/-- Reads arguments on top of what was read before. -/
def parseFrom (options : Options) (place : Place) : List String → Parse
  | [] => ⟨options, none⟩
  | argument :: rest =>
    if argument = "--debug" then parseFrom { options with debug := true } place rest
    else if argument = "--disassemble" then
      parseFrom { options with disassemble := true } place rest
    else match place with
      | .rom => parseFrom { options with rom := argument } .instructionsPerFrame rest
      | .instructionsPerFrame =>
        match instructionsPerFrame? argument with
        | some value => parseFrom { options with instructionsPerFrame := value } .nothing rest
        | none => ⟨options, some (.badInstructionsPerFrame argument)⟩
      | .nothing => ⟨options, some (.unexpectedArgument argument)⟩

/-- Reads a command line. -/
def parse (arguments : List String) : Parse := parseFrom defaults .rom arguments

/-- What a reading of the command line leaves in the log: nothing, or what was wrong. -/
def Parse.log (parse : Parse) : List Log.Record :=
  match parse.complaint with
  | none => []
  | some complaint => [.error complaint.message]

/-! ### What was read -/

theorem le_of_instructionsPerFrame?_eq_some {argument : String} {value : Nat}
    (found : instructionsPerFrame? argument = some value) :
    1 ≤ value ∧ value ≤ maxInstructionsPerFrame := by
  have inRange := (Option.filter_eq_some_iff.mp found).2
  simpa using inRange

/-- There is always an instruction to a frame. -/
theorem one_le_parseFrom {options : Options} (place : Place) (arguments : List String)
    (some : 1 ≤ options.instructionsPerFrame) :
    1 ≤ (parseFrom options place arguments).options.instructionsPerFrame := by
  fun_induction parseFrom options place arguments with
  | case1 | case6 | case7 => exact some
  | case2 _ _ _ inductionHypothesis | case3 _ _ _ _ inductionHypothesis
  | case4 _ _ _ _ _ inductionHypothesis => exact inductionHypothesis some
  | case5 _ _ _ _ _ _ found inductionHypothesis =>
    exact inductionHypothesis (le_of_instructionsPerFrame?_eq_some found).1

/-- A command line that is read to its end asks for a listing if it has the switch for one
among its arguments, wherever that stands. -/
theorem disassemble_parseFrom_iff {options : Options} {place : Place} {arguments : List String}
    (accepted : (parseFrom options place arguments).complaint = none) :
    (parseFrom options place arguments).options.disassemble = true ↔
      options.disassemble = true ∨ "--disassemble" ∈ arguments := by
  fun_induction parseFrom options place arguments with
  | case1 => simp
  | case2 _ _ _ inductionHypothesis | case3 _ _ _ _ inductionHypothesis =>
    rw [inductionHypothesis accepted]
    simp
  | case4 _ _ _ _ other inductionHypothesis | case5 _ _ _ _ other _ _ inductionHypothesis =>
    rw [inductionHypothesis accepted]
    simp [Ne.symm other]
  | case6 | case7 => cases accepted

end Options

end Chip8
