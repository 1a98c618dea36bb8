/-
Everything that can go wrong in the machine is one of five faults. An operation that can
fail gives either its result or a fault, so no caller can overlook one; the wording and
the numbering of the faults are fixed here, once, for all who report them.
-/

namespace Chip8

/-- Why an operation of the machine was refused. -/
inductive Fault where
  /-- An address computation left the twelve-bit address space. -/
  | addressOutOfRange
  /-- A range of bytes reached past the end of memory. -/
  | memoryOutOfBounds
  /-- A call was made at full depth. -/
  | stackOverflow
  /-- A return was made with no call to return from. -/
  | stackUnderflow
  /-- A program image was larger than the memory set aside for programs. -/
  | romTooLarge
  deriving DecidableEq, Repr

namespace Fault

/-- The fault in words, as log lines give it. -/
def message : Fault → String
  | addressOutOfRange => "address out of range"
  | memoryOutOfBounds => "memory access out of bounds"
  | stackOverflow => "stack overflow"
  | stackUnderflow => "stack underflow"
  | romTooLarge => "ROM too large"

/-- The number of a fault in a status code. Zero is left for success. -/
def code : Fault → Nat
  | addressOutOfRange => 1
  | memoryOutOfBounds => 2
  | stackOverflow => 3
  | stackUnderflow => 4
  | romTooLarge => 5

/-- The fault with a given number. -/
def ofCode? : Nat → Option Fault
  | 1 => some addressOutOfRange
  | 2 => some memoryOutOfBounds
  | 3 => some stackOverflow
  | 4 => some stackUnderflow
  | 5 => some romTooLarge
  | _ => none

@[simp] theorem ofCode?_code (fault : Fault) : ofCode? fault.code = some fault := by
  cases fault <;> rfl

end Fault

/-- A status code in words: zero is success, and a number that names no fault is
reported as unknown. -/
def statusText (code : Nat) : String :=
  if code = 0 then "no error"
  else match Fault.ofCode? code with
    | some fault => fault.message
    | none => "unknown error"

end Chip8
