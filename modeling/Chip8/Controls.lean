/-
The keyboard of the host. Sixteen of its keys, the left-hand block of four by four, are
bound to the keys of the keypad; one closes the window, and the rest do nothing. A key
that repeats is a key that is still down and changes nothing.
-/

import Chip8.Machine.State

namespace Chip8

/-- What a key of the host did. -/
inductive KeyAction where
  | release
  | press
  | repetition
  deriving DecidableEq, Repr

/-- A key of the host, by its code, and what it did. -/
structure KeyEvent where
  code : Int
  action : KeyAction
  deriving DecidableEq, Repr

/-- What was done on the keyboard between two drawings of the window. -/
abbrev Frame := List KeyEvent

/-- The code of the key that closes the window. -/
def escapeCode : Int := 256

/-- The keys of the keypad and the host's keys they are bound to: `1234`, `QWER`, `ASDF`
and `ZXCV`, laid over the keypad's four rows. -/
def bindings : List (Int × UInt8) := [
  (49, 0x1), (50, 0x2), (51, 0x3), (52, 0xC),
  (81, 0x4), (87, 0x5), (69, 0x6), (82, 0xD),
  (65, 0x7), (83, 0x8), (68, 0x9), (70, 0xE),
  (90, 0xA), (88, 0x0), (67, 0xB), (86, 0xF)]

/-- The key of the keypad that a code is bound to. -/
def boundKey? (code : Int) : Option UInt8 := bindings.lookup code

namespace KeyEvent

/-- Whether an event asks for the window to be closed. -/
def closes (event : KeyEvent) : Bool := event.code == escapeCode && event.action == .press

/-- The event that a word of a key script stands for: a sign for what was done, then the
code of the key. -/
def ofText? (word : String) : Option KeyEvent :=
  match word.toList with
  | '+' :: code => (String.ofList code).toNat?.map fun code => ⟨code, .press⟩
  | '-' :: code => (String.ofList code).toNat?.map fun code => ⟨code, .release⟩
  | _ => none

/-- What an event does to the keypad. -/
def apply (event : KeyEvent) (machine : Machine) : Machine :=
  if event.action = .repetition then machine
  else match boundKey? event.code with
    | some key => machine.setKey key (event.action == .press)
    | none => machine

end KeyEvent

namespace Frame

/-- The frame that a line of a key script stands for. Words that stand for no event are
passed over. -/
def ofText (line : String) : Frame := (line.splitOn " ").filterMap KeyEvent.ofText?

/-- The frames of a key script, one to a line. What stands after the last line break is no
line. -/
def ofScript (script : String) : List Frame := (script.splitOn "\n").dropLast.map ofText

/-- Whether a frame asks for the window to be closed. -/
def closes (frame : Frame) : Bool := frame.any KeyEvent.closes

/-- What the events of a frame do to the keypad, one after the other. -/
def apply (frame : Frame) (machine : Machine) : Machine :=
  frame.foldl (fun machine event => event.apply machine) machine

end Frame

end Chip8
