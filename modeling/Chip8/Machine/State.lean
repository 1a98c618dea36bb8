/-
The state of the machine: what a program sees, the devices it drives, and the
bookkeeping about its run. A machine is created with no program in it; a load sets it
running, and an instruction that asks for a key makes it wait for one.
-/

import Chip8.Memory
import Chip8.Registers
import Chip8.Stack
import Chip8.Display
import Chip8.Keypad
import Chip8.Generator
import Chip8.History

namespace Chip8

/-- Whether the machine makes steps. -/
inductive Mode where
  /-- No program was loaded yet. -/
  | created
  | running
  /-- A program asked for a key, and none was down since. -/
  | waitingKey
  deriving DecidableEq, Repr

/-- How many calls can be open at once. -/
def stackCapacity : Nat := 16

/-- A machine. -/
structure Machine where
  /-- The address of the next instruction. -/
  pc : Address
  /-- The address that sprites, digits and blocks of registers are found at. -/
  index : Address
  registers : Registers
  delayTimer : UInt8
  soundTimer : UInt8
  /-- The addresses to go back to. -/
  stack : Stack Address stackCapacity
  memory : Memory
  display : Display
  keypad : Keypad
  generator : Generator
  mode : Mode
  /-- The number of the register that gets the key waited for. -/
  awaited : UInt8
  /-- How many instructions went through, modulo `2 ^ 64`. -/
  cycles : UInt64
  /-- The newest instructions, as trace lines. -/
  history : History
  deriving DecidableEq

namespace Machine

/-- A new machine, whose random bytes are fixed by a seed. -/
def create (seed : UInt64) : Machine where
  pc := .entryPoint
  index := .zero
  registers := .zero
  delayTimer := 0
  soundTimer := 0
  stack := .empty
  memory := .blank
  display := .dark
  keypad := .released
  generator := .ofSeed seed
  mode := .created
  awaited := 0
  cycles := 0
  history := .empty History.defaultLimit

/-- Puts a value in a register. -/
def setRegister (machine : Machine) (x : Register) (value : UInt8) : Machine :=
  { machine with registers := machine.registers.set x value }

/-- Presses or releases a key. -/
def setKey (machine : Machine) (key : UInt8) (down : Bool) : Machine :=
  { machine with keypad := machine.keypad.set key down }

/-- Lets go of all keys. -/
def releaseKeys (machine : Machine) : Machine := { machine with keypad := .released }

/-- Notes that the screen was shown. -/
def acknowledge (machine : Machine) : Machine :=
  { machine with display := machine.display.acknowledge }

/-- Whether the tone is to be heard. -/
def beeping (machine : Machine) : Bool := decide (0 < machine.soundTimer)

@[simp] theorem beeping_acknowledge (machine : Machine) :
    machine.acknowledge.beeping = machine.beeping := rfl

end Machine

end Chip8
