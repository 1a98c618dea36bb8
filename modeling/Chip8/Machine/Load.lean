/-
Loading a program. A load either is refused, and then nothing has changed, or it starts
the machine afresh: of what the machine was before, only the keys that are held, the
random bytes to come and the limit on the history are carried over.
-/

import Chip8.Machine.Outcome

namespace Chip8.Machine

/-- A machine about to run an image that is in memory. -/
def restart (machine : Machine) (memory : Memory) : Machine :=
  { create 0 with
    stack := machine.stack.clear
    memory := memory
    display := machine.display.clear
    keypad := machine.keypad
    generator := machine.generator
    mode := .running
    history := machine.history.clear }

/-- Loads an image and starts it. -/
def load (machine : Machine) (image : List UInt8) : Outcome :=
  match Memory.ofImage image with
  | .ok memory =>
    .after [.info ("Loaded " ++ toString image.length ++ " bytes into memory")]
      (.done (machine.restart memory))
  | .error fault =>
    .after [.error ("ROM of " ++ toString image.length ++
        " bytes doesn't fit in CHIP-8 memory (limit " ++ toString imageLimit ++ ")")]
      (.halted fault machine)

/-! ### The two ways of a load -/

theorem load_of_le (machine : Machine) {image : List UInt8} (fits : image.length ≤ imageLimit) :
    machine.load image =
      .after [.info ("Loaded " ++ toString image.length ++ " bytes into memory")]
        (.done (machine.restart (Memory.blank.write Address.entryPoint.val image))) := by
  simp only [load, Memory.ofImage, if_pos fits]

theorem load_of_lt (machine : Machine) {image : List UInt8} (exceeds : imageLimit < image.length) :
    machine.load image =
      .after [.error ("ROM of " ++ toString image.length ++
          " bytes doesn't fit in CHIP-8 memory (limit " ++ toString imageLimit ++ ")")]
        (.halted .romTooLarge machine) := by
  simp only [load, Memory.ofImage, if_neg (Nat.not_le_of_lt exceeds)]

end Chip8.Machine
