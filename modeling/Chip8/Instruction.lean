/-
An instruction is what a step carries out: an operation together with the operands that
it uses and no others. Two words that differ only in digits that their operation ignores
are the same instruction, so execution cannot depend on such a digit. Operations that
act alike share a form: both calls are calls, and all skips are a skip on a condition.
-/

import Chip8.Operation

namespace Chip8

/-- What a skip depends on. -/
inductive Condition where
  | equalByte (x : Register) (value : UInt8)
  | unequalByte (x : Register) (value : UInt8)
  | equal (x y : Register)
  | unequal (x y : Register)
  | held (x : Register)
  | released (x : Register)
  deriving DecidableEq, Repr

/-- How a register is combined with another one. The first four leave the flag alone. -/
inductive Combination where
  | copy
  | or
  | and
  | xor
  | add
  | subtract
  | subtractFrom
  deriving DecidableEq, Repr

/-- What a step carries out. -/
inductive Instruction where
  | clear
  | ret
  | jump (target : Address)
  | jumpForward (distance : Address)
  | call (target : Address)
  | skipIf (condition : Condition)
  | setByte (x : Register) (value : UInt8)
  | addByte (x : Register) (value : UInt8)
  | combine (combination : Combination) (x y : Register)
  | shiftRight (x : Register)
  | shiftLeft (x : Register)
  | setIndex (target : Address)
  | random (x : Register) (mask : UInt8)
  | draw (x y : Register) (height : Fin 16)
  | readDelay (x : Register)
  | awaitKey (x : Register)
  | setDelay (x : Register)
  | setSound (x : Register)
  | addIndex (x : Register)
  | pointGlyph (x : Register)
  | storeDecimal (x : Register)
  | storeRegisters (last : Register)
  | loadRegisters (last : Register)
  | unknown (word : Word)
  deriving DecidableEq, Repr

namespace Instruction

/-- The instruction that a word holds. -/
def ofWord (word : Word) : Instruction :=
  match Operation.ofWord word with
  | .clear => clear
  | .ret => ret
  | .sys => call word.nnn
  | .jump => jump word.nnn
  | .call => call word.nnn
  | .skipEqualByte => skipIf (.equalByte word.x word.kk)
  | .skipUnequalByte => skipIf (.unequalByte word.x word.kk)
  | .skipEqual => skipIf (.equal word.x word.y)
  | .setByte => setByte word.x word.kk
  | .addByte => addByte word.x word.kk
  | .copy => combine .copy word.x word.y
  | .or => combine .or word.x word.y
  | .and => combine .and word.x word.y
  | .xor => combine .xor word.x word.y
  | .add => combine .add word.x word.y
  | .subtract => combine .subtract word.x word.y
  | .shiftRight => shiftRight word.x
  | .subtractFrom => combine .subtractFrom word.x word.y
  | .shiftLeft => shiftLeft word.x
  | .skipUnequal => skipIf (.unequal word.x word.y)
  | .setIndex => setIndex word.nnn
  | .jumpForward => jumpForward word.nnn
  | .random => random word.x word.kk
  | .draw => draw word.x word.y word.n
  | .skipHeld => skipIf (.held word.x)
  | .skipReleased => skipIf (.released word.x)
  | .readDelay => readDelay word.x
  | .awaitKey => awaitKey word.x
  | .setDelay => setDelay word.x
  | .setSound => setSound word.x
  | .addIndex => addIndex word.x
  | .pointGlyph => pointGlyph word.x
  | .storeDecimal => storeDecimal word.x
  | .storeRegisters => storeRegisters word.x
  | .loadRegisters => loadRegisters word.x
  | .unknown => unknown word

end Instruction

end Chip8
