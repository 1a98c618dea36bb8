/-
The operations of the machine and the table that finds the one a word asks for. A word
of digits `FXYN` belongs to a family by its first digit; six families have one operation
each, and in the others the remaining digits decide. Every word that the table does not
list is `unknown`, so the table is total.
-/

import Chip8.Word

namespace Chip8

/-- What an instruction word asks for, apart from its operands. -/
inductive Operation where
  /-- `00E0`: darken the display. -/
  | clear
  /-- `00EE`: go back to the caller. -/
  | ret
  /-- `0NNN`, any other: call a routine of the host machine; here, a call like any other. -/
  | sys
  /-- `1NNN`: go to an address. -/
  | jump
  /-- `2NNN`: call the routine at an address. -/
  | call
  /-- `3XKK`: skip if a register equals a byte. -/
  | skipEqualByte
  /-- `4XKK`: skip if a register differs from a byte. -/
  | skipUnequalByte
  /-- `5XY0`: skip if two registers are equal. -/
  | skipEqual
  /-- `6XKK`: put a byte in a register. -/
  | setByte
  /-- `7XKK`: add a byte to a register. -/
  | addByte
  /-- `8XY0`: copy a register. -/
  | copy
  /-- `8XY1`: bitwise or. -/
  | or
  /-- `8XY2`: bitwise and. -/
  | and
  /-- `8XY3`: bitwise exclusive or. -/
  | xor
  /-- `8XY4`: add, with carry. -/
  | add
  /-- `8XY5`: subtract, with the absence of borrow. -/
  | subtract
  /-- `8XY6`: halve, with the bit that falls out. -/
  | shiftRight
  /-- `8XY7`: subtract the other way round. -/
  | subtractFrom
  /-- `8XYE`: double, with the bit that falls out. -/
  | shiftLeft
  /-- `9XY0`: skip if two registers differ. -/
  | skipUnequal
  /-- `ANNN`: set the index. -/
  | setIndex
  /-- `BNNN`: go forward by an address and register zero. -/
  | jumpForward
  /-- `CXKK`: put a random byte under a mask in a register. -/
  | random
  /-- `DXYN`: draw a sprite. -/
  | draw
  /-- `EX9E`: skip if a key is down. -/
  | skipHeld
  /-- `EXA1`: skip if a key is up. -/
  | skipReleased
  /-- `FX07`: read the delay timer. -/
  | readDelay
  /-- `FX0A`: wait for a key. -/
  | awaitKey
  /-- `FX15`: set the delay timer. -/
  | setDelay
  /-- `FX18`: set the sound timer. -/
  | setSound
  /-- `FX1E`: add a register to the index. -/
  | addIndex
  /-- `FX29`: point the index at the shape of a digit. -/
  | pointGlyph
  /-- `FX33`: store the decimal digits of a register. -/
  | storeDecimal
  /-- `FX55`: store the registers up to one. -/
  | storeRegisters
  /-- `FX65`: load the registers up to one. -/
  | loadRegisters
  /-- A word the machine has no operation for. -/
  | unknown
  deriving DecidableEq, Repr

namespace Operation

/-- The family `8XYN`: the last digit names the operation. -/
def ofArithmetic (n : Fin 16) : Operation :=
  match n.val with
  | 0x0 => copy
  | 0x1 => or
  | 0x2 => and
  | 0x3 => xor
  | 0x4 => add
  | 0x5 => subtract
  | 0x6 => shiftRight
  | 0x7 => subtractFrom
  | 0xE => shiftLeft
  | _ => unknown

/-- The family `FXKK`: the last two digits name the operation. -/
def ofMiscellany (kk : UInt8) : Operation :=
  match kk.toNat with
  | 0x07 => readDelay
  | 0x0A => awaitKey
  | 0x15 => setDelay
  | 0x18 => setSound
  | 0x1E => addIndex
  | 0x29 => pointGlyph
  | 0x33 => storeDecimal
  | 0x55 => storeRegisters
  | 0x65 => loadRegisters
  | _ => unknown

/-- The operation of a word. -/
def ofWord (word : Word) : Operation :=
  match word.family.val with
  | 0x0 => if word.nnn.val = 0x0E0 then clear else if word.nnn.val = 0x0EE then ret else sys
  | 0x1 => jump
  | 0x2 => call
  | 0x3 => skipEqualByte
  | 0x4 => skipUnequalByte
  | 0x5 => if word.n.val = 0 then skipEqual else unknown
  | 0x6 => setByte
  | 0x7 => addByte
  | 0x8 => ofArithmetic word.n
  | 0x9 => if word.n.val = 0 then skipUnequal else unknown
  | 0xA => setIndex
  | 0xB => jumpForward
  | 0xC => random
  | 0xD => draw
  | 0xE => if word.kk = 0x9E then skipHeld else if word.kk = 0xA1 then skipReleased else unknown
  | _ => ofMiscellany word.kk

end Operation

end Chip8
