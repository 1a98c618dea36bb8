/-
How instructions are written. An instruction is a name and operands with commas between
them; a word that is no instruction is written as its four digits, with blanks between
them. The text is made from that structure and not from one template for each
operation, so whether two texts can be confused is a question about names and operands
only: no name has a blank in it, and no operand a comma.
-/

import Chip8.Operation

namespace Chip8

/-! ### Operands -/

/-- An operand as it is written. Numbers have a least width and grow beyond it. -/
inductive Operand where
  | register (number : UInt8)
  | byte (value : UInt8)
  | nibble (value : UInt8)
  | address (value : UInt16)
  | index
  | block
  | delayTimer
  | soundTimer
  | key
  | glyph
  | decimal
  deriving DecidableEq, Repr

namespace Operand

/-- The text of an operand. -/
def text : Operand → String
  | register number => "V" ++ Hex.text 1 number.toNat
  | byte value => "0x" ++ Hex.text 2 value.toNat
  | nibble value => "0x" ++ Hex.text 1 value.toNat
  | address value => "0x" ++ Hex.text 3 value.toNat
  | index => "I"
  | block => "[I]"
  | delayTimer => "DT"
  | soundTimer => "ST"
  | key => "K"
  | glyph => "F"
  | decimal => "B"

end Operand

/-! ### Instructions -/

/-- A line of assembly: an instruction, or the digits of a word that is none. -/
inductive Assembly where
  | instruction (name : String) (operands : List Operand)
  | data (digits : List UInt8)
  deriving DecidableEq, Repr

namespace Assembly

/-- The text of a line. -/
def text : Assembly → String
  | instruction name [] => name
  | instruction name operands => name ++ " " ++ ", ".intercalate (operands.map Operand.text)
  | data digits => " ".intercalate (digits.map fun digit => (Operand.nibble digit).text)

end Assembly

/-- The operands that a word can hold. They overlap: an operation uses some of them and
leaves the others alone. -/
structure Fields where
  raw : UInt16
  nnn : UInt16
  kk : UInt8
  x : UInt8
  y : UInt8
  n : UInt8
  deriving DecidableEq, Repr

/-- What a word holds in each place. -/
def Word.fields (word : Word) : Fields where
  raw := word.raw
  nnn := UInt16.ofNat word.nnn.val
  kk := word.kk
  x := UInt8.ofNat word.x.val
  y := UInt8.ofNat word.y.val
  n := UInt8.ofNat word.n.val

/-- How an operation is written with the operands it uses. -/
def Operation.assembly (operation : Operation) (fields : Fields) : Assembly :=
  let x := Operand.register fields.x
  let y := Operand.register fields.y
  let kk := Operand.byte fields.kk
  let nnn := Operand.address fields.nnn
  match operation with
  | clear => .instruction "CLS" []
  | ret => .instruction "RET" []
  | sys => .instruction "SYS" [nnn]
  | jump => .instruction "JP" [nnn]
  | call => .instruction "CALL" [nnn]
  | skipEqualByte => .instruction "SE" [x, kk]
  | skipUnequalByte => .instruction "SNE" [x, kk]
  | skipEqual => .instruction "SE" [x, y]
  | setByte => .instruction "LD" [x, kk]
  | addByte => .instruction "ADD" [x, kk]
  | copy => .instruction "LD" [x, y]
  | or => .instruction "OR" [x, y]
  | and => .instruction "AND" [x, y]
  | xor => .instruction "XOR" [x, y]
  | add => .instruction "ADD" [x, y]
  | subtract => .instruction "SUB" [x, y]
  | shiftRight => .instruction "SHR" [x]
  | subtractFrom => .instruction "SUBN" [x, y]
  | shiftLeft => .instruction "SHL" [x]
  | skipUnequal => .instruction "SNE" [x, y]
  | setIndex => .instruction "LD" [.index, nnn]
  | jumpForward => .instruction "JP" [.register 0, nnn]
  | random => .instruction "RND" [x, kk]
  | draw => .instruction "DRW" [x, y, .nibble fields.n]
  | skipHeld => .instruction "SKP" [x]
  | skipReleased => .instruction "SKNP" [x]
  | readDelay => .instruction "LD" [x, .delayTimer]
  | awaitKey => .instruction "LD" [x, .key]
  | setDelay => .instruction "LD" [.delayTimer, x]
  | setSound => .instruction "LD" [.soundTimer, x]
  | addIndex => .instruction "ADD" [.index, x]
  | pointGlyph => .instruction "LD" [.glyph, x]
  | storeDecimal => .instruction "LD" [.decimal, x]
  | storeRegisters => .instruction "LD" [.block, x]
  | loadRegisters => .instruction "LD" [x, .block]
  | unknown =>
    .data [UInt8.ofNat (fields.raw.toNat / 4096), fields.x, fields.y, fields.n]

/-- The mnemonic of an operation with given operands. -/
def Operation.mnemonic (operation : Operation) (fields : Fields) : String :=
  (operation.assembly fields).text

/-- The mnemonic of a word. -/
def Word.mnemonic (word : Word) : String := (Operation.ofWord word).mnemonic word.fields

end Chip8
