/-
An instruction word is four hexadecimal digits, and it is kept as just that. The first
digit is the family of the instruction; the others are operands, one by one or taken
together. Every other reading of a word (its two bytes, its number, its lower byte, its
address) is a sum of digits, so nothing here shifts or masks.
-/

import Chip8.Address
import Chip8.Hex

namespace Chip8

/-- The number of a general register. -/
abbrev Register := Fin 16

/-- An instruction word, most significant digit first. -/
@[ext]
structure Word where
  family : Fin 16
  x : Fin 16
  y : Fin 16
  n : Fin 16
  deriving DecidableEq, Repr

namespace Word

/-- The upper digit of a byte. -/
def upperDigit (byte : UInt8) : Fin 16 :=
  ⟨byte.toNat / 16, by have := byte.toNat_lt; omega⟩

/-- The lower digit of a byte. -/
def lowerDigit (byte : UInt8) : Fin 16 := ⟨byte.toNat % 16, by omega⟩

/-- The word made of two bytes. -/
def ofBytes (upper lower : UInt8) : Word :=
  ⟨upperDigit upper, lowerDigit upper, upperDigit lower, lowerDigit lower⟩

/-- The word with a given number. -/
def ofUInt16 (raw : UInt16) : Word :=
  ofBytes (UInt8.ofNat (raw.toNat / 256)) (UInt8.ofNat (raw.toNat % 256))

/-- The number of a word. -/
def raw (word : Word) : UInt16 :=
  UInt16.ofNat (4096 * word.family.val + 256 * word.x.val + 16 * word.y.val + word.n.val)

/-- The last three digits, as an address. -/
def nnn (word : Word) : Address :=
  ⟨256 * word.x.val + 16 * word.y.val + word.n.val, by omega⟩

/-- The last two digits, as a byte. -/
def kk (word : Word) : UInt8 := UInt8.ofNat (16 * word.y.val + word.n.val)

/-- The digits, most significant first. -/
def digits (word : Word) : List (Fin 16) := [word.family, word.x, word.y, word.n]

/-- The word in four hexadecimal digits. -/
def text (word : Word) : String := Hex.text 4 word.raw.toNat

theorem toNat_raw (word : Word) :
    word.raw.toNat =
      4096 * word.family.val + 256 * word.x.val + 16 * word.y.val + word.n.val := by
  rw [raw, UInt16.toNat_ofNat']
  omega

/-- The number of a word is that of its bytes, the upper one first. -/
theorem toNat_raw_ofBytes (upper lower : UInt8) :
    (ofBytes upper lower).raw.toNat = 256 * upper.toNat + lower.toNat := by
  rw [toNat_raw]
  simp only [ofBytes, upperDigit, lowerDigit]
  omega

end Word

end Chip8
