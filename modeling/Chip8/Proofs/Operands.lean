/-
A mnemonic shows some of the fields of an instruction and hides the others. That goes for any
fields, and not only for those that a word can hold: a register number of two digits, or an
address of four, is written out in full. Which operation it is and what is in each field that
it shows can be read off a mnemonic, so two mnemonics are the same just when both agree; what
is in a field that is hidden makes no difference.
-/

import Chip8.Proofs.Mnemonics

namespace Chip8

/-! ### Fields that are shown -/

/-- A field of an instruction that its mnemonic may show. Of the whole word this is only the
first digit. -/
inductive Field where
  | leading
  | nnn
  | kk
  | x
  | y
  | n
  deriving DecidableEq, Repr

/-- The number in a field. -/
def Fields.value (fields : Fields) : Field → Nat
  | .leading => fields.raw.toNat / 4096
  | .nnn => fields.nnn.toNat
  | .kk => fields.kk.toNat
  | .x => fields.x.toNat
  | .y => fields.y.toNat
  | .n => fields.n.toNat

namespace Operation

/-- The fields that the mnemonic of an operation shows. -/
def shown : Operation → List Field
  | clear | ret => []
  | sys | jump | call | setIndex | jumpForward => [.nnn]
  | skipEqualByte | skipUnequalByte | setByte | addByte | random => [.x, .kk]
  | skipEqual | skipUnequal | copy | or | and | xor | add | subtract | subtractFrom => [.x, .y]
  | draw => [.x, .y, .n]
  | shiftRight | shiftLeft | skipHeld | skipReleased | readDelay | awaitKey | setDelay | setSound
  | addIndex | pointGlyph | storeDecimal | storeRegisters | loadRegisters => [.x]
  | unknown => [.leading, .x, .y, .n]

/-- The first digit of a word fits in a byte, so nothing of it is lost on the way. -/
theorem leading_inj {first second : UInt16} :
    UInt8.ofNat (first.toNat / 4096) = UInt8.ofNat (second.toNat / 4096) ↔
      first.toNat / 4096 = second.toNat / 4096 := by
  have small (raw : UInt16) : (UInt8.ofNat (raw.toNat / 4096)).toNat = raw.toNat / 4096 := by
    have := raw.toNat_lt
    exact UInt8.toNat_ofNat_of_lt' (by simp only [UInt8.size]; omega)
  rw [← UInt8.toNat_inj, small, small]

/-- What an operation is written with are the fields that it shows. -/
theorem assembly_eq_iff (operation : Operation) (fields others : Fields) :
    operation.assembly fields = operation.assembly others ↔
      ∀ field ∈ operation.shown, fields.value field = others.value field := by
  cases operation <;>
    simp [assembly, shown, Fields.value, leading_inj, UInt8.toNat_inj, UInt16.toNat_inj]

/-- Mnemonics of any operations with any fields are the same exactly if the operations are, and
the fields that they show agree. -/
theorem mnemonic_unambiguous (first second : Operation) (fields others : Fields) :
    first.mnemonic fields = second.mnemonic others ↔
      first = second ∧ ∀ field ∈ first.shown, fields.value field = others.value field := by
  rw [mnemonic_eq_iff]
  constructor
  · intro same
    obtain rfl := eq_of_mnemonic_eq (mnemonic_eq_iff.mpr same)
    exact ⟨rfl, (assembly_eq_iff ..).mp same⟩
  · rintro ⟨rfl, agree⟩
    exact (assembly_eq_iff ..).mpr agree

example : draw.mnemonic ⟨0, 0, 0, 0x1F, 0, 0x2A⟩ = "DRW V1F, V0, 0x2A" := by decide +kernel

end Operation

end Chip8
