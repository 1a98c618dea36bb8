/-
Memory is 4096 bytes. The first eighty hold the shapes of the sixteen hexadecimal
digits, five bytes each, and a program image starts at address 0x200. A range of bytes
is read or written as a whole or not at all: the test compares the length of the range
with the room left behind its start, so a length near `2 ^ 64` cannot wrap round into
range, and a refused access changes nothing.
-/

import Chip8.Address
import Chip8.Bytes

namespace Chip8

/-- How many bytes an image may have: all of memory from the entry point on. -/
def imageLimit : Nat := 4096 - Address.entryPoint.val

/-- How many bytes the shape of one hexadecimal digit takes. -/
def glyphSize : Nat := 5

/-- The shapes of the digits `0` to `F`, a row of pixels to a byte. -/
def font : List UInt8 := [
  0xF0, 0x90, 0x90, 0x90, 0xF0,
  0x20, 0x60, 0x20, 0x20, 0x70,
  0xF0, 0x10, 0xF0, 0x80, 0xF0,
  0xF0, 0x10, 0xF0, 0x10, 0xF0,
  0x90, 0x90, 0xF0, 0x10, 0x10,
  0xF0, 0x80, 0xF0, 0x10, 0xF0,
  0xF0, 0x80, 0xF0, 0x90, 0xF0,
  0xF0, 0x10, 0x20, 0x40, 0x40,
  0xF0, 0x90, 0xF0, 0x90, 0xF0,
  0xF0, 0x90, 0xF0, 0x10, 0xF0,
  0xF0, 0x90, 0xF0, 0x90, 0x90,
  0xE0, 0x90, 0xE0, 0x90, 0xE0,
  0xF0, 0x80, 0x80, 0x80, 0xF0,
  0xE0, 0x90, 0x90, 0x90, 0xE0,
  0xF0, 0x80, 0xF0, 0x80, 0xF0,
  0xF0, 0x80, 0xF0, 0x80, 0x80]

/-- The bytes a machine can address. -/
structure Memory where
  bytes : Vector UInt8 4096
  deriving DecidableEq

namespace Memory

/-- The byte at an address. -/
def get (memory : Memory) (address : Address) : UInt8 :=
  memory.bytes.get ⟨address.val, address.isLt⟩

/-- Puts bytes from a position on. What would lie past the end is dropped. -/
def write (memory : Memory) (position : Nat) (run : List UInt8) : Memory :=
  ⟨Bytes.write memory.bytes position run⟩

/-- The bytes of a range. What would lie past the end is left out. -/
def slice (memory : Memory) (position count : Nat) : List UInt8 :=
  (memory.bytes.toArray.extract position (position + count)).toList

/-- Memory with nothing in it but the font. -/
def blank : Memory := write ⟨Vector.replicate 4096 0⟩ 0 font

/-! ### Ranges -/

/-- Whether `count` bytes from an address on lie in memory. -/
def fits (start : Address) (count : UInt64) : Bool :=
  count ≤ 4096 - UInt64.ofNat start.val

/-- Writes the first `count` bytes of a source from an address on. -/
def store (memory : Memory) (start : Address) (source : List UInt8) (count : UInt64) :
    Except Fault Memory :=
  if fits start count then .ok (memory.write start.val (source.take count.toNat))
  else .error .memoryOutOfBounds

/-- Reads `count` bytes from an address on. -/
def load (memory : Memory) (start : Address) (count : UInt64) : Except Fault (List UInt8) :=
  if fits start count then .ok (memory.slice start.val count.toNat)
  else .error .memoryOutOfBounds

/-- Reads the two bytes at an address, the upper one first. -/
def loadPair (memory : Memory) (start : Address) : Except Fault (UInt8 × UInt8) :=
  if inside : start.val + 1 < 4096 then
    .ok (memory.get start, memory.get ⟨start.val + 1, inside⟩)
  else .error .memoryOutOfBounds

/-! ### Images -/

/-- Memory with an image in it: the font, the image from the entry point on, and zero
everywhere else. Whatever was in memory before is gone. -/
def ofImage (image : List UInt8) : Except Fault Memory :=
  if image.length ≤ imageLimit then .ok (blank.write Address.entryPoint.val image)
  else .error .romTooLarge

/-! ### What a range covers -/

/-- Whether a range lies in memory is settled by its end, computed without wrapping. -/
theorem fits_iff (start : Address) (count : UInt64) :
    fits start count = true ↔ start.val + count.toNat ≤ 4096 := by
  have small := start.isLt
  have room : (4096 - UInt64.ofNat start.val).toNat = 4096 - start.val := by
    rw [UInt64.toNat_sub_of_le, UInt64.toNat_ofNat']
    · simp
      omega
    · rw [UInt64.le_iff_toNat_le, UInt64.toNat_ofNat']
      simp
      omega
  rw [fits, decide_eq_true_iff, UInt64.le_iff_toNat_le, room]
  omega

/-- A store depends on the bytes that it stores. -/
theorem store_congr (memory : Memory) (start : Address) {source source' : List UInt8}
    (count : UInt64)
    (same : fits start count = true → source.take count.toNat = source'.take count.toNat) :
    memory.store start source count = memory.store start source' count := by
  unfold store
  split
  · next fits => rw [same fits]
  · rfl

theorem load_eq_ok_iff {memory : Memory} {start : Address} {count : UInt64} {run : List UInt8} :
    memory.load start count = .ok run ↔
      fits start count = true ∧ memory.slice start.val count.toNat = run := by
  unfold load
  split <;> simp [*]

/-- A range is refused in one way, and exactly when its end, computed without wrapping, lies
beyond memory. -/
theorem store_eq_error_iff {memory : Memory} {start : Address} {source : List UInt8}
    {count : UInt64} {fault : Fault} :
    memory.store start source count = .error fault ↔
      fault = .memoryOutOfBounds ∧ 4096 < start.val + count.toNat := by
  rw [store, ← Nat.not_le, ← fits_iff]
  split <;> simp [*, eq_comm (a := fault)]

theorem load_eq_error_iff {memory : Memory} {start : Address} {count : UInt64} {fault : Fault} :
    memory.load start count = .error fault ↔
      fault = .memoryOutOfBounds ∧ 4096 < start.val + count.toNat := by
  rw [load, ← Nat.not_le, ← fits_iff]
  split <;> simp [*, eq_comm (a := fault)]

theorem length_slice (memory : Memory) (position count : Nat) :
    (memory.slice position count).length = min count (4096 - position) := by
  simp [slice]

/-- The bytes of a range are those at its places, as far as they are in memory. -/
theorem getElem?_slice_eq_some_iff (memory : Memory) (position count place : Nat) (byte : UInt8) :
    (memory.slice position count)[place]? = some byte ↔
      place < count ∧ ∃ inside : position + place < 4096,
        memory.get ⟨position + place, inside⟩ = byte := by
  rw [List.getElem?_eq_some_iff]
  constructor
  · rintro ⟨inside, rfl⟩
    rw [length_slice] at inside
    exact ⟨by omega, by omega, by simp [slice, get, Vector.get]⟩
  · rintro ⟨within, inside, rfl⟩
    exact ⟨by rw [length_slice]; omega, by simp [slice, get, Vector.get]⟩

/-! ### What a place holds -/

theorem get_write (memory : Memory) (position : Nat) (run : List UInt8) (address : Address) :
    (memory.write position run).get address =
      if position ≤ address.val then run[address.val - position]?.getD (memory.get address)
      else memory.get address :=
  Bytes.getElem_write memory.bytes position run address.val address.isLt

/-- Blank memory holds the font from its first byte on, and zero everywhere else. -/
theorem get_blank (address : Address) : blank.get address = font[address.val]?.getD 0 := by
  have zero : (⟨Vector.replicate 4096 0⟩ : Memory).get address = 0 :=
    Vector.getElem_replicate address.isLt
  rw [blank, get_write, if_pos (Nat.zero_le _), zero, Nat.sub_zero]

theorem ext_get {first second : Memory} (same : ∀ address, first.get address = second.get address) :
    first = second := by
  cases first
  cases second
  exact congrArg mk (Vector.ext fun place inside => same ⟨place, inside⟩)

/-! ### Bytes that are not involved -/

section Other

variable (memory : Memory) (byte : UInt8) {place start : Nat}

theorem get_put (address : Address) :
    (memory.write place [byte]).get address =
      if address.val = place then byte else memory.get address := by
  rw [get_write]
  by_cases here : address.val = place
  · simp [here]
  · rw [if_neg here]
    split
    · have beyond : [byte].length ≤ address.val - place := by
        simp only [List.length_singleton]
        omega
      rw [List.getElem?_eq_none beyond]
      rfl
    · rfl

theorem write_put {run : List UInt8} (outside : place < start ∨ start + run.length ≤ place) :
    (memory.write place [byte]).write start run = (memory.write start run).write place [byte] := by
  refine ext_get fun address => ?_
  rw [get_write, get_put, get_put, get_write]
  by_cases here : address.val = place
  · rw [if_pos here, if_pos here]
    split
    · rw [List.getElem?_eq_none (by omega)]
      rfl
    · rfl
  · rw [if_neg here, if_neg here]

theorem slice_put {count : Nat}
    (outside : place < start ∨ start + min count (4096 - start) ≤ place) :
    (memory.write place [byte]).slice start count = memory.slice start count := by
  refine List.ext_getElem (by rw [length_slice, length_slice]) fun offset inside _ => ?_
  rw [length_slice] at inside
  have apart : place ≠ start + offset := by omega
  simp [slice, write, Bytes.write, Vector.toArray_setIfInBounds, apart]

end Other

end Memory

end Chip8
