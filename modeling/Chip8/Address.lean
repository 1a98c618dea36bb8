/-
An address is a number below 4096, and the type keeps it there. Two ways lead into it:
a sixteen-bit value is cut to its low twelve bits, and a thirty-two-bit value is
accepted only when it is in range. Sums are formed in thirty-two bits, where they can
wrap, so `advance` also looks at the distance: a distance that is in range cannot make
the sum wrap, and one that is not is refused whatever the sum came to.
-/

import Chip8.Fault

namespace Chip8

/-- A place in the 4096 bytes of memory. -/
structure Address where
  val : Nat
  isLt : val < 4096
  deriving DecidableEq, Repr

namespace Address

/-- The address of the first byte. -/
def zero : Address := ⟨0, by decide⟩

instance : Inhabited Address := ⟨zero⟩

/-- Where a loaded program begins. -/
def entryPoint : Address := ⟨0x200, by decide⟩

/-- The last address there is. -/
def last : Address := ⟨0xFFF, by decide⟩

/-- An address is no more than its number. -/
theorem ext_val {first second : Address} (same : first.val = second.val) : first = second := by
  cases first; cases second; cases same; rfl

/-- The address in the low twelve bits of a value. -/
def masked (raw : UInt16) : Address :=
  ⟨raw.toNat % 4096, Nat.mod_lt _ (by decide)⟩

/-- The address equal to a value, if the value is one. -/
def checked (raw : UInt32) : Except Fault Address :=
  if inRange : raw.toNat < 4096 then .ok ⟨raw.toNat, inRange⟩ else .error .addressOutOfRange

/-- The address a distance further on. The sum wraps at thirty-two bits; a distance
beyond the address space is refused before the sum is looked at. -/
def advance (address : Address) (distance : UInt32) : Except Fault Address :=
  if distance.toNat < 4096 then checked (UInt32.ofNat address.val + distance)
  else .error .addressOutOfRange

/-! ### Conversion -/

/-- A value is converted to the address that is equal to it. -/
theorem checked_eq_ok_iff {raw : UInt32} {next : Address} :
    checked raw = .ok next ↔ next.val = raw.toNat := by
  have bound := next.isLt
  unfold checked
  split
  · simp only [Except.ok.injEq]
    exact ⟨fun same => same ▸ rfl, fun same => ext_val same.symm⟩
  · simp only [reduceCtorEq, false_iff]
    omega

/-- Conversion fails in one way, and exactly when the value is no address. -/
theorem checked_eq_error_iff {raw : UInt32} {fault : Fault} :
    checked raw = .error fault ↔ fault = .addressOutOfRange ∧ 4096 ≤ raw.toNat := by
  unfold checked
  split
  · simp only [reduceCtorEq, false_iff]
    omega
  · next outside =>
    simp only [Except.error.injEq, Nat.le_of_not_lt outside, and_true, eq_comm]

/-! ### Moving on -/

/-- A distance in range is too short for the sum to wrap. -/
theorem toNat_sum (address : Address) {distance : UInt32} (short : distance.toNat < 4096) :
    (UInt32.ofNat address.val + distance).toNat = address.val + distance.toNat := by
  have small := address.isLt
  rw [UInt32.toNat_add, UInt32.toNat_ofNat']
  omega

/-- A sum that wraps comes out below the address that it started from. -/
theorem sum_lt_of_wraps (address : Address) {distance : UInt32}
    (wraps : UInt32.size ≤ address.val + distance.toNat) :
    (UInt32.ofNat address.val + distance).toNat < address.val := by
  have small := address.isLt
  have bound := distance.toNat_lt
  unfold UInt32.size at wraps
  rw [UInt32.toNat_add, UInt32.toNat_ofNat']
  omega

/-- Moving on is addition: it goes through exactly when the sum is an address. -/
theorem advance_eq_ok_iff {address next : Address} {distance : UInt32} :
    address.advance distance = .ok next ↔ next.val = address.val + distance.toNat := by
  have bound := next.isLt
  unfold advance
  split
  · next short => rw [checked_eq_ok_iff, toNat_sum address short]
  · simp only [reduceCtorEq, false_iff]
    omega

/-- Moving on fails in one way, and exactly when the sum is no address. -/
theorem advance_eq_error_iff {address : Address} {distance : UInt32} {fault : Fault} :
    address.advance distance = .error fault ↔
      fault = .addressOutOfRange ∧ 4096 ≤ address.val + distance.toNat := by
  unfold advance
  split
  · next short => rw [checked_eq_error_iff, toNat_sum address short]
  · next long =>
    have beyond : 4096 ≤ address.val + distance.toNat := by omega
    simp only [Except.error.injEq, beyond, and_true, eq_comm]

end Address

end Chip8
