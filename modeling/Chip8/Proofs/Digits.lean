/-
Hexadecimal numbers can be read back. A number in at least so many digits has all the digits
that it needs, so nothing of it is lost, and two numbers that are written alike are the same,
whatever the width that they are written in.
-/

import Chip8.Hex
import Mathlib.Algebra.Group.Nat.Defs

namespace Chip8.Hex

/-! ### Sizes -/

/-- A value needs no more digits than it is below a power of sixteen. -/
theorem size_le {value count : Nat} (below : value < 16 ^ (count + 1)) :
    size value ≤ count + 1 := by
  unfold size
  rcases Nat.eq_zero_or_pos value with rfl | positive
  · simp
  · have bits : value.log2 < 4 * (count + 1) := by
      rw [Nat.log2_lt (Nat.ne_of_gt positive), Nat.pow_mul]
      exact below
    omega

theorem lt_pow_size (value : Nat) : value < 16 ^ size value := by
  have bits : value < 2 ^ (value.log2 + 1) := Nat.lt_log2_self
  have wide : value.log2 + 1 ≤ 4 * size value := by
    unfold size
    omega
  calc value < 2 ^ (value.log2 + 1) := bits
    _ ≤ 2 ^ (4 * size value) := Nat.pow_le_pow_right (by decide) wide
    _ = 16 ^ size value := Nat.pow_mul 2 4 (size value)

/-! ### Reading -/

/-- The value of a digit. -/
def digitValue (char : Char) : Nat :=
  if char.toNat < 58 then char.toNat - 48 else char.toNat - 55

/-- The value of digits, the most significant of them first. -/
def read (chars : List Char) : Nat :=
  chars.foldl (fun upper char => 16 * upper + digitValue char) 0

theorem digitValue_digit {value : Nat} (small : value < 16) : digitValue (digit value) = value := by
  have each : ∀ place : Fin 16, digitValue (digit place.val) = place.val := by decide
  exact each ⟨value, small⟩

/-- Digits are read back as far as there is room for the value. -/
theorem read_digits (count value : Nat) : read (digits count value) = value % 16 ^ count := by
  induction count generalizing value with
  | zero => exact (Nat.mod_one value).symm
  | succ count inductionHypothesis =>
    have upper := inductionHypothesis (value / 16)
    have lower := digitValue_digit (Nat.mod_lt value (by decide : 0 < 16))
    simp only [read] at upper
    rw [read, digits, List.foldl_append, upper, List.foldl_cons, List.foldl_nil, lower,
      Nat.pow_succ', Nat.mod_mul, Nat.add_comm]

/-- A text is read back whole, whatever its width. -/
theorem read_text (width value : Nat) : read (text width value).toList = value := by
  have room : value < 16 ^ max width (size value) :=
    Nat.lt_of_lt_of_le (lt_pow_size value)
      (Nat.pow_le_pow_right (by decide) (Nat.le_max_right width (size value)))
  rw [text, String.toList_ofList, read_digits, Nat.mod_eq_of_lt room]

theorem text_inj {width first second : Nat} :
    text width first = text width second ↔ first = second := by
  refine ⟨fun same => ?_, fun same => same ▸ rfl⟩
  rw [← read_text width first, same, read_text width second]

theorem exists_of_mem_digits {char : Char} {count value : Nat} (among : char ∈ digits count value) :
    ∃ place : Fin 16, char = digit place.val := by
  induction count generalizing value with
  | zero => cases among
  | succ count inductionHypothesis =>
    rcases List.mem_append.mp among with upper | last
    · exact inductionHypothesis upper
    · exact ⟨⟨value % 16, Nat.mod_lt value (by decide)⟩, List.mem_singleton.mp last⟩

/-- There is nothing but digits in a text. -/
theorem exists_of_mem_text {char : Char} {width value : Nat}
    (among : char ∈ (text width value).toList) : ∃ place : Fin 16, char = digit place.val := by
  rw [text, String.toList_ofList] at among
  exact exists_of_mem_digits among

end Chip8.Hex
