/-
Upper-case hexadecimal with a minimum width. A number is written with as many digits as
the width asks for, and with more only when it needs more, so a column of addresses
keeps its alignment until an address outgrows it and no digit is ever lost.
-/

namespace Chip8.Hex

/-- The digit of a value below sixteen. -/
def digit (value : Nat) : Char :=
  Char.ofNat (if value < 10 then 48 + value else 55 + value)

/-- The lowest `count` digits of a value, the most significant of them first. -/
def digits : (count value : Nat) → List Char
  | 0, _ => []
  | count + 1, value => digits count (value / 16) ++ [digit (value % 16)]

@[simp] theorem length_digits (count value : Nat) : (digits count value).length = count := by
  induction count generalizing value with
  | zero => rfl
  | succ count ih => simp [digits, ih]

/-- How many digits a value needs. Zero needs one. -/
def size (value : Nat) : Nat := value.log2 / 4 + 1

/-- A value in at least `width` digits. -/
def text (width value : Nat) : String :=
  String.ofList (digits (max width (size value)) value)

theorem length_text (width value : Nat) : (text width value).length = max width (size value) := by
  simp [text]

example : text 3 0x2a = "02A" ∧ text 3 0x12345 = "12345" ∧ text 1 0 = "0" := by decide +kernel

end Chip8.Hex
