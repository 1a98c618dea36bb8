/-
Writing a run of bytes into a fixed number of places. Memory and the registers are both
rows of bytes, and all that is ever stored into either of them goes through `write`: a
place holds afterwards the byte of the run that fell on it, or else what it held before.
-/

namespace Chip8.Bytes

variable {size : Nat}

/-- Puts bytes into the places from a position on. What would lie past the end is
dropped. -/
def write (places : Vector UInt8 size) (position : Nat) : List UInt8 → Vector UInt8 size
  | [] => places
  | byte :: rest => write (places.setIfInBounds position byte) (position + 1) rest

/-- What a place holds after a run was written. -/
theorem getElem_write (places : Vector UInt8 size) (position : Nat) (run : List UInt8)
    (place : Nat) (inside : place < size) :
    (write places position run)[place] =
      if position ≤ place then run[place - position]?.getD places[place] else places[place] := by
  induction run generalizing places position with
  | nil => simp [write]
  | cons byte rest ih =>
    rw [write, ih]
    rcases Nat.lt_trichotomy position place with above | here | below
    · have next : position + 1 ≤ place := above
      have shift : place - position = place - (position + 1) + 1 := by omega
      simp [Nat.le_of_lt above, next, shift, Nat.ne_of_lt above]
    · subst here
      have beyond : ¬position + 1 ≤ position := by omega
      simp [beyond]
    · have outside : ¬position ≤ place := by omega
      have beyond : ¬position + 1 ≤ place := by omega
      simp [outside, beyond, Nat.ne_of_gt below]

end Chip8.Bytes
