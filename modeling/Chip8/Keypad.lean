/-
The keypad has sixteen keys. It is kept as a mask with one bit for each key. Keys are
named by bytes, as a register names them, and a byte that names no key can be neither
pressed nor found pressed.
-/

namespace Chip8

/-- Which of the sixteen keys are down. -/
structure Keypad where
  mask : BitVec 16
  deriving DecidableEq, Repr

namespace Keypad

/-- No key is down. -/
def released : Keypad := ⟨0⟩

/-- Presses or releases a key. A byte that names no key changes nothing. -/
def set (keypad : Keypad) (key : UInt8) (down : Bool) : Keypad :=
  if key.toNat < 16 then
    if down then ⟨keypad.mask ||| BitVec.twoPow 16 key.toNat⟩
    else ⟨keypad.mask &&& ~~~BitVec.twoPow 16 key.toNat⟩
  else keypad

/-- Whether a key is down. A byte that names no key never is. -/
def isHeld (keypad : Keypad) (key : UInt8) : Bool := keypad.mask.getLsbD key.toNat

/-- The lowest key that is down. -/
def lowest? (keypad : Keypad) : Option (Fin 16) :=
  (List.finRange 16).find? fun key => keypad.mask.getLsbD key.val

/-- A key that was pressed is down, and one that was released is up. -/
theorem isHeld_set_self (keypad : Keypad) (key : UInt8) (down : Bool) (named : key.toNat < 16) :
    (keypad.set key down).isHeld key = down := by
  cases down <;> simp [isHeld, set, named]

/-- Pressing or releasing one key leaves the others alone. -/
theorem isHeld_set_other (keypad : Keypad) (key other : UInt8) (down : Bool)
    (different : other ≠ key) : (keypad.set key down).isHeld other = keypad.isHeld other := by
  have apart : key.toNat ≠ other.toNat := fun same => different (UInt8.toNat_inj.mp same.symm)
  unfold isHeld set
  split
  · cases down
    · by_cases named : other.toNat < 16
      · simp [named, Ne.symm apart]
      · simp [BitVec.getLsbD_of_ge _ _ (Nat.le_of_not_lt named)]
    · simp [BitVec.getLsbD_twoPow, apart]
  · rfl

theorem isHeld_set (keypad : Keypad) (key other : UInt8) (down : Bool) :
    (keypad.set key down).isHeld other =
      if other = key ∧ key.toNat < 16 then down else keypad.isHeld other := by
  by_cases same : other = key
  · subst same
    by_cases named : other.toNat < 16
    · rw [isHeld_set_self _ _ _ named, if_pos ⟨rfl, named⟩]
    · rw [set, if_neg named, if_neg fun both => named both.2]
  · rw [isHeld_set_other _ _ _ _ same, if_neg fun both => same both.1]

theorem ext_isHeld {first second : Keypad}
    (same : ∀ key, first.isHeld key = second.isHeld key) : first = second := by
  obtain ⟨mask⟩ := first
  obtain ⟨mask'⟩ := second
  refine congrArg mk (BitVec.eq_of_getLsbD_eq fun place inside => ?_)
  have number : (UInt8.ofNat place).toNat = place := by
    rw [UInt8.toNat_ofNat']
    exact Nat.mod_eq_of_lt (by omega)
  have here := same (UInt8.ofNat place)
  rw [isHeld, isHeld, number] at here
  exact here

/-- What is done to one key and what is done to another can change places. -/
theorem set_comm (keypad : Keypad) {key other : UInt8} (down up : Bool)
    (different : other ≠ key) :
    (keypad.set key down).set other up = (keypad.set other up).set key down := by
  refine ext_isHeld fun third => ?_
  simp only [isHeld_set]
  by_cases here : third = key
  · simp [here, different.symm]
  · simp [here]

theorem isHeld_ofNat (keypad : Keypad) (key : Fin 16) :
    keypad.isHeld (UInt8.ofNat key.val) = keypad.mask.getLsbD key.val := by
  have small : key.val % 2 ^ 8 = key.val := Nat.mod_eq_of_lt (by omega)
  rw [isHeld, UInt8.toNat_ofNat', small]

/-- The lowest key is down, and none below it is. -/
theorem lowest?_eq_some_iff (keypad : Keypad) (key : Fin 16) :
    keypad.lowest? = some key ↔ keypad.isHeld (UInt8.ofNat key.val) = true ∧
      ∀ lower < key, keypad.isHeld (UInt8.ofNat lower.val) = false := by
  unfold lowest?
  rw [List.find?_eq_some_iff_getElem, isHeld_ofNat]
  refine and_congr_right fun _ => ⟨?_, ?_⟩
  · rintro ⟨place, inside, here, above⟩ lower below
    rw [List.getElem_finRange] at here
    subst here
    have up := above lower.val below
    rw [List.getElem_finRange] at up
    rw [isHeld_ofNat]
    simpa using up
  · intro above
    refine ⟨key.val, by simp, by simp, fun lower below => ?_⟩
    have up := above ⟨lower, Nat.lt_trans below key.isLt⟩ below
    rw [isHeld_ofNat] at up
    simpa using up

/-- There is no lowest key exactly when no key is down. -/
theorem lowest?_eq_none_iff (keypad : Keypad) :
    keypad.lowest? = none ↔ ∀ key, keypad.isHeld key = false := by
  unfold lowest?
  rw [List.find?_eq_none]
  constructor
  · intro up key
    by_cases named : key.toNat < 16
    · simpa [isHeld] using up ⟨key.toNat, named⟩ (List.mem_finRange _)
    · exact BitVec.getLsbD_of_ge _ _ (Nat.le_of_not_lt named)
  · intro up key _
    rw [← isHeld_ofNat, up]
    exact Bool.false_ne_true

end Keypad

end Chip8
