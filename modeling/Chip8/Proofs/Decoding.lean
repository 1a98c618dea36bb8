/-
The table of words, read from both ends. The digits of a word alone decide what it stands
for, and each operation has its row of digits, `Operation.Fits`; a word is taken for an
operation exactly when it fits that row, so no two rows have a word in common. The rows that
the course of a run hangs on have names of their own: calls, returns, waits for a key, stores,
and what paints the screen. Two families hold calls, since a routine of the host machine is
called like any other, and the first family holds the return and the clearing of the screen as
well, so its calls are what the table leaves over.
-/

import Chip8.Instruction

namespace Chip8

namespace Word

/-- The words `2NNN`, and the words `0NNN` apart from `00E0` and `00EE`. -/
def IsCall (word : Word) : Prop :=
  word.family.val = 2 ∨
    word.family.val = 0 ∧ word.nnn.val ≠ 0x0E0 ∧ word.nnn.val ≠ 0x0EE

/-- The word `00EE`. -/
def IsReturn (word : Word) : Prop := word.family.val = 0 ∧ word.nnn.val = 0x0EE

/-- The word `00E0`. -/
def IsClear (word : Word) : Prop := word.family.val = 0 ∧ word.nnn.val = 0x0E0

/-- The word `FX0A` for a given `X`. -/
def IsAwait (word : Word) (x : Register) : Prop :=
  word.family.val = 0xF ∧ word.x = x ∧ word.kk = 0x0A

/-- The word `FXKK` for a given `X` and `KK`. -/
def IsMiscellany (word : Word) (x : Register) (code : UInt8) : Prop :=
  word.family.val = 0xF ∧ word.x = x ∧ word.kk = code

/-- The word `EXKK` for a given `X` and `KK`. -/
def IsKey (word : Word) (x : Register) (code : UInt8) : Prop :=
  word.family.val = 0xE ∧ word.x = x ∧ word.kk = code

instance (word : Word) : Decidable word.IsCall := inferInstanceAs (Decidable (_ ∨ _))

instance (word : Word) : Decidable word.IsClear := inferInstanceAs (Decidable (_ ∧ _))

theorem IsReturn.not_isCall {word : Word} (ret : word.IsReturn) : ¬word.IsCall := by
  unfold IsReturn at ret
  unfold IsCall
  omega

theorem isAwait_ofBytes_iff {upper lower : UInt8} {x : Register} :
    (ofBytes upper lower).IsAwait x ↔ upper = UInt8.ofNat (0xF0 + x.val) ∧ lower = 0x0A := by
  have digit := x.isLt
  have small := upper.toNat_lt
  have small' := lower.toNat_lt
  simp only [IsAwait, ofBytes, upperDigit, lowerDigit, kk, Fin.ext_iff, ← UInt8.toNat_inj,
    UInt8.toNat_ofNat', UInt8.reduceToNat]
  omega

end Word

/-! ### Operations -/

namespace Operation

/-- The digits of the words that stand for an operation. Five families have words left over. -/
def Fits (word : Word) : Operation → Prop
  | clear => word.IsClear
  | ret => word.IsReturn
  | sys => word.family.val = 0x0 ∧ word.nnn.val ≠ 0x0E0 ∧ word.nnn.val ≠ 0x0EE
  | jump => word.family.val = 0x1
  | call => word.family.val = 0x2
  | skipEqualByte => word.family.val = 0x3
  | skipUnequalByte => word.family.val = 0x4
  | skipEqual => word.family.val = 0x5 ∧ word.n.val = 0x0
  | setByte => word.family.val = 0x6
  | addByte => word.family.val = 0x7
  | copy => word.family.val = 0x8 ∧ word.n.val = 0x0
  | or => word.family.val = 0x8 ∧ word.n.val = 0x1
  | and => word.family.val = 0x8 ∧ word.n.val = 0x2
  | xor => word.family.val = 0x8 ∧ word.n.val = 0x3
  | add => word.family.val = 0x8 ∧ word.n.val = 0x4
  | subtract => word.family.val = 0x8 ∧ word.n.val = 0x5
  | shiftRight => word.family.val = 0x8 ∧ word.n.val = 0x6
  | subtractFrom => word.family.val = 0x8 ∧ word.n.val = 0x7
  | shiftLeft => word.family.val = 0x8 ∧ word.n.val = 0xE
  | skipUnequal => word.family.val = 0x9 ∧ word.n.val = 0x0
  | setIndex => word.family.val = 0xA
  | jumpForward => word.family.val = 0xB
  | random => word.family.val = 0xC
  | draw => word.family.val = 0xD
  | skipHeld => word.family.val = 0xE ∧ word.kk = 0x9E
  | skipReleased => word.family.val = 0xE ∧ word.kk = 0xA1
  | readDelay => word.family.val = 0xF ∧ word.kk = 0x07
  | awaitKey => word.family.val = 0xF ∧ word.kk = 0x0A
  | setDelay => word.family.val = 0xF ∧ word.kk = 0x15
  | setSound => word.family.val = 0xF ∧ word.kk = 0x18
  | addIndex => word.family.val = 0xF ∧ word.kk = 0x1E
  | pointGlyph => word.family.val = 0xF ∧ word.kk = 0x29
  | storeDecimal => word.family.val = 0xF ∧ word.kk = 0x33
  | storeRegisters => word.family.val = 0xF ∧ word.kk = 0x55
  | loadRegisters => word.family.val = 0xF ∧ word.kk = 0x65
  | unknown =>
    (word.family.val = 0x5 ∨ word.family.val = 0x9) ∧ word.n.val ≠ 0x0 ∨
      word.family.val = 0x8 ∧ 0x7 < word.n.val ∧ word.n.val ≠ 0xE ∨
      word.family.val = 0xE ∧ word.kk ≠ 0x9E ∧ word.kk ≠ 0xA1 ∨
      word.family.val = 0xF ∧
        word.kk ∉ ([0x07, 0x0A, 0x15, 0x18, 0x1E, 0x29, 0x33, 0x55, 0x65] : List UInt8)

theorem fits_ofArithmetic {word : Word} (family : word.family.val = 0x8) :
    (ofArithmetic word.n).Fits word := by
  fun_cases ofArithmetic word.n with
  | case10 =>
    have rest : 0x7 < word.n.val ∧ word.n.val ≠ 0xE := by grind
    exact Or.inr (Or.inl ⟨family, rest⟩)
  | _ => exact ⟨family, ‹_›⟩

theorem fits_ofMiscellany {word : Word} (family : word.family.val = 0xF) :
    (ofMiscellany word.kk).Fits word := by
  fun_cases ofMiscellany word.kk with
  | case10 => simp_all [Fits, ← UInt8.toNat_inj]
  | _ => exact ⟨family, UInt8.toNat_inj.mp ‹_›⟩

theorem fits_ofWord (word : Word) : (ofWord word).Fits word := by
  fun_cases ofWord word
  case case12 family => exact fits_ofArithmetic family
  case case22 =>
    -- What is left over by fifteen families is the sixteenth.
    have digit := word.family.isLt
    have family : word.family.val = 0xF := by grind
    exact fits_ofMiscellany family
  all_goals simp_all [Fits, Word.IsClear, Word.IsReturn]

theorem ofWord_of_leftover {word : Word} (fits : unknown.Fits word) : ofWord word = unknown := by
  rcases fits with ⟨family | family, last⟩ | ⟨family, last⟩ | ⟨family, code⟩ | ⟨family, code⟩
  case inr.inl =>
    have row : ofWord word = ofArithmetic word.n := by simp [ofWord, family]
    rw [row]
    fun_cases ofArithmetic word.n <;> grind
  case inr.inr.inr =>
    have row : ofWord word = ofMiscellany word.kk := by simp [ofWord, family]
    rw [row]
    fun_cases ofMiscellany word.kk <;> simp_all [← UInt8.toNat_inj]
  all_goals simp_all [ofWord]

theorem ofWord_of_fits {word : Word} (operation : Operation) (fits : operation.Fits word) :
    ofWord word = operation := by
  cases operation with
  | unknown => exact ofWord_of_leftover fits
  | _ => simp_all [Fits, ofWord, ofArithmetic, ofMiscellany, Word.IsClear, Word.IsReturn]

end Operation

/-! ### Instructions -/

/-- The words that skip on a condition. -/
def Condition.Fits (word : Word) : Condition → Prop
  | equalByte x value => word.family.val = 0x3 ∧ word.x = x ∧ word.kk = value
  | unequalByte x value => word.family.val = 0x4 ∧ word.x = x ∧ word.kk = value
  | equal x y => word.family.val = 0x5 ∧ word.n.val = 0x0 ∧ word.x = x ∧ word.y = y
  | unequal x y => word.family.val = 0x9 ∧ word.n.val = 0x0 ∧ word.x = x ∧ word.y = y
  | held x => word.IsKey x 0x9E
  | released x => word.IsKey x 0xA1

/-- The last digit of the words that combine registers in a given way. -/
def Combination.digit : Combination → Nat
  | copy => 0x0
  | or => 0x1
  | and => 0x2
  | xor => 0x3
  | add => 0x4
  | subtract => 0x5
  | subtractFrom => 0x7

namespace Instruction

/-- The words that hold an instruction. -/
def Fits (word : Word) : Instruction → Prop
  | clear => word.IsClear
  | ret => word.IsReturn
  | jump target => word.family.val = 0x1 ∧ word.nnn = target
  | jumpForward distance => word.family.val = 0xB ∧ word.nnn = distance
  | call target => word.IsCall ∧ word.nnn = target
  | skipIf condition => condition.Fits word
  | setByte x value => word.family.val = 0x6 ∧ word.x = x ∧ word.kk = value
  | addByte x value => word.family.val = 0x7 ∧ word.x = x ∧ word.kk = value
  | combine combination x y =>
    word.family.val = 0x8 ∧ word.n.val = combination.digit ∧ word.x = x ∧ word.y = y
  | shiftRight x => word.family.val = 0x8 ∧ word.n.val = 0x6 ∧ word.x = x
  | shiftLeft x => word.family.val = 0x8 ∧ word.n.val = 0xE ∧ word.x = x
  | setIndex target => word.family.val = 0xA ∧ word.nnn = target
  | random x mask => word.family.val = 0xC ∧ word.x = x ∧ word.kk = mask
  | draw x y height => word.family.val = 0xD ∧ word.x = x ∧ word.y = y ∧ word.n = height
  | readDelay x => word.IsMiscellany x 0x07
  | awaitKey x => word.IsAwait x
  | setDelay x => word.IsMiscellany x 0x15
  | setSound x => word.IsMiscellany x 0x18
  | addIndex x => word.IsMiscellany x 0x1E
  | pointGlyph x => word.IsMiscellany x 0x29
  | storeDecimal x => word.IsMiscellany x 0x33
  | storeRegisters last => word.IsMiscellany last 0x55
  | loadRegisters last => word.IsMiscellany last 0x65
  | unknown other => Operation.unknown.Fits word ∧ word = other

theorem fits_ofWord (word : Word) : (ofWord word).Fits word := by
  have row := Operation.fits_ofWord word
  unfold ofWord
  cases operation : Operation.ofWord word <;> rw [operation] at row
  case sys => exact ⟨Or.inr row, rfl⟩
  case call => exact ⟨Or.inl row, rfl⟩
  case unknown => exact ⟨row, rfl⟩
  all_goals
    simpa [Fits, Condition.Fits, Combination.digit, Operation.Fits, Word.IsMiscellany,
      Word.IsAwait, Word.IsKey] using row

theorem ofWord_of_fits {word : Word} (instruction : Instruction) (fits : instruction.Fits word) :
    ofWord word = instruction := by
  cases instruction with
  | call target =>
    obtain ⟨called | hosted, rfl⟩ := fits
    · rw [ofWord, Operation.ofWord_of_fits .call called]
    · rw [ofWord, Operation.ofWord_of_fits .sys hosted]
  | unknown other =>
    obtain ⟨leftover, rfl⟩ := fits
    rw [ofWord, Operation.ofWord_of_fits .unknown leftover]
  | skipIf condition =>
    cases condition <;>
      simp_all [Fits, Condition.Fits, ofWord, Operation.ofWord, Word.IsKey]
  | combine combination x y =>
    cases combination <;>
      simp_all [Fits, Combination.digit, ofWord, Operation.ofWord, Operation.ofArithmetic]
  | _ =>
    simp_all [Fits, ofWord, Operation.ofWord, Operation.ofArithmetic, Operation.ofMiscellany,
      Word.IsMiscellany, Word.IsAwait, Word.IsClear, Word.IsReturn]

/-- A word holds an instruction exactly when it has the digits for it. -/
theorem ofWord_eq_iff {word : Word} {instruction : Instruction} :
    ofWord word = instruction ↔ instruction.Fits word :=
  ⟨fun same => same ▸ fits_ofWord word, ofWord_of_fits instruction⟩

end Instruction

end Chip8
