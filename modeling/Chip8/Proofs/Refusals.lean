/-
When a step is refused, and where it leads if it is not. A step is refused at the end of
memory, whatever its word is, and after that only for a reason of its own: there is nothing to
return to or no room for a call, a skip, a jump, the index or a sprite would leave the
addresses, or a store or a load would leave memory. Each of these has its own bound, so each is
told twice: of the instruction, for a machine that has moved past it, and of the digits of the
word, for the machine that the step began on. What is not refused leads to the word behind it
unless it is a jump, a call, a return or a skip whose condition holds.
-/

import Chip8.Proofs.Decoding
import Chip8.Proofs.Frame
import Chip8.Proofs.Tick

namespace Chip8

/-! ### Instructions -/

/-- Why an instruction is refused by a machine that has moved past it. -/
inductive Instruction.Refused (machine : Machine) : Instruction → Fault → Prop
  | ret (empty : machine.stack.toList = []) : Refused machine .ret .stackUnderflow
  | call (target : Address) (full : machine.stack.toList.length = stackCapacity) :
    Refused machine (.call target) .stackOverflow
  | skipIf (condition : Condition) (holds : machine.holds condition = true)
    (beyond : 4096 ≤ machine.pc.val + 2) : Refused machine (.skipIf condition) .addressOutOfRange
  | jumpForward (distance : Address)
    (beyond : 4096 ≤
      machine.pc.val + (distance.val + (machine.registers.get jumpRegister).toNat)) :
    Refused machine (.jumpForward distance) .addressOutOfRange
  | draw (x y : Register) (height : Fin 16) (beyond : 4096 < machine.index.val + height.val) :
    Refused machine (.draw x y height) .addressOutOfRange
  | addIndex (x : Register)
    (beyond : 4096 ≤ machine.index.val + (machine.registers.get x).toNat) :
    Refused machine (.addIndex x) .addressOutOfRange
  | storeDecimal (x : Register) (beyond : 4096 < machine.index.val + 3) :
    Refused machine (.storeDecimal x) .memoryOutOfBounds
  | storeRegisters (last : Register) (beyond : 4096 < machine.index.val + (last.val + 1)) :
    Refused machine (.storeRegisters last) .memoryOutOfBounds
  | loadRegisters (last : Register) (beyond : 4096 < machine.index.val + (last.val + 1)) :
    Refused machine (.loadRegisters last) .memoryOutOfBounds

namespace Machine

theorem fault_advance_iff (machine : Machine) (distance : UInt32) (fault : Fault) :
    (machine.advance distance).fault = some fault ↔
      fault = .addressOutOfRange ∧ 4096 ≤ machine.pc.val + distance.toNat := by
  rw [advance, Outcome.fault_attempt_iff, Address.advance_eq_error_iff]

/-- A relative jump is measured without wrapping. -/
theorem toNat_forward (machine : Machine) (distance : Address) :
    (UInt32.ofNat (distance.val + (machine.registers.get jumpRegister).toNat)).toNat =
      distance.val + (machine.registers.get jumpRegister).toNat := by
  have far := distance.isLt
  have further := (machine.registers.get jumpRegister).toNat_lt
  rw [UInt32.toNat_ofNat']
  omega

/-- A sprite is refused if one of its rows is not in memory. -/
theorem fault_draw_iff (machine : Machine) (x y : Register) (height : Fin 16) (fault : Fault) :
    (machine.draw x y height).fault = some fault ↔
      fault = .addressOutOfRange ∧ 4096 < machine.index.val + height.val := by
  have rows := machine.memory.length_slice machine.index.val height.val
  have start := machine.index.isLt
  unfold draw
  dsimp only
  split
  · simp only [Outcome.fault_done, reduceCtorEq, false_iff]
    omega
  · have beyond : 4096 < machine.index.val + height.val := by omega
    simp only [Outcome.fault_halted, Option.some.injEq, beyond, and_true, eq_comm]

/-- An instruction is refused for the reasons that there are, and for no other. -/
theorem fault_perform_iff (origin : Address) (instruction : Instruction) (machine : Machine)
    (fault : Fault) :
    (perform origin instruction machine).fault = some fault ↔
      instruction.Refused machine fault := by
  constructor
  · intro faults
    cases instruction with
    | ret =>
      rw [perform, Outcome.fault_attempt_iff, Stack.pop_error_iff] at faults
      obtain ⟨rfl, empty⟩ := faults
      exact .ret empty
    | call target =>
      rw [perform, Outcome.fault_attempt_iff, Stack.push_error_iff] at faults
      obtain ⟨rfl, full⟩ := faults
      exact .call target full
    | skipIf condition =>
      unfold perform at faults
      dsimp only at faults
      split at faults
      · next holds =>
        obtain ⟨rfl, beyond⟩ := (machine.fault_advance_iff 2 fault).mp faults
        exact .skipIf condition holds beyond
      · cases faults
    | jumpForward distance =>
      obtain ⟨rfl, beyond⟩ := (machine.fault_advance_iff _ fault).mp faults
      rw [machine.toNat_forward distance] at beyond
      exact .jumpForward distance beyond
    | draw x y height =>
      obtain ⟨rfl, beyond⟩ := (machine.fault_draw_iff x y height fault).mp faults
      exact .draw x y height beyond
    | addIndex x =>
      rw [perform, Outcome.fault_attempt_iff, Address.advance_eq_error_iff] at faults
      obtain ⟨rfl, beyond⟩ := faults
      exact .addIndex x beyond
    | storeDecimal x =>
      rw [perform, Outcome.fault_attempt_iff, Memory.store_eq_error_iff] at faults
      obtain ⟨rfl, beyond⟩ := faults
      exact .storeDecimal x beyond
    | storeRegisters last =>
      rw [perform, Outcome.fault_attempt_iff, Memory.store_eq_error_iff, toNat_blockSize] at faults
      obtain ⟨rfl, beyond⟩ := faults
      exact .storeRegisters last beyond
    | loadRegisters last =>
      rw [perform, Outcome.fault_attempt_iff, Memory.load_eq_error_iff, toNat_blockSize] at faults
      obtain ⟨rfl, beyond⟩ := faults
      exact .loadRegisters last beyond
    | _ => cases faults
  · intro refused
    cases refused with
    | ret empty =>
      rw [perform, Outcome.fault_attempt_iff, Stack.pop_error_iff]
      exact ⟨rfl, empty⟩
    | call target full =>
      rw [perform, Outcome.fault_attempt_iff, Stack.push_error_iff]
      exact ⟨rfl, full⟩
    | skipIf condition holds beyond =>
      rw [perform, if_pos holds]
      exact (machine.fault_advance_iff 2 _).mpr ⟨rfl, beyond⟩
    | jumpForward distance beyond =>
      rw [perform, fault_advance_iff, toNat_forward]
      exact ⟨rfl, beyond⟩
    | draw x y height beyond =>
      exact (machine.fault_draw_iff x y height _).mpr ⟨rfl, beyond⟩
    | addIndex x beyond =>
      rw [perform, Outcome.fault_attempt_iff, Address.advance_eq_error_iff]
      exact ⟨rfl, beyond⟩
    | storeDecimal x beyond =>
      rw [perform, Outcome.fault_attempt_iff, Memory.store_eq_error_iff]
      exact ⟨rfl, beyond⟩
    | storeRegisters last beyond =>
      rw [perform, Outcome.fault_attempt_iff, Memory.store_eq_error_iff, toNat_blockSize]
      exact ⟨rfl, beyond⟩
    | loadRegisters last beyond =>
      rw [perform, Outcome.fault_attempt_iff, Memory.load_eq_error_iff, toNat_blockSize]
      exact ⟨rfl, beyond⟩

/-! ### Where instructions lead -/

end Machine

/-- Whether an instruction leads away from the word behind it, whatever the machine holds. -/
def Instruction.leaves : Instruction → Bool
  | ret | jump _ | jumpForward _ | call _ => true
  | _ => false

namespace Machine

/-- An instruction that neither leaves nor skips leads to the word behind it. -/
theorem pc_perform (origin : Address) (instruction : Instruction) (machine : Machine)
    (stays : instruction.leaves = false)
    (noSkip : ∀ condition, instruction = .skipIf condition → machine.holds condition = false) :
    (perform origin instruction machine).machine.pc = machine.pc := by
  cases instruction with
  | ret | jump _ | jumpForward _ | call _ => cases stays
  | skipIf condition =>
    have fails : ¬machine.holds condition = true := by simp [noSkip condition rfl]
    rw [perform, if_neg fails]
    rfl
  | draw x y height => exact machine.part_draw Machine.pc (fun _ _ _ => rfl) x y height
  | addIndex _ | storeDecimal _ | storeRegisters _ | loadRegisters _ =>
    unfold perform
    dsimp only
    exact Outcome.part_attempt Machine.pc _ _ _ fun _ => rfl
  | _ => rfl

theorem pc_advance (machine : Machine) (distance : UInt32)
    (goes : (machine.advance distance).fault = none) :
    (machine.advance distance).machine.pc.val = machine.pc.val + distance.toNat := by
  unfold advance at goes ⊢
  cases moved : machine.pc.advance distance with
  | error fault =>
    rw [moved] at goes
    cases goes
  | ok next => exact Address.advance_eq_ok_iff.mp moved

/-! ### Words -/

/-- The word skips the one behind it. A register that names no key counts as a key that is
up. -/
inductive Skips (machine : Machine) (word : Word) : Prop
  | equalByte (family : word.family.val = 0x3)
    (equal : machine.registers.get word.x = word.kk) : Skips machine word
  | unequalByte (family : word.family.val = 0x4)
    (unequal : machine.registers.get word.x ≠ word.kk) : Skips machine word
  | equal (family : word.family.val = 0x5) (last : word.n.val = 0)
    (equal : machine.registers.get word.x = machine.registers.get word.y) : Skips machine word
  | unequal (family : word.family.val = 0x9) (last : word.n.val = 0)
    (unequal : machine.registers.get word.x ≠ machine.registers.get word.y) :
    Skips machine word
  | held (family : word.family.val = 0xE) (code : word.kk = 0x9E)
    (named : (machine.registers.get word.x).toNat < 16)
    (down : machine.keypad.mask.getLsbD (machine.registers.get word.x).toNat = true) :
    Skips machine word
  | released (family : word.family.val = 0xE) (code : word.kk = 0xA1)
    (up : (machine.registers.get word.x).toNat < 16 →
      machine.keypad.mask.getLsbD (machine.registers.get word.x).toNat = false) :
    Skips machine word

/-- Why a word is refused that can be moved past. -/
inductive Hinders (machine : Machine) (word : Word) : Fault → Prop
  | ret (ret : word.IsReturn) (empty : machine.stack.toList = []) :
    Hinders machine word .stackUnderflow
  | call (call : word.IsCall) (full : machine.stack.toList.length = 16) :
    Hinders machine word .stackOverflow
  | skip (skips : machine.Skips word) (beyond : 0xFFD < machine.pc.val + 2) :
    Hinders machine word .addressOutOfRange
  | jumpForward (family : word.family.val = 0xB)
    (beyond : 0xFFF <
      machine.pc.val + 2 + word.nnn.val + (machine.registers.get jumpRegister).toNat) :
    Hinders machine word .addressOutOfRange
  | draw (family : word.family.val = 0xD) (tall : 1 ≤ word.n.val)
    (beyond : 0xFFF < machine.index.val + word.n.val - 1) :
    Hinders machine word .addressOutOfRange
  | addIndex (family : word.family.val = 0xF) (code : word.kk = 0x1E)
    (beyond : 0xFFF < machine.index.val + (machine.registers.get word.x).toNat) :
    Hinders machine word .addressOutOfRange
  | storeDecimal (family : word.family.val = 0xF) (code : word.kk = 0x33)
    (beyond : 0xFFD < machine.index.val) : Hinders machine word .memoryOutOfBounds
  | block (family : word.family.val = 0xF) (code : word.kk = 0x55 ∨ word.kk = 0x65)
    (beyond : 0xFFF < machine.index.val + word.x.val) : Hinders machine word .memoryOutOfBounds

/-- Why a step is refused: it cannot move past its word, or the word is refused. -/
inductive Refuses (machine : Machine) (word : Word) : Fault → Prop
  | cornered (corner : 0xFFE ≤ machine.pc.val) : Refuses machine word .addressOutOfRange
  | hindered {fault : Fault} (inside : machine.pc.val < 0xFFE)
    (hinders : machine.Hinders word fault) : Refuses machine word fault

/-- Where a step leads that is not refused. -/
inductive Leads (machine : Machine) (word : Word) : Nat → Prop
  | skip (skips : machine.Skips word) : Leads machine word (machine.pc.val + 2 + 2)
  | jump (family : word.family.val = 0x1) : Leads machine word word.nnn.val
  | call (call : word.IsCall) : Leads machine word word.nnn.val
  | ret (ret : word.IsReturn) (top : Address)
    (onTop : machine.stack.toList.getLast? = some top) : Leads machine word top.val
  | jumpForward (family : word.family.val = 0xB) :
    Leads machine word
      (machine.pc.val + 2 + word.nnn.val + (machine.registers.get jumpRegister).toNat)
  | next (noSkip : ¬machine.Skips word) (noJump : word.family.val ≠ 0x1) (noCall : ¬word.IsCall)
    (noReturn : ¬word.IsReturn) (noForward : word.family.val ≠ 0xB) :
    Leads machine word (machine.pc.val + 2)

/-- A key is down if there is such a key and it is held. -/
theorem isHeld_get_iff (machine : Machine) (x : Register) :
    machine.keypad.isHeld (machine.registers.get x) = true ↔
      (machine.registers.get x).toNat < 16 ∧
        machine.keypad.mask.getLsbD (machine.registers.get x).toNat = true := by
  rw [Keypad.isHeld, iff_and_self]
  exact BitVec.lt_of_getLsbD

theorem skips_iff (machine : Machine) (word : Word) :
    machine.Skips word ↔ ∃ condition : Condition,
      condition.Fits word ∧ machine.holds condition = true := by
  constructor
  · rintro (⟨family, equal⟩ | ⟨family, unequal⟩ | ⟨family, last, equal⟩ |
      ⟨family, last, unequal⟩ | ⟨family, code, named, down⟩ | ⟨family, code, up⟩)
    · exact ⟨.equalByte word.x word.kk, ⟨family, rfl, rfl⟩, beq_iff_eq.mpr equal⟩
    · exact ⟨.unequalByte word.x word.kk, ⟨family, rfl, rfl⟩, bne_iff_ne.mpr unequal⟩
    · exact ⟨.equal word.x word.y, ⟨family, last, rfl, rfl⟩, beq_iff_eq.mpr equal⟩
    · exact ⟨.unequal word.x word.y, ⟨family, last, rfl, rfl⟩, bne_iff_ne.mpr unequal⟩
    · exact ⟨.held word.x, ⟨family, rfl, code⟩, down⟩
    · refine ⟨.released word.x, ⟨family, rfl, code⟩, ?_⟩
      rw [holds, Bool.not_eq_true', ← Bool.not_eq_true, isHeld_get_iff]
      rintro ⟨named, down⟩
      cases (up named).symm.trans down
  · rintro ⟨condition, fits, holds⟩
    cases condition with
    | equalByte x value =>
      obtain ⟨family, rfl, rfl⟩ := fits
      exact .equalByte family (beq_iff_eq.mp holds)
    | unequalByte x value =>
      obtain ⟨family, rfl, rfl⟩ := fits
      exact .unequalByte family (bne_iff_ne.mp holds)
    | equal x y =>
      obtain ⟨family, last, rfl, rfl⟩ := fits
      exact .equal family last (beq_iff_eq.mp holds)
    | unequal x y =>
      obtain ⟨family, last, rfl, rfl⟩ := fits
      exact .unequal family last (bne_iff_ne.mp holds)
    | held x =>
      obtain ⟨family, rfl, code⟩ := fits
      obtain ⟨named, down⟩ := (machine.isHeld_get_iff word.x).mp holds
      exact .held family code named down
    | released x =>
      obtain ⟨family, rfl, code⟩ := fits
      exact .released family code fun _ => (Bool.not_eq_true' _).mp holds

theorem holds_past (machine : Machine) (word : Word) (next : Address) (condition : Condition) :
    (machine.past word next).holds condition = machine.holds condition := by
  cases condition <;> rfl

theorem hinders_iff (machine : Machine) (word : Word) (next : Address)
    (moved : next.val = machine.pc.val + 2) (fault : Fault) :
    machine.Hinders word fault ↔
      (Instruction.ofWord word).Refused (machine.past word next) fault := by
  constructor
  · intro hinders
    cases hinders with
    | ret ret empty =>
      rw [Instruction.ofWord_of_fits .ret ret]
      exact .ret empty
    | call call full =>
      rw [Instruction.ofWord_of_fits (.call word.nnn) ⟨call, rfl⟩]
      exact .call _ full
    | skip skips beyond =>
      obtain ⟨condition, fits, holds⟩ := (machine.skips_iff word).mp skips
      rw [Instruction.ofWord_of_fits (.skipIf condition) fits]
      have beyond : 4096 ≤ next.val + 2 := by omega
      rw [← machine.holds_past word next] at holds
      exact .skipIf condition holds beyond
    | jumpForward family beyond =>
      rw [Instruction.ofWord_of_fits (.jumpForward word.nnn) ⟨family, rfl⟩]
      have beyond : 4096 ≤
          next.val + (word.nnn.val + (machine.registers.get jumpRegister).toNat) := by
        omega
      exact .jumpForward _ beyond
    | draw family tall beyond =>
      rw [Instruction.ofWord_of_fits (.draw word.x word.y word.n) ⟨family, rfl, rfl, rfl⟩]
      have beyond : 4096 < machine.index.val + word.n.val := by omega
      exact .draw _ _ _ beyond
    | addIndex family code beyond =>
      rw [Instruction.ofWord_of_fits (.addIndex word.x) ⟨family, rfl, code⟩]
      exact .addIndex _ beyond
    | storeDecimal family code beyond =>
      rw [Instruction.ofWord_of_fits (.storeDecimal word.x) ⟨family, rfl, code⟩]
      have beyond : 4096 < machine.index.val + 3 := by omega
      exact .storeDecimal _ beyond
    | block family code beyond =>
      have beyond : 4096 < machine.index.val + (word.x.val + 1) := by omega
      rcases code with code | code
      · rw [Instruction.ofWord_of_fits (.storeRegisters word.x) ⟨family, rfl, code⟩]
        exact .storeRegisters _ beyond
      · rw [Instruction.ofWord_of_fits (.loadRegisters word.x) ⟨family, rfl, code⟩]
        exact .loadRegisters _ beyond
  · intro refused
    have fits := Instruction.fits_ofWord word
    generalize Instruction.ofWord word = instruction at refused fits
    cases refused with
    | ret empty => exact .ret fits empty
    | call target full => exact .call fits.1 full
    | skipIf condition holds beyond =>
      have beyond : 4096 ≤ next.val + 2 := beyond
      rw [holds_past] at holds
      exact .skip ((machine.skips_iff word).mpr ⟨condition, fits, holds⟩) (by omega)
    | jumpForward distance beyond =>
      obtain ⟨family, rfl⟩ := fits
      have beyond : 4096 ≤
          next.val + (word.nnn.val + (machine.registers.get jumpRegister).toNat) :=
        beyond
      exact .jumpForward family (by omega)
    | draw x y height beyond =>
      obtain ⟨family, rfl, rfl, rfl⟩ := fits
      have start := machine.index.isLt
      have beyond : 4096 < machine.index.val + word.n.val := beyond
      exact .draw family (by omega) (by omega)
    | addIndex x beyond =>
      obtain ⟨family, rfl, code⟩ := fits
      exact .addIndex family code beyond
    | storeDecimal x beyond =>
      obtain ⟨family, rfl, code⟩ := fits
      have beyond : 4096 < machine.index.val + 3 := beyond
      exact .storeDecimal family code (by omega)
    | storeRegisters last beyond =>
      obtain ⟨family, rfl, code⟩ := fits
      have beyond : 4096 < machine.index.val + (word.x.val + 1) := beyond
      exact .block family (Or.inl code) (by omega)
    | loadRegisters last beyond =>
      obtain ⟨family, rfl, code⟩ := fits
      have beyond : 4096 < machine.index.val + (word.x.val + 1) := beyond
      exact .block family (Or.inr code) (by omega)

/-! ### Steps -/

/-- A step is refused for the reasons that there are, and for no other. -/
theorem fault_execute_iff (machine : Machine) (word : Word) (fault : Fault) :
    (machine.execute word).fault = some fault ↔ machine.Refuses word fault := by
  refine machine.execute_cases word
    (motive := fun outcome => outcome.fault = some fault ↔ machine.Refuses word fault)
    (fun corner => ?_) fun next moved => ?_
  · constructor
    · rintro ⟨⟩
      exact .cornered corner
    · rintro (_ | ⟨inside, -⟩)
      · rfl
      · omega
  · have bound := next.isLt
    rw [Outcome.fault_after, Outcome.fault_counted, fault_perform_iff,
      ← machine.hinders_iff word next moved]
    constructor
    · exact .hindered (by omega)
    · rintro (corner | ⟨-, hinders⟩)
      · omega
      · exact hinders

/-- Nothing hinders a step that goes through. -/
theorem not_hinders {machine : Machine} {word : Word}
    (goes : (machine.execute word).fault = none) (fault : Fault) :
    ¬machine.Hinders word fault := by
  intro hinders
  have refused : ∃ fault, machine.Refuses word fault := by
    rcases Nat.lt_or_ge machine.pc.val 0xFFE with inside | corner
    · exact ⟨fault, .hindered inside hinders⟩
    · exact ⟨_, .cornered corner⟩
  obtain ⟨fault, refused⟩ := refused
  cases goes.symm.trans ((machine.fault_execute_iff word fault).mpr refused)

theorem leaves_ofWord_iff (word : Word) :
    (Instruction.ofWord word).leaves = true ↔
      word.IsReturn ∨ word.family.val = 0x1 ∨ word.family.val = 0xB ∨ word.IsCall := by
  constructor
  · intro leaves
    have fits := Instruction.fits_ofWord word
    generalize Instruction.ofWord word = instruction at leaves fits
    cases instruction with
    | ret => exact Or.inl fits
    | jump target => exact Or.inr (Or.inl fits.1)
    | jumpForward distance => exact Or.inr (Or.inr (Or.inl fits.1))
    | call target => exact Or.inr (Or.inr (Or.inr fits.1))
    | _ => cases leaves
  · rintro (ret | family | family | call)
    · rw [Instruction.ofWord_of_fits .ret ret]
      rfl
    · rw [Instruction.ofWord_of_fits (.jump word.nnn) ⟨family, rfl⟩]
      rfl
    · rw [Instruction.ofWord_of_fits (.jumpForward word.nnn) ⟨family, rfl⟩]
      rfl
    · rw [Instruction.ofWord_of_fits (.call word.nnn) ⟨call, rfl⟩]
      rfl

section Past

variable (machine : Machine) (word : Word) (next : Address)
  (moved : next.val = machine.pc.val + 2)

include moved

/-- A word that leaves leads where it says, to the top of the stack, or forward. -/
theorem leads_of_leaves (leaves : (Instruction.ofWord word).leaves = true)
    (goes : (perform machine.pc (.ofWord word) (machine.past word next)).fault = none) :
    machine.Leads word
      (perform machine.pc (.ofWord word) (machine.past word next)).machine.pc.val := by
  have fits := Instruction.fits_ofWord word
  generalize Instruction.ofWord word = instruction at leaves fits goes ⊢
  cases instruction with
  | ret =>
    unfold perform at goes ⊢
    dsimp only at goes ⊢
    cases popped : (machine.past word next).stack.pop with
    | error fault =>
      rw [popped] at goes
      cases goes
    | ok top =>
      have onTop : machine.stack.toList.getLast? = some top.1 := by
        show (machine.past word next).stack.toList.getLast? = some top.1
        rw [Stack.toList_of_pop popped, List.getLast?_concat]
      exact .ret fits top.1 onTop
  | jump target =>
    obtain ⟨family, rfl⟩ := fits
    exact .jump family
  | jumpForward distance =>
    obtain ⟨family, rfl⟩ := fits
    have reached := pc_advance _ _ goes
    rw [toNat_forward] at reached
    have sum : (machine.past word next).pc.val +
          (word.nnn.val + ((machine.past word next).registers.get jumpRegister).toNat) =
        machine.pc.val + 2 + word.nnn.val + (machine.registers.get jumpRegister).toNat := by
      show next.val + (word.nnn.val + (machine.registers.get jumpRegister).toNat) = _
      omega
    rw [perform, reached, sum]
    exact .jumpForward family
  | call target =>
    obtain ⟨call, rfl⟩ := fits
    unfold perform at goes ⊢
    dsimp only at goes ⊢
    cases pushed : (machine.past word next).stack.push (machine.past word next).pc with
    | error fault =>
      rw [pushed] at goes
      cases goes
    | ok stack => exact .call call
  | _ => cases leaves

theorem leads_perform
    (goes : (perform machine.pc (.ofWord word) (machine.past word next)).fault = none) :
    machine.Leads word
      (perform machine.pc (.ofWord word) (machine.past word next)).machine.pc.val := by
  by_cases leaves : (Instruction.ofWord word).leaves = true
  · exact leads_of_leaves machine word next moved leaves goes
  by_cases skips : machine.Skips word
  · obtain ⟨condition, fits, holds⟩ := (machine.skips_iff word).mp skips
    rw [← machine.holds_past word next] at holds
    rw [Instruction.ofWord_of_fits (.skipIf condition) fits, perform, if_pos holds] at goes ⊢
    rw [pc_advance _ _ goes]
    show machine.Leads word (next.val + 2)
    rw [moved]
    exact .skip skips
  · rw [pc_perform _ _ _ (Bool.eq_false_iff.mpr leaves) fun condition decoded => ?_]
    · show machine.Leads word next.val
      rw [leaves_ofWord_iff, not_or, not_or, not_or] at leaves
      obtain ⟨noReturn, noJump, noForward, noCall⟩ := leaves
      rw [moved]
      exact .next skips noJump noCall noReturn noForward
    · refine Bool.eq_false_iff.mpr fun holds => skips ((machine.skips_iff word).mpr ?_)
      rw [holds_past] at holds
      exact ⟨condition, Instruction.ofWord_eq_iff.mp decoded, holds⟩

end Past

/-- A step that goes through leads where its word says. -/
theorem leads_execute (machine : Machine) (word : Word)
    (goes : (machine.execute word).fault = none) :
    machine.Leads word (machine.execute word).machine.pc.val := by
  revert goes
  refine machine.execute_cases word
    (motive := fun outcome => outcome.fault = none → machine.Leads word outcome.machine.pc.val)
    (fun _ stops => nomatch stops) fun next moved goes => ?_
  rw [Outcome.fault_after, Outcome.fault_counted] at goes
  obtain ⟨cycles, counted⟩ := Outcome.machine_counted
    (perform machine.pc (.ofWord word) (machine.past word next))
  rw [Outcome.machine_after, counted]
  exact machine.leads_perform word next moved goes

/-- The outcome of a step, for every machine and every word: it is refused exactly for the
reasons that there are, each with its own fault, and a step that none of them stops goes
through and leads where its word says. -/
theorem steps_settled (machine : Machine) (word : Word) :
    (∀ fault, (machine.execute word).fault = some fault ↔ machine.Refuses word fault) ∧
      ((∀ fault, ¬machine.Refuses word fault) →
        (machine.execute word).fault = none ∧
          machine.Leads word (machine.execute word).machine.pc.val) := by
  refine ⟨machine.fault_execute_iff word, fun allowed => ?_⟩
  have goes : (machine.execute word).fault = none := by
    refine Option.eq_none_iff_forall_ne_some.mpr fun fault refused => ?_
    exact allowed fault ((machine.fault_execute_iff word fault).mp refused)
  exact ⟨goes, machine.leads_execute word goes⟩

/-- Four bytes before the end of memory a skip is refused if it is taken, and goes through to
the last word if it is not. -/
theorem steps_settled_last_skip :
    let machine := { create 7 with pc := ⟨0xFFC, by decide⟩ }
    (machine.execute (.ofBytes 0x30 0x00)).fault = some .addressOutOfRange ∧
      (∀ fault, ¬machine.Refuses (.ofBytes 0x30 0x01) fault) ∧
      machine.Leads (.ofBytes 0x30 0x01) 0xFFE := by
  intro machine
  obtain ⟨goes, reached⟩ : (machine.execute (.ofBytes 0x30 0x01)).fault = none ∧
      (machine.execute (.ofBytes 0x30 0x01)).machine.pc.val = 0xFFE := by
    decide +kernel
  have taken : machine.Skips (.ofBytes 0x30 0x00) := .equalByte (by decide) (by decide +kernel)
  have allowed (fault : Fault) : ¬machine.Refuses (.ofBytes 0x30 0x01) fault := fun refuses =>
    nomatch goes.symm.trans (((steps_settled machine _).1 fault).mpr refuses)
  refine ⟨((steps_settled machine _).1 _).mpr ?_, allowed, ?_⟩
  · exact .hindered (by decide) (.skip taken (by decide))
  · rw [← reached]
    exact ((steps_settled machine _).2 allowed).2

end Machine

end Chip8
