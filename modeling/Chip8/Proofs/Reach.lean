/-
What each word can reach. A machine is told apart into its parts, down to the single byte and the
single register, and the digits of a word tell which parts it may write, whether or not it goes
through. Every other part is as it was: that is the frame of the word, and it is told part by part,
as each part has its own few words. The program counter, the count of cycles and the history are
open to every word, and so are not among the parts.
-/

import Chip8.Proofs.Arithmetic
import Chip8.Proofs.Randomness
import Chip8.Proofs.Screen
import Chip8.Proofs.Sprites
import Chip8.Proofs.Stores
import Chip8.Proofs.Timers

namespace Chip8

/-! ### Parts -/

/-- A part of a machine. -/
inductive Part where
  | index
  | delayTimer
  | soundTimer
  | stack
  | byte (address : Address)
  /-- The cells and the flag. -/
  | display
  | generator
  | mode
  | awaited
  | keypad
  | historyLimit
  | register (x : Register)
  deriving DecidableEq

/-- A part is in a machine as it was before. -/
def Part.Kept (machine after : Machine) : Part → Prop
  | index => after.index = machine.index
  | delayTimer => after.delayTimer = machine.delayTimer
  | soundTimer => after.soundTimer = machine.soundTimer
  | stack => after.stack = machine.stack
  | byte address => after.memory.get address = machine.memory.get address
  | display => after.display = machine.display
  | generator => after.generator = machine.generator
  | mode => after.mode = machine.mode
  | awaited => after.awaited = machine.awaited
  | keypad => after.keypad = machine.keypad
  | historyLimit => after.history.limit = machine.history.limit
  | register x => after.registers.get x = machine.registers.get x

/-! ### Words -/

namespace Word

/-- The words that may write a register. -/
inductive Sets (word : Word) (other : Register) : Prop
  /-- `6XKK`, `7XKK`, `8XY0` to `8XY3`, `CXKK` and `FX07`. -/
  | operand (here : other = word.x)
    (fits : word.family.val = 0x6 ∨ word.family.val = 0x7 ∨
      word.family.val = 0x8 ∧ word.n.val ≤ 0x3 ∨ word.family.val = 0xC ∨
      word.family.val = 0xF ∧ word.kk = 0x07)
  /-- `8XY4` to `8XY7`, and `8XYE`. -/
  | flagged (here : other = word.x ∨ other = flagRegister) (family : word.family.val = 0x8)
    (last : 0x4 ≤ word.n.val ∧ word.n.val ≤ 0x7 ∨ word.n.val = 0xE)
  /-- `DXYN`. -/
  | collision (here : other = flagRegister) (family : word.family.val = 0xD)
  /-- `FX65`. -/
  | block (within : other ≤ word.x) (family : word.family.val = 0xF) (code : word.kk = 0x65)

/-- The words that may write a part of a machine whose index is at a given place. -/
def Reaches (word : Word) (start : Address) : Part → Prop
  | .index => word.family.val = 0xA ∨
      word.family.val = 0xF ∧ (word.kk = 0x1E ∨ word.kk = 0x29)
  | .delayTimer => word.family.val = 0xF ∧ word.kk = 0x15
  | .soundTimer => word.family.val = 0xF ∧ word.kk = 0x18
  | .stack => word.IsReturn ∨ word.IsCall
  | .byte address => start.val ≤ address.val ∧ word.family.val = 0xF ∧
      (word.kk = 0x33 ∧ address.val ≤ start.val + 2 ∨
        word.kk = 0x55 ∧ address.val ≤ start.val + word.x.val)
  | .display => word.IsClear ∨ word.family.val = 0xD
  | .generator => word.family.val = 0xC
  | .mode | .awaited => word.family.val = 0xF ∧ word.kk = 0x0A
  | .keypad | .historyLimit => False
  | .register x => word.Sets x

/-- What a word puts behind the index it puts where it reaches. -/
theorem Puts.reaches {word : Word} {registers : Registers} {start address : Address} {place : Nat}
    {byte : UInt8} (puts : word.Puts registers place byte)
    (here : address.val = start.val + place) : word.Reaches start (.byte address) := by
  rcases puts with ⟨x, _, _, ⟨family, -, code⟩, within, -⟩ | ⟨_, x, ⟨family, rfl, code⟩, within⟩
  · exact ⟨by omega, family, Or.inl ⟨code, by omega⟩⟩
  · have upTo : x.val ≤ word.x.val := within
    exact ⟨by omega, family, Or.inr ⟨code, by omega⟩⟩

theorem reaches_of_points {word : Word} {start : Address}
    (points : (Instruction.ofWord word).points = true) : word.Reaches start .index := by
  have fits := Instruction.fits_ofWord word
  generalize Instruction.ofWord word = instruction at points fits
  cases instruction with
  | setIndex target => exact Or.inl fits.1
  | addIndex x => exact Or.inr ⟨fits.1, Or.inl fits.2.2⟩
  | pointGlyph x => exact Or.inr ⟨fits.1, Or.inr fits.2.2⟩
  | _ => cases points

end Word

/-! ### Registers and memory -/

/-- An instruction may write a register. -/
def Instruction.Sets (other : Register) : Instruction → Prop
  | setByte x _ | addByte x _ | random x _ | readDelay x => other = x
  | combine combination x _ =>
    other = x ∨ other = flagRegister ∧ 0x4 ≤ combination.digit
  | shiftRight x | shiftLeft x => other = x ∨ other = flagRegister
  | draw _ _ _ => other = flagRegister
  | loadRegisters last => other ≤ last
  | _ => False

theorem Word.sets_of_sets {word : Word} {other : Register}
    (sets : (Instruction.ofWord word).Sets other) : word.Sets other := by
  have fits := Instruction.fits_ofWord word
  generalize Instruction.ofWord word = instruction at sets fits
  cases instruction with
  | setByte x value =>
    obtain ⟨family, rfl, -⟩ := fits
    exact .operand sets (Or.inl family)
  | addByte x value =>
    obtain ⟨family, rfl, -⟩ := fits
    exact .operand sets (Or.inr (Or.inl family))
  | combine combination x y =>
    obtain ⟨family, digit, rfl, -⟩ := fits
    have small : combination.digit ≤ 0x7 := by cases combination <;> decide
    rcases sets with here | ⟨here, flagged⟩
    · rcases Nat.lt_or_ge combination.digit 0x4 with unflagged | flagged
      · exact .operand here (Or.inr (Or.inr (Or.inl ⟨family, by omega⟩)))
      · exact .flagged (Or.inl here) family (Or.inl (by omega))
    · exact .flagged (Or.inr here) family (Or.inl (by omega))
  | shiftRight x =>
    obtain ⟨family, digit, rfl⟩ := fits
    exact .flagged sets family (Or.inl (by omega))
  | shiftLeft x =>
    obtain ⟨family, digit, rfl⟩ := fits
    exact .flagged sets family (Or.inr digit)
  | random x mask =>
    obtain ⟨family, rfl, -⟩ := fits
    exact .operand sets (Or.inr (Or.inr (Or.inr (Or.inl family))))
  | draw x y height => exact .collision sets fits.1
  | readDelay x =>
    obtain ⟨family, rfl, code⟩ := fits
    exact .operand sets (Or.inr (Or.inr (Or.inr (Or.inr ⟨family, code⟩))))
  | loadRegisters last =>
    obtain ⟨family, rfl, code⟩ := fits
    exact .block sets family code
  | _ => cases sets

namespace Machine

/-- An instruction leaves the registers alone that it does not write. -/
theorem register_perform (origin : Address) (instruction : Instruction) (machine : Machine)
    {other : Register} (spared : ¬instruction.Sets other) :
    (perform origin instruction machine).machine.registers.get other =
      machine.registers.get other := by
  cases instruction with
  | setByte x _ | addByte x _ | random x _ | readDelay x =>
    exact Registers.get_set_other _ _ _ _ spared
  | combine combination x y =>
    obtain ⟨apart, plain⟩ := not_or.mp spared
    rcases Nat.lt_or_ge combination.digit 0x4 with unflagged | flagged
    · exact machine.registers.get_combine_unflagged x y combination apart unflagged
    · exact machine.registers.get_combine_other x y combination apart
        fun same => plain ⟨same, flagged⟩
  | shiftRight x =>
    obtain ⟨apart, plain⟩ := not_or.mp spared
    exact machine.registers.get_shiftRight_other x apart plain
  | shiftLeft x =>
    obtain ⟨apart, plain⟩ := not_or.mp spared
    exact machine.registers.get_shiftLeft_other x apart plain
  | draw x y height => exact (machine.draws_draw x y height).others other spared
  | loadRegisters last =>
    unfold perform
    refine Outcome.attempt_preserves (motive := fun after =>
      after.registers.get other = machine.registers.get other) _ _ _ rfl fun values loaded => ?_
    -- A block has no value for the registers above its last one.
    have short : values.length ≤ other.val := by
      have above : last.val < other.val := Fin.lt_def.mp (Fin.not_le.mp spared)
      rw [← (Memory.load_eq_ok_iff.mp loaded).2, Memory.length_slice, toNat_blockSize]
      omega
    show (machine.registers.fill values).get other = _
    rw [Registers.get_fill, List.getElem?_eq_none short]
    rfl
  | skipIf condition =>
    exact part_skipIf (fun machine => machine.registers.get other) (fun _ _ => rfl) origin
      condition machine
  | jumpForward _ | ret | call _ | addIndex _ | storeDecimal _ | storeRegisters _ =>
    unfold perform
    dsimp only
    exact Outcome.part_attempt (fun machine => machine.registers.get other) _ _ _ fun _ => rfl
  | _ => rfl

/-- A byte of memory that a word does not reach is left alone. -/
theorem byte_perform (origin : Address) (word : Word) (machine : Machine) {address : Address}
    (spared : ¬word.Reaches machine.index (.byte address)) :
    (perform origin (.ofWord word) machine).machine.memory.get address =
      machine.memory.get address := by
  cases writes_perform origin (.ofWord word) machine with
  | refused _ same => rw [same]
  | whole _ memory =>
    rw [memory, Memory.get_write]
    split
    · next above =>
      cases stored : ((Instruction.ofWord word).stores machine.registers)[
          address.val - machine.index.val]? with
      | none => rfl
      | some byte =>
        have puts := (Word.puts_iff _ _ _ _).mpr stored
        have here : address.val = machine.index.val + (address.val - machine.index.val) := by
          omega
        exact absurd (puts.reaches here) spared
    · rfl

/-! ### All parts -/

/-- What the instruction of a word does not reach it leaves alone. -/
theorem kept_perform (origin : Address) (word : Word) (machine : Machine) {part : Part}
    (spared : ¬word.Reaches machine.index part) :
    part.Kept machine (perform origin (.ofWord word) machine).machine := by
  have fits {instruction : Instruction} (decoded : Instruction.ofWord word = instruction) :
      instruction.Fits word := Instruction.ofWord_eq_iff.mp decoded
  have keeps (noAwait : ¬(word.family.val = 0xF ∧ word.kk = 0x0A)) :
      machine.Keeps (perform origin (.ofWord word) machine).machine :=
    keeps_perform origin _ machine fun x decoded =>
      noAwait ⟨(fits decoded).1, (fits decoded).2.2⟩
  cases part with
  | index =>
    refine index_perform origin _ machine (Bool.eq_false_iff.mpr fun points => spared ?_)
    exact Word.reaches_of_points points
  | delayTimer =>
    exact timer_perform origin _ machine .delay fun x decoded =>
      spared ⟨(fits decoded).1, (fits decoded).2.2⟩
  | soundTimer =>
    exact timer_perform origin _ machine .sound fun x decoded =>
      spared ⟨(fits decoded).1, (fits decoded).2.2⟩
  | stack =>
    exact stack_perform origin _ machine (fun decoded => spared (Or.inl (fits decoded)))
      fun target decoded => spared (Or.inr (fits decoded).1)
  | byte address => exact byte_perform origin word machine spared
  | display =>
    exact display_perform origin _ machine (fun decoded => spared (Or.inl (fits decoded)))
      fun x y height decoded => spared (Or.inr (fits decoded).1)
  | generator =>
    exact generator_perform origin _ machine fun x mask decoded => spared (fits decoded).1
  | mode => exact (keeps spared).mode
  | awaited => exact (keeps spared).awaited
  | keypad => exact (books_perform origin _ machine).1
  | historyLimit => exact congrArg History.limit (books_perform origin _ machine).2.2
  | register x => exact register_perform origin _ machine (mt Word.sets_of_sets spared)

end Machine

namespace Part.Kept

variable {machine after final : Machine} {part : Part}

theorem trans (first : part.Kept machine after) (second : part.Kept after final) :
    part.Kept machine final := by
  cases part <;> exact Eq.trans second first

/-- Recording a word and moving past it leaves all parts alone. -/
theorem past (machine : Machine) (word : Word) (next : Address) :
    part.Kept machine (machine.past word next) := by
  cases part with
  | historyLimit => exact machine.history.limit_add _
  | _ => rfl

theorem counted {outcome : Outcome} (kept : part.Kept machine outcome.machine) :
    part.Kept machine outcome.counted.machine := by
  obtain ⟨cycles, counted⟩ := outcome.machine_counted
  rw [counted]
  cases part <;> exact kept

end Part.Kept

namespace Machine

/-- What a word does not reach is left alone by a step. -/
theorem kept_execute (machine : Machine) (word : Word) {part : Part}
    (spared : ¬word.Reaches machine.index part) :
    part.Kept machine (machine.execute word).machine := by
  refine machine.execute_cases word
    (motive := fun outcome => part.Kept machine outcome.machine)
    (fun _ => Part.Kept.past machine word _) fun next _ => ?_
  have kept := kept_perform machine.pc word (machine.past word next) spared
  exact (Part.Kept.past machine word next).trans kept.counted

/-- A word that stands for no operation is recorded, moved past and counted. -/
theorem execute_of_leftover (machine : Machine) {word : Word}
    (leftover : Operation.unknown.Fits word) :
    ∃ history pc cycles, (machine.execute word).machine =
      { machine with history := history, pc := pc, cycles := cycles } := by
  refine machine.execute_cases word (motive := fun outcome => ∃ history pc cycles,
    outcome.machine = { machine with history := history, pc := pc, cycles := cycles })
    (fun _ => ⟨_, _, machine.cycles, rfl⟩) fun next _ => ?_
  rw [Instruction.ofWord_of_fits (.unknown word) ⟨leftover, rfl⟩, perform]
  exact ⟨_, _, machine.cycles + 1, rfl⟩

/-- The frame of every word, on every machine, whether or not it goes through. A part is left alone
by all words but those few that reach it, and a word that stands for no operation leaves all parts
alone. -/
theorem writes_confined (machine : Machine) (word : Word) :
    (∀ part, ¬word.Reaches machine.index part →
      part.Kept machine (machine.execute word).machine) ∧
    (Operation.unknown.Fits word → ∃ history pc cycles, (machine.execute word).machine =
      { machine with history := history, pc := pc, cycles := cycles }) :=
  ⟨fun _ => machine.kept_execute word, machine.execute_of_leftover⟩

/-- Four registers are stored at the end of memory, but for one byte, which stays as it was. -/
theorem writes_confined_last_byte :
    let machine := { (create 7).setRegister 3 9 with index := ⟨0xFFB, by decide⟩ }
    let block := Word.ofBytes 0xF3 0x55
    let leftover := Word.ofBytes 0x51 0x21
    ¬block.Reaches machine.index (.byte .last) ∧ Operation.unknown.Fits leftover ∧
      (machine.execute block).machine.memory.get .last = machine.memory.get .last ∧
      (machine.execute block).machine.memory.get ⟨0xFFE, by decide⟩ = 9 ∧
      ∃ history pc cycles, (machine.execute leftover).machine =
        { machine with history := history, pc := pc, cycles := cycles } := by
  intro machine block leftover
  have spared : ¬block.Reaches machine.index (.byte .last) := by
    rintro ⟨-, -, ⟨code, -⟩ | ⟨-, within⟩⟩
    · exact absurd code (by decide)
    · exact absurd within (by decide)
  have fits : Operation.unknown.Fits leftover := Or.inl ⟨Or.inl rfl, by decide⟩
  refine ⟨spared, fits, (writes_confined machine block).1 _ spared, by decide +kernel, ?_⟩
  exact (writes_confined machine leftover).2 fits

end Machine

end Chip8
