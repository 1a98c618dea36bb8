/-
What the instructions leave alone. Five of them drive a device or wait for one, and all the
others stay among the program counter, the index, the registers, the stack, the memory and
the random bytes. No instruction touches the keys, the count of cycles or the history, and
only a wait for a key touches the mode. Calls and returns are the only ones with a use for
the stack: every other instruction commutes with an exchange of the stack for any other,
which says both that it does not touch the stack and that it does not look at it.
-/

import Chip8.Machine.Step

namespace Chip8

/-- Whether an instruction drives a timer or the display, or waits for a key. -/
def Instruction.drives : Instruction → Bool
  | clear | draw _ _ _ | awaitKey _ | setDelay _ | setSound _ => true
  | _ => false

/-- Whether an instruction points the index somewhere. -/
def Instruction.points : Instruction → Bool
  | setIndex _ | addIndex _ | pointGlyph _ => true
  | _ => false

namespace Machine

/-! ### Devices and bookkeeping -/

/-- What no instruction but a wait for a key can tell apart in two machines. -/
structure Keeps (machine after : Machine) : Prop where
  keypad : after.keypad = machine.keypad
  mode : after.mode = machine.mode
  awaited : after.awaited = machine.awaited
  cycles : after.cycles = machine.cycles
  history : after.history = machine.history

/-- What most instructions cannot tell apart: the timers and the display as well. -/
structure Inner (machine after : Machine) : Prop extends machine.Keeps after where
  delayTimer : after.delayTimer = machine.delayTimer
  soundTimer : after.soundTimer = machine.soundTimer
  display : after.display = machine.display

theorem Inner.refl (machine : Machine) : machine.Inner machine :=
  ⟨⟨rfl, rfl, rfl, rfl, rfl⟩, rfl, rfl, rfl⟩

theorem inner_advance (machine : Machine) (distance : UInt32) :
    machine.Inner (machine.advance distance).machine :=
  Outcome.attempt_preserves _ _ _ (.refl machine) fun _ _ =>
    ⟨⟨rfl, rfl, rfl, rfl, rfl⟩, rfl, rfl, rfl⟩

/-- Five instructions drive a device or wait for one. The others stay inside. -/
theorem inner_perform (origin : Address) (instruction : Instruction) (machine : Machine)
    (inside : instruction.drives = false) :
    machine.Inner (perform origin instruction machine).machine := by
  cases instruction with
  | clear | draw _ _ _ | awaitKey _ | setDelay _ | setSound _ => cases inside
  | jumpForward distance => exact inner_advance machine _
  | skipIf condition =>
    unfold perform
    dsimp only
    split
    · exact inner_advance machine 2
    · exact .refl machine
  | ret | call _ | addIndex _ | storeDecimal _ | storeRegisters _ | loadRegisters _ =>
    unfold perform
    exact Outcome.attempt_preserves _ _ _ (.refl machine) fun _ _ =>
      ⟨⟨rfl, rfl, rfl, rfl, rfl⟩, rfl, rfl, rfl⟩
  | _ => exact ⟨⟨rfl, rfl, rfl, rfl, rfl⟩, rfl, rfl, rfl⟩

theorem keeps_draw (machine : Machine) (x y : Register) (height : Fin 16) :
    machine.Keeps (machine.draw x y height).machine := by
  unfold draw
  dsimp only
  split <;> exact ⟨rfl, rfl, rfl, rfl, rfl⟩

theorem keeps_perform (origin : Address) (instruction : Instruction) (machine : Machine)
    (noAwait : ∀ x, instruction ≠ .awaitKey x) :
    machine.Keeps (perform origin instruction machine).machine := by
  cases instruction with
  | awaitKey x => exact absurd rfl (noAwait x)
  | draw x y height => exact keeps_draw machine x y height
  | clear | setDelay _ | setSound _ => exact ⟨rfl, rfl, rfl, rfl, rfl⟩
  | _ => exact (inner_perform origin _ machine rfl).toKeeps

/-- The books of a machine and its keys are out of reach for every instruction. -/
theorem books_perform (origin : Address) (instruction : Instruction) (machine : Machine) :
    (perform origin instruction machine).machine.keypad = machine.keypad ∧
      (perform origin instruction machine).machine.cycles = machine.cycles ∧
      (perform origin instruction machine).machine.history = machine.history := by
  by_cases await : ∃ x, instruction = .awaitKey x
  · obtain ⟨x, rfl⟩ := await
    exact ⟨rfl, rfl, rfl⟩
  · have keeps := keeps_perform origin instruction machine fun x same => await ⟨x, same⟩
    exact ⟨keeps.keypad, keeps.cycles, keeps.history⟩

/-! ### Parts of the machine -/

/-- A skip leaves alone every part that the program counter is no part of. -/
theorem part_skipIf {Part : Type} (part : Machine → Part)
    (free : ∀ machine pc, part { machine with pc := pc } = part machine) (origin : Address)
    (condition : Condition) (machine : Machine) :
    part (perform origin (.skipIf condition) machine).machine = part machine := by
  unfold perform
  dsimp only
  split
  · exact Outcome.part_attempt part _ _ _ fun _ => free machine _
  · rfl

/-- A drawing leaves alone every part that the registers and the display are no part of. -/
theorem part_draw {Part : Type} (part : Machine → Part)
    (free : ∀ machine registers display,
      part { machine with registers := registers, display := display } = part machine)
    (machine : Machine) (x y : Register) (height : Fin 16) :
    part (machine.draw x y height).machine = part machine := by
  unfold draw
  dsimp only
  split <;> exact free machine _ _

/-- An instruction that does not point the index anywhere leaves it alone. -/
theorem index_perform (origin : Address) (instruction : Instruction) (machine : Machine)
    (stays : instruction.points = false) :
    (perform origin instruction machine).machine.index = machine.index := by
  cases instruction with
  | setIndex _ | addIndex _ | pointGlyph _ => cases stays
  | skipIf condition => exact part_skipIf Machine.index (fun _ _ => rfl) origin condition machine
  | draw x y height => exact machine.part_draw Machine.index (fun _ _ _ => rfl) x y height
  | jumpForward _ | ret | call _ | storeDecimal _ | storeRegisters _ | loadRegisters _ =>
    unfold perform
    dsimp only
    exact Outcome.part_attempt Machine.index _ _ _ fun _ => rfl
  | _ => rfl

/-! ### The stack -/

/-- The machine with another stack. -/
def withStack (machine : Machine) (stack : Stack Address stackCapacity) : Machine :=
  { machine with stack := stack }

end Machine

namespace Outcome

/-- The outcome with a change made to its machine. -/
def map (change : Machine → Machine) (outcome : Outcome) : Outcome :=
  { outcome with machine := change outcome.machine }

theorem map_attempt {Result : Type} (change : Machine → Machine) (result : Except Fault Result)
    (machine : Machine) (proceed : Result → Machine) :
    (attempt result machine proceed).map change =
      attempt result (change machine) fun value => change (proceed value) := by
  cases result <;> rfl

/-- The outcome with another stack in its machine. -/
def withStack (outcome : Outcome) (stack : Stack Address stackCapacity) : Outcome :=
  outcome.map (·.withStack stack)

end Outcome

namespace Machine

theorem holds_withStack (machine : Machine) (stack : Stack Address stackCapacity)
    (condition : Condition) :
    (machine.withStack stack).holds condition = machine.holds condition := by
  cases condition <;> rfl

theorem advance_withStack (machine : Machine) (stack : Stack Address stackCapacity)
    (distance : UInt32) :
    (machine.advance distance).withStack stack = (machine.withStack stack).advance distance :=
  Outcome.map_attempt _ _ machine _

/-- An instruction that is neither a call nor a return has no use for the stack. -/
theorem perform_withStack (origin : Address) (instruction : Instruction) (machine : Machine)
    (stack : Stack Address stackCapacity) (noReturn : instruction ≠ .ret)
    (noCall : ∀ target, instruction ≠ .call target) :
    (perform origin instruction machine).withStack stack =
      perform origin instruction (machine.withStack stack) := by
  cases instruction with
  | ret => exact absurd rfl noReturn
  | call target => exact absurd rfl (noCall target)
  | skipIf condition =>
    simp only [perform, holds_withStack]
    split
    · exact advance_withStack machine stack 2
    · rfl
  | draw x y height =>
    unfold perform draw
    dsimp only
    split
    · exact (if_pos ‹_›).symm
    · exact (if_neg ‹_›).symm
  | jumpForward distance => exact advance_withStack machine stack _
  | addIndex _ | storeDecimal _ | storeRegisters _ | loadRegisters _ =>
    unfold perform
    exact Outcome.map_attempt _ _ machine _
  | _ => rfl

/-- An instruction that is neither a call nor a return leaves the stack alone. -/
theorem stack_perform (origin : Address) (instruction : Instruction) (machine : Machine)
    (noReturn : instruction ≠ .ret) (noCall : ∀ target, instruction ≠ .call target) :
    (perform origin instruction machine).machine.stack = machine.stack :=
  congrArg (fun outcome => outcome.machine.stack)
    (perform_withStack origin instruction machine machine.stack noReturn noCall).symm

end Machine

end Chip8
