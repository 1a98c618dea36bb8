/-
Registers that are put away in memory and taken back later. A block of registers that was stored
lies behind the index, one byte to a register, and nothing but a store over one of those bytes
can break it up. So whatever is done in between, to the registers and to the index as well, a
load of no more than the block, from where the block was put, finds it whole. The two need not
be carried out in the same way: either may be a step of its own, or the tick that comes upon it.
-/

import Chip8.Proofs.Refusals
import Chip8.Proofs.Stores

namespace Chip8

/-! ### Blocks -/

/-- The registers up to one lie in memory, from an address on. -/
def Memory.HasBlock (memory : Memory) (start : Address) (registers : Registers)
    (last : Register) : Prop :=
  ∀ x ≤ last, ∃ inside : start.val + x.val < 4096,
    memory.get ⟨start.val + x.val, inside⟩ = registers.get x

/-- A shorter block lies in a longer one. -/
theorem Memory.HasBlock.shorten {memory : Memory} {start : Address} {registers : Registers}
    {last upTo : Register} (has : memory.HasBlock start registers last) (short : upTo ≤ last) :
    memory.HasBlock start registers upTo :=
  fun x within => has x (Fin.le_trans within short)

/-- The registers that a word restores are as they were saved, and that is all it does besides
going on. -/
structure Machine.Restores (machine : Machine) (saved : Registers) (upTo : Register)
    (outcome : Outcome) : Prop where
  succeeds : outcome.fault = none
  restored : ∀ x ≤ upTo, outcome.machine.registers.get x = saved.get x
  others : ∀ x, upTo < x → outcome.machine.registers.get x = machine.registers.get x
  index : outcome.machine.index = machine.index
  memory : outcome.machine.memory = machine.memory

namespace Machine

/-! ### Saving -/

/-- A step that stores registers and goes through leaves a block of them. -/
theorem hasBlock_execute {machine : Machine} {word : Word} {last : Register}
    (storing : word.IsMiscellany last 0x55) (goes : (machine.execute word).fault = none) :
    (machine.execute word).machine.memory.HasBlock machine.index machine.registers last := by
  intro x within
  have inside : machine.index.val + x.val < 4096 := by
    have upToLast : x.val ≤ last.val := within
    obtain ⟨family, rfl, code⟩ := storing
    refine Nat.lt_of_not_le fun beyond => not_hinders goes .memoryOutOfBounds ?_
    exact .block family (Or.inl code) (by omega)
  have stored : (machine.registers.toList.take (last.val + 1))[x.val]? =
      some (machine.registers.get x) :=
    (machine.registers.take_toList_getElem?_eq_some_iff _ _ _).mpr ⟨x, within, rfl, rfl⟩
  have writes := machine.writes_execute word
  rw [Instruction.ofWord_of_fits (.storeRegisters last) storing] at writes
  cases writes with
  | refused fails _ => exact absurd goes fails
  | whole _ memory =>
    refine ⟨inside, ?_⟩
    rw [memory, Memory.get_write, if_pos (Nat.le_add_right _ _), Nat.add_sub_cancel_left]
    exact congrArg (Option.getD · _) stored

/-! ### Keeping -/

/-- A block stays together along a run that puts nothing into it. -/
theorem hasBlock_feed {machine : Machine} {inputs : List Input} {start : Address}
    {registers : Registers} {last : Register}
    (has : machine.memory.HasBlock start registers last)
    (refused : ∀ image, .load image ∈ inputs → imageLimit < image.length)
    (untouched : ∀ address, start.val ≤ address.val → address.val ≤ start.val + last.val →
      machine.Untouched inputs address) :
    (machine.feed inputs).memory.HasBlock start registers last := by
  intro x within
  obtain ⟨inside, same⟩ := has x within
  have spared : machine.Untouched inputs ⟨start.val + x.val, inside⟩ :=
    untouched _ (Nat.le_add_right _ _) (Nat.add_le_add_left within _)
  exact ⟨inside, (machine.get_feed_eq_iff inputs _ _ refused).mpr (Or.inr ⟨spared, same⟩)⟩

/-! ### Restoring -/

/-- A step that loads registers from a block of them restores them. -/
theorem restores_execute {machine : Machine} {word : Word} {saved : Registers}
    {upTo : Register} (loading : word.IsMiscellany upTo 0x65)
    (has : machine.memory.HasBlock machine.index saved upTo)
    (inside : machine.pc.val ≤ 0xFFD) : machine.Restores saved upTo (machine.execute word) := by
  obtain ⟨ends, -⟩ := has upTo (Fin.le_refl upTo)
  obtain ⟨next, cycles, -, fault, after⟩ := machine.execute_of_le word inside
  have loaded : machine.memory.load machine.index (UInt64.ofNat (upTo.val + 1)) =
      .ok (machine.memory.slice machine.index.val (upTo.val + 1)) := by
    rw [Memory.load_eq_ok_iff, Memory.fits_iff, toNat_blockSize]
    exact ⟨ends, rfl⟩
  have performed : perform machine.pc (.ofWord word) (machine.past word next) =
      .done { machine.past word next with
        registers :=
          machine.registers.fill (machine.memory.slice machine.index.val (upTo.val + 1)) } := by
    rw [Instruction.ofWord_of_fits (.loadRegisters upTo) loading]
    show Outcome.attempt (machine.memory.load machine.index _) _ _ = _
    rw [loaded]
    rfl
  rw [performed] at fault after
  have registers (x : Register) : (machine.execute word).machine.registers.get x =
      (machine.memory.slice machine.index.val (upTo.val + 1))[x.val]?.getD
        (machine.registers.get x) := by
    rw [after]
    exact machine.registers.get_fill _ x
  refine ⟨fault, fun x within => ?_, fun x above => ?_, by rw [after]; rfl, by rw [after]; rfl⟩
  · obtain ⟨inside, same⟩ := has x within
    have found := (Memory.getElem?_slice_eq_some_iff machine.memory machine.index.val
      (upTo.val + 1) x.val (saved.get x)).mpr ⟨Nat.lt_succ_of_le within, inside, same⟩
    rw [registers, found]
    rfl
  · have short : (machine.memory.slice machine.index.val (upTo.val + 1)).length ≤ x.val := by
      rw [Memory.length_slice]
      exact Nat.le_trans (Nat.min_le_left _ _) above
    rw [registers, List.getElem?_eq_none short]
    rfl

/-! ### Both -/

/-- A word is carried out, by itself on the machine that is found, or in a tick on the machine
that has woken. -/
inductive Executes (found : Machine) (word : Word) : Machine → Outcome → Prop
  | step : found.Executes word found (found.execute word)
  | tick {woken : Machine} (wakes : found.wake? = some woken) (reads : woken.fetch = .ok word) :
    found.Executes word woken found.tick

/-- Either way it comes to a step, on a machine whose timers a tick has lowered. -/
theorem Executes.eq_execute {found machine : Machine} {word : Word} {outcome : Outcome}
    (executes : found.Executes word machine outcome) :
    machine.memory = found.memory ∧ ∃ delayTimer soundTimer, outcome = execute
      { machine with delayTimer := delayTimer, soundTimer := soundTimer } word := by
  cases executes with
  | step => exact ⟨rfl, _, _, rfl⟩
  | tick wakes reads =>
    refine ⟨?_, _, _, tick_of_ok wakes reads⟩
    obtain ⟨registers, rfl⟩ := eq_of_wake? wakes
    rfl

/-- Registers that were stored are restored by a load of no more registers from the same index,
whatever was done in between that put nothing over them. -/
theorem registers_restored {found saver reader : Machine} {store load : Word}
    {last upTo : Register} {inputs : List Input} {stored loaded : Outcome}
    (storing : store.IsMiscellany last 0x55) (stores : found.Executes store saver stored)
    (goes : stored.fault = none)
    (refused : ∀ image, .load image ∈ inputs → 3584 < image.length)
    (untouched : ∀ address : Address, saver.index.val ≤ address.val →
      address.val ≤ saver.index.val + last.val → stored.machine.Untouched inputs address)
    (loading : load.IsMiscellany upTo 0x65) (short : upTo ≤ last)
    (loads : (stored.machine.feed inputs).Executes load reader loaded)
    (back : reader.index = saver.index) (inside : reader.pc.val ≤ 0xFFD) :
    reader.Restores saver.registers upTo loaded := by
  obtain ⟨-, delay, sound, rfl⟩ := stores.eq_execute
  have saved := hasBlock_execute storing goes
  have kept := hasBlock_feed saved refused untouched
  obtain ⟨memory, delay, sound, rfl⟩ := loads.eq_execute
  have there : reader.memory.HasBlock reader.index saver.registers upTo := by
    rw [memory, back]
    exact kept.shorten short
  let ready := { reader with delayTimer := delay, soundTimer := sound }
  have restores : ready.Restores saver.registers upTo (ready.execute load) :=
    restores_execute loading there inside
  exact ⟨restores.succeeds, restores.restored, restores.others, restores.index, restores.memory⟩

/-- Two registers are stored at the very end of memory and a third right below them, and one of
the two is loaded in the tick that wakes the machine with a key, which goes to the other. -/
theorem registers_restored_woken :
    let image : List UInt8 :=
      [0xF1, 0x55, 0x60, 0x7B, 0xAF, 0xFD, 0xF0, 0x55, 0xAF, 0xFE, 0xF1, 0x0A, 0xF0, 0x65]
    let saver := { create 0 with
      memory := Memory.blank.write 0 image
      registers := Registers.zero.fill [0x11, 0x22]
      index := ⟨0xFFE, by decide⟩
      pc := .zero
      mode := .running }
    let inputs : List Input := [.tick, .tick, .tick, .tick, .tick, .tick, .key 9 true, .key 5 true]
    let final := saver.tick.machine.feed inputs
    let reader := final.receive 5
    (saver.Executes (.ofBytes 0xF1 0x55) saver saver.tick ∧ saver.tick.fault = none ∧
        (∀ address : Address, saver.index.val ≤ address.val →
          address.val ≤ saver.index.val + 1 → saver.tick.machine.Untouched inputs address) ∧
        final.Executes (.ofBytes 0xF0 0x65) reader final.tick ∧
        reader.index = saver.index ∧ reader.pc.val ≤ 0xFFD) ∧
      (reader.registers.get 0 = 0x7B ∧ reader.registers.get 1 = 5) ∧
      reader.Restores saver.registers 0 final.tick := by
  intro image saver inputs final reader
  obtain ⟨first, goes, spared, lowest, waits, second, back, inside, changed⟩ :
      saver.fetch.toOption = some (.ofBytes 0xF1 0x55) ∧ saver.tick.fault = none ∧
      (∀ offset : Fin 2,
        saver.tick.machine.Untouched inputs ⟨0xFFE + offset.val, by omega⟩) ∧
      final.keypad.lowest? = some 5 ∧ final.mode = .waitingKey ∧
      reader.fetch.toOption = some (.ofBytes 0xF0 0x65) ∧ reader.index = saver.index ∧
      reader.pc.val ≤ 0xFFD ∧ reader.registers.get 0 = 0x7B ∧ reader.registers.get 1 = 5 := by
    decide +kernel
  have stores : saver.Executes (.ofBytes 0xF1 0x55) saver saver.tick :=
    .tick (wake?_of_running saver rfl) (toOption_fetch_eq_some_iff.mp first)
  have wakes : final.wake? = some reader := by
    rw [wake?_of_waiting final waits, lowest]
    rfl
  have loads : final.Executes (.ofBytes 0xF0 0x65) reader final.tick :=
    .tick wakes (toOption_fetch_eq_some_iff.mp second)
  have untouched : ∀ address : Address, saver.index.val ≤ address.val →
      address.val ≤ saver.index.val + 1 → saver.tick.machine.Untouched inputs address := by
    rintro ⟨place, below⟩ (lower : 0xFFE ≤ place) -
    obtain ⟨offset, rfl⟩ := Nat.exists_eq_add_of_le lower
    exact spared ⟨offset, by omega⟩
  refine ⟨⟨stores, goes, untouched, loads, back, inside⟩, changed, ?_⟩
  have storing : (Word.ofBytes 0xF1 0x55).IsMiscellany 1 0x55 := ⟨rfl, rfl, rfl⟩
  exact registers_restored storing stores goes (by simp [inputs]) untouched ⟨rfl, rfl, rfl⟩
    (by decide) loads back inside

end Machine

end Chip8
