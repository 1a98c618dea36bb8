/-
What a tick can do, said once. A tick is idle, or cannot read the word at the program
counter, or reads it and cannot move past it, or carries it out; `tick_cases` turns a
claim about ticks into a claim about each of the four. An instruction is carried out on
the machine that waking, counting down, recording and moving on have made ready for it,
`poised`, so that what an instruction does is all that is left to be said.
-/

import Chip8.Machine.Step

namespace Chip8

namespace Machine

/-! ### The way to an instruction -/

/-- The word that the next tick carries out, if it gets so far. -/
def upcoming? (machine : Machine) : Option Word :=
  machine.wake?.bind fun woken => woken.fetch.toOption

/-- The line in which a step is recorded. -/
def stepLine (machine : Machine) (word : Word) : String :=
  traceLine (UInt32.ofNat machine.pc.val) word.mnemonic

/-- The machine that has recorded a word and moved past it. -/
def past (machine : Machine) (word : Word) (next : Address) : Machine :=
  { machine with history := machine.history.add (machine.stepLine word), pc := next }

/-- The machine that an instruction is carried out on. -/
def poised (machine : Machine) (word : Word) (next : Address) : Machine :=
  { machine.countDown with history := machine.history.add (machine.stepLine word), pc := next }

section Poised

variable (machine : Machine) (word : Word) (next : Address)

@[simp] theorem pc_poised : (machine.poised word next).pc = next := rfl

@[simp] theorem index_poised : (machine.poised word next).index = machine.index := rfl

@[simp] theorem registers_poised :
    (machine.poised word next).registers = machine.registers := rfl

@[simp] theorem stack_poised : (machine.poised word next).stack = machine.stack := rfl

@[simp] theorem memory_poised : (machine.poised word next).memory = machine.memory := rfl

@[simp] theorem mode_poised : (machine.poised word next).mode = machine.mode := rfl

@[simp] theorem awaited_poised : (machine.poised word next).awaited = machine.awaited := rfl

@[simp] theorem keypad_poised : (machine.poised word next).keypad = machine.keypad := rfl

@[simp] theorem history_poised :
    (machine.poised word next).history = machine.history.add (machine.stepLine word) := rfl

end Poised

theorem wake?_of_created (machine : Machine) (created : machine.mode = .created) :
    machine.wake? = none := by
  unfold wake?
  rw [created]

theorem wake?_of_running (machine : Machine) (running : machine.mode = .running) :
    machine.wake? = some machine := by
  unfold wake?
  rw [running]

theorem wake?_of_waiting (machine : Machine) (waiting : machine.mode = .waitingKey) :
    machine.wake? = machine.keypad.lowest?.map machine.receive := by
  unfold wake?
  rw [waiting]

/-- A machine whose next tick makes a step: it runs, or it waits and a key is down. -/
def Live (machine : Machine) : Prop :=
  machine.mode = .running ∨
    machine.mode = .waitingKey ∧ ∃ key, machine.keypad.isHeld key = true

theorem wake?_eq_none_iff (machine : Machine) : machine.wake? = none ↔ ¬machine.Live := by
  unfold Live
  cases mode : machine.mode with
  | created => simp [wake?_of_created machine mode]
  | running => simp [wake?_of_running machine mode]
  | waitingKey =>
    simp [wake?_of_waiting machine mode, machine.keypad.lowest?_eq_none_iff]

theorem live_iff (machine : Machine) : machine.Live ↔ ∃ woken, machine.wake? = some woken := by
  rw [← Option.ne_none_iff_exists', Ne, wake?_eq_none_iff, Classical.not_not]

instance (machine : Machine) : Decidable machine.Live :=
  decidable_of_iff (machine.wake?.isSome = true) <| by
    rw [live_iff, Option.isSome_iff_exists]

/-- Waking touches the registers and the mode. -/
theorem eq_of_wake? {machine woken : Machine} (wakes : machine.wake? = some woken) :
    ∃ registers, woken = { machine with mode := .running, registers := registers } := by
  cases mode : machine.mode with
  | created =>
    rw [wake?_of_created machine mode] at wakes
    cases wakes
  | running =>
    rw [wake?_of_running machine mode] at wakes
    cases wakes
    exact ⟨machine.registers, by rw [← mode]⟩
  | waitingKey =>
    rw [wake?_of_waiting machine mode] at wakes
    obtain ⟨key, -, rfl⟩ := Option.map_eq_some_iff.mp wakes
    unfold receive
    dsimp only
    split <;> exact ⟨_, rfl⟩

/-- A change that leaves the mode and the keys alone, and that a key can be received before
or after, commutes with waking. -/
theorem wake?_change (change : Machine → Machine) (machine : Machine)
    (mode : (change machine).mode = machine.mode)
    (keypad : (change machine).keypad = machine.keypad)
    (receive : ∀ key, machine.wake? = some (machine.receive key) → machine.mode = .waitingKey →
      (change machine).receive key = change (machine.receive key)) :
    (change machine).wake? = machine.wake?.map change := by
  cases before : machine.mode with
  | created =>
    rw [wake?_of_created machine before, wake?_of_created _ (mode.trans before)]
    rfl
  | running =>
    rw [wake?_of_running machine before, wake?_of_running _ (mode.trans before)]
    rfl
  | waitingKey =>
    rw [wake?_of_waiting machine before] at receive ⊢
    rw [wake?_of_waiting _ (mode.trans before), keypad]
    cases lowest : machine.keypad.lowest? with
    | none => rfl
    | some key =>
      rw [lowest] at receive
      exact congrArg some (receive key rfl before)

theorem toNat_lowered (value : UInt8) :
    (countDown.lowered value).toNat = value.toNat - 1 := by
  unfold countDown.lowered
  split
  · next zero => rw [zero]; rfl
  · next some =>
    have positive : 1 ≤ value := by
      rw [UInt8.le_iff_toNat_le]
      exact Nat.pos_of_ne_zero fun zero => some (UInt8.toNat_inj.mp zero)
    rw [UInt8.toNat_sub_of_le _ _ positive]
    rfl

/-- The machine has counted down: each timer went down by one, unless it was at zero. -/
structure CountsDown (machine after : Machine) : Prop where
  rest : after = { machine with delayTimer := after.delayTimer, soundTimer := after.soundTimer }
  delayTimer : after.delayTimer.toNat = machine.delayTimer.toNat - 1
  soundTimer : after.soundTimer.toNat = machine.soundTimer.toNat - 1

theorem countsDown_countDown (machine : Machine) : machine.CountsDown machine.countDown :=
  ⟨rfl, toNat_lowered _, toNat_lowered _⟩

theorem fetch_congr {first second : Machine} (pc : first.pc = second.pc)
    (memory : first.memory = second.memory) : first.fetch = second.fetch := by
  unfold fetch
  rw [pc, memory]

@[simp] theorem fetch_countDown (machine : Machine) : machine.countDown.fetch = machine.fetch :=
  fetch_congr rfl rfl

/-- There is a word to read unless the program counter is at the last byte of memory. -/
theorem fetch_cases (machine : Machine) :
    (machine.pc.val = 0xFFF ∧ machine.fetch = .error .memoryOutOfBounds) ∨
      ∃ inside : machine.pc.val + 1 < 4096, machine.fetch = .ok (.ofBytes
        (machine.memory.get machine.pc) (machine.memory.get ⟨machine.pc.val + 1, inside⟩)) := by
  have bound := machine.pc.isLt
  unfold fetch Memory.loadPair
  split
  · next inside => exact Or.inr ⟨inside, rfl⟩
  · exact Or.inl ⟨by omega, rfl⟩

theorem eq_ofBytes_of_fetch {machine : Machine} {word : Word} {next : Address}
    (reads : machine.fetch = .ok word) (behind : next.val = machine.pc.val + 1) :
    word = .ofBytes (machine.memory.get machine.pc) (machine.memory.get next) := by
  have bound := next.isLt
  rcases machine.fetch_cases with ⟨last, -⟩ | ⟨inside, found⟩
  · omega
  · obtain rfl : next = ⟨machine.pc.val + 1, inside⟩ := Address.ext_val behind
    exact Except.ok.inj (reads.symm.trans found)

theorem execute_of_error (machine : Machine) (word : Word) {fault : Fault}
    (cornered : machine.pc.advance 2 = .error fault) :
    machine.execute word =
      ⟨some fault, { machine with history := machine.history.add (machine.stepLine word) },
        [.debug (machine.stepLine word)]⟩ := by
  unfold execute
  rw [cornered]
  rfl

theorem execute_of_ok (machine : Machine) (word : Word) {next : Address}
    (moves : machine.pc.advance 2 = .ok next) :
    machine.execute word = .after [.debug (machine.stepLine word)]
      (perform machine.pc (.ofWord word)
        { machine with
          history := machine.history.add (machine.stepLine word), pc := next }).counted := by
  unfold execute
  rw [moves]
  rfl

/-- A step takes one of two courses. -/
theorem execute_cases {motive : Outcome → Prop} (machine : Machine) (word : Word)
    (cornered : 0xFFE ≤ machine.pc.val →
      motive ⟨some .addressOutOfRange, machine.past word machine.pc,
        [.debug (machine.stepLine word)]⟩)
    (performed : ∀ next, next.val = machine.pc.val + 2 →
      motive (.after [.debug (machine.stepLine word)]
        (perform machine.pc (.ofWord word) (machine.past word next)).counted)) :
    motive (machine.execute word) := by
  cases moves : machine.pc.advance 2 with
  | error refusal =>
    obtain ⟨rfl, corner⟩ := Address.advance_eq_error_iff.mp moves
    have corner : 4096 ≤ machine.pc.val + 2 := corner
    rw [execute_of_error machine word moves]
    exact cornered (by omega)
  | ok next =>
    rw [execute_of_ok machine word moves]
    exact performed next (Address.advance_eq_ok_iff.mp moves)

/-- A step that can move past its word comes to what its instruction comes to behind it, apart
from the count of cycles. -/
theorem execute_of_le (machine : Machine) (word : Word) (inside : machine.pc.val ≤ 0xFFD) :
    ∃ next cycles, next.val = machine.pc.val + 2 ∧
      (machine.execute word).fault =
        (perform machine.pc (.ofWord word) (machine.past word next)).fault ∧
      (machine.execute word).machine =
        { (perform machine.pc (.ofWord word) (machine.past word next)).machine with
          cycles := cycles } := by
  have fits : machine.pc.val + 2 < 4096 := by omega
  have moves : machine.pc.advance 2 = .ok ⟨machine.pc.val + 2, fits⟩ :=
    Address.advance_eq_ok_iff.mpr rfl
  rw [execute_of_ok machine word moves, Outcome.fault_after, Outcome.fault_counted,
    Outcome.machine_after]
  obtain ⟨cycles, counted⟩ := Outcome.machine_counted
    (perform machine.pc (.ofWord word) (machine.past word ⟨machine.pc.val + 2, fits⟩))
  exact ⟨_, cycles, rfl, rfl, counted⟩

theorem tick_of_idle {machine : Machine} (idle : machine.wake? = none) :
    machine.tick = .done machine := by
  unfold tick
  rw [idle]

/-- A tick that makes a step counts down before it reads the word. -/
theorem tick_of_wake? {machine woken : Machine} (wakes : machine.wake? = some woken) :
    machine.tick = match woken.countDown.fetch with
      | .error fault => .halted fault woken.countDown
      | .ok word => woken.countDown.execute word := by
  unfold tick
  rewrite [wakes]
  rfl

theorem tick_of_error {machine woken : Machine} {fault : Fault}
    (wakes : machine.wake? = some woken) (unreadable : woken.fetch = .error fault) :
    machine.tick = .halted fault woken.countDown := by
  rw [tick_of_wake? wakes, fetch_countDown, unreadable]

theorem tick_of_ok {machine woken : Machine} {word : Word}
    (wakes : machine.wake? = some woken) (reads : woken.fetch = .ok word) :
    machine.tick = woken.countDown.execute word := by
  rw [tick_of_wake? wakes, fetch_countDown, reads]

/-- Every tick takes one of four courses. -/
theorem tick_cases {motive : Outcome → Prop} (machine : Machine)
    (idle : machine.wake? = none → motive (.done machine))
    (unreadable : ∀ woken fault, machine.wake? = some woken → woken.fetch = .error fault →
      motive (.halted fault woken.countDown))
    (cornered : ∀ woken word, machine.wake? = some woken → woken.fetch = .ok word →
      motive ⟨some .addressOutOfRange, woken.poised word woken.pc,
        [.debug (woken.stepLine word)]⟩)
    (performed : ∀ woken word next, machine.wake? = some woken → woken.fetch = .ok word →
      next.val = woken.pc.val + 2 →
      motive (.after [.debug (woken.stepLine word)]
        (perform woken.pc (.ofWord word) (woken.poised word next)).counted)) :
    motive machine.tick := by
  cases wakes : machine.wake? with
  | none =>
    rw [tick_of_idle wakes]
    exact idle wakes
  | some woken =>
    cases reads : woken.fetch with
    | error fault =>
      rw [tick_of_error wakes reads]
      exact unreadable woken fault wakes reads
    | ok word =>
      rw [tick_of_ok wakes reads]
      exact woken.countDown.execute_cases word (fun _ => cornered woken word wakes reads)
        fun next moved => performed woken word next wakes reads moved

/-- A part that is not touched on the way to an instruction is as it was after a tick, if the
instruction does not touch it either. -/
theorem part_tick {Part : Type} (part : Machine → Part) (machine : Machine)
    (free : ∀ (machine : Machine) pc registers delayTimer soundTimer mode cycles history,
      part { machine with
        pc := pc
        registers := registers
        delayTimer := delayTimer
        soundTimer := soundTimer
        mode := mode
        cycles := cycles
        history := history } = part machine)
    (performed : ∀ woken word next, machine.wake? = some woken → woken.fetch = .ok word →
      machine.tick = .after [.debug (woken.stepLine word)]
        (perform woken.pc (.ofWord word) (woken.poised word next)).counted →
      part (perform woken.pc (.ofWord word) (woken.poised word next)).machine =
        part (woken.poised word next)) :
    part machine.tick.machine = part machine := by
  refine machine.tick_cases
    (motive := fun outcome => machine.tick = outcome → part outcome.machine = part machine)
    (fun _ _ => rfl) ?unreadable ?cornered ?performed rfl
  case unreadable =>
    intro woken fault wakes _ _
    obtain ⟨registers, rfl⟩ := eq_of_wake? wakes
    exact free machine _ _ _ _ _ _ _
  case cornered =>
    intro woken word wakes _ _
    obtain ⟨registers, rfl⟩ := eq_of_wake? wakes
    exact free machine _ _ _ _ _ _ _
  case performed =>
    intro woken word next wakes reads _ course
    have instruction := performed woken word next wakes reads course
    obtain ⟨cycles, counted⟩ :=
      (perform woken.pc (.ofWord word) (woken.poised word next)).machine_counted
    obtain ⟨registers, rfl⟩ := eq_of_wake? wakes
    rw [Outcome.machine_after, counted]
    refine (free _ _ _ _ _ _ _ _).trans (instruction.trans ?_)
    exact free machine _ _ _ _ _ _ _

/-- A machine and a changed one take the same course in a tick, if they wake alike and then read
the same word. -/
theorem tick_cases_change {motive : Outcome → Outcome → Prop} (change : Machine → Machine)
    (machine : Machine) (wakesToo : (change machine).wake? = machine.wake?.map change)
    (readsToo : ∀ woken, machine.wake? = some woken → (change woken).fetch = woken.fetch)
    (idle : machine.wake? = none → motive (.done machine) (.done (change machine)))
    (unreadable : ∀ woken fault, machine.wake? = some woken → woken.fetch = .error fault →
      motive (.halted fault woken.countDown) (.halted fault (change woken).countDown))
    (executed : ∀ woken word, machine.wake? = some woken → woken.fetch = .ok word →
      motive (woken.countDown.execute word) ((change woken).countDown.execute word)) :
    motive machine.tick (change machine).tick := by
  cases wakes : machine.wake? with
  | none =>
    rw [wakes] at wakesToo
    rw [tick_of_idle wakes, tick_of_idle wakesToo]
    exact idle wakes
  | some woken =>
    rw [wakes] at wakesToo
    have same := readsToo woken wakes
    cases reads : woken.fetch with
    | error fault =>
      rw [tick_of_error wakes reads, tick_of_error wakesToo (same.trans reads)]
      exact unreadable woken fault wakes reads
    | ok word =>
      rw [tick_of_ok wakes reads, tick_of_ok wakesToo (same.trans reads)]
      exact executed woken word wakes reads

theorem toOption_fetch_eq_some_iff {machine : Machine} {word : Word} :
    machine.fetch.toOption = some word ↔ machine.fetch = .ok word := by
  cases machine.fetch <;> simp [Except.toOption]

theorem upcoming?_eq_some_iff {machine : Machine} {word : Word} :
    machine.upcoming? = some word ↔
      ∃ woken, machine.wake? = some woken ∧ woken.fetch = .ok word := by
  simp only [upcoming?, Option.bind_eq_some_iff, toOption_fetch_eq_some_iff]

theorem upcoming?_eq_some {machine woken : Machine} {word : Word}
    (wakes : machine.wake? = some woken) (reads : woken.fetch = .ok word) :
    machine.upcoming? = some word :=
  upcoming?_eq_some_iff.mpr ⟨woken, wakes, reads⟩

/-- A tick that goes through and carries out no word does nothing. -/
theorem tick_of_upcoming?_eq_none {machine : Machine} (wordless : machine.upcoming? = none)
    (succeeds : machine.tick.fault = none) : machine.tick = .done machine := by
  cases wakes : machine.wake? with
  | none => exact tick_of_idle wakes
  | some woken =>
    cases reads : woken.fetch with
    | error fault =>
      rw [tick_of_error wakes reads] at succeeds
      cases succeeds
    | ok word => cases (upcoming?_eq_some wakes reads).symm.trans wordless

/-- The course of a tick that goes through and carries out a given word. -/
theorem tick_of_upcoming {machine : Machine} {word : Word}
    (upcoming : machine.upcoming? = some word) (succeeds : machine.tick.fault = none) :
    ∃ woken next, machine.wake? = some woken ∧ woken.fetch = .ok word ∧
      next.val = woken.pc.val + 2 ∧
      machine.tick = .after [.debug (woken.stepLine word)]
        (perform woken.pc (.ofWord word) (woken.poised word next)).counted := by
  obtain ⟨woken, wakes, reads⟩ := upcoming?_eq_some_iff.mp upcoming
  rw [tick_of_ok wakes reads] at succeeds ⊢
  cases moves : woken.pc.advance 2 with
  | error fault =>
    rw [execute_of_error woken.countDown word moves] at succeeds
    cases succeeds
  | ok next =>
    rw [execute_of_ok woken.countDown word moves]
    exact ⟨woken, next, wakes, reads, Address.advance_eq_ok_iff.mp moves, rfl⟩

end Machine

end Chip8
