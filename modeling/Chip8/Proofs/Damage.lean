/-
What a fault leaves behind. Faults are found before an instruction does anything, with one
exception: a sprite that reaches past the end of memory has its first rows drawn by the time
that is found out. So a step that is refused has done no more than record its word and, where
there was room, move past it, unless it was to draw, and then the rows that are in memory are on
the screen and the flag tells of those rows. A tick that is refused has woken the machine and
counted down before that, and if there was no word to read, it has done nothing else.
-/

import Chip8.Proofs.Chronicle
import Chip8.Proofs.Refusals
import Chip8.Proofs.Sprites
import Chip8.Proofs.Timers

namespace Chip8

namespace Outcome

theorem machine_attempt_of_fault {Result : Type} {result : Except Fault Result}
    {machine : Machine} {proceed : Result → Machine} {fault : Fault}
    (faults : (attempt result machine proceed).fault = some fault) :
    (attempt result machine proceed).machine = machine := by
  rw [fault_attempt_iff] at faults
  rw [faults]
  rfl

theorem counted_of_fault {outcome : Outcome} {fault : Fault}
    (faults : outcome.fault = some fault) : outcome.counted = outcome := by
  unfold counted
  rw [faults]

end Outcome

namespace Machine

/-! ### Instructions -/

/-- Any instruction that is refused has done nothing, unless it draws. -/
theorem machine_perform_of_fault (origin : Address) (instruction : Instruction)
    (machine : Machine) {fault : Fault} (noDraw : ∀ x y height, instruction ≠ .draw x y height)
    (faults : (perform origin instruction machine).fault = some fault) :
    (perform origin instruction machine).machine = machine := by
  cases instruction with
  | draw x y height => exact absurd rfl (noDraw x y height)
  | jumpForward _ => exact Outcome.machine_attempt_of_fault faults
  | ret | call _ | addIndex _ | storeDecimal _ | storeRegisters _ | loadRegisters _ =>
    unfold perform at faults ⊢
    exact Outcome.machine_attempt_of_fault faults
  | skipIf condition =>
    unfold perform at faults ⊢
    dsimp only at faults ⊢
    split at faults
    · next holds =>
      rw [if_pos holds]
      exact Outcome.machine_attempt_of_fault faults
    · cases faults
  | _ => cases faults

/-! ### Steps -/

/-- What a step that is refused has done to a machine. -/
structure Damaged (machine : Machine) (word : Word) (after : Machine) : Prop where
  /-- The index, the timers, the memory, the stack, the keys, the random bytes to come, the
  mode, the register that waits for a key and the count of cycles are as they were. -/
  rest : after = { machine with
    history := after.history, pc := after.pc, registers := after.registers,
    display := after.display }
  /-- One line was recorded. -/
  history : after.history =
    machine.history.add ("| 0x" ++ Hex.text 3 machine.pc.val ++ " | " ++ word.mnemonic)
  stuck : 0xFFE ≤ machine.pc.val → after.pc = machine.pc
  moved : machine.pc.val < 0xFFE → after.pc.val = machine.pc.val + 2
  spared : ¬(word.family.val = 0xD ∧ machine.pc.val < 0xFFE) →
    after.registers = machine.registers ∧ after.display = machine.display
  drawn : word.family.val = 0xD → machine.pc.val < 0xFFE →
    machine.Draws word.x word.y word.n after

/-- A step that is refused before its instruction is carried out. -/
theorem damaged_past (machine : Machine) (word : Word) (next : Address)
    (stuck : 0xFFE ≤ machine.pc.val → next = machine.pc)
    (moved : machine.pc.val < 0xFFE → next.val = machine.pc.val + 2)
    (blank : ¬(word.family.val = 0xD ∧ machine.pc.val < 0xFFE)) :
    machine.Damaged word (machine.past word next) where
  rest := rfl
  history := congrArg machine.history.add (machine.stepLine_eq word)
  stuck := stuck
  moved := moved
  spared _ := ⟨rfl, rfl⟩
  drawn draw inside := absurd ⟨draw, inside⟩ blank

theorem damaged_execute (machine : Machine) (word : Word) {fault : Fault}
    (faults : (machine.execute word).fault = some fault) :
    machine.Damaged word (machine.execute word).machine := by
  revert faults
  refine machine.execute_cases word
    (motive := fun outcome => outcome.fault = some fault → machine.Damaged word outcome.machine)
    (fun corner _ => ?_) fun next moved faults => ?_
  · exact machine.damaged_past word _ (fun _ => rfl) (by omega) fun both => by omega
  · have bound := next.isLt
    rw [Outcome.fault_after, Outcome.fault_counted] at faults
    rw [Outcome.machine_after, Outcome.counted_of_fault faults]
    by_cases draw : word.family.val = 0xD
    · have decoded := Instruction.ofWord_of_fits (.draw word.x word.y word.n)
        ⟨draw, rfl, rfl, rfl⟩
      have drawn := draws_draw (machine.past word next) word.x word.y word.n
      rw [decoded, perform]
      refine ⟨?_, ?_, by omega, ?_, fun blank => ?_, fun _ _ =>
        ⟨drawn.cells, drawn.updated, drawn.hit, drawn.missed, drawn.others⟩⟩
      · rw [machine_draw]
        rfl
      · rw [machine_draw]
        exact congrArg machine.history.add (machine.stepLine_eq word)
      · rw [machine_draw]
        exact fun _ => moved
      · exact absurd ⟨draw, by omega⟩ blank
    · have same := machine_perform_of_fault machine.pc (.ofWord word) (machine.past word next)
        (fun x y height same => draw (Instruction.ofWord_eq_iff.mp same).1) faults
      rw [same]
      exact machine.damaged_past word next (by omega) (fun _ => moved) fun both => draw both.1

/-! ### Ticks -/

/-- What a machine is woken to. -/
inductive Wakes (machine : Machine) : Machine → Prop
  | running (running : machine.mode = .running) : Wakes machine machine
  /-- The awaited register got the lowest key that is down. -/
  | received (waiting : machine.mode = .waitingKey) (key : Fin 16)
    (down : machine.keypad.isHeld (UInt8.ofNat key.val) = true)
    (lowest : ∀ lower < key, machine.keypad.isHeld (UInt8.ofNat lower.val) = false)
    (registers : Registers)
    (stored : ∀ x : Register, registers.get x =
      if x.val = machine.awaited.toNat then UInt8.ofNat key.val else machine.registers.get x) :
    Wakes machine { machine with mode := .running, registers := registers }

theorem wakes_of_wake? {machine woken : Machine} (wakes : machine.wake? = some woken) :
    machine.Wakes woken := by
  cases mode : machine.mode with
  | created =>
    rw [wake?_of_created machine mode] at wakes
    cases wakes
  | running =>
    rw [wake?_of_running machine mode] at wakes
    cases wakes
    exact .running mode
  | waitingKey =>
    rw [wake?_of_waiting machine mode] at wakes
    obtain ⟨key, lowest, rfl⟩ := Option.map_eq_some_iff.mp wakes
    obtain ⟨down, above⟩ := (machine.keypad.lowest?_eq_some_iff key).mp lowest
    unfold receive
    dsimp only
    split
    · next named =>
      refine .received mode key down above _ fun x => ?_
      by_cases here : x.val = machine.awaited.toNat
      · obtain rfl : x = ⟨machine.awaited.toNat, named⟩ := Fin.ext here
        rw [Registers.get_set_self, if_pos rfl]
      · rw [Registers.get_set_other _ _ _ _ fun same => here (congrArg Fin.val same),
          if_neg here]
    · next nameless =>
      refine .received mode key down above machine.registers fun x => ?_
      rw [if_neg fun here : x.val = machine.awaited.toNat => nameless (here ▸ x.isLt)]

/-- What a tick that is refused has done to a machine that was woken and has counted down:
nothing, if there was but one byte to read, and else what a step does that is refused. -/
inductive TickDamaged (machine : Machine) : Fault → Machine → Prop
  | unread (last : machine.pc.val = 0xFFF) : TickDamaged machine .memoryOutOfBounds machine
  | refused {fault : Fault} {after : Machine} {word : Word} (inside : machine.pc.val + 1 < 4096)
    (read : word = .ofBytes (machine.memory.get machine.pc)
      (machine.memory.get ⟨machine.pc.val + 1, inside⟩))
    (refuses : machine.Refuses word fault) (damaged : machine.Damaged word after) :
    TickDamaged machine fault after

theorem tickDamaged_tick {machine : Machine} {fault : Fault}
    (faults : machine.tick.fault = some fault) :
    ∃ woken lowered, machine.Wakes woken ∧ woken.CountsDown lowered ∧
      lowered.TickDamaged fault machine.tick.machine := by
  cases wakes : machine.wake? with
  | none =>
    rw [tick_of_idle wakes] at faults
    cases faults
  | some woken =>
    refine ⟨woken, woken.countDown, wakes_of_wake? wakes, woken.countsDown_countDown, ?_⟩
    rcases woken.fetch_cases with ⟨last, unread⟩ | ⟨inside, reads⟩
    · rw [tick_of_error wakes unread] at faults ⊢
      cases faults
      exact .unread last
    · rw [tick_of_ok wakes reads] at faults ⊢
      exact .refused inside rfl ((fault_execute_iff _ _ _).mp faults)
        (damaged_execute _ _ faults)

/-- What is left by a fault, of a step with any word and of a tick, on any machine: no more than
was documented has changed. -/
theorem damage_contained :
    (∀ (machine : Machine) (word : Word) (fault : Fault),
      (machine.execute word).fault = some fault →
        machine.Damaged word (machine.execute word).machine) ∧
    ∀ (machine : Machine) (fault : Fault), machine.tick.fault = some fault →
      ∃ woken lowered, machine.Wakes woken ∧ woken.CountsDown lowered ∧
        lowered.TickDamaged fault machine.tick.machine :=
  ⟨fun machine word _ => machine.damaged_execute word, fun _ _ => tickDamaged_tick⟩

/-- A sprite of four rows that begins two bytes before the end of memory: the second row is on
the screen, round the right edge, and the flag tells of the first two rows alone. -/
theorem damage_contained_sprite :
    let machine := (create 7).feed
      [.load [0x60, 0x81, 0x61, 0x3F, 0xAF, 0xFE, 0xF1, 0x55, 0xD1, 0xF4],
        .tick, .tick, .tick, .tick]
    let word := Word.ofBytes 0xD1 0xF4
    machine.tick.fault = some .addressOutOfRange ∧
      (∃ woken lowered, machine.Wakes woken ∧ woken.CountsDown lowered ∧
        lowered.TickDamaged .addressOutOfRange machine.tick.machine) ∧
      (machine.execute word).fault = some .addressOutOfRange ∧
      (machine.execute word).machine.display.cell 6 1 = true ∧
      (machine.execute word).machine.registers.get flagRegister = 0 := by
  intro machine word
  obtain ⟨faults, faults', cleared, inside, start, below, column, row⟩ :
      machine.tick.fault = some .addressOutOfRange ∧
        (machine.execute word).fault = some .addressOutOfRange ∧
        machine.display = Display.dark.clear ∧ machine.pc.val < 0xFFE ∧
        machine.index.val = 0xFFE ∧ machine.memory.get .last = 0x3F ∧
        machine.flagCleared.get 1 = 63 ∧ machine.flagCleared.get 15 = 0 := by
    decide +kernel
  have dark (column row : Nat) : machine.display.cell column row = false := by
    rw [cleared]
    exact Display.cell_dark column row
  have second : machine.index.val + 1 < 4096 := by omega
  have struck : machine.Strikes 1 15 4 6 1 := by
    have last : (⟨machine.index.val + 1, second⟩ : Address) = .last := by
      refine Address.ext_val ?_
      show machine.index.val + 1 = 0xFFF
      omega
    refine ⟨1, 7, second, by decide, by decide, ?_, ?_, ?_⟩
    · rw [last, below]
      decide
    · rw [column]
      decide
    · rw [row]
      decide
  have drawn := (damage_contained.1 machine word _ faults').drawn (by decide) inside
  refine ⟨faults, damage_contained.2 machine _ faults, faults', ?_, drawn.missed ?_⟩
  · rw [drawn.cells.toggled 6 1 struck, dark]
    rfl
  · rintro ⟨column, row, -, lit⟩
    cases (dark column row).symm.trans lit

end Machine

end Chip8
