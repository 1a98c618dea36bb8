/-
Nothing that is kept about a run has a part in it. The level of the log, the history and its
limit, the count of cycles and the flag that a redraw is due are there for those who watch
the machine; they may set them as they like between any two inputs, and the program will
never know. The idea is an exchange once more: with other books a machine goes the same way,
and only the books at the end are others (`respond_withBooks`). Slots of the stack that are
out of use are no part of what a program sees either, but of those we know already that they
make no difference.
-/

import Chip8.Machine.Watch
import Chip8.Proofs.Reset

namespace Chip8

/-- What a program can find out about its machine, or have it do. -/
structure Guest where
  pc : Address
  index : Address
  registers : Registers
  delayTimer : UInt8
  soundTimer : UInt8
  stack : List Address
  memory : Memory
  lit : Nat → Nat → Bool
  mode : Mode
  awaited : UInt8
  keypad : Keypad
  generator : Generator

/-- What is kept about a run. -/
structure Books where
  history : History
  cycles : UInt64
  updated : Bool

/-- How a machine is watched during an input: at what level, and with what books if they are
changed before it. -/
structure Watch where
  level : Log.Level
  books : Option Books

namespace Display

/-- What a sprite does to the cells does not depend on whether a redraw was due. -/
theorem plotSprite_withUpdated (display : Display) (updated : Bool) (column row : Nat)
    (sprite : List UInt8) :
    ∃ after, ({ display with updated := updated } : Display).plotSprite column row sprite =
      ({ (display.plotSprite column row sprite).1 with updated := after },
        (display.plotSprite column row sprite).2) := by
  cases sprite with
  | nil => exact ⟨updated, rfl⟩
  | cons byte rest => exact ⟨(display.plotSprite column row (byte :: rest)).1.updated, rfl⟩

end Display

namespace Machine

/-- The machine as its program sees it. -/
def guest (machine : Machine) : Guest where
  pc := machine.pc
  index := machine.index
  registers := machine.registers
  delayTimer := machine.delayTimer
  soundTimer := machine.soundTimer
  stack := machine.stack.toList
  memory := machine.memory
  lit := machine.display.cell
  mode := machine.mode
  awaited := machine.awaited
  keypad := machine.keypad
  generator := machine.generator

/-- The books that are kept with a machine. -/
def books (machine : Machine) : Books where
  history := machine.history
  cycles := machine.cycles
  updated := machine.display.updated

/-- The machine with other books. -/
def withBooks (machine : Machine) (books : Books) : Machine :=
  { machine with
    history := books.history
    cycles := books.cycles
    display := { machine.display with updated := books.updated } }

@[simp] theorem guest_withBooks (machine : Machine) (books : Books) :
    (machine.withBooks books).guest = machine.guest := rfl

/-- Slots of the stack that are out of use are not seen. -/
theorem guest_of_alike {first second : Machine} (same : first.Alike second) :
    first.guest = second.guest := by
  obtain ⟨items, rest⟩ := same
  calc first.guest = { first.guest with stack := second.stack.toList } := by rw [← items]; rfl
    _ = (first.withStack second.stack).guest := rfl
    _ = second.guest := by rw [rest]

/-- Two machines look the same to a program if nothing but books and slots out of use tells
them apart. -/
theorem alike_of_guest_eq {first second : Machine} (same : first.guest = second.guest) :
    (first.withBooks second.books).Alike second := by
  obtain ⟨pc, index, registers, delayTimer, soundTimer, stack, memory, display⟩ := first
  obtain ⟨pc', index', registers', delayTimer', soundTimer', stack', memory', display'⟩ := second
  simp only [guest, Guest.mk.injEq] at same
  obtain ⟨rfl, rfl, rfl, rfl, rfl, items, rfl, lit, rfl, rfl, rfl, rfl⟩ := same
  -- Cells determine rows, so a display is known but for its flag.
  have screen : ({ display with updated := display'.updated } : Display) = display' :=
    Display.ext_cell rfl fun column row => congrFun (congrFun lit column) row
  refine ⟨items, ?_⟩
  simp only [withBooks, books, withStack, screen]

/-! ### Instructions -/

theorem draw_withBooks (machine : Machine) (x y : Register) (height : Fin 16) (books : Books) :
    ∃ after, (machine.draw x y height).map (·.withBooks after) =
      (machine.withBooks books).draw x y height := by
  have sprite := machine.display.plotSprite_withUpdated books.updated
  obtain ⟨after, same⟩ := sprite ((machine.registers.set flagRegister 0).get x).toNat
    (((machine.registers.set flagRegister 0).get y).toNat % displayHeight)
    (machine.memory.slice machine.index.val height.val)
  refine ⟨{ books with updated := after }, ?_⟩
  simp only [draw, withBooks, same]
  split <;> rfl

/-- An instruction goes the same way with other books. -/
theorem perform_withBooks (origin : Address) (instruction : Instruction) (machine : Machine)
    (books : Books) :
    ∃ after, (perform origin instruction machine).map (·.withBooks after) =
      perform origin instruction (machine.withBooks books) := by
  cases instruction with
  | clear => exact ⟨{ books with updated := true }, rfl⟩
  | draw x y height => exact draw_withBooks machine x y height books
  | skipIf condition =>
    have same : (machine.withBooks books).holds condition = machine.holds condition := by
      cases condition <;> rfl
    refine ⟨books, ?_⟩
    simp only [perform, same]
    split
    · exact Outcome.map_attempt _ _ machine _
    · rfl
  | ret | call _ | addIndex _ | jumpForward _ => exact ⟨books, Outcome.map_attempt _ _ machine _⟩
  | storeDecimal _ | storeRegisters _ | loadRegisters _ =>
    refine ⟨books, ?_⟩
    unfold perform
    exact Outcome.map_attempt _ _ machine _
  | _ => exact ⟨books, rfl⟩

end Machine

namespace Outcome

theorem map_after (change : Machine → Machine) (log : List Log.Record) (outcome : Outcome) :
    (after log outcome).map change = after log (outcome.map change) := rfl

theorem map_counted (outcome : Outcome) (books : Books) :
    ∃ after, outcome.counted.map (·.withBooks after) =
      (outcome.map (·.withBooks books)).counted := by
  obtain ⟨fault, machine, log⟩ := outcome
  cases fault with
  | none => exact ⟨{ books with cycles := books.cycles + 1 }, rfl⟩
  | some fault => exact ⟨books, rfl⟩

end Outcome

namespace Machine

/-! ### Ticks -/

theorem execute_withBooks (machine : Machine) (word : Word) (books : Books) :
    ∃ after, (machine.execute word).map (·.withBooks after) =
      (machine.withBooks books).execute word := by
  -- The books may have a history of another length, so each records in its own.
  let recorded : Books := { books with history := books.history.add (machine.stepLine word) }
  cases moves : machine.pc.advance 2 with
  | error fault =>
    rw [execute_of_error machine word moves, execute_of_error (machine.withBooks books) word moves]
    exact ⟨recorded, rfl⟩
  | ok next =>
    rw [execute_of_ok machine word moves, execute_of_ok (machine.withBooks books) word moves]
    obtain ⟨performed, same⟩ := perform_withBooks machine.pc (.ofWord word)
      { machine with history := machine.history.add (machine.stepLine word), pc := next } recorded
    obtain ⟨after, counted⟩ := Outcome.map_counted (perform machine.pc (.ofWord word)
      { machine with history := machine.history.add (machine.stepLine word), pc := next }) performed
    refine ⟨after, ?_⟩
    rw [Outcome.map_after, counted, same]
    rfl

theorem receive_withBooks (machine : Machine) (books : Books) (key : Fin 16) :
    (machine.withBooks books).receive key = (machine.receive key).withBooks books := by
  by_cases named : machine.awaited.toNat < 16 <;>
    simp [receive, withBooks, setRegister, named]

theorem tick_withBooks (machine : Machine) (books : Books) :
    ∃ after, machine.tick.map (·.withBooks after) = (machine.withBooks books).tick := by
  have wakesToo : (machine.withBooks books).wake? = machine.wake?.map (·.withBooks books) :=
    wake?_change (·.withBooks books) machine rfl rfl
      fun key _ _ => machine.receive_withBooks books key
  refine tick_cases_change (motive := fun plain changed =>
      ∃ after, plain.map (·.withBooks after) = changed)
    (·.withBooks books) machine wakesToo ?reads ?idle ?unreadable ?executed
  case reads => exact fun _ _ => fetch_congr rfl rfl
  case idle => exact fun _ => ⟨books, rfl⟩
  case unreadable => exact fun _ _ _ _ => ⟨books, rfl⟩
  case executed => exact fun woken word _ _ => execute_withBooks woken.countDown word books

/-! ### Runs -/

/-- An input goes the same way with other books. -/
theorem respond_withBooks (machine : Machine) (input : Input) (books : Books) :
    ∃ after, (machine.respond input).map (·.withBooks after) =
      (machine.withBooks books).respond input := by
  cases input with
  | tick => exact tick_withBooks machine books
  | key | releaseKeys => exact ⟨books, rfl⟩
  | acknowledge => exact ⟨{ books with updated := false }, rfl⟩
  | load image =>
    simp only [respond]
    rcases Nat.lt_or_ge imageLimit image.length with exceeds | fits
    · rw [load_of_lt machine exceeds, load_of_lt _ exceeds]
      exact ⟨books, rfl⟩
    · rw [load_of_le machine fits, load_of_le _ fits]
      exact ⟨⟨books.history.clear, 0, true⟩, rfl⟩

/-- No input can tell machines apart that look the same to a program. -/
theorem guest_respond {first second : Machine} (input : Input)
    (same : first.guest = second.guest) :
    (first.respond input).fault = (second.respond input).fault ∧
      (first.respond input).machine.guest = (second.respond input).machine.guest := by
  obtain ⟨after, other⟩ := respond_withBooks first input second.books
  have alike := alike_respond input (alike_of_guest_eq same)
  rw [← other] at alike
  have seen := guest_of_alike alike.machine
  exact ⟨alike.fault, seen⟩

/-- What comes of each of a sequence of inputs, watched in one way or another. -/
def watched (machine : Machine) : List (Watch × Input) → List Outcome
  | [] => []
  | (watch, input) :: rest =>
    let outcome := ((watch.books.map machine.withBooks).getD machine).respondAt watch.level input
    outcome :: outcome.machine.watched rest

theorem guest_watch (machine : Machine) (books : Option Books) :
    ((books.map machine.withBooks).getD machine).guest = machine.guest := by
  cases books <;> rfl

theorem guest_watched {first second : Machine} (script : List (Input × Watch × Watch))
    (same : first.guest = second.guest) :
    List.Forall₂ (fun here there =>
        here.fault = there.fault ∧ here.machine.guest = there.machine.guest)
      (first.watched (script.map fun step => (step.2.1, step.1)))
      (second.watched (script.map fun step => (step.2.2, step.1))) := by
  induction script generalizing first second with
  | nil => exact .nil
  | cons step rest inductionHypothesis =>
    obtain ⟨input, here, there⟩ := step
    have start := (guest_watch first here.books).trans
      (same.trans (guest_watch second there.books).symm)
    obtain ⟨fault, guest⟩ := guest_respond input start
    simp only [List.map_cons, watched, respondAt_eq, Outcome.machine_shownAt]
    exact .cons ⟨fault, guest⟩ (inductionHypothesis guest)

/-- A level that stays as it is filters what is written, and does nothing else. -/
theorem watched_level (machine : Machine) (inputs : List Input) {low high : Log.Level}
    (le : low.rank ≤ high.rank) :
    List.Forall₂ (fun loud quiet => loud.fault = quiet.fault ∧ loud.machine = quiet.machine ∧
        quiet.log = Log.visible high loud.log)
      (machine.watched (inputs.map fun input => (⟨low, none⟩, input)))
      (machine.watched (inputs.map fun input => (⟨high, none⟩, input))) := by
  induction inputs generalizing machine with
  | nil => exact .nil
  | cons input rest inductionHypothesis =>
    simp only [List.map_cons, watched, respondAt_eq]
    exact .cons ⟨rfl, rfl, (Log.visible_visible le _).symm⟩ (inductionHypothesis _)

/-- Who watches a machine does not disturb it. Two machines that look the same to a program
are driven by the same inputs, and before each of them the books of either and the level of
its log are set at will: at every input they give the same fault, and they go on looking the
same. And with the same books, at two levels that stay as they are, the machines are the same
throughout, and the higher level shows just those records of the lower one that are meant to
be shown there. -/
theorem observation_inert :
    (∀ first second : Machine, first.guest = second.guest →
      ∀ script : List (Input × Watch × Watch),
        List.Forall₂ (fun here there =>
            here.fault = there.fault ∧ here.machine.guest = there.machine.guest)
          (first.watched (script.map fun step => (step.2.1, step.1)))
          (second.watched (script.map fun step => (step.2.2, step.1)))) ∧
    ∀ (machine : Machine) (inputs : List Input) (low high : Log.Level), low.rank ≤ high.rank →
      List.Forall₂ (fun loud quiet => loud.fault = quiet.fault ∧ loud.machine = quiet.machine ∧
          quiet.log = Log.visible high loud.log)
        (machine.watched (inputs.map fun input => (⟨low, none⟩, input)))
        (machine.watched (inputs.map fun input => (⟨high, none⟩, input))) :=
  ⟨fun _ _ same script => guest_watched script same,
    fun machine inputs _ _ le => watched_level machine inputs le⟩

/-- A random byte, a wait for a key and a return to nowhere: on one machine traced and then
with its history cut off, on another one silent and then traced. -/
theorem observation_inert_fault :
    let first := ((fresh 7 3).load [0xC0, 0xFF, 0xF1, 0x0A, 0x00, 0xEE]).machine
    let second := first.withBooks ⟨.empty 0, 99, false⟩
    let script : List (Input × Watch × Watch) :=
      [(.tick, ⟨.debug, none⟩, ⟨.off, none⟩),
        (.tick, ⟨.info, some ⟨.empty 0, 7, true⟩⟩, ⟨.debug, none⟩),
        (.key 4 true, ⟨.off, none⟩, ⟨.error, none⟩),
        (.tick, ⟨.debug, none⟩, ⟨.debug, some ⟨.empty 2, 0, false⟩⟩)]
    let inputs : List Input := [.tick, .tick, .key 4 true, .tick]
    (first.guest = second.guest ∧ first.history.limit ≠ second.history.limit) ∧
      List.Forall₂ (fun here there =>
          here.fault = there.fault ∧ here.machine.guest = there.machine.guest)
        (first.watched (script.map fun step => (step.2.1, step.1)))
        (second.watched (script.map fun step => (step.2.2, step.1))) ∧
      (first.watched (script.map fun step => (step.2.1, step.1))).map Outcome.fault =
        [none, none, none, some .stackUnderflow] ∧
      Log.Level.debug.rank ≤ Log.Level.error.rank ∧
      List.Forall₂ (fun loud quiet => loud.fault = quiet.fault ∧ loud.machine = quiet.machine ∧
          quiet.log = Log.visible .error loud.log)
        (first.watched (inputs.map fun input => (⟨.debug, none⟩, input)))
        (first.watched (inputs.map fun input => (⟨.error, none⟩, input))) := by
  intro first second script inputs
  have same : first.guest = second.guest := (guest_withBooks first _).symm
  have le : Log.Level.debug.rank ≤ Log.Level.error.rank := by decide
  obtain ⟨apart, faults⟩ : first.history.limit ≠ second.history.limit ∧
      (first.watched (script.map fun step => (step.2.1, step.1))).map Outcome.fault =
        [none, none, none, some .stackUnderflow] := by
    decide +kernel
  exact ⟨⟨same, apart⟩, observation_inert.1 first second same script, faults, le,
    observation_inert.2 first inputs .debug .error le⟩

end Machine

end Chip8
