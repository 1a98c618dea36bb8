/-
A load wipes the machine clean. Slots of the stack that are out of use are the one thing
that a load leaves as it was and does not carry over by design, so two machines that were
loaded alike need not be equal; they are `Alike`, which is to say equal but for such
slots. No input can tell machines that are alike apart: it leaves them alike, with the
same fault and the same records. For all but calls and returns this holds because they
commute with an exchange of the stack, and for those two because a push and a pop are
settled by the items alone.
-/

import Chip8.Machine.Input
import Chip8.Proofs.Frame
import Chip8.Proofs.Tick
import Mathlib.Data.List.Forall2

namespace Chip8

namespace Machine

/-- The stacks of two machines hold the same items, and all else is equal. -/
structure Alike (first second : Machine) : Prop where
  items : first.stack.toList = second.stack.toList
  rest : first.withStack second.stack = second

theorem alike_withStack (machine : Machine) {stack : Stack Address stackCapacity}
    (items : machine.stack.toList = stack.toList) : machine.Alike (machine.withStack stack) :=
  ⟨items, rfl⟩

end Machine

namespace Outcome

/-- The same fault, the same records, and machines that are alike. -/
structure Alike (first second : Outcome) : Prop where
  fault : first.fault = second.fault
  log : first.log = second.log
  machine : first.machine.Alike second.machine

theorem alike_withStack (outcome : Outcome) {stack : Stack Address stackCapacity}
    (items : outcome.machine.stack.toList = stack.toList) :
    outcome.Alike (outcome.withStack stack) :=
  ⟨rfl, rfl, outcome.machine.alike_withStack items⟩

theorem alike_done {first second : Machine} (same : first.Alike second) :
    (done first).Alike (done second) := ⟨rfl, rfl, same⟩

theorem alike_halted (fault : Fault) {first second : Machine} (same : first.Alike second) :
    (halted fault first).Alike (halted fault second) := ⟨rfl, rfl, same⟩

theorem Alike.after (log : List Log.Record) {first second : Outcome} (same : first.Alike second) :
    (after log first).Alike (after log second) :=
  ⟨same.fault, congrArg (log ++ ·) same.log, same.machine⟩

theorem Alike.counted {first second : Outcome} (same : first.Alike second) :
    first.counted.Alike second.counted := by
  obtain ⟨fault, machine, log⟩ := first
  obtain ⟨fault', machine', log'⟩ := second
  obtain ⟨rfl, rfl, items, rest⟩ := same
  cases fault with
  | some fault => exact ⟨rfl, rfl, items, rest⟩
  | none =>
    refine ⟨rfl, rfl, items, ?_⟩
    change machine.withStack machine'.stack = machine' at rest
    show ({ machine.withStack machine'.stack with cycles := machine.cycles + 1 } : Machine) =
      { machine' with cycles := machine'.cycles + 1 }
    rw [rest, ← rest]
    rfl

end Outcome

namespace Machine

/-! ### Instructions -/

/-- No instruction can tell two stacks with the same items apart. -/
theorem alike_perform (origin : Address) (instruction : Instruction) (machine : Machine)
    {stack : Stack Address stackCapacity} (items : machine.stack.toList = stack.toList) :
    (perform origin instruction machine).Alike
      (perform origin instruction (machine.withStack stack)) := by
  by_cases ret : instruction = .ret
  · subst ret
    rcases Stack.pop_congr items with
      ⟨fault, first, second⟩ | ⟨target, rest, rest', first, second, rests⟩
    · simp only [perform, withStack, first, second]
      exact Outcome.alike_halted fault (machine.alike_withStack items)
    · simp only [perform, withStack, first, second]
      exact Outcome.alike_done ⟨rests, rfl⟩
  by_cases call : ∃ target, instruction = .call target
  · obtain ⟨target, rfl⟩ := call
    rcases Stack.push_congr machine.pc items with
      ⟨fault, first, second⟩ | ⟨next, next', first, second, nexts⟩
    · simp only [perform, withStack, first, second]
      exact Outcome.alike_halted fault (machine.alike_withStack items)
    · simp only [perform, withStack, first, second]
      exact Outcome.alike_done ⟨nexts, rfl⟩
  have noCall : ∀ target, instruction ≠ .call target := fun target same => call ⟨target, same⟩
  rw [← perform_withStack origin instruction machine stack ret noCall]
  refine Outcome.alike_withStack _ ?_
  rw [stack_perform origin instruction machine ret noCall, items]

/-! ### Ticks -/

theorem receive_withStack (machine : Machine) (stack : Stack Address stackCapacity)
    (key : Fin 16) :
    (machine.withStack stack).receive key = (machine.receive key).withStack stack := by
  by_cases named : machine.awaited.toNat < 16
  · simp [receive, withStack, setRegister, named]
  · simp [receive, withStack, named]

theorem wake?_withStack (machine : Machine) (stack : Stack Address stackCapacity) :
    (machine.withStack stack).wake? = machine.wake?.map (·.withStack stack) :=
  wake?_change (·.withStack stack) machine rfl rfl
    fun key _ _ => machine.receive_withStack stack key

theorem alike_execute (machine : Machine) (word : Word) {stack : Stack Address stackCapacity}
    (items : machine.stack.toList = stack.toList) :
    (machine.execute word).Alike ((machine.withStack stack).execute word) := by
  cases moves : machine.pc.advance 2 with
  | error fault =>
    rw [execute_of_error machine word moves, execute_of_error (machine.withStack stack) word moves]
    exact ⟨rfl, rfl, items, rfl⟩
  | ok next =>
    rw [execute_of_ok machine word moves, execute_of_ok (machine.withStack stack) word moves]
    exact ((alike_perform machine.pc (.ofWord word)
      { machine with history := machine.history.add (machine.stepLine word), pc := next }
      items).counted).after _

theorem alike_tick (machine : Machine) {stack : Stack Address stackCapacity}
    (items : machine.stack.toList = stack.toList) :
    machine.tick.Alike (machine.withStack stack).tick := by
  have kept {woken : Machine} (wakes : machine.wake? = some woken) :
      woken.countDown.stack.toList = stack.toList := by
    obtain ⟨registers, rfl⟩ := eq_of_wake? wakes
    exact items
  refine tick_cases_change (motive := Outcome.Alike) (·.withStack stack) machine
    (machine.wake?_withStack stack) ?reads ?idle ?unreadable ?executed
  case reads => exact fun _ _ => fetch_congr rfl rfl
  case idle => exact fun _ => Outcome.alike_done (machine.alike_withStack items)
  case unreadable =>
    exact fun woken fault wakes _ =>
      Outcome.alike_halted fault (woken.countDown.alike_withStack (kept wakes))
  case executed => exact fun woken word wakes _ => alike_execute woken.countDown word (kept wakes)

/-! ### Loads -/

/-- All that a load carries over is the keys, the generator and the limit of the history. -/
theorem alike_load_of_le {first second : Machine} {image : List UInt8}
    (fits : image.length ≤ imageLimit) (keypad : first.keypad = second.keypad)
    (generator : first.generator = second.generator)
    (limit : first.history.limit = second.history.limit) :
    (first.load image).Alike (second.load image) := by
  rw [load_of_le first fits, load_of_le second fits]
  refine Outcome.Alike.after _ (Outcome.alike_done ⟨rfl, ?_⟩)
  simp only [restart, withStack, History.clear, Display.clear, keypad, generator, limit]

theorem alike_load {first second : Machine} (image : List UInt8) (same : first.Alike second) :
    (first.load image).Alike (second.load image) := by
  obtain ⟨items, rest⟩ := same
  rcases Nat.lt_or_ge imageLimit image.length with exceeds | fits
  · rw [load_of_lt first exceeds, load_of_lt second exceeds]
    exact (Outcome.alike_halted _ ⟨items, rest⟩).after _
  · refine alike_load_of_le fits ?_ ?_ ?_
    all_goals
      rw [← rest]
      rfl

/-! ### Runs -/

/-- No input can tell machines that are alike apart. -/
theorem alike_respond {first second : Machine} (input : Input) (same : first.Alike second) :
    (first.respond input).Alike (second.respond input) := by
  obtain ⟨items, rest⟩ := same
  rw [← rest]
  cases input with
  | tick => exact alike_tick first items
  | key | releaseKeys | acknowledge => exact ⟨rfl, rfl, items, rfl⟩
  | load image => exact alike_load image (first.alike_withStack items)

theorem alike_outcomes {first second : Machine} (inputs : List Input)
    (same : first.Alike second) :
    List.Forall₂ Outcome.Alike (first.outcomes inputs) (second.outcomes inputs) := by
  induction inputs generalizing first second with
  | nil => exact .nil
  | cons input rest inductionHypothesis =>
    have now := alike_respond input same
    exact .cons now (inductionHypothesis now.machine)

/-- A load is refused as a whole, or it wipes the machine: whatever two machines were
before, if they hold the same keys, draw from the same generator and keep equally many
trace lines, then from the load of an image on nothing tells them apart. -/
theorem load_wipes (image : List UInt8) :
    (3584 < image.length → ∀ machine : Machine,
      (machine.load image).fault = some .romTooLarge ∧ (machine.load image).machine = machine) ∧
    (image.length ≤ 3584 → ∀ first second : Machine, first.keypad = second.keypad →
      first.generator = second.generator → first.history.limit = second.history.limit →
      (first.load image).fault = none ∧
        ∀ inputs : List Input, List.Forall₂ Outcome.Alike
          (first.outcomes (.load image :: inputs)) (second.outcomes (.load image :: inputs))) := by
  refine ⟨fun exceeds machine => ?_, fun fits first second keypad generator limit => ?_⟩
  · rw [load_of_lt machine exceeds]
    exact ⟨rfl, rfl⟩
  · have loaded := alike_load_of_le fits keypad generator limit
    refine ⟨by rw [load_of_le first fits]; rfl, fun inputs => ?_⟩
    exact .cons loaded (alike_outcomes inputs loaded.machine)

/-- A machine inside a call and waiting for a key, with an address left over in a slot of
its stack, is as good as new after a load. -/
theorem load_wipes_waiting :
    let worn := (create 7).feed
      [.load [0x22, 0x04, 0x00, 0x00, 0x22, 0x08, 0xF3, 0x0A, 0x00, 0xEE],
        .tick, .tick, .tick, .tick]
    (worn.mode = .waitingKey ∧ worn.stack.toList ≠ [] ∧
        worn.stack.slots[1] ≠ (create 7).stack.slots[1]) ∧
      ([0x12, 0x00] : List UInt8).length ≤ 3584 ∧
      ∀ inputs : List Input, List.Forall₂ Outcome.Alike
        (worn.outcomes (.load [0x12, 0x00] :: inputs))
        ((create 7).outcomes (.load [0x12, 0x00] :: inputs)) := by
  intro worn
  obtain ⟨waits, keypad, generator, limit⟩ : (worn.mode = .waitingKey ∧
      worn.stack.toList ≠ [] ∧ worn.stack.slots[1] ≠ (create 7).stack.slots[1]) ∧
      worn.keypad = (create 7).keypad ∧ worn.generator = (create 7).generator ∧
      worn.history.limit = (create 7).history.limit := by
    decide +kernel
  have fits : ([0x12, 0x00] : List UInt8).length ≤ 3584 := by decide
  have wiped := (load_wipes [0x12, 0x00]).2 fits worn (create 7) keypad generator limit
  exact ⟨waits, fits, wiped.2⟩

end Machine

end Chip8
