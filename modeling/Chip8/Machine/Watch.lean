/-
A machine that is watched at a level of the log. It writes what is shown at that level and
nothing else, and a trace line that is going to be neither kept nor shown is not even put
together. The level is set from outside, before every input if need be; what it may not do
is to change anything but what is written, and `respondAt_eq` says that it does not.
-/

import Chip8.Machine.Input

namespace Chip8

namespace Outcome

/-- The outcome with those of its records that are shown at a level. -/
def shownAt (outcome : Outcome) (level : Log.Level) : Outcome :=
  { outcome with log := Log.visible level outcome.log }

@[simp] theorem fault_shownAt (outcome : Outcome) (level : Log.Level) :
    (outcome.shownAt level).fault = outcome.fault := rfl

@[simp] theorem machine_shownAt (outcome : Outcome) (level : Log.Level) :
    (outcome.shownAt level).machine = outcome.machine := rfl

theorem shownAt_after (log : List Log.Record) (outcome : Outcome) (level : Log.Level) :
    (after log outcome).shownAt level =
      after (Log.visible level log) (outcome.shownAt level) := by
  simp only [shownAt, after, Log.visible, List.filter_append]

theorem shownAt_counted (outcome : Outcome) (level : Log.Level) :
    outcome.counted.shownAt level = (outcome.shownAt level).counted := by
  obtain ⟨fault, machine, log⟩ := outcome
  cases fault <;> rfl

end Outcome

namespace Machine

/-- Records the step to a word, before it is taken, and says what is shown of that. -/
def record (level : Log.Level) (machine : Machine) (word : Word) : Machine × List Log.Record :=
  if machine.history.limit = 0 ∧ Log.Level.debug.enabledAt level = false then (machine, [])
  else
    let line := traceLine (UInt32.ofNat machine.pc.val) word.mnemonic
    let shown := Log.visible level [.debug line]
    if machine.history.limit = 0 then (machine, shown)
    else ({ machine with history := machine.history.add line }, shown)

/-- Takes a step with a given word, watched at a level. -/
def executeAt (level : Log.Level) (machine : Machine) (word : Word) : Outcome :=
  let (recorded, shown) := machine.record level word
  let outcome : Outcome := match machine.pc.advance 2 with
    | .error fault => .halted fault recorded
    | .ok next => (perform machine.pc (.ofWord word) { recorded with pc := next }).shownAt level
  .after shown outcome.counted

/-- A tick, watched at a level. -/
def tickAt (level : Log.Level) (machine : Machine) : Outcome :=
  match machine.wake? with
  | none => .done machine
  | some woken =>
    let counted := woken.countDown
    match counted.fetch with
    | .error fault => .halted fault counted
    | .ok word => counted.executeAt level word

/-- What comes of an input, watched at a level. -/
def respondAt (level : Log.Level) (machine : Machine) : Input → Outcome
  | .tick => machine.tickAt level
  | input => (machine.respond input).shownAt level

/-! ### What a level changes -/

theorem record_eq (level : Log.Level) (machine : Machine) (word : Word) :
    let line := traceLine (UInt32.ofNat machine.pc.val) word.mnemonic
    machine.record level word =
      ({ machine with history := machine.history.add line }, Log.visible level [.debug line]) := by
  unfold record
  by_cases off : machine.history.limit = 0
  · have same (line : String) :
        ({ machine with history := machine.history.add line } : Machine) = machine := by
      rw [History.add_of_zero off]
    by_cases quiet : Log.Level.debug.enabledAt level = false
    · have silent (line : String) : Log.visible level [.debug line] = [] := by
        simp [Log.visible, Log.Record.debug, Log.Record.shownAt, Log.Severity.level, quiet]
      simp only [off, quiet, and_self, ↓reduceIte, same, silent]
    · simp only [off, quiet, and_false, ↓reduceIte, same, reduceCtorEq]
  · simp only [off, false_and, ↓reduceIte]

theorem executeAt_eq (level : Log.Level) (machine : Machine) (word : Word) :
    machine.executeAt level word = (machine.execute word).shownAt level := by
  unfold executeAt execute
  dsimp only
  rw [record_eq, Outcome.shownAt_after, Outcome.shownAt_counted]
  cases machine.pc.advance 2 <;> rfl

theorem tickAt_eq (level : Log.Level) (machine : Machine) :
    machine.tickAt level = machine.tick.shownAt level := by
  unfold tickAt tick
  cases machine.wake? with
  | none => rfl
  | some woken =>
    dsimp only
    cases woken.countDown.fetch with
    | error fault => rfl
    | ok word => exact executeAt_eq level woken.countDown word

/-- A level decides what is shown of an outcome, and nothing about it. -/
theorem respondAt_eq (level : Log.Level) (machine : Machine) (input : Input) :
    machine.respondAt level input = (machine.respond input).shownAt level := by
  cases input with
  | tick => exact tickAt_eq level machine
  | _ => rfl

end Machine

end Chip8
