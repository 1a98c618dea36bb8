/-
What comes of an operation on a machine. A fault does not take back what was done before
it, so an outcome has a machine in every case, and with it the fault, if there was one,
and all the log records on the way, whether or not anyone is going to look at them.
-/

import Chip8.Log
import Chip8.Machine.State

namespace Chip8

/-- The result of an operation on a machine. -/
structure Outcome where
  fault : Option Fault
  machine : Machine
  log : List Log.Record

namespace Outcome

/-- Nothing went wrong, and there is nothing to say. -/
def done (machine : Machine) : Outcome := ⟨none, machine, []⟩

/-- A fault that leaves a machine behind. -/
def halted (fault : Fault) (machine : Machine) : Outcome := ⟨some fault, machine, []⟩

/-- Goes on with the result of an operation that can fail. If it did fail, the machine
stays as it is. -/
def attempt {Result : Type} (result : Except Fault Result) (machine : Machine)
    (proceed : Result → Machine) : Outcome :=
  match result with
  | .ok value => done (proceed value)
  | .error fault => halted fault machine

/-- Puts records before those of an outcome. -/
def after (log : List Log.Record) (outcome : Outcome) : Outcome :=
  { outcome with log := log ++ outcome.log }

/-- Counts an instruction that went through. -/
def counted (outcome : Outcome) : Outcome :=
  match outcome.fault with
  | none =>
    { outcome with machine := { outcome.machine with cycles := outcome.machine.cycles + 1 } }
  | some _ => outcome

/-! ### What an outcome is made of -/

@[simp] theorem fault_done (machine : Machine) : (done machine).fault = none := rfl

@[simp] theorem machine_done (machine : Machine) : (done machine).machine = machine := rfl

@[simp] theorem fault_halted (fault : Fault) (machine : Machine) :
    (halted fault machine).fault = some fault := rfl

@[simp] theorem machine_halted (fault : Fault) (machine : Machine) :
    (halted fault machine).machine = machine := rfl

@[simp] theorem fault_after (log : List Log.Record) (outcome : Outcome) :
    (after log outcome).fault = outcome.fault := rfl

@[simp] theorem machine_after (log : List Log.Record) (outcome : Outcome) :
    (after log outcome).machine = outcome.machine := rfl

@[simp] theorem fault_counted (outcome : Outcome) : outcome.counted.fault = outcome.fault := by
  unfold counted
  split <;> rfl

/-- Counting touches nothing but the count. -/
theorem machine_counted (outcome : Outcome) :
    ∃ cycles, outcome.counted.machine = { outcome.machine with cycles := cycles } := by
  unfold counted
  split
  · exact ⟨_, rfl⟩
  · exact ⟨_, rfl⟩

theorem fault_attempt_iff {Result : Type} (result : Except Fault Result) (machine : Machine)
    (proceed : Result → Machine) (fault : Fault) :
    (attempt result machine proceed).fault = some fault ↔ result = .error fault := by
  cases result <;> simp [attempt]

/-- What an attempt preserves if it goes through, it preserves. -/
theorem attempt_preserves {Result : Type} {motive : Machine → Prop}
    (result : Except Fault Result) (machine : Machine) (proceed : Result → Machine)
    (start : motive machine) (step : ∀ value, result = .ok value → motive (proceed value)) :
    motive (attempt result machine proceed).machine := by
  cases result with
  | ok value => exact step value rfl
  | error fault => exact start

/-- A part that no result of an attempt touches stays as it is. -/
theorem part_attempt {Part Result : Type} (part : Machine → Part)
    (result : Except Fault Result) (machine : Machine) (proceed : Result → Machine)
    (free : ∀ value, part (proceed value) = part machine) :
    part (attempt result machine proceed).machine = part machine :=
  attempt_preserves (motive := fun after => part after = part machine) result machine proceed rfl
    fun value _ => free value

end Outcome

end Chip8
