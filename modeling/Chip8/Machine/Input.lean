/-
The life of a machine, as those who own it see it: a sequence of inputs, each answered
with an outcome. A tick is the one input that takes a step; the keys and the flag of the
display belong to the front end; a load may come at any time. A fault ends nothing here,
since the machine it leaves behind answers the next input like any other.
-/

import Chip8.Machine.Load
import Chip8.Machine.Step

namespace Chip8

/-- What can be done to a machine. -/
inductive Input where
  | tick
  | key (key : UInt8) (down : Bool)
  | releaseKeys
  | acknowledge
  | load (image : List UInt8)
  deriving DecidableEq, Repr

namespace Machine

/-- What comes of an input. -/
def respond (machine : Machine) : Input → Outcome
  | .tick => machine.tick
  | .key key down => .done (machine.setKey key down)
  | .releaseKeys => .done machine.releaseKeys
  | .acknowledge => .done machine.acknowledge
  | .load image => machine.load image

/-- The machine that a sequence of inputs leaves behind. -/
def feed (machine : Machine) (inputs : List Input) : Machine :=
  inputs.foldl (fun machine input => (machine.respond input).machine) machine

/-- What comes of each of a sequence of inputs. -/
def outcomes (machine : Machine) : List Input → List Outcome
  | [] => []
  | input :: rest => machine.respond input :: (machine.respond input).machine.outcomes rest

/-- The machine as each tick among a sequence of inputs finds it. -/
def atTicks (machine : Machine) : List Input → List Machine
  | [] => []
  | input :: rest =>
    let later := (machine.respond input).machine.atTicks rest
    if input = .tick then machine :: later else later

/-- A new machine that keeps so many trace lines. -/
def fresh (seed : UInt64) (limit : Nat) : Machine :=
  { create seed with history := .empty limit }

@[simp] theorem feed_nil (machine : Machine) : machine.feed [] = machine := rfl

@[simp] theorem feed_cons (machine : Machine) (input : Input) (rest : List Input) :
    machine.feed (input :: rest) = (machine.respond input).machine.feed rest := rfl

@[simp] theorem feed_append (machine : Machine) (first second : List Input) :
    machine.feed (first ++ second) = (machine.feed first).feed second :=
  List.foldl_append

@[simp] theorem respond_tick (machine : Machine) : machine.respond .tick = machine.tick := rfl

@[simp] theorem atTicks_nil (machine : Machine) : machine.atTicks [] = [] := rfl

@[simp] theorem atTicks_tick (machine : Machine) (rest : List Input) :
    machine.atTicks (.tick :: rest) = machine :: machine.tick.machine.atTicks rest := by
  rw [atTicks]
  exact if_pos rfl

theorem atTicks_other (machine : Machine) {input : Input} (rest : List Input)
    (other : input ≠ .tick) :
    machine.atTicks (input :: rest) = (machine.respond input).machine.atTicks rest := by
  rw [atTicks]
  exact if_neg other

/-- What every input of a sequence preserves holds at its end. -/
theorem feed_preserves {motive : Machine → Prop} (machine : Machine) (inputs : List Input)
    (start : motive machine)
    (step : ∀ machine, ∀ input ∈ inputs, motive machine →
      motive (machine.respond input).machine) :
    motive (machine.feed inputs) := by
  induction inputs generalizing machine with
  | nil => exact start
  | cons input rest inductionHypothesis =>
    rw [feed_cons]
    exact inductionHypothesis _ (step machine input List.mem_cons_self start)
      fun machine other member => step machine other (List.mem_cons_of_mem _ member)

end Machine

end Chip8
