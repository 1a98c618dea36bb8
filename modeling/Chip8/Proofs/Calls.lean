/-
Calls and returns are well bracketed. A tick pushes the address behind a call, pops the
address it returns to, or leaves the stack alone (`tick_stack`), so what lies under a
frame cannot be reached before the frame itself is taken off. From the call on, for as
long as the stack stays higher than it was before, its bottom is what it was then with
the return address on top; the input that ends this is a tick, and the tick a return to
that address.
-/

import Chip8.Machine.Input
import Chip8.Proofs.Decoding
import Chip8.Proofs.Frame
import Chip8.Proofs.Tick

namespace Chip8.Machine

/-! ### One tick -/

/-- What an instruction does to the stack. -/
theorem perform_stack (origin : Address) (instruction : Instruction) (machine : Machine)
    (outcome : Outcome) (result : perform origin instruction machine = outcome) :
    (outcome.machine.stack = machine.stack ∧
        (outcome.fault = none → instruction ≠ .ret ∧ ∀ target, instruction ≠ .call target)) ∨
      (∃ target, instruction = .call target ∧ outcome.fault = none ∧
        outcome.machine.stack.toList = machine.stack.toList ++ [machine.pc]) ∨
      (instruction = .ret ∧ outcome.fault = none ∧
        machine.stack.toList = outcome.machine.stack.toList ++ [outcome.machine.pc]) := by
  subst result
  cases instruction with
  | ret =>
    cases popped : machine.stack.pop with
    | error fault =>
      refine Or.inl ⟨?_, ?_⟩ <;> simp [perform, popped, Outcome.attempt]
    | ok top =>
      obtain ⟨target, rest⟩ := top
      refine Or.inr (Or.inr ⟨rfl, ?_, ?_⟩)
      · simp [perform, popped, Outcome.attempt]
      · simpa [perform, popped, Outcome.attempt] using Stack.toList_of_pop popped
  | call target =>
    cases pushed : machine.stack.push machine.pc with
    | error fault =>
      refine Or.inl ⟨?_, ?_⟩ <;> simp [perform, pushed, Outcome.attempt]
    | ok next =>
      refine Or.inr (Or.inl ⟨target, rfl, ?_, ?_⟩)
      · simp [perform, pushed, Outcome.attempt]
      · simpa [perform, pushed, Outcome.attempt] using Stack.toList_of_push pushed
  | _ => exact Or.inl ⟨stack_perform origin _ machine (by simp) (by simp), fun _ => by simp⟩

/-- What a tick does to the stack. -/
inductive StackTurn (machine : Machine) (outcome : Outcome) : Prop where
  /-- The stack stays as it is, and no call and no return went through. -/
  | kept (same : outcome.machine.stack = machine.stack)
      (other : ∀ word, machine.upcoming? = some word → outcome.fault = none →
        ¬word.IsReturn ∧ ¬word.IsCall)
  /-- A call puts the address behind it on top. -/
  | pushed (word : Word) (back : Address) (upcoming : machine.upcoming? = some word)
      (call : word.IsCall) (succeeds : outcome.fault = none)
      (behind : back.val = machine.pc.val + 2)
      (items : outcome.machine.stack.toList = machine.stack.toList ++ [back])
  /-- A return takes the top off and goes there. -/
  | popped (word : Word) (upcoming : machine.upcoming? = some word) (ret : word.IsReturn)
      (succeeds : outcome.fault = none)
      (items : machine.stack.toList = outcome.machine.stack.toList ++ [outcome.machine.pc])

theorem tick_stack (machine : Machine) : machine.StackTurn machine.tick := by
  refine machine.tick_cases ?idle ?unreadable ?cornered ?performed
  case idle =>
    intro asleep
    exact .kept rfl fun word upcoming => by simp [upcoming?, asleep] at upcoming
  case unreadable =>
    intro woken fault wakes _
    obtain ⟨registers, rfl⟩ := eq_of_wake? wakes
    exact .kept rfl fun _ _ succeeds => absurd succeeds (by simp)
  case cornered =>
    intro woken word wakes _
    obtain ⟨registers, rfl⟩ := eq_of_wake? wakes
    exact .kept rfl fun _ _ succeeds => absurd succeeds (by simp)
  case performed =>
    intro woken word next wakes reads behind
    have upcoming := upcoming?_eq_some wakes reads
    obtain ⟨registers, rfl⟩ := eq_of_wake? wakes
    generalize result : perform _ _ _ = outcome
    obtain ⟨cycles, counted⟩ := outcome.machine_counted
    rcases perform_stack _ _ _ outcome result with
      ⟨same, other⟩ | ⟨target, call, succeeds, items⟩ | ⟨ret, succeeds, items⟩
    · refine .kept (by simpa [counted] using same) fun other' upcoming' succeeds => ?_
      obtain rfl : word = other' := Option.some.inj (upcoming.symm.trans upcoming')
      obtain ⟨noReturn, noCall⟩ := other (by simpa using succeeds)
      rw [Ne, Instruction.ofWord_eq_iff] at noReturn
      exact ⟨noReturn, fun call =>
        noCall word.nnn (Instruction.ofWord_of_fits _ ⟨call, rfl⟩)⟩
    · have called := (Instruction.ofWord_eq_iff.mp call).1
      refine .pushed word next upcoming called ?_ behind ?_
      · simpa using succeeds
      · simpa [counted] using items
    · refine .popped word upcoming (Instruction.ofWord_eq_iff.mp ret) ?_ ?_
      · simpa using succeeds
      · simpa [counted] using items

/-- A tick moves the depth of the stack by one at most. -/
theorem depth_tick (machine : Machine) :
    machine.stack.depth ≤ machine.tick.machine.stack.depth + 1 ∧
      machine.tick.machine.stack.depth ≤ machine.stack.depth + 1 := by
  cases machine.tick_stack with
  | kept same _ =>
    rw [same]
    omega
  | pushed _ _ _ _ _ _ items | popped _ _ _ _ items =>
    have lengths := congrArg List.length items
    simp only [List.length_append, List.length_singleton, Stack.length_toList] at lengths
    omega

/-- Of the inputs that are no loads, the ticks alone touch the stack. -/
theorem stack_respond (machine : Machine) {input : Input} (running : ∀ image, input ≠ .load image)
    (other : input ≠ .tick) : (machine.respond input).machine.stack = machine.stack := by
  cases input with
  | tick => exact absurd rfl other
  | key | releaseKeys | acknowledge => rfl
  | load image => exact absurd rfl (running image)

/-! ### Runs -/

/-- The stack holds more than a number of items all along a sequence of inputs. -/
def StaysAbove (machine : Machine) (depth : Nat) (inputs : List Input) : Prop :=
  ∀ earlier, earlier <+: inputs → depth < (machine.feed earlier).stack.depth

/-- An input after which the stack still reaches up to a frame leaves that frame and what
is under it alone. -/
theorem bottom_respond (machine : Machine) {input : Input} (frames : List Address)
    (running : ∀ image, input ≠ .load image) (bottom : frames <+: machine.stack.toList)
    (above : frames.length ≤ (machine.respond input).machine.stack.depth) :
    frames <+: (machine.respond input).machine.stack.toList := by
  by_cases ticks : input = .tick
  · subst ticks
    rw [← Stack.length_toList] at above
    show frames <+: machine.tick.machine.stack.toList
    cases machine.tick_stack with
    | kept same _ => rwa [same]
    | pushed _ _ _ _ _ _ items =>
      rw [items]
      exact bottom.trans (List.prefix_append _ _)
    | popped _ _ _ _ items =>
      rw [items] at bottom
      exact List.prefix_of_prefix_length_le bottom (List.prefix_append _ _) above
  · rwa [stack_respond machine running ticks]

theorem bottom_feed (machine : Machine) (inputs : List Input) (frames : List Address)
    (running : ∀ image, .load image ∉ inputs) (bottom : frames <+: machine.stack.toList)
    (above : ∀ earlier, earlier <+: inputs →
      frames.length ≤ (machine.feed earlier).stack.depth) :
    frames <+: (machine.feed inputs).stack.toList := by
  induction inputs generalizing machine with
  | nil => exact bottom
  | cons input rest inductionHypothesis =>
    have head : ∀ image, input ≠ .load image :=
      fun image same => running image (same ▸ List.mem_cons_self)
    have first := above [input] (List.cons_prefix_cons.mpr ⟨rfl, List.nil_prefix⟩)
    refine inductionHypothesis _ (fun image member => running image (List.mem_cons_of_mem _ member))
      (bottom_respond machine frames head bottom first) fun earlier start => ?_
    exact above (input :: earlier) (List.cons_prefix_cons.mpr ⟨rfl, start⟩)

/-- The input that takes the top frame off is a tick, and the tick a return to it. -/
theorem return_of_respond (machine : Machine) {input : Input} (frames : List Address)
    (back : Address) (running : ∀ image, input ≠ .load image)
    (bottom : frames ++ [back] <+: machine.stack.toList)
    (below : (machine.respond input).machine.stack.depth ≤ frames.length) :
    input = .tick ∧ (∃ word, machine.upcoming? = some word ∧ word.IsReturn) ∧
      machine.tick.fault = none ∧ machine.tick.machine.pc = back ∧
      machine.tick.machine.stack.toList = frames := by
  have high := bottom.length_le
  simp only [List.length_append, List.length_singleton] at high
  have ticks : input = .tick := by
    refine Decidable.byContradiction fun other => ?_
    rw [stack_respond machine running other, ← Stack.length_toList] at below
    omega
  subst ticks
  change machine.tick.machine.stack.depth ≤ _ at below
  rw [← Stack.length_toList] at below
  cases machine.tick_stack with
  | kept same _ =>
    rw [same] at below
    omega
  | pushed _ _ _ _ _ _ items =>
    rw [items, List.length_append] at below
    omega
  | popped word upcoming ret succeeds items =>
    have whole : frames ++ [back] =
        machine.tick.machine.stack.toList ++ [machine.tick.machine.pc] := by
      rw [items] at bottom
      refine bottom.eq_of_length_le ?_
      simp only [List.length_append, List.length_singleton]
      omega
    obtain ⟨same, top⟩ := List.append_inj' whole rfl
    exact ⟨rfl, ⟨word, upcoming, ret⟩, succeeds, (List.singleton_inj.mp top).symm, same.symm⟩

/-- From a call that goes through on, whatever the program does and whatever is done to
the keys: while the stack stays higher than it was before the call, its bottom is what it
was then with the address behind the call on top, and what ends this is a return to that
address, which leaves the stack as the call found it. -/
theorem call_bracketed (machine : Machine) (word : Word)
    (upcoming : machine.upcoming? = some word) (call : word.IsCall)
    (succeeds : machine.tick.fault = none) :
    ∃ back : Address, back.val = machine.pc.val + 2 ∧
      machine.tick.machine.stack.depth = machine.stack.depth + 1 ∧
      machine.tick.machine.stack.toList = machine.stack.toList ++ [back] ∧
      ∀ inputs : List Input, (∀ image, .load image ∉ inputs) →
        let now := machine.tick.machine.feed inputs
        (now.stack.depth ≤ now.tick.machine.stack.depth + 1 ∧
          now.tick.machine.stack.depth ≤ now.stack.depth + 1) ∧
        (machine.tick.machine.StaysAbove machine.stack.depth inputs →
          machine.stack.toList ++ [back] <+: now.stack.toList ∧
          ∀ input, (∀ image, input ≠ .load image) →
            (now.respond input).machine.stack.depth ≤ machine.stack.depth →
            input = .tick ∧ (∃ word, now.upcoming? = some word ∧ word.IsReturn) ∧
              now.tick.fault = none ∧ now.tick.machine.pc = back ∧
              now.tick.machine.stack.toList = machine.stack.toList) := by
  cases machine.tick_stack with
  | kept _ other => exact absurd call (other word upcoming succeeds).2
  | popped same again ret _ _ =>
    obtain rfl : word = same := Option.some.inj (upcoming.symm.trans again)
    exact absurd call ret.not_isCall
  | pushed _ back _ _ _ behind items =>
    have depth := congrArg List.length items
    simp only [List.length_append, List.length_singleton, Stack.length_toList] at depth
    refine ⟨back, behind, depth, items, fun inputs running => ⟨depth_tick _, fun stays => ?_⟩⟩
    have bottom := bottom_feed machine.tick.machine inputs (machine.stack.toList ++ [back]) running
      (items ▸ List.prefix_refl _) fun earlier start => by
        rw [List.length_append, Stack.length_toList]
        exact stays earlier start
    refine ⟨bottom, fun input other below => ?_⟩
    rw [← Stack.length_toList machine.stack] at below
    exact return_of_respond _ _ _ other bottom below

/-- A routine that calls itself, at its second call. -/
theorem call_bracketed_recursive :
    let machine := ((create 0).load [0x22, 0x02, 0x22, 0x00]).machine.tick.machine
    (machine.upcoming? = some ⟨2, 2, 0, 0⟩ ∧ (⟨2, 2, 0, 0⟩ : Word).IsCall ∧
        machine.tick.fault = none) ∧
      ∃ back : Address, back.val = 0x204 ∧
        machine.tick.machine.stack.toList = machine.stack.toList ++ [back] ∧
        ∀ inputs : List Input, (∀ image, .load image ∉ inputs) →
          machine.tick.machine.StaysAbove 1 inputs →
          machine.stack.toList ++ [back] <+: (machine.tick.machine.feed inputs).stack.toList := by
  intro machine
  have call : (⟨2, 2, 0, 0⟩ : Word).IsCall := by decide
  obtain ⟨upcoming, succeeds, here, deep⟩ : machine.upcoming? = some ⟨2, 2, 0, 0⟩ ∧
      machine.tick.fault = none ∧ machine.pc.val = 0x202 ∧ machine.stack.depth = 1 := by
    decide +kernel
  obtain ⟨back, behind, -, items, later⟩ := call_bracketed machine _ upcoming call succeeds
  refine ⟨⟨upcoming, call, succeeds⟩, back, by rw [behind, here], items, ?_⟩
  intro inputs running stays
  exact ((later inputs running).2 (deep ▸ stays)).1

end Chip8.Machine
