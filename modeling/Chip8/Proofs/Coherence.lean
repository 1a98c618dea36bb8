/-
What is true of every machine that was created empty and then lived through any inputs.
Most of it is about one component at a time. The exception is a machine that waits: the
word behind its program counter is the wait that it is in, for the register that it has
noted down, and that word is also the newest line of its history. This survives because
nothing touches the memory, the program counter or the history between the wait and the
key that ends it. Before the first load nothing has happened at all.
-/

import Chip8.Proofs.Calls
import Chip8.Proofs.Modes

namespace Chip8

namespace Machine

/-! ### One tick -/

/-- A tick that gets as far as an instruction is recorded, whatever comes of it, and no
other is. -/
theorem tick_history (machine : Machine) :
    machine.tick.machine.history = match machine.upcoming? with
      | none => machine.history
      | some word => machine.history.add (machine.stepLine word) := by
  refine machine.tick_cases (motive := fun outcome =>
    outcome.machine.history = match machine.upcoming? with
      | none => machine.history
      | some word => machine.history.add (machine.stepLine word))
    ?idle ?unreadable ?cornered ?performed
  case idle =>
    intro asleep
    simp only [upcoming?, asleep, Option.bind_none]
    rfl
  case unreadable =>
    intro woken fault wakes unreadable
    simp only [upcoming?, wakes, Option.bind_some, unreadable, Except.toOption]
    obtain ⟨registers, rfl⟩ := eq_of_wake? wakes
    rfl
  case cornered =>
    intro woken word wakes reads
    rw [upcoming?_eq_some wakes reads]
    obtain ⟨registers, rfl⟩ := eq_of_wake? wakes
    rfl
  case performed =>
    intro woken word next wakes reads _
    rw [upcoming?_eq_some wakes reads]
    obtain ⟨registers, rfl⟩ := eq_of_wake? wakes
    obtain ⟨cycles, counted⟩ := Outcome.machine_counted (perform _ _ (poised _ word next))
    rw [Outcome.machine_after, counted]
    exact (books_perform _ _ _).2.2

/-- A wait that is carried out moves past its word and is recorded, and that is all. -/
theorem tick_of_await {machine : Machine} {word : Word} {x : Register}
    (upcoming : machine.upcoming? = some word) (await : word.IsAwait x)
    (succeeds : machine.tick.fault = none) :
    machine.fetch = .ok word ∧ machine.tick.machine.pc.val = machine.pc.val + 2 ∧
      machine.tick.machine.memory = machine.memory ∧
      machine.tick.machine.history = machine.history.add (machine.stepLine word) := by
  obtain ⟨woken, next, wakes, reads, behind, course⟩ := tick_of_upcoming upcoming succeeds
  obtain ⟨registers, rfl⟩ := eq_of_wake? wakes
  rw [course, Instruction.ofWord_of_fits (.awaitKey x) await]
  exact ⟨reads, behind, rfl, rfl⟩

/-! ### The invariant -/

/-- What every machine keeps to that keeps so many trace lines. -/
structure Coherent (limit : Nat) (machine : Machine) : Prop where
  /-- No call is made from below the second byte of memory. -/
  returns : ∀ back ∈ machine.stack.toList, 2 ≤ back.val ∧ back.val ≤ 0xFFF
  awaited_lt : machine.awaited.toNat < 16
  limit_eq : machine.history.limit = limit
  history_le : machine.history.toList.length ≤ limit
  /-- The wait that a machine is in, `FX0A`, is the two bytes of memory behind its program
  counter and the newest line of its history. -/
  waiting : machine.mode = .waitingKey → ∃ (origin second : Address) (x : Register),
    second.val = origin.val + 1 ∧ machine.pc.val = origin.val + 2 ∧
    machine.memory.get origin = UInt8.ofNat (0xF0 + x.val) ∧
    machine.memory.get second = 0x0A ∧
    machine.awaited = UInt8.ofNat x.val ∧
    (0 < limit → machine.history.toList.getLast? = some (traceLine (UInt32.ofNat origin.val)
      (Word.ofBytes (machine.memory.get origin) (machine.memory.get second)).mnemonic))
  /-- Before the first load nothing was drawn, stored, counted, called or recorded. -/
  created : machine.mode = .created →
    (∀ column row, machine.display.cell column row = false) ∧
    (∀ address, machine.memory.get address = font[address.val]?.getD 0) ∧
    machine.cycles = 0 ∧ machine.stack.toList = [] ∧ machine.history.toList = []

theorem coherent_fresh (seed : UInt64) (limit : Nat) : (fresh seed limit).Coherent limit where
  returns := List.forall_mem_nil _
  awaited_lt := (by decide : (0 : UInt8).toNat < 16)
  limit_eq := rfl
  history_le := Nat.zero_le _
  waiting waits := by cases waits
  created _ := ⟨Display.cell_dark, Memory.get_blank, rfl, rfl, rfl⟩

theorem coherent_restart {limit : Nat} {machine : Machine} (coherent : machine.Coherent limit)
    (memory : Memory) : (machine.restart memory).Coherent limit where
  returns := List.forall_mem_nil _
  awaited_lt := (by decide : (0 : UInt8).toNat < 16)
  limit_eq := coherent.limit_eq
  history_le := Nat.zero_le _
  waiting waits := by cases waits
  created unloaded := by cases unloaded

theorem coherent_tick {limit : Nat} {machine : Machine} (coherent : machine.Coherent limit) :
    machine.tick.machine.Coherent limit where
  returns back member := by
    cases machine.tick_stack with
    | kept same _ =>
      rw [same] at member
      exact coherent.returns back member
    | pushed _ next _ _ _ behind items =>
      rw [items, List.mem_append, List.mem_singleton] at member
      rcases member with below | rfl
      · exact coherent.returns back below
      · exact ⟨by omega, Nat.le_of_lt_succ back.isLt⟩
    | popped _ _ _ _ items =>
      refine coherent.returns back ?_
      rw [items]
      exact List.mem_append_left _ member
  awaited_lt := by
    cases machine.tick_mode with
    | asleep _ same =>
      rw [same]
      exact coherent.awaited_lt
    | runs _ _ awaited =>
      rw [awaited]
      exact coherent.awaited_lt
    | waits _ x _ _ _ _ _ awaited =>
      rw [awaited, UInt8.toNat_ofNat']
      exact Nat.lt_of_le_of_lt (Nat.mod_le _ _) x.isLt
  limit_eq := by
    rw [machine.tick_history]
    split
    · exact coherent.limit_eq
    · rw [History.limit_add, coherent.limit_eq]
  history_le := by
    have kept : machine.history.toList.length ≤ machine.history.limit :=
      coherent.limit_eq ▸ coherent.history_le
    rw [machine.tick_history]
    split
    · exact coherent.history_le
    · rw [← coherent.limit_eq]
      exact History.length_add_le kept _
  waiting waits := by
    cases machine.tick_mode with
    | asleep _ same =>
      rw [same] at waits ⊢
      exact coherent.waiting waits
    | runs _ mode _ =>
      rw [mode] at waits
      cases waits
    | waits word x _ upcoming await succeeds _ awaited =>
      obtain ⟨reads, behind, memory, history⟩ := tick_of_await upcoming await succeeds
      have bound := machine.tick.machine.pc.isLt
      obtain ⟨second, adjacent⟩ : ∃ second : Address, second.val = machine.pc.val + 1 :=
        ⟨⟨machine.pc.val + 1, by omega⟩, rfl⟩
      obtain rfl := eq_ofBytes_of_fetch reads adjacent
      obtain ⟨upper, lower⟩ := Word.isAwait_ofBytes_iff.mp await
      rw [memory, history]
      exact ⟨machine.pc, second, x, adjacent, behind, upper, lower, awaited,
        fun on => History.getLast?_add (coherent.limit_eq ▸ on) _⟩
  created unloaded := by
    cases machine.tick_mode with
    | asleep _ same =>
      rw [same] at unloaded ⊢
      exact coherent.created unloaded
    | runs _ mode _ | waits _ _ _ _ _ _ mode _ =>
      rw [mode] at unloaded
      cases unloaded

theorem coherent_respond {limit : Nat} {machine : Machine} (coherent : machine.Coherent limit)
    (input : Input) : (machine.respond input).machine.Coherent limit := by
  cases input with
  | tick => exact coherent_tick coherent
  | key | releaseKeys | acknowledge =>
    exact ⟨coherent.returns, coherent.awaited_lt, coherent.limit_eq, coherent.history_le,
      coherent.waiting, coherent.created⟩
  | load image =>
    simp only [respond]
    rcases Nat.lt_or_ge imageLimit image.length with exceeds | fits
    · rw [load_of_lt machine exceeds]
      exact coherent
    · rw [load_of_le machine fits]
      exact coherent_restart coherent _

theorem coherent_feed (seed : UInt64) (limit : Nat) (inputs : List Input) :
    ((fresh seed limit).feed inputs).Coherent limit :=
  feed_preserves _ inputs (coherent_fresh seed limit)
    fun _ input _ coherent => coherent_respond coherent input

end Machine

end Chip8
