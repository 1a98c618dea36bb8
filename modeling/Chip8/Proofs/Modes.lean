/-
The three modes of a machine and the ways between them. A machine is created idle and is
set running by a load alone; a wait for a key is the only way from running to waiting,
and from there a key that is down is the only way on, but for a new load. A wake-up falls
through into an ordinary tick of the running machine that already has its key, so all
that holds of those holds of it, another wait and a fault included.
-/

import Chip8.Machine.Input
import Chip8.Proofs.Decoding
import Chip8.Proofs.Frame
import Chip8.Proofs.Tick
import Mathlib.Data.List.Induction

namespace Chip8.Machine

/-! ### One tick -/

/-- What an instruction does to the mode. -/
theorem perform_mode (origin : Address) (instruction : Instruction) (machine : Machine)
    (outcome : Outcome) (result : perform origin instruction machine = outcome) :
    (outcome.machine.mode = machine.mode ∧ outcome.machine.awaited = machine.awaited) ∨
      ∃ x, instruction = .awaitKey x ∧ outcome.fault = none ∧
        outcome.machine.mode = .waitingKey ∧ outcome.machine.awaited = UInt8.ofNat x.val := by
  subst result
  by_cases await : ∃ x, instruction = .awaitKey x
  · obtain ⟨x, rfl⟩ := await
    exact Or.inr ⟨x, rfl, rfl, rfl, rfl⟩
  · have keeps := keeps_perform origin instruction machine fun x same => await ⟨x, same⟩
    exact Or.inl ⟨keeps.mode, keeps.awaited⟩

/-- What a tick does to the mode. -/
inductive ModeTurn (machine : Machine) (outcome : Outcome) : Prop where
  /-- A machine that cannot wake does nothing. -/
  | asleep (idle : machine.wake? = none) (same : outcome = .done machine)
  /-- A machine that wakes runs on, with or without a fault. -/
  | runs (awake : machine.wake? ≠ none) (mode : outcome.machine.mode = .running)
      (awaited : outcome.machine.awaited = machine.awaited)
  /-- It waits if it was told to. -/
  | waits (word : Word) (x : Register) (awake : machine.wake? ≠ none)
      (upcoming : machine.upcoming? = some word) (await : word.IsAwait x)
      (succeeds : outcome.fault = none) (mode : outcome.machine.mode = .waitingKey)
      (awaited : outcome.machine.awaited = UInt8.ofNat x.val)

theorem tick_mode (machine : Machine) : machine.ModeTurn machine.tick := by
  refine machine.tick_cases ?idle ?unreadable ?cornered ?performed
  case idle => exact fun asleep => .asleep asleep rfl
  case unreadable =>
    intro woken fault wakes _
    have awake : machine.wake? ≠ none := by simp [wakes]
    obtain ⟨registers, rfl⟩ := eq_of_wake? wakes
    exact .runs awake rfl rfl
  case cornered =>
    intro woken word wakes _
    have awake : machine.wake? ≠ none := by simp [wakes]
    obtain ⟨registers, rfl⟩ := eq_of_wake? wakes
    exact .runs awake rfl rfl
  case performed =>
    intro woken word next wakes reads behind
    have awake : machine.wake? ≠ none := by simp [wakes]
    have upcoming := upcoming?_eq_some wakes reads
    obtain ⟨registers, rfl⟩ := eq_of_wake? wakes
    generalize result : perform _ _ _ = outcome
    obtain ⟨cycles, counted⟩ := outcome.machine_counted
    rcases perform_mode _ _ _ outcome result with
      ⟨mode, awaited⟩ | ⟨x, await, succeeds, mode, awaited⟩
    · refine .runs awake ?_ ?_
      · simpa [counted] using mode
      · simpa [counted] using awaited
    · refine .waits word x awake upcoming
        (Instruction.ofWord_eq_iff.mp await) ?_ ?_ ?_
      · simpa using succeeds
      · simpa [counted] using mode
      · simpa [counted] using awaited

/-- A tick that can wake is the tick of the woken machine. -/
theorem tick_eq_of_wake? {machine woken : Machine} (wakes : machine.wake? = some woken) :
    machine.tick = woken.tick := by
  have running : woken.mode = .running := by
    obtain ⟨registers, rfl⟩ := eq_of_wake? wakes
    rfl
  cases reads : woken.fetch with
  | error fault =>
    rw [tick_of_error wakes reads, tick_of_error (wake?_of_running woken running) reads]
  | ok word => rw [tick_of_ok wakes reads, tick_of_ok (wake?_of_running woken running) reads]

theorem receive_of_awaited {machine : Machine} {x : Register}
    (awaited : machine.awaited = UInt8.ofNat x.val) (key : Fin 16) :
    machine.receive key =
      ({ machine with mode := .running } : Machine).setRegister x (UInt8.ofNat key.val) := by
  have number : machine.awaited.toNat = x.val := by
    rw [awaited, UInt8.toNat_ofNat']
    exact Nat.mod_eq_of_lt (by omega)
  have named : machine.awaited.toNat < 16 := number ▸ x.isLt
  have same : (⟨machine.awaited.toNat, named⟩ : Register) = x := Fin.ext number
  simp only [receive, dif_pos named, same]

/-- As long as it cannot wake, a machine answers any number of ticks with nothing. -/
theorem run_of_idle {machine : Machine} (idle : machine.wake? = none) (count : Nat) :
    machine.run count = ⟨count, .done machine⟩ := by
  induction count with
  | zero => rfl
  | succ count inductionHypothesis =>
    simp only [run, tick_of_idle idle, Outcome.fault_done, Outcome.machine_done,
      inductionHypothesis]
    rfl

/-! ### One input -/

/-- An input that leaves a machine running or waiting for another key than before, or
takes it there, is a tick or a load that goes through. -/
theorem respond_cases (machine : Machine) (input : Input) :
    input = .tick ∨
      ((machine.respond input).machine.mode = machine.mode ∧
        (machine.respond input).machine.awaited = machine.awaited) ∨
      ∃ image, input = .load image ∧ (machine.respond input).fault = none ∧
        (machine.respond input).machine.mode = .running := by
  cases input with
  | tick => exact Or.inl rfl
  | key | releaseKeys | acknowledge => exact Or.inr (Or.inl ⟨rfl, rfl⟩)
  | load image =>
    simp only [respond]
    rcases Nat.lt_or_ge imageLimit image.length with exceeds | fits
    · rw [load_of_lt machine exceeds]
      exact Or.inr (Or.inl ⟨rfl, rfl⟩)
    · rw [load_of_le machine fits]
      exact Or.inr (Or.inr ⟨image, rfl, rfl, rfl⟩)

/-- A machine waits after an input because it just carried out a wait, or because it
waited already. -/
theorem waiting_respond (machine : Machine) (input : Input)
    (waits : (machine.respond input).machine.mode = .waitingKey) :
    (input = .tick ∧ machine.tick.fault = none ∧ ∃ word x, machine.upcoming? = some word ∧
        word.IsAwait x ∧ machine.tick.machine.awaited = UInt8.ofNat x.val) ∨
      (machine.mode = .waitingKey ∧
        (machine.respond input).machine.awaited = machine.awaited) := by
  rcases machine.respond_cases input with rfl | ⟨mode, awaited⟩ | ⟨image, rfl, -, mode⟩
  · cases machine.tick_mode with
    | asleep _ same =>
      refine Or.inr ⟨?_, ?_⟩
      · rwa [respond, same] at waits
      · rw [respond, same, Outcome.machine_done]
    | runs _ mode _ =>
      rw [respond, mode] at waits
      cases waits
    | waits word x _ upcoming await succeeds _ awaited =>
      exact Or.inl ⟨rfl, succeeds, word, x, upcoming, await, awaited⟩
  · exact Or.inr ⟨mode ▸ waits, awaited⟩
  · rw [mode] at waits
    cases waits

/-- What the mode of a machine says about the inputs to come. -/
structure ModeLaw (machine : Machine) : Prop where
  /-- Only a load that goes through gives a machine its first program. -/
  created_left : machine.mode = .created → ∀ input,
    (machine.respond input).machine.mode ≠ .created →
      ∃ image, input = .load image ∧ (machine.respond input).fault = none
  /-- Until then ticks do nothing, however many. -/
  created_idle : machine.mode = .created → ∀ count, machine.run count = ⟨count, .done machine⟩
  /-- A running machine waits only after a tick that carries out a wait, and for the
  register that the word names. -/
  waiting_entered : machine.mode = .running → ∀ input,
    (machine.respond input).machine.mode = .waitingKey →
      input = .tick ∧ machine.tick.fault = none ∧ ∃ word x, machine.upcoming? = some word ∧
        word.IsAwait x ∧ machine.tick.machine.awaited = UInt8.ofNat x.val
  /-- With no key down, ticks do nothing to a machine that waits, however many. -/
  waiting_idle : machine.mode = .waitingKey → (∀ key, machine.keypad.isHeld key = false) →
    ∀ count, machine.run count = ⟨count, .done machine⟩
  /-- With keys down, a tick is that of the running machine whose register has the lowest
  of them already: each timer that is not at zero goes down by one, and the next word is
  executed. -/
  waiting_woken : machine.mode = .waitingKey → ∀ x : Register,
    machine.awaited = UInt8.ofNat x.val → ∀ key : Fin 16,
    machine.keypad.isHeld (UInt8.ofNat key.val) = true →
    (∀ lower < key, machine.keypad.isHeld (UInt8.ofNat lower.val) = false) →
      let woken := ({ machine with mode := .running } : Machine).setRegister x
        (UInt8.ofNat key.val)
      machine.tick = woken.tick ∧ ∃ lowered, woken.CountsDown lowered ∧
        machine.tick = match woken.fetch with
          | .error fault => .halted fault lowered
          | .ok word => lowered.execute word
  /-- Only such a tick and a load that goes through end the waiting. -/
  waiting_left : machine.mode = .waitingKey → ∀ input,
    (machine.respond input).machine.mode ≠ .waitingKey →
      (input = .tick ∧ ∃ key, machine.keypad.isHeld key = true) ∨
        ∃ image, input = .load image ∧ (machine.respond input).fault = none

theorem modeLaw (machine : Machine) : machine.ModeLaw where
  created_left created input left := by
    rcases machine.respond_cases input with rfl | ⟨mode, -⟩ | ⟨image, rfl, succeeds, -⟩
    · rw [respond, tick_of_idle (wake?_of_created machine created)] at left
      exact absurd created left
    · exact absurd (mode.trans created) left
    · exact ⟨image, rfl, succeeds⟩
  created_idle created := run_of_idle (wake?_of_created machine created)
  waiting_entered running input waits := by
    rcases waiting_respond machine input waits with entered | ⟨already, -⟩
    · exact entered
    · rw [running] at already
      cases already
  waiting_idle waiting up := by
    refine run_of_idle ?_
    rw [wake?_of_waiting machine waiting, (machine.keypad.lowest?_eq_none_iff).mpr up]
    rfl
  waiting_woken waiting x awaited key down lowest := by
    have wakes : machine.wake? = some (machine.receive key) := by
      rw [wake?_of_waiting machine waiting,
        (machine.keypad.lowest?_eq_some_iff key).mpr ⟨down, lowest⟩]
      rfl
    rw [receive_of_awaited awaited] at wakes
    refine ⟨tick_eq_of_wake? wakes, _, countsDown_countDown _, ?_⟩
    split
    · next fault unreadable => exact tick_of_error wakes unreadable
    · next word reads => exact tick_of_ok wakes reads
  waiting_left waiting input left := by
    rcases machine.respond_cases input with rfl | ⟨mode, -⟩ | ⟨image, rfl, succeeds, -⟩
    · refine Or.inl ⟨rfl, ?_⟩
      by_contra up
      have idle : machine.wake? = none := by
        rw [wake?_of_waiting machine waiting, (machine.keypad.lowest?_eq_none_iff).mpr]
        · rfl
        · intro key
          exact Bool.eq_false_iff.mpr fun down => up ⟨key, down⟩
      rw [respond, tick_of_idle idle] at left
      exact left waiting
    · exact absurd (mode.trans waiting) left
    · exact Or.inr ⟨image, rfl, succeeds⟩

/-! ### Runs -/

/-- A machine that has a program got it by a load that went through. -/
theorem created_until (start : Machine) (inputs : List Input) (created : start.mode = .created)
    (left : (start.feed inputs).mode ≠ .created) :
    ∃ before image after, inputs = before ++ .load image :: after ∧
      (start.feed before).mode = .created ∧ ((start.feed before).load image).fault = none := by
  induction inputs generalizing start with
  | nil => exact absurd created left
  | cons input rest inductionHypothesis =>
    by_cases still : (start.respond input).machine.mode = .created
    · obtain ⟨before, image, after, rfl, mode, succeeds⟩ := inductionHypothesis _ still left
      exact ⟨input :: before, image, after, rfl, mode, succeeds⟩
    · obtain ⟨image, rfl, succeeds⟩ := start.modeLaw.created_left created input still
      exact ⟨[], image, rest, rfl, created, succeeds⟩

/-- A machine that waits has done so since a tick that carried out a wait, and for the
register that the word of that tick named. -/
theorem waiting_since (start : Machine) (inputs : List Input)
    (awake : start.mode ≠ .waitingKey) (waits : (start.feed inputs).mode = .waitingKey) :
    ∃ before after word x, inputs = before ++ .tick :: after ∧
      (start.feed before).upcoming? = some word ∧ word.IsAwait x ∧
      (start.feed before).tick.fault = none ∧
      ∀ between, between <+: after →
        (start.feed (before ++ .tick :: between)).mode = .waitingKey ∧
        (start.feed (before ++ .tick :: between)).awaited = UInt8.ofNat x.val := by
  induction inputs using List.reverseRecOn with
  | nil => exact absurd waits awake
  | append_singleton earlier input inductionHypothesis =>
    rw [feed_append] at waits
    rcases waiting_respond _ input waits with
      ⟨rfl, succeeds, word, x, upcoming, await, awaited⟩ | ⟨already, same⟩
    · refine ⟨earlier, [], word, x, rfl, upcoming, await, succeeds, fun between start => ?_⟩
      obtain rfl := List.prefix_nil.mp start
      rw [feed_append]
      exact ⟨waits, awaited⟩
    · obtain ⟨before, after, word, x, rfl, upcoming, await, succeeds, between⟩ :=
        inductionHypothesis already
      refine ⟨before, after ++ [input], word, x, by simp, upcoming, await, succeeds, ?_⟩
      intro now upTo
      rcases List.prefix_concat_iff.mp upTo with rfl | within
      · rw [← List.cons_append, ← List.append_assoc, feed_append]
        exact ⟨waits, same.trans (between after (List.prefix_refl _)).2⟩
      · exact between now within

/-- The law of the modes, at every machine and along every run: it holds at each machine
that a run can come by; a machine that was created without a program stays so up to a
load; and one that waits was made to by a tick that carried out a wait, and has been
waiting for the same register ever since. -/
theorem modes_along_runs :
    (∀ machine : Machine, machine.ModeLaw) ∧
    (∀ (start : Machine) (inputs : List Input), start.mode = .created →
      (start.feed inputs).mode ≠ .created →
      ∃ before image after, inputs = before ++ .load image :: after ∧
        (start.feed before).mode = .created ∧ ((start.feed before).load image).fault = none) ∧
    ∀ (start : Machine) (inputs : List Input), start.mode ≠ .waitingKey →
      (start.feed inputs).mode = .waitingKey →
      ∃ before after word x, inputs = before ++ .tick :: after ∧
        (start.feed before).upcoming? = some word ∧ word.IsAwait x ∧
        (start.feed before).tick.fault = none ∧
        ∀ between, between <+: after →
          (start.feed (before ++ .tick :: between)).mode = .waitingKey ∧
          (start.feed (before ++ .tick :: between)).awaited = UInt8.ofNat x.val :=
  ⟨modeLaw, created_until, waiting_since⟩

/-- A machine that waits is handed the lower of two keys, and with it waits again. -/
theorem modes_along_runs_wait_twice :
    let machine := (create 7).feed
      [.load [0xF3, 0x0A, 0xF5, 0x0A], .tick, .key 9 true, .key 5 true]
    (machine.mode = .waitingKey ∧ machine.awaited = 3 ∧ machine.keypad.isHeld 5 = true ∧
        ∀ lower : Fin 16, lower < 5 → machine.keypad.isHeld (UInt8.ofNat lower.val) = false) ∧
      machine.tick = (({ machine with mode := .running } : Machine).setRegister 3 5).tick ∧
      machine.tick.machine.mode = .waitingKey := by
  intro machine
  obtain ⟨waiting, awaited, down, lowest, again⟩ : machine.mode = .waitingKey ∧
      machine.awaited = 3 ∧ machine.keypad.isHeld 5 = true ∧
      (∀ lower : Fin 16, lower < 5 → machine.keypad.isHeld (UInt8.ofNat lower.val) = false) ∧
      machine.tick.machine.mode = .waitingKey := by
    decide +kernel
  have woken := (modes_along_runs.1 machine).waiting_woken waiting 3 awaited 5 down lowest
  exact ⟨⟨waiting, awaited, down, lowest⟩, woken.1, again⟩

end Chip8.Machine
