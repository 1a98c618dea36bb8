/-
The history is the end of a longer record. Every tick that gets as far as an instruction has
its line, whether or not the instruction then goes through, and the lines of a run in their
order are its chronicle. Three things are kept of it, each in its own way: the history has
the last lines, as many as its limit allows; the count of cycles counts the lines of steps
that went through; and the log has them all, where it is looked at closely enough, even for
a machine that keeps no history.
-/

import Chip8.Proofs.Coherence
import Chip8.Proofs.Observation
import Mathlib.Algebra.Group.Nat.Defs

namespace Chip8

namespace Log

/-- The records of the finest grain. -/
def finest (records : List Record) : List Record :=
  records.filter fun record => record.severity = .debug

theorem finest_append (first second : List Record) :
    finest (first ++ second) = finest first ++ finest second :=
  List.filter_append _ _

/-- At the lowest level they are all shown. -/
theorem finest_visible (records : List Record) :
    finest (visible .debug records) = finest records := by
  rw [finest, visible, List.filter_filter]
  refine List.filter_congr fun record _ => ?_
  rw [Bool.and_eq_left_iff_imp]
  intro fine
  simp only [Record.shownAt, of_decide_eq_true fine]
  rfl

end Log

namespace Machine

/-- The lines of the ticks along a run that get as far as an instruction: the address of
each, and the mnemonic of its word. -/
def chronicle (machine : Machine) (inputs : List Input) : List String :=
  (machine.atTicks inputs).filterMap fun now => now.upcoming?.map fun word =>
    "| 0x" ++ Hex.text 3 now.pc.val ++ " | " ++ word.mnemonic

/-- Whether the next tick gets as far as an instruction and goes through with it. -/
def succeeds (machine : Machine) : Bool :=
  machine.upcoming?.isSome && machine.tick.fault.isNone

/-! ### Instructions -/

/-- One instruction has something to say. -/
theorem log_perform (origin : Address) (instruction : Instruction) (machine : Machine)
    (known : ∀ word, instruction ≠ .unknown word) :
    (perform origin instruction machine).log = [] := by
  have attempt {Result : Type} (result : Except Fault Result) (machine : Machine)
      (proceed : Result → Machine) : (Outcome.attempt result machine proceed).log = [] := by
    cases result <;> rfl
  cases instruction with
  | unknown word => exact absurd rfl (known word)
  | jumpForward distance => exact attempt _ _ _
  | ret | call _ | addIndex _ | storeDecimal _ | storeRegisters _ | loadRegisters _ =>
    unfold perform
    exact attempt _ _ _
  | skipIf condition =>
    unfold perform
    dsimp only
    split
    · exact attempt _ _ _
    · rfl
  | draw x y height =>
    unfold perform draw
    dsimp only
    split <;> rfl
  | _ => rfl

/-- An instruction has nothing to say but what is wrong. -/
theorem finest_perform (origin : Address) (instruction : Instruction) (machine : Machine) :
    Log.finest (perform origin instruction machine).log = [] := by
  by_cases known : ∀ word, instruction ≠ .unknown word
  · rw [log_perform origin instruction machine known]
    rfl
  · obtain ⟨word, rfl⟩ := Classical.not_forall_not.mp known
    rfl

theorem cycles_counted (outcome : Outcome) :
    outcome.counted.machine.cycles =
      if outcome.fault.isNone then outcome.machine.cycles + 1 else outcome.machine.cycles := by
  obtain ⟨fault, machine, log⟩ := outcome
  cases fault <;> rfl

theorem log_counted (outcome : Outcome) : outcome.counted.log = outcome.log := by
  obtain ⟨fault, machine, log⟩ := outcome
  cases fault <;> rfl

/-! ### One tick -/

theorem stepLine_eq (machine : Machine) (word : Word) :
    machine.stepLine word = "| 0x" ++ Hex.text 3 machine.pc.val ++ " | " ++ word.mnemonic := by
  have bound := machine.pc.isLt
  have place : (UInt32.ofNat machine.pc.val).toNat = machine.pc.val := by
    rw [UInt32.toNat_ofNat']
    omega
  rw [stepLine, traceLine, addressText, place]
  rfl

theorem stepLine_of_wake? {machine woken : Machine} (wakes : machine.wake? = some woken)
    (word : Word) : woken.stepLine word = machine.stepLine word := by
  obtain ⟨registers, rfl⟩ := eq_of_wake? wakes
  rfl

theorem fetch_eq_error_iff (machine : Machine) :
    (∃ fault, machine.fetch = .error fault) ↔ machine.pc = .last := by
  have last : machine.pc = .last ↔ machine.pc.val = 0xFFF :=
    ⟨fun same => same ▸ rfl, fun same => Address.ext_val same⟩
  rcases machine.fetch_cases with ⟨here, unread⟩ | ⟨inside, reads⟩
  · simp [last, here, unread]
  · have before : machine.pc.val ≠ 0xFFF := by omega
    simp [last, before, reads]

/-- A tick gets as far as an instruction unless it is not live or has but one byte to read. -/
theorem upcoming?_eq_none_iff (machine : Machine) :
    machine.upcoming? = none ↔ ¬machine.Live ∨ machine.pc = .last := by
  rw [← wake?_eq_none_iff, upcoming?]
  cases wakes : machine.wake? with
  | none => simp
  | some woken =>
    have same : woken.pc = machine.pc := by
      obtain ⟨registers, rfl⟩ := eq_of_wake? wakes
      rfl
    rw [← same, ← fetch_eq_error_iff, Option.bind_some]
    cases woken.fetch <;> simp [Except.toOption]

theorem cycles_tick (machine : Machine) :
    machine.tick.machine.cycles =
      if machine.succeeds then machine.cycles + 1 else machine.cycles := by
  unfold succeeds
  refine machine.tick_cases (motive := fun outcome => outcome.machine.cycles =
      if machine.upcoming?.isSome && outcome.fault.isNone then machine.cycles + 1
      else machine.cycles) ?idle ?unreadable ?cornered ?performed
  case idle =>
    intro asleep
    simp [upcoming?, asleep]
  case unreadable =>
    intro woken fault wakes _
    obtain ⟨registers, rfl⟩ := eq_of_wake? wakes
    simp [countDown]
  case cornered =>
    intro woken word wakes _
    obtain ⟨registers, rfl⟩ := eq_of_wake? wakes
    simp [poised, countDown]
  case performed =>
    intro woken word next wakes reads _
    rw [upcoming?_eq_some wakes reads]
    obtain ⟨registers, rfl⟩ := eq_of_wake? wakes
    rw [Outcome.machine_after, cycles_counted, (books_perform _ _ _).2.1, Outcome.fault_after,
      Outcome.fault_counted]
    rfl

/-- A tick traces the step that it makes, and nothing else. -/
theorem finest_tick (machine : Machine) :
    Log.finest machine.tick.log =
      (machine.upcoming?.map fun word => .debug (machine.stepLine word)).toList := by
  refine machine.tick_cases (motive := fun outcome => Log.finest outcome.log =
      (machine.upcoming?.map fun word => .debug (machine.stepLine word)).toList)
    ?idle ?unreadable ?cornered ?performed
  case idle =>
    intro asleep
    rw [upcoming?, asleep]
    rfl
  case unreadable =>
    intro woken fault wakes unreadable
    rw [upcoming?, wakes, Option.bind_some, unreadable]
    rfl
  case cornered =>
    intro woken word wakes reads
    rw [upcoming?_eq_some wakes reads, stepLine_of_wake? wakes]
    rfl
  case performed =>
    intro woken word next wakes reads _
    rw [upcoming?_eq_some wakes reads, stepLine_of_wake? wakes, Outcome.after,
      Log.finest_append, log_counted, finest_perform]
    rfl

/-! ### Runs -/

/-- An input other than a tick that goes through has no part in the record of a run. -/
theorem record_respond (machine : Machine) {input : Input} (other : input ≠ .tick)
    (refused : ∀ image, input = .load image → imageLimit < image.length) :
    (machine.respond input).machine.history = machine.history ∧
      (machine.respond input).machine.cycles = machine.cycles ∧
      Log.finest (machine.respond input).log = [] := by
  cases input with
  | tick => exact absurd rfl other
  | key | releaseKeys | acknowledge => exact ⟨rfl, rfl, rfl⟩
  | load image =>
    rw [respond, load_of_lt machine (refused image rfl)]
    exact ⟨rfl, rfl, rfl⟩

theorem chronicle_tick (machine : Machine) (rest : List Input) :
    machine.chronicle (.tick :: rest) =
      (machine.upcoming?.map machine.stepLine).toList ++ machine.tick.machine.chronicle rest := by
  have line : (machine.upcoming?.map fun word =>
      "| 0x" ++ Hex.text 3 machine.pc.val ++ " | " ++ word.mnemonic) =
        machine.upcoming?.map machine.stepLine :=
    Option.map_congr fun word _ => (machine.stepLine_eq word).symm
  rw [chronicle, atTicks_tick, List.filterMap_cons, line, chronicle]
  cases machine.upcoming? <;> rfl

theorem chronicle_other (machine : Machine) {input : Input} (rest : List Input)
    (other : input ≠ .tick) :
    machine.chronicle (input :: rest) = (machine.respond input).machine.chronicle rest := by
  rw [chronicle, atTicks_other _ _ other, chronicle]

/-- What a run leaves in the history, in the count of cycles and in the log. -/
theorem record_feed (machine : Machine) (inputs : List Input)
    (refused : ∀ image, .load image ∈ inputs → imageLimit < image.length) :
    (machine.feed inputs).history =
        (machine.chronicle inputs).foldl History.add machine.history ∧
      (machine.feed inputs).cycles =
        machine.cycles + UInt64.ofNat ((machine.atTicks inputs).countP succeeds) ∧
      Log.finest ((machine.watched (inputs.map fun input => (⟨.debug, none⟩, input))).flatMap
        Outcome.log) = (machine.chronicle inputs).map .debug := by
  induction inputs generalizing machine with
  | nil => exact ⟨rfl, (UInt64.add_zero _).symm, rfl⟩
  | cons input rest inductionHypothesis =>
    obtain ⟨history, cycles, log⟩ := inductionHypothesis (machine.respond input).machine
      fun image member => refused image (List.mem_cons_of_mem _ member)
    rw [feed_cons, history, cycles]
    simp only [List.map_cons, watched, Option.map_none, Option.getD_none, respondAt_eq,
      Outcome.machine_shownAt, List.flatMap_cons, Log.finest_append, log]
    show _ ∧ _ ∧ Log.finest (Log.visible .debug (machine.respond input).log) ++ _ = _
    rw [Log.finest_visible]
    by_cases ticks : input = .tick
    · subst ticks
      rw [respond_tick, chronicle_tick, atTicks_tick, List.foldl_append, List.map_append,
        List.countP_cons, tick_history, cycles_tick, finest_tick]
      refine ⟨?_, ?_, ?_⟩
      · cases machine.upcoming? <;> rfl
      · split
        · rw [UInt64.ofNat_add, UInt64.add_assoc, UInt64.add_comm 1]
          rfl
        · rfl
      · cases machine.upcoming? <;> rfl
    · have head : ∀ image, input = .load image → imageLimit < image.length :=
        fun image same => refused image (same ▸ List.mem_cons_self)
      obtain ⟨sameHistory, sameCycles, silent⟩ := machine.record_respond ticks head
      rw [chronicle_other _ _ ticks, atTicks_other _ _ ticks, sameHistory, sameCycles, silent]
      exact ⟨rfl, rfl, rfl⟩

/-- The record of a run from a load on, whatever is done to the machine short of another load
that goes through, and whatever the limit of its history is. A tick has a line in it if it
is live and finds a word to read; and then the history is the end of the chronicle, the count
of cycles is the number of steps that went through, and the log is the chronicle. -/
theorem history_along_runs :
    (∀ machine : Machine, machine.upcoming? = none ↔ ¬machine.Live ∨ machine.pc.val = 0xFFF) ∧
    ∀ (machine : Machine) (image : List UInt8) (inputs : List Input), image.length ≤ 3584 →
      (∀ other, .load other ∈ inputs → 3584 < other.length) →
      let loaded := (machine.load image).machine
      let now := loaded.feed inputs
      let lines := loaded.chronicle inputs
      now.history.toList = lines.drop (lines.length - machine.history.limit) ∧
        now.history.toList.length = min machine.history.limit lines.length ∧
        now.cycles.toNat = (loaded.atTicks inputs).countP succeeds % 2 ^ 64 ∧
        Log.finest ((loaded.watched (inputs.map fun input => (⟨.debug, none⟩, input))).flatMap
          Outcome.log) = lines.map .debug := by
  refine ⟨fun machine => ?_, ?_⟩
  · rw [upcoming?_eq_none_iff]
    exact or_congr_right ⟨fun same => same ▸ rfl, fun same => Address.ext_val same⟩
  · intro machine image inputs fits refused loaded now lines
    obtain ⟨history, cycles, log⟩ := loaded.record_feed inputs refused
    have start : loaded.history = .empty machine.history.limit ∧ loaded.cycles = 0 := by
      simp only [loaded]
      rw [load_of_le machine fits]
      exact ⟨rfl, rfl⟩
    have window : now.history.toList = lines.drop (lines.length - machine.history.limit) := by
      rw [history, start.1, History.toList_foldl_add _ (Nat.zero_le _)]
      show lines.drop (0 + lines.length - machine.history.limit) = _
      rw [Nat.zero_add]
    refine ⟨window, ?_, ?_, log⟩
    · rw [window, List.length_drop]
      omega
    · rw [cycles, start.2, UInt64.zero_add, UInt64.toNat_ofNat']

/-- A wait for a key and what follows it: an idle tick, an unknown word and a return to nowhere,
on a machine that keeps two lines and on one that keeps none. -/
theorem history_along_runs_wait :
    let image : List UInt8 := [0xF1, 0x0A, 0x80, 0x08, 0x00, 0xEE]
    let inputs : List Input := [.tick, .tick, .key 3 true, .tick, .tick]
    let lines :=
      ["| 0x200 | LD V1, K", "| 0x202 | 0x8 0x0 0x0 0x8", "| 0x204 | RET"]
    let keeper := ((fresh 7 2).load image).machine
    let loser := ((fresh 7 0).load image).machine
    (image.length ≤ 3584 ∧ ∀ other, .load other ∈ inputs → 3584 < other.length) ∧
      keeper.chronicle inputs = lines ∧
      (keeper.feed inputs).history.toList = lines.drop 1 ∧
      (keeper.feed inputs).cycles.toNat = 2 ∧
      loser.chronicle inputs = lines ∧ (loser.feed inputs).history.toList = [] ∧
      Log.finest ((loser.watched (inputs.map fun input => (⟨.debug, none⟩, input))).flatMap
        Outcome.log) = lines.map .debug := by
  intro image inputs lines keeper loser
  have fits : image.length ≤ 3584 := by decide
  have refused : ∀ other, .load other ∈ inputs → 3584 < other.length := by simp [inputs]
  obtain ⟨steps, again, count⟩ : keeper.chronicle inputs = lines ∧
      loser.chronicle inputs = lines ∧ (keeper.atTicks inputs).countP succeeds = 2 := by
    decide +kernel
  obtain ⟨kept, -, cycles, -⟩ := history_along_runs.2 (fresh 7 2) image inputs fits refused
  obtain ⟨dropped, -, -, log⟩ := history_along_runs.2 (fresh 7 0) image inputs fits refused
  rw [steps] at kept
  rw [count] at cycles
  rw [again] at dropped log
  exact ⟨⟨fits, refused⟩, steps, kept, cycles, again, dropped, log⟩

end Machine

end Chip8
