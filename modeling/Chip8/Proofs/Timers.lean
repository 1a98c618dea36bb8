/-
The timers count the ticks that make a step. A tick is live if it makes a step, even one
that faults, and every live tick lowers both timers before it reads the word at the program
counter, so whatever that word does, and whether or not it can be read, it finds them lowered.
After that only the two words that set a timer have a use for them. Along a run a timer is
therefore what it was last set to, less the number of live ticks since, and stops at zero.
-/

import Chip8.Machine.Input
import Chip8.Proofs.Decoding
import Chip8.Proofs.Frame
import Chip8.Proofs.Tick

namespace Chip8

/-- The timers of a machine. -/
inductive Timer where
  | delay
  | sound
  deriving DecidableEq

namespace Timer

/-- The lower byte of the words that set a timer. -/
def code : Timer → UInt8
  | delay => 0x15
  | sound => 0x18

/-- The instruction that sets a timer from a register. -/
def setter : Timer → Register → Instruction
  | delay, x => .setDelay x
  | sound, x => .setSound x

theorem ofWord_eq_setter_iff (timer : Timer) (word : Word) (x : Register) :
    Instruction.ofWord word = timer.setter x ↔ word.IsMiscellany x timer.code := by
  cases timer <;> exact Instruction.ofWord_eq_iff

end Timer

namespace Machine

/-- The value of a timer. -/
def timer (machine : Machine) : Timer → UInt8
  | .delay => machine.delayTimer
  | .sound => machine.soundTimer

/-- The next tick carries out a word that sets a timer, and this is what it sets it to. -/
def SetsTimer (machine : Machine) (timer : Timer) (value : UInt8) : Prop :=
  machine.tick.fault = none ∧ ∃ woken word x, machine.wake? = some woken ∧
    woken.fetch = .ok word ∧ word.IsMiscellany x timer.code ∧ value = woken.registers.get x

theorem not_setsTimer {machine : Machine} {timer : Timer}
    (other : machine.upcoming?.map Word.kk ≠ some timer.code) (value : UInt8) :
    ¬machine.SetsTimer timer value := by
  rintro ⟨-, woken, word, x, wakes, reads, ⟨-, -, kk⟩, -⟩
  exact other (by rw [upcoming?_eq_some wakes reads, Option.map_some, kk])

/-! ### Instructions -/

/-- Setting a timer goes through. -/
theorem perform_setter (origin : Address) (timer : Timer) (x : Register) (machine : Machine) :
    (perform origin (timer.setter x) machine).fault = none ∧
      (perform origin (timer.setter x) machine).machine.timer timer = machine.registers.get x := by
  cases timer <;> exact ⟨rfl, rfl⟩

/-- No other instruction has an effect on a timer. -/
theorem timer_perform (origin : Address) (instruction : Instruction) (machine : Machine)
    (timer : Timer) (noSet : ∀ x, instruction ≠ timer.setter x) :
    (perform origin instruction machine).machine.timer timer = machine.timer timer := by
  cases instruction with
  | setDelay x =>
    cases timer with
    | delay => exact absurd rfl (noSet x)
    | sound => rfl
  | setSound x =>
    cases timer with
    | delay => rfl
    | sound => exact absurd rfl (noSet x)
  | clear | awaitKey _ => cases timer <;> rfl
  | draw x y height =>
    unfold perform draw
    dsimp only
    split <;> cases timer <;> rfl
  | _ =>
    cases timer with
    | delay => exact (inner_perform origin _ machine rfl).delayTimer
    | sound => exact (inner_perform origin _ machine rfl).soundTimer

/-! ### One tick -/

theorem toNat_timer_countDown (machine : Machine) (timer : Timer) :
    (machine.countDown.timer timer).toNat = (machine.timer timer).toNat - 1 := by
  cases timer <;> exact toNat_lowered _

theorem timer_of_wake? {machine woken : Machine} (wakes : machine.wake? = some woken)
    (timer : Timer) : woken.timer timer = machine.timer timer := by
  obtain ⟨registers, rfl⟩ := eq_of_wake? wakes
  cases timer <;> rfl

theorem timer_poised (machine : Machine) (word : Word) (next : Address) (timer : Timer) :
    (machine.poised word next).timer timer = machine.countDown.timer timer := by
  cases timer <;> rfl

theorem timer_counted (outcome : Outcome) (timer : Timer) :
    outcome.counted.machine.timer timer = outcome.machine.timer timer := by
  obtain ⟨cycles, counted⟩ := outcome.machine_counted
  rw [counted]
  cases timer <;> rfl

/-- What a tick does to a timer. -/
inductive TimerTurn (machine : Machine) (timer : Timer) (outcome : Outcome) : Prop
  /-- A tick that is not live leaves it alone. -/
  | idle (asleep : ¬machine.Live) (same : outcome = .done machine)
  /-- A live one lowers it. -/
  | lowered (live : machine.Live)
      (value : (outcome.machine.timer timer).toNat = (machine.timer timer).toNat - 1)
  /-- One that goes through with the word for it sets it. -/
  | set (woken : Machine) (word : Word) (x : Register) (wakes : machine.wake? = some woken)
      (reads : woken.fetch = .ok word) (sets : word.IsMiscellany x timer.code)
      (succeeds : outcome.fault = none)
      (value : outcome.machine.timer timer = woken.registers.get x)

theorem tick_timer (machine : Machine) (timer : Timer) :
    machine.TimerTurn timer machine.tick := by
  refine machine.tick_cases ?idle ?unreadable ?cornered ?performed
  case idle => exact fun asleep => .idle ((machine.wake?_eq_none_iff).mp asleep) rfl
  case unreadable =>
    intro woken fault wakes _
    refine .lowered (machine.live_iff.mpr ⟨woken, wakes⟩) ?_
    rw [Outcome.machine_halted, toNat_timer_countDown, timer_of_wake? wakes]
  case cornered =>
    intro woken word wakes _
    refine .lowered (machine.live_iff.mpr ⟨woken, wakes⟩) ?_
    rw [timer_poised, toNat_timer_countDown, timer_of_wake? wakes]
  case performed =>
    intro woken word next wakes reads behind
    by_cases sets : ∃ x, Instruction.ofWord word = timer.setter x
    · obtain ⟨x, setter⟩ := sets
      obtain ⟨succeeds, value⟩ := perform_setter woken.pc timer x (woken.poised word next)
      refine .set woken word x wakes reads ((timer.ofWord_eq_setter_iff word x).mp setter) ?_ ?_
      · rw [Outcome.fault_after, Outcome.fault_counted, setter, succeeds]
      · rw [Outcome.machine_after, timer_counted, setter, value, registers_poised]
    · refine .lowered (machine.live_iff.mpr ⟨woken, wakes⟩) ?_
      rw [Outcome.machine_after, timer_counted,
        timer_perform _ _ _ _ fun x setter => sets ⟨x, setter⟩, timer_poised,
        toNat_timer_countDown, timer_of_wake? wakes]

/-- A timer that is set has the value that it is set to. -/
theorem timer_of_setsTimer {machine : Machine} {timer : Timer} {value : UInt8}
    (sets : machine.SetsTimer timer value) : machine.tick.machine.timer timer = value := by
  obtain ⟨succeeds, woken, word, x, wakes, reads, sets, rfl⟩ := sets
  obtain ⟨woken', next, wakes', -, -, course⟩ :=
    tick_of_upcoming (upcoming?_eq_some wakes reads) succeeds
  obtain rfl : woken = woken' := Option.some.inj (wakes.symm.trans wakes')
  rw [course, Outcome.machine_after, timer_counted, (timer.ofWord_eq_setter_iff word x).mpr sets,
    (perform_setter _ _ _ _).2, registers_poised]

/-- A register that is given the delay timer gets the lowered value. -/
theorem get_of_readDelay {machine : Machine} {word : Word} {y : Register}
    (upcoming : machine.upcoming? = some word) (read : word.IsMiscellany y 0x07)
    (succeeds : machine.tick.fault = none) :
    (machine.tick.machine.registers.get y).toNat = machine.delayTimer.toNat - 1 := by
  obtain ⟨woken, next, wakes, -, -, course⟩ := tick_of_upcoming upcoming succeeds
  have same : woken.delayTimer = machine.delayTimer := timer_of_wake? wakes .delay
  obtain ⟨cycles, counted⟩ :=
    (perform woken.pc (.ofWord word) (woken.poised word next)).machine_counted
  rw [course, Outcome.machine_after, counted, Instruction.ofWord_of_fits (.readDelay y) read,
    ← same]
  show ((woken.registers.set y (countDown.lowered woken.delayTimer)).get y).toNat = _
  rw [Registers.get_set_self, toNat_lowered]

/-- What the timers have to do with ticks and other inputs. -/
structure TimerLaw (machine : Machine) : Prop where
  /-- A tick that is not live leaves the timers alone, and all the rest as well. -/
  idle : ¬machine.Live → machine.tick = .done machine
  /-- A live tick lowers both timers before anything else. The word is read by a machine
  with lowered timers, and what comes of that comes of the tick, even if it is a fault. -/
  lowers_first : machine.Live → ∃ woken lowered : Machine, machine.wake? = some woken ∧
    lowered = { woken with
      delayTimer := lowered.delayTimer, soundTimer := lowered.soundTimer } ∧
    (∀ timer, (lowered.timer timer).toNat = (machine.timer timer).toNat - 1) ∧
    machine.tick = match lowered.fetch with
      | .error fault => .halted fault lowered
      | .ok word => lowered.execute word
  /-- A timer that is not set is lowered and no more. -/
  lowers : machine.Live → ∀ timer, (∀ value, ¬machine.SetsTimer timer value) →
    (machine.tick.machine.timer timer).toNat = (machine.timer timer).toNat - 1
  /-- A timer that is set is set to what the register holds. -/
  sets : ∀ timer value, machine.SetsTimer timer value →
    machine.tick.machine.timer timer = value
  /-- Keys have no effect on the timers. -/
  others : ∀ input, input ≠ .tick → (∀ image, input = .load image → 3584 < image.length) →
    ∀ timer, (machine.respond input).machine.timer timer = machine.timer timer

theorem timerLaw (machine : Machine) : machine.TimerLaw where
  idle asleep := tick_of_idle ((machine.wake?_eq_none_iff).mpr asleep)
  lowers_first live := by
    obtain ⟨woken, wakes⟩ := machine.live_iff.mp live
    refine ⟨woken, woken.countDown, wakes, rfl, fun timer => ?_, tick_of_wake? wakes⟩
    rw [toNat_timer_countDown, timer_of_wake? wakes]
  lowers live timer unset := by
    cases machine.tick_timer timer with
    | idle asleep _ => exact absurd live asleep
    | lowered _ value => exact value
    | set woken word x wakes reads sets succeeds _ =>
      exact absurd ⟨succeeds, woken, word, x, wakes, reads, sets, rfl⟩ (unset _)
  sets _ _ := timer_of_setsTimer
  others input other refused timer := by
    cases input with
    | tick => exact absurd rfl other
    | key | releaseKeys | acknowledge => cases timer <;> rfl
    | load image =>
      simp only [respond]
      rw [load_of_lt machine (refused image rfl)]
      rfl

/-! ### Runs -/

/-- A timer that is not set is lowered once for each live tick, down to zero. -/
theorem timer_feed (machine : Machine) (timer : Timer) (inputs : List Input)
    (refused : ∀ image, .load image ∈ inputs → 3584 < image.length)
    (unset : ∀ now ∈ machine.atTicks inputs, ∀ value, ¬now.SetsTimer timer value) :
    ((machine.feed inputs).timer timer).toNat =
      (machine.timer timer).toNat - (machine.atTicks inputs).countP fun now => now.Live := by
  induction inputs generalizing machine with
  | nil => rfl
  | cons input rest inductionHypothesis =>
    have later := inductionHypothesis (machine.respond input).machine
      fun image member => refused image (List.mem_cons_of_mem _ member)
    by_cases ticks : input = .tick
    · subst ticks
      rw [atTicks_tick] at unset ⊢
      obtain ⟨here, there⟩ := List.forall_mem_cons.mp unset
      rw [feed_cons, later there, List.countP_cons, respond_tick]
      by_cases live : machine.Live
      · rw [machine.timerLaw.lowers live timer here, if_pos (decide_eq_true live)]
        omega
      · rw [machine.timerLaw.idle live, if_neg (by simpa using live)]
        rfl
    · rw [atTicks_other _ _ ticks] at unset ⊢
      rw [feed_cons, later unset, machine.timerLaw.others input ticks]
      exact fun image same => refused image (same ▸ List.mem_cons_self)

/-- The timers along any run. Every tick keeps the law of the timers, on every machine. From
a load on a timer is at zero until it is set; and from a tick on that sets it, until the next
one that does, it is that value less the number of live ticks since then, or zero if they
are more. A register that is given the delay timer on the way gets the value that counts
the tick in which it is. -/
theorem timers_along_runs :
    (∀ machine : Machine, machine.TimerLaw) ∧
    (∀ (machine : Machine) (image : List UInt8) (timer : Timer) (inputs : List Input),
      image.length ≤ 3584 → (∀ other, .load other ∈ inputs → 3584 < other.length) →
      (∀ now ∈ (machine.load image).machine.atTicks inputs, ∀ value,
        ¬now.SetsTimer timer value) →
      ((machine.load image).machine.feed inputs).timer timer = 0) ∧
    ∀ (machine : Machine) (timer : Timer) (value : UInt8) (inputs : List Input),
      machine.SetsTimer timer value → (∀ image, .load image ∈ inputs → 3584 < image.length) →
      (∀ now ∈ machine.tick.machine.atTicks inputs, ∀ other, ¬now.SetsTimer timer other) →
      let now := machine.tick.machine.feed inputs
      let live := (machine.tick.machine.atTicks inputs).countP fun earlier => earlier.Live
      (now.timer timer).toNat = value.toNat - live ∧
        (timer = .delay → ∀ word y, now.upcoming? = some word → word.IsMiscellany y 0x07 →
          now.tick.fault = none →
          (now.tick.machine.registers.get y).toNat = value.toNat - (live + 1)) := by
  refine ⟨timerLaw, ?_, ?_⟩
  · intro machine image timer inputs fits refused unset
    have start : (machine.load image).machine.timer timer = 0 := by
      rw [load_of_le machine fits]
      cases timer <;> rfl
    have later := timer_feed _ timer inputs refused unset
    rw [start] at later
    exact UInt8.toNat_inj.mp (later.trans (Nat.zero_sub _))
  · intro machine timer value inputs sets refused unset now live
    have later : (now.timer timer).toNat = value.toNat - live := by
      rw [← timer_of_setsTimer sets]
      exact timer_feed _ timer inputs refused unset
    refine ⟨later, ?_⟩
    rintro rfl word y upcoming read succeeds
    have before : now.delayTimer.toNat = value.toNat - live := later
    rw [get_of_readDelay upcoming read succeeds, before, Nat.sub_sub]

/-- A timer that is read in the tick that ends a wait for a key, one step and one idle tick
after it was set to five. -/
theorem timers_along_runs_wait :
    let image : List UInt8 := [0x60, 0x05, 0xF0, 0x15, 0xF1, 0x0A, 0xF2, 0x07]
    let machine := ((create 0).load image).machine.tick.machine
    let inputs : List Input := [.tick, .tick, .key 3 true]
    let now := machine.tick.machine.feed inputs
    (image.length ≤ 3584 ∧ machine.Live ∧ machine.SetsTimer .delay 5 ∧
        (∀ image, .load image ∈ inputs → 3584 < image.length) ∧
        (∀ value, ¬machine.SetsTimer .sound value) ∧
        (∀ now ∈ machine.tick.machine.atTicks inputs, ∀ other, ¬now.SetsTimer .delay other) ∧
        now.upcoming? = some ⟨15, 2, 0, 7⟩ ∧ (⟨15, 2, 0, 7⟩ : Word).IsMiscellany 2 0x07 ∧
        now.tick.fault = none) ∧
      (machine.tick.machine.timer .sound).toNat = (machine.timer .sound).toNat - 1 ∧
      (now.timer .delay).toNat = 4 ∧ (now.tick.machine.registers.get 2).toNat = 3 := by
  intro image machine inputs now
  have fits : image.length ≤ 3584 := by decide
  have refused : ∀ image, .load image ∈ inputs → 3584 < image.length := by simp [inputs]
  obtain ⟨running, setting, five, succeeds, silent, unset, ticks, upcoming, succeeds'⟩ :
      machine.mode = .running ∧ machine.upcoming? = some ⟨15, 0, 1, 5⟩ ∧
        machine.registers.get 0 = 5 ∧ machine.tick.fault = none ∧
        machine.upcoming?.map Word.kk ≠ some 0x18 ∧
        (∀ now ∈ machine.tick.machine.atTicks inputs, now.upcoming?.map Word.kk ≠ some 0x15) ∧
        (machine.tick.machine.atTicks inputs).countP (fun earlier => earlier.Live) = 1 ∧
        now.upcoming? = some ⟨15, 2, 0, 7⟩ ∧ now.tick.fault = none := by
    decide +kernel
  have live : machine.Live := Or.inl running
  have set : (⟨15, 0, 1, 5⟩ : Word).IsMiscellany 0 0x15 := ⟨rfl, rfl, rfl⟩
  have read : (⟨15, 2, 0, 7⟩ : Word).IsMiscellany 2 0x07 := ⟨rfl, rfl, rfl⟩
  have sets : machine.SetsTimer .delay 5 := by
    obtain ⟨woken, wakes, reads⟩ := upcoming?_eq_some_iff.mp setting
    obtain rfl : machine = woken :=
      Option.some.inj ((wake?_of_running machine running).symm.trans wakes)
    exact ⟨succeeds, machine, _, 0, wakes, reads, set, five.symm⟩
  have unsetSound : ∀ value, ¬machine.SetsTimer .sound value := not_setsTimer silent
  have unsetDelay : ∀ now ∈ machine.tick.machine.atTicks inputs, ∀ other,
      ¬now.SetsTimer .delay other :=
    fun now member => not_setsTimer (unset now member)
  obtain ⟨law, -, later⟩ := timers_along_runs
  obtain ⟨value, register⟩ := later machine .delay 5 inputs sets refused unsetDelay
  rw [ticks] at value register
  exact ⟨⟨fits, live, sets, refused, unsetSound, unsetDelay, upcoming, read, succeeds'⟩,
    (law machine).lowers live .sound unsetSound, value, register rfl _ _ upcoming read succeeds'⟩

end Machine

end Chip8
