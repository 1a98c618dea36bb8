/-
Who gets which random byte. The generator goes on by one when a tick carries out a word `CXKK`,
and at no other time: not at any other word, not at a tick that is refused or does nothing, and
not at a load, which lets the generator stand as it is. So the state of the generator is told by
the seed and by how many such words were carried out, all loads taken together, and the next of
them gets the byte that comes next after the seed. The states are followed in exact arithmetic,
cut to sixty-four bits after each step.
-/

import Chip8.Machine.Input
import Chip8.Proofs.Decoding
import Chip8.Proofs.Frame
import Chip8.Proofs.Tick

namespace Chip8

/-! ### Numbers -/

namespace Generator

/-- The number that follows a number. -/
def successor (number : Nat) : Nat :=
  (6364136223846793005 * number + 1442695040888963407) % UInt64.size

/-- The number that a seed leads to in so many steps. -/
def number (seed : Nat) : (steps : Nat) → Nat
  | 0 => seed
  | steps + 1 => successor (number seed steps)

/-- The byte that a seed leads to, the first one at position one. -/
def byte (seed position : Nat) : UInt8 := UInt8.ofNat (number seed position % 256)

/-- Steps can also be counted from the second number on. -/
theorem number_successor (seed steps : Nat) :
    number (successor seed) steps = number seed (steps + 1) := by
  induction steps with
  | zero => simp only [number]
  | succ steps inductionHypothesis => exact congrArg successor inductionHypothesis

theorem toNat_following (state : UInt64) : (following state).toNat = successor state.toNat := by
  rw [following, UInt64.toNat_add, UInt64.toNat_mul, successor, Nat.mod_add_mod]
  rfl

/-- A generator gives out the low byte of the state that it goes on to. -/
theorem next_eq (generator : Generator) :
    generator.next = (byte generator.state.toNat 1, ⟨following generator.state⟩) := by
  have low : (following generator.state).toUInt8 = byte generator.state.toNat 1 := by
    refine UInt8.toNat_inj.mp ?_
    rw [UInt64.toNat_toUInt8, toNat_following, byte, UInt8.toNat_ofNat', Nat.mod_mod]
    rfl
  rw [← low]
  rfl

theorem take_fst (generator : Generator) (count : Nat) :
    (generator.take count).1 =
      (List.range count).map fun drawn => byte generator.state.toNat (drawn + 1) := by
  induction count generalizing generator with
  | zero => rfl
  | succ count inductionHypothesis =>
    have rest := inductionHypothesis ⟨following generator.state⟩
    simp only [toNat_following, byte, number_successor] at rest
    rw [take, next_eq]
    dsimp only
    rw [rest, List.range_succ_eq_map, List.map_cons, List.map_map]
    rfl

end Generator

/-! ### Rolls -/

namespace Machine

/-- The next tick carries out a word `CXKK`. -/
def Rolls (machine : Machine) : Prop :=
  machine.tick.fault = none ∧ ∃ word ∈ machine.upcoming?, word.family.val = 0xC

instance (machine : Machine) : Decidable machine.Rolls := inferInstanceAs (Decidable (_ ∧ _))

/-- One instruction goes to the generator. The others leave it alone. -/
theorem generator_perform (origin : Address) (instruction : Instruction) (machine : Machine)
    (noRoll : ∀ x mask, instruction ≠ .random x mask) :
    (perform origin instruction machine).machine.generator = machine.generator := by
  cases instruction with
  | random x mask => exact absurd rfl (noRoll x mask)
  | draw x y height => exact machine.part_draw Machine.generator (fun _ _ _ => rfl) x y height
  | skipIf condition =>
    exact part_skipIf Machine.generator (fun _ _ => rfl) origin condition machine
  | jumpForward _ | ret | call _ | addIndex _ | storeDecimal _ | storeRegisters _
  | loadRegisters _ =>
    unfold perform
    dsimp only
    exact Outcome.part_attempt Machine.generator _ _ _ fun _ => rfl
  | _ => rfl

theorem generator_of_wake? {machine woken : Machine} (wakes : machine.wake? = some woken) :
    woken.generator = machine.generator := by
  obtain ⟨registers, rfl⟩ := eq_of_wake? wakes
  rfl

/-- A tick that does not roll leaves the generator alone, whatever else becomes of it. -/
theorem generator_tick {machine : Machine} (noRoll : ¬machine.Rolls) :
    machine.tick.machine.generator = machine.generator := by
  refine machine.part_tick Machine.generator (fun _ _ _ _ _ _ _ _ => rfl)
    fun woken word next wakes reads course => ?_
  refine generator_perform _ _ _ fun x mask decoded => noRoll ?_
  have goes : machine.tick.fault = none := by
    rw [course, decoded, Outcome.fault_after, Outcome.fault_counted]
    rfl
  exact ⟨goes, word, upcoming?_eq_some wakes reads, (Instruction.ofWord_eq_iff.mp decoded).1⟩

/-- A roll puts the byte that comes next, under its mask, in its register. -/
theorem roll {machine : Machine} {word : Word} (upcoming : machine.upcoming? = some word)
    (family : word.family.val = 0xC) (succeeds : machine.tick.fault = none) :
    ∃ woken, machine.wake? = some woken ∧
      machine.tick.machine.registers = woken.registers.set word.x
        (Generator.byte machine.generator.state.toNat 1 &&& word.kk) ∧
      machine.tick.machine.generator = ⟨Generator.following machine.generator.state⟩ := by
  obtain ⟨woken, next, wakes, -, -, course⟩ := tick_of_upcoming upcoming succeeds
  refine ⟨woken, wakes, ?_⟩
  rw [course, Instruction.ofWord_of_fits (.random word.x word.kk) ⟨family, rfl, rfl⟩, perform,
    ← generator_of_wake? wakes]
  show woken.registers.set word.x ((woken.generator.next).1 &&& word.kk) = _ ∧
    woken.generator.next.2 = _
  rw [Generator.next_eq]
  exact ⟨rfl, rfl⟩

theorem generator_load (machine : Machine) (image : List UInt8) :
    (machine.load image).machine.generator = machine.generator := by
  rcases Nat.lt_or_ge imageLimit image.length with exceeds | fits
  · rw [load_of_lt machine exceeds]
    rfl
  · rw [load_of_le machine fits]
    rfl

/-- The generator is as it was after every input but a tick that rolls. -/
theorem generator_respond (machine : Machine) {input : Input}
    (noRoll : ¬(input = .tick ∧ machine.Rolls)) :
    (machine.respond input).machine.generator = machine.generator := by
  cases input with
  | tick => exact generator_tick fun rolls => noRoll ⟨rfl, rolls⟩
  | load image => exact machine.generator_load image
  | _ => rfl

/-- Along a run the generator goes on by one with every roll. -/
theorem generator_feed (machine : Machine) (inputs : List Input) :
    (machine.feed inputs).generator.state.toNat =
      Generator.number machine.generator.state.toNat
        ((machine.atTicks inputs).countP fun earlier => earlier.Rolls) := by
  induction inputs generalizing machine with
  | nil => rfl
  | cons input rest inductionHypothesis =>
    rw [feed_cons, inductionHypothesis]
    by_cases ticks : input = .tick
    · subst ticks
      rw [respond_tick, atTicks_tick, List.countP_cons]
      by_cases rolls : machine.Rolls
      · obtain ⟨succeeds, word, upcoming, family⟩ := rolls
        obtain ⟨-, -, -, goesOn⟩ := roll upcoming family succeeds
        have counts : decide machine.Rolls = true :=
          decide_eq_true ⟨succeeds, word, upcoming, family⟩
        rw [goesOn, Generator.toNat_following, Generator.number_successor, if_pos counts]
      · have skips : ¬decide machine.Rolls = true := by simpa using rolls
        rw [generator_tick rolls, if_neg skips]
        rfl
    · rw [atTicks_other _ _ ticks, generator_respond machine fun both => ticks both.1]

/-- Random bytes are given out in order. For a machine that was seeded, and any inputs since,
loads and faults among them, the state of the generator is the one that the seed leads to in as
many steps as words `CXKK` were carried out; the next of them puts the next byte, under its mask,
in its register and touches no other register; and nothing else touches the generator. The bytes
are those that a generator gives out that was made from the seed and serves nothing else. -/
theorem rolls_in_order (machine : Machine) (seed : UInt64)
    (seeded : machine.generator = .ofSeed seed) (inputs : List Input) :
    let now := machine.feed inputs
    let count := (machine.atTicks inputs).countP fun earlier => earlier.Rolls
    now.generator.state.toNat = Generator.number seed.toNat count ∧
      (∀ word, now.upcoming? = some word → word.family.val = 0xC → now.tick.fault = none →
        ∃ woken, now.wake? = some woken ∧
          now.tick.machine.registers = woken.registers.set word.x
            (Generator.byte seed.toNat (count + 1) &&& word.kk)) ∧
      (∀ input, ¬(input = .tick ∧ now.Rolls) →
        (now.respond input).machine.generator = now.generator) ∧
      ((Generator.ofSeed seed).take count).1 =
        (List.range count).map fun drawn => Generator.byte seed.toNat (drawn + 1) := by
  intro now count
  have state : now.generator.state.toNat = Generator.number seed.toNat count := by
    rw [machine.generator_feed inputs, seeded]
    rfl
  refine ⟨state, fun word upcoming family succeeds => ?_, fun input => now.generator_respond,
    Generator.take_fst _ count⟩
  obtain ⟨woken, wakes, registers, -⟩ := roll upcoming family succeeds
  rw [state] at registers
  exact ⟨woken, wakes, registers⟩

/-- After a roll, a fault at the end of memory and a load, the next roll gets the second byte. -/
theorem rolls_in_order_second :
    let start := create 7
    let inputs : List Input := [.load [0xC0, 0xFF, 0x1F, 0xFF], .tick, .tick, .tick,
      .load [0xC2, 0x0F]]
    let now := start.feed inputs
    start.generator = .ofSeed 7 ∧ now.upcoming? = some (.ofBytes 0xC2 0x0F) ∧
      now.tick.fault = none ∧
      now.tick.machine.registers.get 2 = Generator.byte 7 2 &&& 0x0F := by
  intro start inputs now
  obtain ⟨upcoming, succeeds, counted⟩ : now.upcoming? = some (.ofBytes 0xC2 0x0F) ∧
      now.tick.fault = none ∧
      ((start.atTicks inputs).countP fun earlier => earlier.Rolls) = 1 := by
    decide +kernel
  obtain ⟨woken, -, registers⟩ :=
    (rolls_in_order start 7 rfl inputs).2.1 _ upcoming (by decide) succeeds
  refine ⟨rfl, upcoming, succeeds, ?_⟩
  rw [registers, counted]
  exact Registers.get_set_self _ _ _

end Machine

end Chip8
