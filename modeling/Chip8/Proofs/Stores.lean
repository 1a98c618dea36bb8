/-
Memory is what was last put into it. Of all that can be done to a machine with a program
in it, only a tick that goes through with one of two instructions puts anything into
memory: the decimal digits of a register, or the registers up to one, from the index on.
So a byte of memory is the one that the last such tick along a run put there, and if none
did it is a byte of the image, of the font, or zero. A store that is refused puts nothing
there, not even the part of it that would have fitted.
-/

import Chip8.Machine.Input
import Chip8.Proofs.Decoding
import Chip8.Proofs.Frame
import Chip8.Proofs.Tick
import Mathlib.Algebra.Group.Nat.Defs

namespace Chip8

/-! ### Words -/

/-- What a word puts into memory so far behind the index: the digits of a register, hundreds
first, or the registers up to one. -/
inductive Word.Puts (word : Word) (registers : Registers) : Nat → UInt8 → Prop
  | digit (x : Register) (place : Nat) (byte : UInt8) (decimal : word.IsMiscellany x 0x33)
      (within : place < 3)
      (value : byte.toNat = (registers.get x).toNat / 10 ^ (2 - place) % 10) :
      word.Puts registers place byte
  | register (last x : Register) (block : word.IsMiscellany last 0x55) (within : x ≤ last) :
      word.Puts registers x.val (registers.get x)

/-- The bytes that an instruction puts into memory from the index on, if it goes through. -/
def Instruction.stores (registers : Registers) : Instruction → List UInt8
  | storeDecimal x => Registers.decimalDigits (registers.get x)
  | storeRegisters last => registers.toList.take (last.val + 1)
  | _ => []

theorem Registers.decimalDigits_getElem?_eq_some_iff (value byte : UInt8) (place : Nat) :
    (decimalDigits value)[place]? = some byte ↔
      place < 3 ∧ byte.toNat = value.toNat / 10 ^ (2 - place) % 10 := by
  have bound := value.toNat_lt
  have hundreds : value.toNat / 100 % 10 = value.toNat / 100 := by omega
  match place with
  | 0 | 1 | 2 =>
    simp [decimalDigits, ← UInt8.toNat_inj, hundreds, eq_comm (a := byte.toNat)]
  | beyond + 3 =>
    have outside : ¬beyond + 3 < 3 := by omega
    simp [decimalDigits, outside]

theorem Word.puts_iff (word : Word) (registers : Registers) (place : Nat) (byte : UInt8) :
    word.Puts registers place byte ↔
      ((Instruction.ofWord word).stores registers)[place]? = some byte := by
  constructor
  · rintro (⟨x, _, _, decimal, within, value⟩ | ⟨last, x, block, within⟩)
    · rw [Instruction.ofWord_of_fits (.storeDecimal x) decimal]
      exact (Registers.decimalDigits_getElem?_eq_some_iff _ _ _).mpr ⟨within, value⟩
    · rw [Instruction.ofWord_of_fits (.storeRegisters last) block]
      exact (registers.take_toList_getElem?_eq_some_iff _ _ _).mpr ⟨x, within, rfl, rfl⟩
  · intro stored
    cases instruction : Instruction.ofWord word with
    | storeDecimal x =>
      rw [instruction] at stored
      obtain ⟨within, value⟩ := (Registers.decimalDigits_getElem?_eq_some_iff _ _ _).mp stored
      exact .digit x place byte (Instruction.ofWord_eq_iff.mp instruction) within value
    | storeRegisters last =>
      rw [instruction] at stored
      obtain ⟨x, within, rfl, rfl⟩ := (registers.take_toList_getElem?_eq_some_iff _ _ _).mp stored
      exact .register last x (Instruction.ofWord_eq_iff.mp instruction) within
    | _ =>
      rw [instruction] at stored
      cases stored

/-! ### Instructions -/

/-- All of the bytes are put into memory from the index on, or none is and there is a fault. -/
inductive Outcome.Writes (outcome : Outcome) (machine : Machine) (bytes : List UInt8) : Prop
  | whole (succeeds : outcome.fault = none)
      (memory : outcome.machine.memory = machine.memory.write machine.index.val bytes)
  | refused (fails : outcome.fault ≠ none) (memory : outcome.machine.memory = machine.memory)

theorem Outcome.writes_nil {outcome : Outcome} {machine : Machine}
    (same : outcome.machine.memory = machine.memory) : outcome.Writes machine [] := by
  rcases Option.eq_none_or_eq_some outcome.fault with succeeds | ⟨fault, fails⟩
  · exact .whole succeeds same
  · exact .refused (fails ▸ Option.some_ne_none fault) same

/-- Counting writes nothing. -/
theorem Outcome.Writes.counted {outcome : Outcome} {machine : Machine} {bytes : List UInt8}
    (writes : outcome.Writes machine bytes) : outcome.counted.Writes machine bytes := by
  obtain ⟨cycles, counted⟩ := outcome.machine_counted
  cases writes with
  | whole succeeds memory =>
    exact .whole (outcome.fault_counted.trans succeeds) (by rw [counted]; exact memory)
  | refused fails memory =>
    exact .refused (outcome.fault_counted ▸ fails) (by rw [counted]; exact memory)

namespace Machine

theorem writes_store (machine : Machine) (source : List UInt8) (count : UInt64) :
    (Outcome.attempt (machine.memory.store machine.index source count) machine
      fun memory => { machine with memory := memory }).Writes machine
        (source.take count.toNat) := by
  unfold Memory.store
  split
  · exact .whole rfl rfl
  · exact .refused (Option.some_ne_none _) rfl

/-- An instruction writes what it stores. -/
theorem writes_perform (origin : Address) (instruction : Instruction) (machine : Machine) :
    (perform origin instruction machine).Writes machine
      (instruction.stores machine.registers) := by
  cases instruction with
  | storeDecimal x =>
    exact machine.writes_store (Registers.decimalDigits (machine.registers.get x)) 3
  | storeRegisters last =>
    have block := machine.writes_store machine.registers.toList (UInt64.ofNat (last.val + 1))
    rwa [toNat_blockSize] at block
  | ret | call _ | addIndex _ | loadRegisters _ | jumpForward _ =>
    exact Outcome.writes_nil (Outcome.part_attempt Machine.memory _ _ _ fun _ => rfl)
  | skipIf condition =>
    refine Outcome.writes_nil ?_
    exact part_skipIf Machine.memory (fun _ _ => rfl) origin condition machine
  | draw x y height =>
    refine Outcome.writes_nil ?_
    exact machine.part_draw Machine.memory (fun _ _ _ => rfl) x y height
  | _ => exact Outcome.writes_nil rfl

/-- So does a step. -/
theorem writes_execute (machine : Machine) (word : Word) :
    (machine.execute word).Writes machine
      ((Instruction.ofWord word).stores machine.registers) := by
  refine machine.execute_cases word (motive := fun outcome => outcome.Writes machine
    ((Instruction.ofWord word).stores machine.registers)) (fun _ => ?_) fun next _ => ?_
  · exact .refused (Option.some_ne_none _) rfl
  · cases (writes_perform machine.pc (.ofWord word) (machine.past word next)).counted with
    | whole succeeds memory => exact .whole succeeds memory
    | refused fails memory => exact .refused fails memory

/-! ### One tick -/

/-- What a tick does to memory. -/
inductive MemoryTurn (machine : Machine) (outcome : Outcome) : Prop
  /-- Memory stays as it is if no instruction goes through. -/
  | kept (idle : machine.upcoming? = none ∨ outcome.fault ≠ none)
      (same : outcome.machine.memory = machine.memory)
  /-- An instruction that goes through puts into memory what it stores. -/
  | stored (woken : Machine) (word : Word) (wakes : machine.wake? = some woken)
      (reads : woken.fetch = .ok word) (succeeds : outcome.fault = none)
      (memory : outcome.machine.memory = machine.memory.write woken.index.val
        ((Instruction.ofWord word).stores woken.registers))

theorem tick_memory (machine : Machine) : machine.MemoryTurn machine.tick := by
  cases wakes : machine.wake? with
  | none =>
    rw [tick_of_idle wakes]
    exact .kept (Or.inl (by simp [upcoming?, wakes])) rfl
  | some woken =>
    have same : woken.memory = machine.memory := by
      obtain ⟨registers, rfl⟩ := eq_of_wake? wakes
      rfl
    cases reads : woken.fetch with
    | error fault =>
      rw [tick_of_error wakes reads]
      exact .kept (Or.inr (Option.some_ne_none fault)) same
    | ok word =>
      rw [tick_of_ok wakes reads]
      cases woken.countDown.writes_execute word with
      | whole succeeds memory =>
        refine .stored woken word wakes reads succeeds ?_
        rw [← same]
        exact memory
      | refused fails memory => exact .kept (Or.inr fails) (memory.trans same)

/-- What an input puts at an address. Only a tick that goes through puts anything there. -/
def Puts (machine : Machine) (input : Input) (address : Address) (byte : UInt8) : Prop :=
  input = .tick ∧ machine.tick.fault = none ∧
    ∃ woken word place, machine.wake? = some woken ∧ woken.fetch = .ok word ∧
      address.val = woken.index.val + place ∧ word.Puts woken.registers place byte

/-- The byte that an input puts at an address, if it puts one there. -/
def put? (machine : Machine) (input : Input) (address : Address) : Option UInt8 :=
  if input = .tick ∧ machine.tick.fault = none then
    machine.wake?.bind fun woken =>
      woken.fetch.toOption.bind fun word =>
        if woken.index.val ≤ address.val then
          ((Instruction.ofWord word).stores woken.registers)[address.val - woken.index.val]?
        else none
  else none

theorem puts_iff (machine : Machine) (input : Input) (address : Address) (byte : UInt8) :
    machine.Puts input address byte ↔ machine.put? input address = some byte := by
  constructor
  · rintro ⟨rfl, succeeds, woken, word, place, wakes, reads, here, puts⟩
    have offset : address.val - woken.index.val = place := by omega
    have above : woken.index.val ≤ address.val := by omega
    rw [put?, if_pos ⟨rfl, succeeds⟩, wakes, Option.bind_some,
      toOption_fetch_eq_some_iff.mpr reads, Option.bind_some, if_pos above, offset]
    exact (Word.puts_iff _ _ _ _).mp puts
  · intro put
    unfold put? at put
    split at put
    · next goes =>
      obtain ⟨woken, wakes, put⟩ := Option.bind_eq_some_iff.mp put
      obtain ⟨word, read, put⟩ := Option.bind_eq_some_iff.mp put
      split at put
      · next above =>
        have reads := toOption_fetch_eq_some_iff.mp read
        exact ⟨goes.1, goes.2, woken, word, _, wakes, reads, by omega,
          (Word.puts_iff _ _ _ _).mpr put⟩
      · cases put
    · cases put

theorem put?_eq_none_iff (machine : Machine) (input : Input) (address : Address) :
    machine.put? input address = none ↔ ∀ byte, ¬machine.Puts input address byte := by
  simp only [puts_iff]
  exact Option.eq_none_iff_forall_ne_some

/-- An address holds what was put there. -/
theorem get_of_puts {machine : Machine} {input : Input} {address : Address} {byte : UInt8}
    (puts : machine.Puts input address byte) :
    (machine.respond input).machine.memory.get address = byte := by
  obtain ⟨rfl, succeeds, woken, word, place, wakes, reads, here, puts⟩ := puts
  show machine.tick.machine.memory.get address = byte
  cases machine.tick_memory with
  | kept idle _ =>
    rw [upcoming?_eq_some wakes reads] at idle
    simp [succeeds] at idle
  | stored woken' word' wakes' reads' _ memory =>
    obtain rfl : woken = woken' := Option.some.inj (wakes.symm.trans wakes')
    obtain rfl : word = word' := Except.ok.inj (reads.symm.trans reads')
    have offset : address.val - woken.index.val = place := by omega
    have above : woken.index.val ≤ address.val := by omega
    rw [memory, Memory.get_write, if_pos above, offset, (Word.puts_iff _ _ _ _).mp puts]
    rfl

/-- An address at which nothing is put holds what it held, but for a load that goes through. -/
theorem get_of_not_puts {machine : Machine} {input : Input} {address : Address}
    (refused : ∀ image, input = .load image → imageLimit < image.length)
    (none : ∀ byte, ¬machine.Puts input address byte) :
    (machine.respond input).machine.memory.get address = machine.memory.get address := by
  cases input with
  | key | releaseKeys | acknowledge => rfl
  | load image =>
    simp only [respond]
    rw [load_of_lt machine (refused image rfl)]
    rfl
  | tick =>
    show machine.tick.machine.memory.get address = _
    cases machine.tick_memory with
    | kept _ same => rw [same]
    | stored woken word wakes reads succeeds memory =>
      rw [memory, Memory.get_write]
      split
      · next above =>
        cases stored : ((Instruction.ofWord word).stores woken.registers)[
            address.val - woken.index.val]? with
        | none => rfl
        | some byte =>
          have puts := (Word.puts_iff _ _ _ _).mpr stored
          exact absurd ⟨rfl, succeeds, woken, word, _, wakes, reads, by omega, puts⟩ (none byte)
      · rfl

/-! ### Runs -/

/-- Nothing is put at an address along a run. -/
def Untouched (machine : Machine) (inputs : List Input) (address : Address) : Prop :=
  ∀ before input after, inputs = before ++ input :: after →
    ∀ byte, ¬(machine.feed before).Puts input address byte

/-- A byte is put at an address along a run, and nothing after it. -/
def LastPut (machine : Machine) (inputs : List Input) (address : Address) (byte : UInt8) : Prop :=
  ∃ before input after, inputs = before ++ input :: after ∧
    (machine.feed before).Puts input address byte ∧
    (machine.feed (before ++ [input])).Untouched after address

theorem untouched_nil (machine : Machine) (address : Address) : machine.Untouched [] address := by
  intro before input after whole
  simp at whole

theorem untouched_cons_iff (machine : Machine) (input : Input) (rest : List Input)
    (address : Address) :
    machine.Untouched (input :: rest) address ↔ (∀ byte, ¬machine.Puts input address byte) ∧
      (machine.respond input).machine.Untouched rest address := by
  constructor
  · intro untouched
    refine ⟨untouched [] input rest rfl, fun before other after whole => ?_⟩
    exact untouched (input :: before) other after (by rw [whole]; rfl)
  · rintro ⟨head, tail⟩ before other after whole
    cases before with
    | nil =>
      obtain ⟨rfl, rfl⟩ := List.cons.inj whole
      exact head
    | cons first before =>
      obtain ⟨rfl, rfl⟩ := List.cons.inj whole
      exact tail before other after rfl

/-- Whether nothing is put at an address along a run is found out input by input. -/
instance decidableUntouched (machine : Machine) (inputs : List Input) (address : Address) :
    Decidable (machine.Untouched inputs address) :=
  match inputs with
  | [] => isTrue (machine.untouched_nil address)
  | input :: rest =>
    have := decidableUntouched (machine.respond input).machine rest address
    have := decidable_of_iff _ (machine.put?_eq_none_iff input address)
    decidable_of_iff' _ (machine.untouched_cons_iff input rest address)

theorem not_lastPut_nil (machine : Machine) (address : Address) (byte : UInt8) :
    ¬machine.LastPut [] address byte := by
  rintro ⟨before, input, after, whole, -⟩
  simp at whole

theorem lastPut_cons_iff (machine : Machine) (input : Input) (rest : List Input)
    (address : Address) (byte : UInt8) :
    machine.LastPut (input :: rest) address byte ↔
      (machine.Puts input address byte ∧ (machine.respond input).machine.Untouched rest address) ∨
        (machine.respond input).machine.LastPut rest address byte := by
  constructor
  · rintro ⟨before, other, after, whole, puts, untouched⟩
    cases before with
    | nil =>
      obtain ⟨rfl, rfl⟩ := List.cons.inj whole
      exact Or.inl ⟨puts, untouched⟩
    | cons first before =>
      obtain ⟨rfl, rfl⟩ := List.cons.inj whole
      exact Or.inr ⟨before, other, after, rfl, puts, untouched⟩
  · rintro (⟨puts, untouched⟩ | ⟨before, other, after, rfl, puts, untouched⟩)
    · exact ⟨[], input, rest, rfl, puts, untouched⟩
    · exact ⟨input :: before, other, after, rfl, puts, untouched⟩

/-- An address holds what was last put there, or else what it held at the start. -/
theorem get_feed_eq_iff (machine : Machine) (inputs : List Input) (address : Address)
    (byte : UInt8)
    (refused : ∀ image, .load image ∈ inputs → imageLimit < image.length) :
    (machine.feed inputs).memory.get address = byte ↔
      machine.LastPut inputs address byte ∨
        machine.Untouched inputs address ∧ machine.memory.get address = byte := by
  induction inputs generalizing machine with
  | nil => simp [untouched_nil, not_lastPut_nil]
  | cons input rest inductionHypothesis =>
    have later := inductionHypothesis (machine.respond input).machine
      fun image member => refused image (List.mem_cons_of_mem _ member)
    rw [feed_cons, later, lastPut_cons_iff, untouched_cons_iff]
    -- What is put here first counts only if nothing is put here later; if nothing is put
    -- here first, the rest starts from the same byte.
    by_cases puts : ∃ other, machine.Puts input address other
    · obtain ⟨other, puts⟩ := puts
      have here : machine.Puts input address byte ↔ other = byte :=
        ⟨fun again => (get_of_puts puts).symm.trans (get_of_puts again), fun same => same ▸ puts⟩
      have touched : ¬∀ byte, ¬machine.Puts input address byte := fun none => none other puts
      rw [get_of_puts puts, here]
      simp only [touched, false_and, or_false]
      rw [or_comm, and_comm]
    · have none := not_exists.mp puts
      have head : ∀ image, input = .load image → imageLimit < image.length :=
        fun image same => refused image (same ▸ List.mem_cons_self)
      rw [get_of_not_puts head none]
      simp only [none, not_false_eq_true, false_and, false_or, implies_true, true_and]

/-- What a machine finds at an address right after an image was loaded. -/
def imageByte (image : List UInt8) (address : Address) : UInt8 :=
  if address.val < 80 then font[address.val]?.getD 0
  else if 0x200 ≤ address.val then image[address.val - 0x200]?.getD 0
  else 0

theorem get_load (machine : Machine) {image : List UInt8} (fits : image.length ≤ imageLimit)
    (address : Address) :
    (machine.load image).machine.memory.get address = imageByte image address := by
  have glyphs : font.length = 80 := rfl
  have outside (above : 80 ≤ address.val) : font[address.val]? = none :=
    List.getElem?_eq_none (glyphs ▸ above)
  rw [load_of_le machine fits]
  show (Memory.blank.write Address.entryPoint.val image).get address = _
  have entry : Address.entryPoint.val = 0x200 := rfl
  rw [Memory.get_write, Memory.get_blank, entry, imageByte]
  by_cases low : address.val < 80
  · rw [if_pos low, if_neg (by omega)]
  · rw [if_neg low, outside (Nat.le_of_not_lt low)]
    rfl

/-- Memory from a load on, whatever is done to the machine short of another load that goes
through. An input changes a byte only if it is a tick that goes through with a store over
it; and after any inputs a byte is the one that the last such tick put there, or, if there
was none, the one that the image left there. -/
theorem memory_along_runs :
    (∀ (machine : Machine) (input : Input) (address : Address),
      (∀ image, input = .load image → 3584 < image.length) →
      (machine.respond input).machine.memory.get address ≠ machine.memory.get address →
      ∃ byte, machine.Puts input address byte) ∧
    ∀ (machine : Machine) (image : List UInt8) (inputs : List Input), image.length ≤ 3584 →
      (∀ other, .load other ∈ inputs → 3584 < other.length) →
      ∀ address byte,
        ((machine.load image).machine.feed inputs).memory.get address = byte ↔
          (machine.load image).machine.LastPut inputs address byte ∨
            (machine.load image).machine.Untouched inputs address ∧
              imageByte image address = byte := by
  refine ⟨fun machine input address refused changed => ?_, ?_⟩
  · refine Classical.byContradiction fun none => ?_
    exact changed (get_of_not_puts refused (not_exists.mp none))
  · intro machine image inputs fits refused address byte
    rw [get_feed_eq_iff _ inputs address byte refused, get_load machine fits]

/-- Registers stored over the last two digits of a number, and then digits that do not fit. -/
theorem memory_along_runs_overlapping :
    let image : List UInt8 :=
      [0x60, 0x9C, 0xA3, 0x00, 0xF0, 0x33, 0xA3, 0x01, 0xF1, 0x55, 0xAF, 0xFE, 0xF0, 0x33]
    let inputs : List Input := [.tick, .tick, .tick, .key 5 true, .tick, .tick, .tick, .tick]
    let loaded := ((create 0).load image).machine
    (image.length ≤ 3584 ∧ (∀ other, .load other ∈ inputs → 3584 < other.length) ∧
        (∀ other, Input.tick = .load other → 3584 < other.length) ∧
        ((loaded.feed (inputs.take 5)).respond .tick).machine.memory.get ⟨0x301, by decide⟩ ≠
          (loaded.feed (inputs.take 5)).memory.get ⟨0x301, by decide⟩) ∧
      (loaded.feed (inputs.take 7)).tick.fault = some .memoryOutOfBounds ∧
      (∃ byte, (loaded.feed (inputs.take 5)).Puts .tick ⟨0x301, by decide⟩ byte) ∧
      loaded.LastPut inputs ⟨0x300, by decide⟩ 1 ∧
      loaded.LastPut inputs ⟨0x301, by decide⟩ 156 := by
  intro image inputs loaded
  have fits : image.length ≤ 3584 := by decide
  have refused : ∀ other, .load other ∈ inputs → 3584 < other.length := by simp [inputs]
  have ticks : ∀ other, Input.tick = .load other → 3584 < other.length := by simp
  obtain ⟨earlier, later, fault, digit, register⟩ :
      (loaded.feed (inputs.take 5)).memory.get ⟨0x301, by decide⟩ = 5 ∧
      ((loaded.feed (inputs.take 5)).respond .tick).machine.memory.get ⟨0x301, by decide⟩ = 156 ∧
      (loaded.feed (inputs.take 7)).tick.fault = some .memoryOutOfBounds ∧
      (loaded.feed inputs).memory.get ⟨0x300, by decide⟩ = 1 ∧
      (loaded.feed inputs).memory.get ⟨0x301, by decide⟩ = 156 := by
    decide +kernel
  have changed :
      ((loaded.feed (inputs.take 5)).respond .tick).machine.memory.get ⟨0x301, by decide⟩ ≠
        (loaded.feed (inputs.take 5)).memory.get ⟨0x301, by decide⟩ := by
    rw [earlier, later]
    decide
  have plain :
      imageByte image ⟨0x300, by decide⟩ ≠ 1 ∧ imageByte image ⟨0x301, by decide⟩ ≠ 156 := by
    decide
  have last := memory_along_runs.2 (create 0) image inputs fits refused
  refine ⟨⟨fits, refused, ticks, changed⟩, fault, ?_, ?_, ?_⟩
  · exact memory_along_runs.1 (loaded.feed (inputs.take 5)) .tick _ ticks changed
  · exact ((last _ _).mp digit).resolve_right fun left => plain.1 left.2
  · exact ((last _ _).mp register).resolve_right fun left => plain.2 left.2

end Machine

end Chip8
