/-
One step of the machine. A step is taken at an address: the word found there is
recorded, the program counter moves past it, and then its instruction is carried out.
The record comes first, so a step that faults is in the history all the same, and the
program counter moves before the instruction does, so calls return to, and skips and
relative jumps start from, the word behind.
-/

import Chip8.Listing
import Chip8.Machine.Outcome

namespace Chip8.Machine

/-! ### Instructions -/

/-- Whether a condition holds. -/
def holds (machine : Machine) : Condition → Bool
  | .equalByte x value => machine.registers.get x == value
  | .unequalByte x value => machine.registers.get x != value
  | .equal x y => machine.registers.get x == machine.registers.get y
  | .unequal x y => machine.registers.get x != machine.registers.get y
  | .held x => machine.keypad.isHeld (machine.registers.get x)
  | .released x => !machine.keypad.isHeld (machine.registers.get x)

/-- Moves the program counter on. -/
def advance (machine : Machine) (distance : UInt32) : Outcome :=
  .attempt (machine.pc.advance distance) machine fun pc => { machine with pc := pc }

/-- Draws the sprite at the index. The flag is cleared before the place is read from the
registers. A sprite that reaches past the end of memory is a fault, but the rows that
are in memory are drawn. -/
def draw (machine : Machine) (x y : Register) (height : Fin 16) : Outcome :=
  let cleared := machine.registers.set flagRegister 0
  let sprite := machine.memory.slice machine.index.val height.val
  let (display, hit) := machine.display.plotSprite (cleared.get x).toNat
    ((cleared.get y).toNat % displayHeight) sprite
  let drawn := { machine with
    registers := cleared.set flagRegister (flag hit), display := display }
  if sprite.length = height.val then .done drawn else .halted .addressOutOfRange drawn

/-- Carries out an instruction that was found at `origin`. The program counter is
already past it. -/
def perform (origin : Address) (instruction : Instruction) (machine : Machine) : Outcome :=
  match instruction with
  | .clear => .done { machine with display := machine.display.clear }
  | .ret => .attempt machine.stack.pop machine fun (target, stack) =>
      { machine with pc := target, stack := stack }
  | .jump target => .done { machine with pc := target }
  | .jumpForward distance =>
      machine.advance (UInt32.ofNat (distance.val + (machine.registers.get jumpRegister).toNat))
  | .call target => .attempt (machine.stack.push machine.pc) machine fun stack =>
      { machine with pc := target, stack := stack }
  | .skipIf condition => if machine.holds condition then machine.advance 2 else .done machine
  | .setByte x value => .done (machine.setRegister x value)
  | .addByte x value => .done (machine.setRegister x (machine.registers.get x + value))
  | .combine combination x y =>
      .done { machine with registers := machine.registers.combine combination x y }
  | .shiftRight x => .done { machine with registers := machine.registers.shiftRight x }
  | .shiftLeft x => .done { machine with registers := machine.registers.shiftLeft x }
  | .setIndex target => .done { machine with index := target }
  | .random x mask =>
      let (byte, generator) := machine.generator.next
      .done ({ machine with generator := generator }.setRegister x (byte &&& mask))
  | .draw x y height => machine.draw x y height
  | .readDelay x => .done (machine.setRegister x machine.delayTimer)
  | .awaitKey x => .done { machine with mode := .waitingKey, awaited := UInt8.ofNat x.val }
  | .setDelay x => .done { machine with delayTimer := machine.registers.get x }
  | .setSound x => .done { machine with soundTimer := machine.registers.get x }
  | .addIndex x =>
      .attempt (machine.index.advance (machine.registers.get x).toUInt32) machine fun index =>
        { machine with index := index }
  | .pointGlyph x =>
      .done { machine with
        index := .masked (UInt16.ofNat ((machine.registers.get x).toNat * glyphSize)) }
  | .storeDecimal x =>
      .attempt
        (machine.memory.store machine.index (Registers.decimalDigits (machine.registers.get x)) 3)
        machine fun memory => { machine with memory := memory }
  | .storeRegisters last =>
      .attempt
        (machine.memory.store machine.index machine.registers.toList (UInt64.ofNat (last.val + 1)))
        machine fun memory => { machine with memory := memory }
  | .loadRegisters last =>
      .attempt (machine.memory.load machine.index (UInt64.ofNat (last.val + 1))) machine
        fun values => { machine with registers := machine.registers.fill values }
  | .unknown word =>
      .after [.error ("Unrecognized opcode: " ++ traceLine (UInt32.ofNat origin.val) word.text)]
        (.done machine)

/-! ### Words -/

/-- Takes a step with a given word, whatever the machine is waiting for. -/
def execute (machine : Machine) (word : Word) : Outcome :=
  let line := traceLine (UInt32.ofNat machine.pc.val) word.mnemonic
  let recorded := { machine with history := machine.history.add line }
  let outcome : Outcome := match machine.pc.advance 2 with
    | .error fault => .halted fault recorded
    | .ok next => perform machine.pc (.ofWord word) { recorded with pc := next }
  .after [.debug line] outcome.counted

/-- The word at the program counter. -/
def fetch (machine : Machine) : Except Fault Word :=
  (machine.memory.loadPair machine.pc).map fun (upper, lower) => .ofBytes upper lower

/-! ### Ticks -/

/-- Goes on with a key that was waited for, which the awaited register gets. -/
def receive (machine : Machine) (key : Fin 16) : Machine :=
  let woken := { machine with mode := .running }
  if named : machine.awaited.toNat < 16 then
    woken.setRegister ⟨machine.awaited.toNat, named⟩ (UInt8.ofNat key.val)
  else woken

/-- Hands the lowest key that is down to a machine that waits for one. A machine that
makes no step, because it has no program or no key, is `none`. -/
def wake? (machine : Machine) : Option Machine :=
  match machine.mode with
  | .created => none
  | .running => some machine
  | .waitingKey => machine.keypad.lowest?.map machine.receive

/-- Lowers each timer that is not at zero. -/
def countDown (machine : Machine) : Machine :=
  { machine with
    delayTimer := lowered machine.delayTimer
    soundTimer := lowered machine.soundTimer }
where
  lowered (timer : UInt8) : UInt8 := if timer = 0 then 0 else timer - 1

/-- One tick of the clock: the timers count down, and the word at the program counter is
executed. -/
def tick (machine : Machine) : Outcome :=
  match machine.wake? with
  | none => .done machine
  | some woken =>
    let counted := woken.countDown
    match counted.fetch with
    | .error fault => .halted fault counted
    | .ok word => counted.execute word

/-- Ticks that were made one after the other. -/
structure Run where
  /-- How many there were, one that faulted included. -/
  ticks : Nat
  /-- The fault and the machine of the last one, and the records of all. -/
  outcome : Outcome

/-- Makes `count` ticks, or as many as there are up to the first fault. -/
def run : (count : Nat) → Machine → Run
  | 0, machine => ⟨0, .done machine⟩
  | count + 1, machine =>
    let first := machine.tick
    match first.fault with
    | some _ => ⟨1, first⟩
    | none =>
      let rest := run count first.machine
      ⟨rest.ticks + 1, rest.outcome.after first.log⟩

end Chip8.Machine
