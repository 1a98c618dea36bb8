/-
The source of the machine's random bytes: a linear congruential generator on sixty-four
bits that gives out the low byte of each new state. The state is all there is, so a
seed fixes every byte to come.
-/

namespace Chip8

/-- A generator of bytes. -/
structure Generator where
  state : UInt64
  deriving DecidableEq, Repr

namespace Generator

/-- The seed used when no other is given. -/
def fallbackSeed : UInt64 := 5555

/-- The generator that starts from a seed. -/
def ofSeed (seed : UInt64) : Generator := ⟨seed⟩

/-- The state that follows, in arithmetic modulo `2 ^ 64`. -/
def following (state : UInt64) : UInt64 := 6364136223846793005 * state + 1442695040888963407

/-- The next byte, and the generator after it. -/
def next (generator : Generator) : UInt8 × Generator :=
  let state := following generator.state
  (state.toUInt8, ⟨state⟩)

/-- The next `count` bytes, in order, and the generator after them. -/
def take : (count : Nat) → Generator → List UInt8 × Generator
  | 0, generator => ([], generator)
  | count + 1, generator =>
    let (byte, rest) := generator.next
    let (bytes, final) := rest.take count
    (byte :: bytes, final)

end Generator

end Chip8
