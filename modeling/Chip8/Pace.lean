/-
Pacing. A cycle of a given rate is over when as much time as one period has passed. The
test asks whether the elapsed time is short of the period, so where the two cannot be
compared the cycle counts as over.
-/

namespace Chip8

/-- The time that one cycle takes, in seconds. -/
structure Pace where
  period : Float

namespace Pace

/-- The pace of so many cycles a second. -/
def ofRate (rate : Float) : Pace := ⟨1.0 / rate⟩

/-- Whether a cycle is over when some time has passed since it began. -/
def isOver (pace : Pace) (elapsed : Float) : Bool := !(elapsed < pace.period)

end Pace

end Chip8
