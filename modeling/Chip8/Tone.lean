/-
The tone. The device that sounds it is started and stopped only when that changes
something, and what is remembered is what the device was last brought to: a call that
was refused changes nothing and is made again as long as it is still asked for.
-/

import Chip8.Host

namespace Chip8

/-- Whether the tone is sounding. -/
structure Tone where
  sounding : Bool
  deriving DecidableEq, Repr

namespace Tone

/-- The tone before it was ever asked for. -/
def silent : Tone := ⟨false⟩

/-- The call that brings the device to what is asked for, if it is not there already. -/
def call? (tone : Tone) (requested : Bool) : Option HostCall :=
  if requested = tone.sounding then none
  else if requested then some .startDevice
  else some .stopDevice

/-- The tone after the call that a request leads to was granted or refused. -/
def update (tone : Tone) (requested granted : Bool) : Tone :=
  if (tone.call? requested).isSome && granted then ⟨requested⟩ else tone

end Tone

end Chip8
