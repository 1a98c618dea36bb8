/-
The session at the window, frame by frame. In each frame the keyboard is read, the
machine makes its ticks, the tone is brought in line with the sound timer, and the
window is redrawn if there is something new to show. A fault in a tick ends the session
on the spot; a request to close the window ends it once its frame is complete. What a
session did is the list of what its frames did.
-/

import Chip8.Controls
import Chip8.Machine.Step
import Chip8.Picture
import Chip8.Tone

namespace Chip8

/-- What is carried from frame to frame. -/
structure Session where
  machine : Machine
  tone : Tone
  /-- How many frames there were. -/
  frames : Nat

/-- What came of a frame. -/
structure FrameResult where
  session : Session
  log : List Log.Record
  events : List Event
  /-- The fault that ended the session. -/
  fault : Option Fault
  /-- Whether the window was asked to close. -/
  closed : Bool

namespace Session

/-- A session about to begin. -/
def start (machine : Machine) : Session := ⟨machine, .silent, 0⟩

/-- What is said when a tick ended in a fault: where the machine is, why it stopped, and
the newest instructions. -/
def faultReport (fault : Fault) (machine : Machine) : List Log.Record :=
  .error ("Emulation halted at pc " ++ addressText (UInt32.ofNat machine.pc.val) ++ ": " ++
      fault.message) ::
    .error ("last " ++ toString machine.history.toList.length ++ " instructions:") ::
    machine.history.toList.map fun line => .error ("  " ++ line)

/-- Brings the tone in line with the sound timer. -/
def sound (host : Host) (session : Session) : Session × List Log.Record × List Event :=
  match session.tone.call? session.machine.beeping with
  | none => (session, [], [])
  | some call =>
    let granted := !host.refuses call
    let after := { session with tone := session.tone.update session.machine.beeping granted }
    if call = .startDevice then
      if granted then (after, [], [.start session.frames, .sound firstSamples])
      else (after, [.error "Failed to start playback device."], [.start session.frames])
    else
      if granted then (after, [], [.stop session.frames])
      else (after, [.error "Failed to stop playback device."], [.stop session.frames])

/-- Redraws the window if there is something new to show. -/
def redraw (session : Session) : Session × List Event :=
  if session.machine.display.updated then
    ({ session with machine := session.machine.acknowledge },
      [.draw session.frames ink session.machine.display.picture])
  else (session, [])

/-- One frame of a session. -/
def step (host : Host) (instructions : Nat) (session : Session) (frame : Frame) : FrameResult :=
  let run := (frame.apply session.machine).run instructions
  let ticked : Session := ⟨run.outcome.machine, session.tone, session.frames + 1⟩
  match run.outcome.fault with
  | some fault =>
    { session := ticked
      log := run.outcome.log ++ faultReport fault run.outcome.machine
      events := []
      fault := some fault
      closed := frame.closes }
  | none =>
    let (sounded, toneLog, toneEvents) := ticked.sound host
    let (drawn, drawEvents) := sounded.redraw
    { session := drawn
      log := run.outcome.log ++ toneLog
      events := toneEvents ++ drawEvents
      fault := none
      closed := frame.closes }

/-- The frames of a session, up to the one that ends it. -/
def play (host : Host) (instructions : Nat) (session : Session) : List Frame → List FrameResult
  | [] => []
  | frame :: rest =>
    let result := session.step host instructions frame
    if result.fault.isSome || result.closed then [result]
    else result :: result.session.play host instructions rest

end Session

end Chip8
