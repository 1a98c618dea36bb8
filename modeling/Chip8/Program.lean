/-
The program from its command line to its exit status. It reads its options, finds and
reads a ROM, and either lists it or plays it. Playing takes a window and a sound device
from the host; each is taken by a function that is given what to do with it and that
gives it back afterwards, so nothing is left open on any way out and nothing is used
before it was granted.
-/

import Chip8.Machine.Load
import Chip8.Options
import Chip8.Rom
import Chip8.Session

namespace Chip8

/-- How the program ended. -/
inductive Exit where
  | success
  | failure
  deriving DecidableEq, Repr

/-- The number an operating system is told. -/
def Exit.code : Exit → UInt32
  | success => 0
  | failure => 1

theorem Exit.code_eq_zero_iff {exit : Exit} : exit.code = 0 ↔ exit = .success := by
  cases exit <;> decide

/-- What the program is run on. -/
structure Invocation where
  arguments : List String
  files : FileSystem
  /-- The directory that ROMs are looked for in. -/
  assets : String
  host : Host
  /-- What is done on the keyboard. The window closes when there is no more of it. -/
  frames : List Frame
  /-- What the machine's random bytes are made from. -/
  seed : UInt64

/-- What a part of the program did. -/
structure Activity where
  output : List String
  log : List Log.Record
  events : List Event
  exit : Exit

namespace Activity

/-- Saying what went wrong and giving up. -/
def failed (log : List Log.Record) : Activity := ⟨[], log, [], .failure⟩

/-- Records and events before those of an activity. -/
def after (log : List Log.Record) (events : List Event) (activity : Activity) : Activity :=
  { activity with log := log ++ activity.log, events := events ++ activity.events }

/-- An event after those of an activity, however it ended. -/
def closing (event : Event) (activity : Activity) : Activity :=
  { activity with events := activity.events ++ [event] }

/-! ### What an activity is made of -/

@[simp] theorem output_failed (log : List Log.Record) : (failed log).output = [] := rfl

@[simp] theorem log_failed (log : List Log.Record) : (failed log).log = log := rfl

@[simp] theorem events_failed (log : List Log.Record) : (failed log).events = [] := rfl

@[simp] theorem exit_failed (log : List Log.Record) : (failed log).exit = .failure := rfl

section Parts

variable (log : List Log.Record) (events : List Event) (event : Event) (activity : Activity)

@[simp] theorem output_after : (after log events activity).output = activity.output := rfl

@[simp] theorem log_after : (after log events activity).log = log ++ activity.log := rfl

@[simp] theorem events_after : (after log events activity).events = events ++ activity.events := rfl

@[simp] theorem exit_after : (after log events activity).exit = activity.exit := rfl

@[simp] theorem output_closing : (closing event activity).output = activity.output := rfl

@[simp] theorem log_closing : (closing event activity).log = activity.log := rfl

@[simp] theorem events_closing : (closing event activity).events = activity.events ++ [event] := rfl

@[simp] theorem exit_closing : (closing event activity).exit = activity.exit := rfl

end Parts

/-! ### Taking and giving back -/

/-- Does something with a window. -/
def withWindow (host : Host) (body : Activity) : Activity :=
  if host.refuses .startWindows then failed [.error "Failed to initialize glfw!"]
  else closing .terminate <| after []
    [.resizable false,
      .window (cellSize * displayWidth) (cellSize * displayHeight) windowTitle] <|
    if host.refuses .openWindow then failed [.error "Failed to create the emulator window!"]
    else closing .destroyWindow <|
      if host.refuses .loadFunctions then failed [.error ("GLEW Error: " ++ host.loaderError)]
      else after
        [.info ("OpenGL Renderer Device: " ++ host.renderer),
          .info ("OpenGL Version Supported: " ++ host.drawingVersion)]
        [.clearColor paper 256, .swapInterval 1] body

/-- Does something with a device that sounds the tone. -/
def withSpeaker (host : Host) (body : Activity) : Activity :=
  after [] [.waveform samples toneAmplitude toneFrequency] <|
    if host.refuses .makeWaveform then failed [.error "Failed to initialize the beep waveform."]
    else after [] [.device samples] <|
      if host.refuses .openDevice then failed [.error "Failed to open audio playback device."]
      else closing .closeDevice <|
        after [.info ("Audio Device Name: " ++ host.speaker)] [] body

/-- What the frames of a session did, taken together. -/
def ofFrames (results : List FrameResult) : Activity where
  output := []
  log := results.flatMap FrameResult.log
  events := results.flatMap FrameResult.events
  exit := if results.any fun result => result.fault.isSome then .failure else .success

end Activity

namespace Invocation

/-- Plays an image that was read from a file. -/
def playImage (invocation : Invocation) (options : Options) (path : String)
    (image : List UInt8) : Activity :=
  let loaded := (Machine.create invocation.seed).load image
  match loaded.fault with
  | some fault =>
    .failed (loaded.log ++ [.error ("Failed to load " ++ path ++ ": " ++ fault.message)])
  | none =>
    .after loaded.log [] <| .withWindow invocation.host <| .withSpeaker invocation.host <|
      .ofFrames ((Session.start loaded.machine).play invocation.host
        options.instructionsPerFrame invocation.frames)

/-- Does what the options ask for. -/
def follow (invocation : Invocation) (options : Options) : Activity :=
  let path := romPath invocation.files invocation.assets options.rom
  let contents := readRom invocation.files invocation.host path
  .after [readRecord path contents] [] <|
    match contents with
    | .error _ => .failed []
    | .ok image =>
      if options.disassemble then
        ⟨listing (UInt32.ofNat Address.entryPoint.val) image, [], [], .success⟩
      else invocation.playImage options path image

/-- The level of the log that options ask for. -/
def level (options : Options) : Log.Level := if options.debug then .debug else .info

/-- What the program does. The log is what is shown of it. -/
def run (invocation : Invocation) : Activity :=
  let parse := Options.parse invocation.arguments
  let activity : Activity := match parse.complaint with
    | some _ => .failed parse.log
    | none => invocation.follow parse.options
  { activity with log := Log.visible (level parse.options) activity.log }

end Invocation

end Chip8
