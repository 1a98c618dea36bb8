/-
The courses that the program can take. It may not understand its command line, or not get at
the file that it is to read, or it lists the file, or the file is too large for a machine, or
there is an image to play; `run_cases` turns a claim about the program into a claim about each
of the five. Playing is taken apart in the same way, by what is refused on the way to the first
frame: `withWindow_cases` for the window, `withSpeaker_cases` for the device that sounds, and
`withWindow_withSpeaker_cases` for both.
-/

import Chip8.Proofs.Playing

namespace Chip8

/-! ### Before and after the frames -/

/-- What the host is asked for to get a window. -/
def windowEvents : List Event :=
  [.resizable false, .window (cellSize * displayWidth) (cellSize * displayHeight) windowTitle]

/-- What the host is asked for to get the window drawn in. -/
def drawingEvents : List Event := [.clearColor paper 256, .swapInterval 1]

/-- What is said about the drawing. -/
def drawingRecords (host : Host) : List Log.Record :=
  [.info ("OpenGL Renderer Device: " ++ host.renderer),
    .info ("OpenGL Version Supported: " ++ host.drawingVersion)]

namespace Invocation

/-- What the host is asked for before the first frame. -/
def openingEvents : List Event :=
  [.resizable false, .window (cellSize * displayWidth) (cellSize * displayHeight) windowTitle,
    .clearColor paper 256, .swapInterval 1, .waveform samples toneAmplitude toneFrequency,
    .device samples]

/-- What the host is asked for after the last frame. -/
def closingEvents : List Event := [.closeDevice, .destroyWindow, .terminate]

end Invocation

namespace Activity

/-- The activity with those of its records that are shown at a level. -/
def shownAt (activity : Activity) (level : Log.Level) : Activity :=
  { activity with log := Log.visible level activity.log }

section Parts

variable (activity : Activity) (level : Log.Level)

@[simp] theorem output_shownAt : (activity.shownAt level).output = activity.output := rfl

@[simp] theorem log_shownAt : (activity.shownAt level).log = Log.visible level activity.log := rfl

@[simp] theorem events_shownAt : (activity.shownAt level).events = activity.events := rfl

@[simp] theorem exit_shownAt : (activity.shownAt level).exit = activity.exit := rfl

end Parts

/-! ### Taking a window and a device -/

section Taking

variable {motive : Activity → Prop} (host : Host) (body : Activity)

/-- A window is not to be had, or it cannot be drawn in, or what is done with it is done. -/
theorem withWindow_cases
    (unstarted : host.refuses .startWindows = true →
      motive ⟨[], [.error "Failed to initialize glfw!"], [], .failure⟩)
    (unopened : host.refuses .startWindows = false → host.refuses .openWindow = true →
      motive ⟨[], [.error "Failed to create the emulator window!"],
        windowEvents ++ [.terminate], .failure⟩)
    (unloaded : host.refuses .startWindows = false → host.refuses .openWindow = false →
      host.refuses .loadFunctions = true →
      motive ⟨[], [.error ("GLEW Error: " ++ host.loaderError)],
        windowEvents ++ [.destroyWindow, .terminate], .failure⟩)
    (granted : host.refuses .startWindows = false → host.refuses .openWindow = false →
      host.refuses .loadFunctions = false →
      motive ⟨body.output, drawingRecords host ++ body.log,
        windowEvents ++ drawingEvents ++ body.events ++ [.destroyWindow, .terminate],
        body.exit⟩) :
    motive (withWindow host body) := by
  unfold withWindow
  cases windows : host.refuses .startWindows with
  | true => exact unstarted windows
  | false =>
    cases window : host.refuses .openWindow with
    | true => exact unopened windows window
    | false =>
      cases functions : host.refuses .loadFunctions with
      | true => exact unloaded windows window functions
      | false =>
        have all := granted windows window functions
        simpa [closing, after, windowEvents, drawingEvents, drawingRecords] using all

/-- There is no tone, or nothing to sound it, or what is done with the device is done. -/
theorem withSpeaker_cases
    (toneless : host.refuses .makeWaveform = true →
      motive ⟨[], [.error "Failed to initialize the beep waveform."],
        [.waveform samples toneAmplitude toneFrequency], .failure⟩)
    (deviceless : host.refuses .makeWaveform = false → host.refuses .openDevice = true →
      motive ⟨[], [.error "Failed to open audio playback device."],
        [.waveform samples toneAmplitude toneFrequency, .device samples], .failure⟩)
    (granted : host.refuses .makeWaveform = false → host.refuses .openDevice = false →
      motive ⟨body.output, .info ("Audio Device Name: " ++ host.speaker) :: body.log,
        [.waveform samples toneAmplitude toneFrequency, .device samples] ++ body.events ++
          [.closeDevice], body.exit⟩) :
    motive (withSpeaker host body) := by
  unfold withSpeaker
  cases waveform : host.refuses .makeWaveform with
  | true => exact toneless waveform
  | false =>
    cases device : host.refuses .openDevice with
    | true => exact deviceless waveform device
    | false =>
      have all := granted waveform device
      simpa [closing, after] using all

/-- Of five things that are asked for, the first one that is refused is the last one that is
asked for, and if none is, what was to be done with them is done. -/
theorem withWindow_withSpeaker_cases
    (unstarted : host.refuses .startWindows = true →
      motive ⟨[], [.error "Failed to initialize glfw!"], [], .failure⟩)
    (unopened : host.refuses .startWindows = false → host.refuses .openWindow = true →
      motive ⟨[], [.error "Failed to create the emulator window!"],
        windowEvents ++ [.terminate], .failure⟩)
    (unloaded : host.refuses .startWindows = false → host.refuses .openWindow = false →
      host.refuses .loadFunctions = true →
      motive ⟨[], [.error ("GLEW Error: " ++ host.loaderError)],
        windowEvents ++ [.destroyWindow, .terminate], .failure⟩)
    (toneless : host.refuses .startWindows = false → host.refuses .openWindow = false →
      host.refuses .loadFunctions = false → host.refuses .makeWaveform = true →
      motive ⟨[], drawingRecords host ++ [.error "Failed to initialize the beep waveform."],
        windowEvents ++ drawingEvents ++
          [.waveform samples toneAmplitude toneFrequency, .destroyWindow, .terminate], .failure⟩)
    (deviceless : host.refuses .startWindows = false → host.refuses .openWindow = false →
      host.refuses .loadFunctions = false → host.refuses .makeWaveform = false →
      host.refuses .openDevice = true →
      motive ⟨[], drawingRecords host ++ [.error "Failed to open audio playback device."],
        Invocation.openingEvents ++ [.destroyWindow, .terminate], .failure⟩)
    (granted : (∀ call ∈ [HostCall.startWindows, .openWindow, .loadFunctions, .makeWaveform,
        .openDevice], host.refuses call = false) →
      motive ⟨body.output,
        drawingRecords host ++ .info ("Audio Device Name: " ++ host.speaker) :: body.log,
        Invocation.openingEvents ++ body.events ++ Invocation.closingEvents, body.exit⟩) :
    motive (withWindow host (withSpeaker host body)) := by
  refine withWindow_cases host _ unstarted unopened unloaded fun windows window functions => ?_
  refine withSpeaker_cases (motive := fun sounding => motive ⟨sounding.output,
    drawingRecords host ++ sounding.log,
    windowEvents ++ drawingEvents ++ sounding.events ++ [.destroyWindow, .terminate],
    sounding.exit⟩) host body ?toneless ?deviceless ?granted
  case toneless => exact toneless windows window functions
  case deviceless => exact deviceless windows window functions
  case granted =>
    intro waveform device
    have all := granted (by simp [windows, window, functions, waveform, device])
    simpa [Invocation.openingEvents, Invocation.closingEvents, windowEvents, drawingEvents] using
      all

end Taking

end Activity

/-! ### Sessions of the program -/

namespace Invocation

/-- What the command line asks for. -/
def options (invocation : Invocation) : Options := (Options.parse invocation.arguments).options

theorem one_le_instructionsPerFrame (invocation : Invocation) :
    1 ≤ invocation.options.instructionsPerFrame :=
  Options.one_le_parseFrom .rom invocation.arguments (by decide)

/-- The program gets to the frames of a session, with an image that it has read. -/
structure Plays (invocation : Invocation) (image : List UInt8) : Prop where
  accepted : (Options.parse invocation.arguments).complaint = none
  played : invocation.options.disassemble = false
  reads : readRom invocation.files invocation.host
    (romPath invocation.files invocation.assets invocation.options.rom) = .ok image
  fits : image.length ≤ 3584
  granted : ∀ call ∈ [HostCall.startWindows, .openWindow, .loadFunctions, .makeWaveform,
    .openDevice], invocation.host.refuses call = false

/-- The program has an image to play, and sets about asking its host for what that takes. -/
structure Loads (invocation : Invocation) (image : List UInt8) : Prop where
  accepted : (Options.parse invocation.arguments).complaint = none
  played : invocation.options.disassemble = false
  reads : readRom invocation.files invocation.host
    (romPath invocation.files invocation.assets invocation.options.rom) = .ok image
  fits : image.length ≤ 3584

/-- The machine that a session begins with. -/
def machine (invocation : Invocation) (image : List UInt8) : Machine :=
  ((Machine.create invocation.seed).load image).machine

/-- What comes of the frames of a session. -/
def results (invocation : Invocation) (image : List UInt8) : List FrameResult :=
  (Session.start (invocation.machine image)).play invocation.host
    invocation.options.instructionsPerFrame invocation.frames

/-- The machine that a tick of a frame finds, after frames and ticks that went through. -/
def atTick (invocation : Invocation) (image : List UInt8) (frame tick : Nat) : Machine :=
  (invocation.machine image).atTick invocation.options.instructionsPerFrame invocation.frames
    frame tick

/-- What playing an image comes to. -/
def performance (invocation : Invocation) (image : List UInt8) : Activity :=
  .withWindow invocation.host <| .withSpeaker invocation.host <|
    .ofFrames (invocation.results image)

/-- Where the program looks for its ROM. -/
def path (invocation : Invocation) : String :=
  romPath invocation.files invocation.assets invocation.options.rom

/-- What is said about an image that was read and put in memory. -/
def loadRecords (invocation : Invocation) (image : List UInt8) : List Log.Record :=
  [readRecord invocation.path (.ok image),
    .info ("Loaded " ++ toString image.length ++ " bytes into memory")]

/-- What is said about an image that was read and found too large. -/
def oversizeRecords (invocation : Invocation) (image : List UInt8) : List Log.Record :=
  [readRecord invocation.path (.ok image),
    .error ("ROM of " ++ toString image.length ++
      " bytes doesn't fit in CHIP-8 memory (limit " ++ toString imageLimit ++ ")"),
    .error ("Failed to load " ++ invocation.path ++ ": " ++ Fault.message .romTooLarge)]

theorem Plays.loads {invocation : Invocation} {image : List UInt8}
    (plays : invocation.Plays image) : invocation.Loads image :=
  ⟨plays.accepted, plays.played, plays.reads, plays.fits⟩

section Courses

variable {invocation : Invocation} {image : List UInt8}

theorem run_of_complaint {complaint : Complaint}
    (rejects : (Options.parse invocation.arguments).complaint = some complaint) :
    invocation.run = Activity.shownAt ⟨[], [.error complaint.message], [], .failure⟩
      (level invocation.options) := by
  simp only [run, rejects, Options.Parse.log]
  rfl

theorem run_of_unread {failure : ReadFailure}
    (accepted : (Options.parse invocation.arguments).complaint = none)
    (unread : readRom invocation.files invocation.host invocation.path = .error failure) :
    invocation.run = Activity.shownAt
      ⟨[], [.error (failure.message invocation.path)], [], .failure⟩
      (level invocation.options) := by
  unfold path options at unread
  simp only [run, accepted, follow, unread]
  rfl

theorem run_of_listed (accepted : (Options.parse invocation.arguments).complaint = none)
    (reads : readRom invocation.files invocation.host invocation.path = .ok image)
    (listed : invocation.options.disassemble = true) :
    invocation.run = Activity.shownAt
      ⟨listing 0x200 image, [readRecord invocation.path (.ok image)], [], .success⟩
      (level invocation.options) := by
  unfold path at reads
  unfold options at reads listed
  simp only [run, accepted, follow, reads, listed]
  rfl

theorem run_of_oversized (accepted : (Options.parse invocation.arguments).complaint = none)
    (reads : readRom invocation.files invocation.host invocation.path = .ok image)
    (played : invocation.options.disassemble = false) (exceeds : 3584 < image.length) :
    invocation.run = Activity.shownAt
      ⟨[], invocation.oversizeRecords image, [], .failure⟩
      (level invocation.options) := by
  unfold path at reads
  unfold options at reads played
  simp only [run, accepted, follow, reads, played, playImage, Machine.load_of_lt _ exceeds]
  rfl

theorem run_of_loads (loads : invocation.Loads image) :
    invocation.run = (Activity.after (invocation.loadRecords image) []
      (invocation.performance image)).shownAt (level invocation.options) := by
  obtain ⟨accepted, played, reads, fits⟩ := loads
  unfold options at played reads
  simp only [run, accepted, follow, reads, played, playImage, performance, results, machine,
    Machine.load_of_le _ fits]
  rfl

/-- The program takes one of five courses. -/
theorem run_cases {motive : Activity → Prop} (invocation : Invocation)
    (rejected : ∀ complaint, (Options.parse invocation.arguments).complaint = some complaint →
      motive (Activity.shownAt ⟨[], [.error complaint.message], [], .failure⟩
        (level invocation.options)))
    (unread : ∀ failure, (Options.parse invocation.arguments).complaint = none →
      readRom invocation.files invocation.host invocation.path = .error failure →
      motive (Activity.shownAt ⟨[], [.error (failure.message invocation.path)], [], .failure⟩
        (level invocation.options)))
    (listed : ∀ image, (Options.parse invocation.arguments).complaint = none →
      readRom invocation.files invocation.host invocation.path = .ok image →
      invocation.options.disassemble = true →
      motive (Activity.shownAt
        ⟨listing 0x200 image, [readRecord invocation.path (.ok image)], [], .success⟩
        (level invocation.options)))
    (oversized : ∀ image, (Options.parse invocation.arguments).complaint = none →
      readRom invocation.files invocation.host invocation.path = .ok image →
      invocation.options.disassemble = false → 3584 < image.length →
      motive (Activity.shownAt ⟨[], invocation.oversizeRecords image, [], .failure⟩
        (level invocation.options)))
    (loaded : ∀ image, invocation.Loads image →
      motive ((Activity.after (invocation.loadRecords image) []
        (invocation.performance image)).shownAt (level invocation.options))) :
    motive invocation.run := by
  cases accepted : (Options.parse invocation.arguments).complaint with
  | some complaint =>
    rw [run_of_complaint accepted]
    exact rejected complaint accepted
  | none =>
    cases reads : readRom invocation.files invocation.host invocation.path with
    | error failure =>
      rw [run_of_unread accepted reads]
      exact unread failure accepted reads
    | ok image =>
      cases played : invocation.options.disassemble with
      | true =>
        rw [run_of_listed accepted reads played]
        exact listed image accepted reads played
      | false =>
        rcases Nat.lt_or_ge 3584 image.length with exceeds | fits
        · rw [run_of_oversized accepted reads played exceeds]
          exact oversized image accepted reads played exceeds
        · have loads : invocation.Loads image := ⟨accepted, played, reads, fits⟩
          rw [run_of_loads loads]
          exact loaded image loads

theorem performance_of_plays (plays : invocation.Plays image) :
    invocation.performance image =
      ⟨[], drawingRecords invocation.host ++
          .info ("Audio Device Name: " ++ invocation.host.speaker) ::
          (invocation.results image).flatMap FrameResult.log,
        openingEvents ++ (invocation.results image).flatMap FrameResult.events ++ closingEvents,
        if (invocation.results image).any fun result => result.fault.isSome then .failure
        else .success⟩ := by
  have granted (call : HostCall) (asked : call ∈ [HostCall.startWindows, .openWindow,
      .loadFunctions, .makeWaveform, .openDevice]) (refused : invocation.host.refuses call = true) :
      False := by
    rw [plays.granted call asked] at refused
    cases refused
  refine Activity.withWindow_withSpeaker_cases (motive := fun activity => activity = _)
    invocation.host (.ofFrames (invocation.results image)) ?_ ?_ ?_ ?_ ?_ fun _ => rfl
  · exact fun refused => (granted .startWindows (by decide) refused).elim
  · exact fun _ refused => (granted .openWindow (by decide) refused).elim
  · exact fun _ _ refused => (granted .loadFunctions (by decide) refused).elim
  · exact fun _ _ _ refused => (granted .makeWaveform (by decide) refused).elim
  · exact fun _ _ _ _ refused => (granted .openDevice (by decide) refused).elim

theorem run_of_plays (plays : invocation.Plays image) :
    invocation.run.events =
        openingEvents ++ (invocation.results image).flatMap FrameResult.events ++ closingEvents ∧
      invocation.run.exit =
        if (invocation.results image).any fun result => result.fault.isSome then .failure
        else .success := by
  rw [run_of_loads plays.loads, performance_of_plays plays]
  exact ⟨rfl, rfl⟩

theorem log_of_plays (plays : invocation.Plays image) :
    invocation.run.log = Log.visible (level invocation.options)
      (invocation.loadRecords image ++ (drawingRecords invocation.host ++
        .info ("Audio Device Name: " ++ invocation.host.speaker) ::
          (invocation.results image).flatMap FrameResult.log)) := by
  rw [run_of_loads plays.loads, performance_of_plays plays]
  rfl

theorem exit_of_plays (plays : invocation.Plays image) :
    invocation.run.exit = .success ↔
      ((invocation.results image).any fun result => result.fault.isSome) = false := by
  rw [(run_of_plays plays).2, Bool.eq_false_iff]
  split <;> simp [*]

end Courses

end Invocation

end Chip8
