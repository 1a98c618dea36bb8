/-
The host: the files, the window system, the loader of its drawing functions and the sound
device that the program runs on, as the program sees them. It asks for something, which may
be refused, and what it asked for is an event, but for what it asks of a file. Of the bytes
of a file the host may also give fewer than were asked for. The settings that the program
asks for are fixed here.
-/

namespace Chip8

/-- What the program asks of its host and may be refused. The second and the third are asked
of an open file. -/
inductive HostCall where
  | openFile
  | seekEnd
  | measure
  | startWindows
  | openWindow
  | loadFunctions
  | makeWaveform
  | openDevice
  | startDevice
  | stopDevice
  deriving DecidableEq, Repr

/-- A host, in so far as it differs from other hosts. -/
structure Host where
  /-- Whether a call is refused. -/
  refuses : HostCall → Bool
  /-- How many bytes come of a file when so many are asked for. -/
  gives (count : Nat) : Fin (count + 1)
  /-- What draws. -/
  renderer : String
  /-- The version of the drawing functions. -/
  drawingVersion : String
  /-- What the loader says when it fails. -/
  loaderError : String
  /-- What sounds. -/
  speaker : String

/-- A host that refuses nothing, gives all the bytes of a file and tells no names. -/
def Host.willing : Host where
  refuses _ := false
  gives := Fin.last
  renderer := ""
  drawingVersion := ""
  loaderError := ""
  speaker := ""

@[simp] theorem Host.refuses_willing (call : HostCall) : willing.refuses call = false := rfl

/-! ### Settings -/

/-- How many pixels of the window a cell is wide and high. -/
def cellSize : Nat := 10

/-- The title of the window. -/
def windowTitle : String := "r8 CHIP-8 (version 0.2)"

/-- A colour, in 256ths of full strength. -/
structure Color where
  red : Nat
  green : Nat
  blue : Nat
  deriving DecidableEq, Repr

/-- The colour of dark cells. -/
def paper : Color := ⟨88, 75, 83⟩

/-- The colour of lit cells. -/
def ink : Color := ⟨247, 159, 121⟩

/-- How sound is handed to the device. -/
structure SampleStream where
  channels : Nat
  samplesPerSecond : Nat
  deriving DecidableEq, Repr

/-- The form of the program's sound. -/
def samples : SampleStream := ⟨2, 48000⟩

/-- The loudness of the tone, in thousandths of full strength. -/
def toneAmplitude : Nat := 200

/-- The pitch of the tone. -/
def toneFrequency : Nat := 250

/-- How much of the tone the device takes in when it starts. -/
def firstSamples : Nat := 16

/-! ### Events -/

/-- A corner of a drawn cell, in cells from the middle of the window, upwards positive. -/
abbrev Vertex := Int × Int

/-- What the host was asked for. Frames are counted from one. -/
inductive Event where
  | resizable (allowed : Bool)
  | window (width height : Nat) (title : String)
  | clearColor (color : Color) (alpha : Nat)
  | swapInterval (frames : Nat)
  | waveform (samples : SampleStream) (amplitude frequency : Nat)
  | device (samples : SampleStream)
  | draw (frame : Nat) (color : Color) (corners : List Vertex)
  | start (frame : Nat)
  | sound (count : Nat)
  | stop (frame : Nat)
  | closeDevice
  | destroyWindow
  | terminate
  deriving DecidableEq, Repr

end Chip8
