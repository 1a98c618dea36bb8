/-
What is taken from the host is given back. The program takes a window system, a window and a
sound device, in this order, and gives back whatever it got in the opposite order, each once,
whether it was refused something on the way, or a tick has faulted, or the window was closed.
What it shows and sounds in between belongs to frames, and there is no frame before the device
is open and none after it is closed. A refusal decides the events up to what is asked for in
frames, so the law is read off the courses that the program can take.
-/

import Chip8.Proofs.Courses

namespace Chip8

/-- Whether an event belongs to a frame: something is drawn, or the tone is dealt with. -/
def Event.isFramed : Event → Bool
  | draw _ _ _ | start _ | sound _ | stop _ => true
  | _ => false

/-- An event occurs just once, and these are the events after it. -/
def ClosesWith (events : List Event) (event : Event) (rest : List Event) : Prop :=
  ∃ before, events = before ++ event :: rest ∧ event ∉ before ∧ event ∉ rest

/-- How events go if certain calls are asked for and granted and no others. -/
structure Brackets (obtained : List HostCall → Prop) (events : List Event) : Prop where
  /-- Without a window system there are no events. -/
  unstarted : ¬obtained [.startWindows] → events = []
  /-- The window system is given back once, and that is the last event. -/
  terminate : obtained [.startWindows] → ClosesWith events .terminate []
  unopened : ¬obtained [.startWindows, .openWindow] → .destroyWindow ∉ events
  /-- The window is given back once, and then only the window system is. -/
  destroyWindow : obtained [.startWindows, .openWindow] →
    ClosesWith events .destroyWindow [.terminate]
  /-- Without a sound device no frame has anything to show for it. -/
  deviceless : ¬obtained [.startWindows, .openWindow, .loadFunctions, .makeWaveform,
      .openDevice] →
    .closeDevice ∉ events ∧ ∀ event ∈ events, event.isFramed = false
  /-- The sound device is given back once, and then the window and the window system are. -/
  closeDevice : obtained [.startWindows, .openWindow, .loadFunctions, .makeWaveform,
      .openDevice] →
    ClosesWith events .closeDevice [.destroyWindow, .terminate]
  /-- All that is shown and sounded comes after the one opening of the device and before the
  one closing. -/
  framed : obtained [.startWindows, .openWindow, .loadFunctions, .makeWaveform, .openDevice] →
    ∃ before framed after,
      events = before ++ .device samples :: (framed ++ .closeDevice :: after) ∧
        (∀ event ∈ framed, event.isFramed = true) ∧
        ∀ event ∈ before ++ after, event.isFramed = false ∧ event ≠ .closeDevice ∧
          ∀ form, event ≠ .device form

/-! ### Events of frames -/

namespace Session

variable {host : Host} {instructions : Nat}

theorem isFramed_of_mem_sound {session : Session} {event : Event}
    (member : event ∈ (session.sound host).2.2) : event.isFramed = true := by
  have all : ∀ event ∈ (session.sound host).2.2, event.isFramed = true := by
    unfold sound
    split
    · simp
    · dsimp only
      split <;> split <;> simp [Event.isFramed]
  exact all event member

theorem isFramed_of_mem_step {session : Session} {frame : Frame} {event : Event}
    (member : event ∈ (session.step host instructions frame).events) : event.isFramed = true := by
  unfold step at member
  dsimp only at member
  split at member
  · cases member
  · rcases List.mem_append.mp member with sounded | drawn
    · exact isFramed_of_mem_sound sounded
    · rw [redraw_eq] at drawn
      dsimp only at drawn
      split at drawn
      · rw [List.mem_singleton.mp drawn]
        rfl
      · cases drawn

/-- A frame asks for nothing but drawings and the tone. -/
theorem isFramed_of_mem_play {session : Session} {frames : List Frame} {event : Event}
    (member : event ∈ (session.play host instructions frames).flatMap FrameResult.events) :
    event.isFramed = true := by
  obtain ⟨result, played, asked⟩ := List.mem_flatMap.mp member
  obtain ⟨place, found⟩ := List.mem_iff_getElem?.mp played
  obtain ⟨frame, tone, -, rfl⟩ := eq_of_getElem?_play host instructions found
  exact isFramed_of_mem_step asked

end Session

/-! ### Giving back -/

/-- Whether an event gives something back. -/
def Event.isRelease : Event → Bool
  | closeDevice | destroyWindow | terminate => true
  | _ => false

section Released

variable {before : List Event} (held : ∀ event ∈ before, event.isRelease = false)

include held

theorem not_mem_of_held {event : Event} (release : event.isRelease = true) : event ∉ before := by
  intro member
  rw [held event member] at release
  cases release

/-- Of what is given back after all else, each thing is given back where it stands. -/
theorem closesWith_of_held (event : Event) (earlier later : List Event)
    (release : event.isRelease = true) (apart : event ∉ earlier ++ later) :
    ClosesWith (before ++ (earlier ++ event :: later)) event later := by
  rw [List.mem_append, not_or] at apart
  refine ⟨before ++ earlier, (List.append_assoc _ _ _).symm, ?_, apart.2⟩
  rw [List.mem_append, not_or]
  exact ⟨not_mem_of_held held release, apart.1⟩

end Released

section Obtained

variable {obtained : List HostCall → Prop}

/-- Who gets no window system has no events. -/
theorem brackets_nil (unstarted : ∀ calls, .startWindows ∈ calls → ¬obtained calls) :
    Brackets obtained [] where
  unstarted _ := rfl
  terminate got := (unstarted _ List.mem_cons_self got).elim
  unopened _ := List.not_mem_nil
  destroyWindow got := (unstarted _ List.mem_cons_self got).elim
  deviceless _ := ⟨List.not_mem_nil, fun _ member => (List.not_mem_nil member).elim⟩
  closeDevice got := (unstarted _ List.mem_cons_self got).elim
  framed got := (unstarted _ List.mem_cons_self got).elim

variable (before : List Event) (held : ∀ event ∈ before, event.isRelease = false)

include held

/-- Who gets a window system and no window gives back the window system. -/
theorem brackets_of_unopened (unframed : ∀ event ∈ before, event.isFramed = false)
    (started : obtained [.startWindows])
    (unopened : ∀ calls, .openWindow ∈ calls → ¬obtained calls) :
    Brackets obtained (before ++ [.terminate]) where
  unstarted missing := (missing started).elim
  terminate _ := closesWith_of_held held .terminate [] [] rfl (by decide)
  unopened _ := by simpa using not_mem_of_held held rfl
  destroyWindow got := (unopened _ (by decide) got).elim
  deviceless _ := by
    refine ⟨by simpa using not_mem_of_held held rfl, ?_⟩
    rw [List.forall_mem_append]
    exact ⟨unframed, by decide⟩
  closeDevice got := (unopened _ (by decide) got).elim
  framed got := (unopened _ (by decide) got).elim

/-- Who gets a window and no device gives back the window, and then the window system. -/
theorem brackets_of_deviceless (unframed : ∀ event ∈ before, event.isFramed = false)
    (started : obtained [.startWindows]) (opened : obtained [.startWindows, .openWindow])
    (deviceless : ¬obtained [.startWindows, .openWindow, .loadFunctions, .makeWaveform,
      .openDevice]) :
    Brackets obtained (before ++ [.destroyWindow, .terminate]) where
  unstarted missing := (missing started).elim
  terminate _ := closesWith_of_held held .terminate [.destroyWindow] [] rfl (by decide)
  unopened missing := (missing opened).elim
  destroyWindow _ := closesWith_of_held held .destroyWindow [] [.terminate] rfl (by decide)
  deviceless _ := by
    refine ⟨by simpa using not_mem_of_held held rfl, ?_⟩
    rw [List.forall_mem_append]
    exact ⟨unframed, by decide⟩
  closeDevice got := (deviceless got).elim
  framed got := (deviceless got).elim

omit before held in
/-- Who gets everything gives everything back, after the last frame. -/
theorem brackets_of_granted {framed : List Event} (all : ∀ event ∈ framed, event.isFramed = true)
    (started : obtained [.startWindows]) (opened : obtained [.startWindows, .openWindow])
    (granted : obtained [.startWindows, .openWindow, .loadFunctions, .makeWaveform,
      .openDevice]) :
    Brackets obtained (Invocation.openingEvents ++ framed ++ Invocation.closingEvents) := by
  -- What frames ask for gives nothing back.
  have held : ∀ event ∈ Invocation.openingEvents ++ framed, event.isRelease = false := by
    rw [List.forall_mem_append]
    refine ⟨by decide, fun event member => ?_⟩
    have shown := all event member
    cases event with
    | draw | start | sound | stop => rfl
    | _ => cases shown
  exact {
    unstarted := fun missing => (missing started).elim
    terminate := fun _ =>
      closesWith_of_held held .terminate [.closeDevice, .destroyWindow] [] rfl (by decide)
    unopened := fun missing => (missing opened).elim
    destroyWindow := fun _ =>
      closesWith_of_held held .destroyWindow [.closeDevice] [.terminate] rfl (by decide)
    deviceless := fun missing => (missing granted).elim
    closeDevice := fun _ =>
      closesWith_of_held held .closeDevice [] [.destroyWindow, .terminate] rfl (by decide)
    framed := fun _ => ⟨windowEvents ++ drawingEvents ++
        [.waveform samples toneAmplitude toneFrequency], framed, [.destroyWindow, .terminate],
      by simp [Invocation.openingEvents, Invocation.closingEvents, windowEvents, drawingEvents],
      all, by simp [windowEvents, drawingEvents, Event.isFramed]⟩ }

end Obtained

/-! ### Events of the program -/

namespace Invocation

/-- The program has an image to play, asks for these things, and is granted all of them. -/
def Obtains (invocation : Invocation) (calls : List HostCall) : Prop :=
  (∃ image, invocation.Loads image) ∧ ∀ call ∈ calls, invocation.host.refuses call = false

section Obtains

variable {invocation : Invocation}

theorem not_obtains_of_refuses {call : HostCall}
    (refused : invocation.host.refuses call = true) (calls : List HostCall)
    (asked : call ∈ calls) : ¬invocation.Obtains calls := by
  rintro ⟨-, granted⟩
  rw [granted call asked] at refused
  cases refused

/-- A program that does not get so far as to ask for anything has no events. -/
theorem brackets_of_not_loads (idle : ∀ image, ¬invocation.Loads image) :
    Brackets invocation.Obtains [] :=
  brackets_nil fun _ _ obtains => obtains.1.elim idle

theorem brackets_performance {image : List UInt8} (loads : invocation.Loads image) :
    Brackets invocation.Obtains (invocation.performance image).events := by
  have obtains (calls : List HostCall)
      (granted : ∀ call ∈ calls, invocation.host.refuses call = false) :
      invocation.Obtains calls := ⟨⟨image, loads⟩, granted⟩
  refine Activity.withWindow_withSpeaker_cases
    (motive := fun activity => Brackets invocation.Obtains activity.events) invocation.host
    (.ofFrames (invocation.results image)) ?unstarted ?unopened ?unloaded ?toneless ?deviceless
    ?granted
  case unstarted => exact fun refused => brackets_nil (not_obtains_of_refuses refused)
  case unopened =>
    exact fun windows refused => brackets_of_unopened windowEvents (by decide) (by decide)
      (obtains _ (by simpa using windows)) (not_obtains_of_refuses refused)
  case unloaded =>
    exact fun windows window refused => brackets_of_deviceless windowEvents (by decide) (by decide)
      (obtains _ (by simpa using windows)) (obtains _ (by simpa using ⟨windows, window⟩))
      (not_obtains_of_refuses refused _ (by decide))
  case toneless =>
    exact fun windows window _ refused => brackets_of_deviceless
      (windowEvents ++ drawingEvents ++ [.waveform samples toneAmplitude toneFrequency])
      (by decide) (by decide)
      (obtains _ (by simpa using windows)) (obtains _ (by simpa using ⟨windows, window⟩))
      (not_obtains_of_refuses refused _ (by decide))
  case deviceless =>
    exact fun windows window _ _ refused => brackets_of_deviceless openingEvents
      (by decide) (by decide)
      (obtains _ (by simpa using windows)) (obtains _ (by simpa using ⟨windows, window⟩))
      (not_obtains_of_refuses refused _ (by decide))
  case granted =>
    intro granted
    have few (calls : List HostCall) (asked : calls ⊆ [HostCall.startWindows, .openWindow,
        .loadFunctions, .makeWaveform, .openDevice]) : invocation.Obtains calls :=
      obtains calls fun call member => granted call (asked member)
    exact brackets_of_granted (fun _ => Session.isFramed_of_mem_play) (few _ (by decide))
      (few _ (by decide)) (obtains _ granted)

variable (invocation)

/-- The program gets to the frames of a session, or it closes no device and has nothing to show
for a frame. -/
theorem plays_or_deviceless :
    (∃ image, invocation.Plays image) ∨
      .closeDevice ∉ invocation.run.events ∧
        ∀ event ∈ invocation.run.events, event.isFramed = false := by
  refine invocation.run_cases (motive := fun activity =>
    (∃ image, invocation.Plays image) ∨
      .closeDevice ∉ activity.events ∧ ∀ event ∈ activity.events, event.isFramed = false)
    ?rejected ?unread ?listed ?oversized ?loaded
  case rejected => exact fun _ _ => Or.inr (by simp)
  case unread => exact fun _ _ _ => Or.inr (by simp)
  case listed => exact fun _ _ _ _ => Or.inr (by simp)
  case oversized => exact fun _ _ _ _ _ => Or.inr (by simp)
  case loaded =>
    intro image loads
    by_cases granted : invocation.Obtains [.startWindows, .openWindow, .loadFunctions,
        .makeWaveform, .openDevice]
    · exact Or.inl ⟨image, loads.accepted, loads.played, loads.reads, loads.fits, granted.2⟩
    · exact Or.inr ((brackets_performance loads).deviceless granted)

end Obtains

/-- On every course that the program can take, what it took from its host is given back. -/
theorem events_bracketed (invocation : Invocation) :
    Brackets invocation.Obtains invocation.run.events := by
  refine invocation.run_cases
    (motive := fun activity => Brackets invocation.Obtains activity.events)
    ?rejected ?unread ?listed ?oversized ?loaded
  case rejected =>
    intro complaint rejects
    refine brackets_of_not_loads fun image loads => ?_
    cases rejects.symm.trans loads.accepted
  case unread =>
    intro failure _ unread
    refine brackets_of_not_loads fun image loads => ?_
    cases unread.symm.trans loads.reads
  case listed =>
    intro image _ _ listed
    refine brackets_of_not_loads fun image loads => ?_
    cases listed.symm.trans loads.played
  case oversized =>
    intro image _ reads _ exceeds
    refine brackets_of_not_loads fun image' loads => ?_
    obtain rfl : image = image' := Except.ok.inj (reads.symm.trans loads.reads)
    exact Nat.not_le_of_lt exceeds loads.fits
  case loaded =>
    intro image loads
    exact brackets_performance loads

end Invocation

end Chip8
