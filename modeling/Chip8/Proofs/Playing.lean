/-
The main loop, as the machine in it sees it. What a frame that goes through does to the
machine is a sequence of inputs: its keys, then its ticks, then the flag of the display is
lowered, which does nothing if it was not raised. So at every frame of a session the machine
is the one that the inputs of all frames before it have left behind, and whatever holds along
inputs holds along the frames of the program. Two facts are enough for that:
`Session.lt_length_play_iff`, which tells how far a session gets, and
`Session.eq_of_getElem?_play`, which tells what comes of a frame.
-/

import Chip8.Machine.Input
import Chip8.Program

namespace Chip8

/-! ### Frames as inputs -/

/-- What an event of the keyboard is to the machine. -/
def KeyEvent.inputs (event : KeyEvent) : List Input :=
  if event.action = .repetition then []
  else match boundKey? event.code with
    | some key => [.key key (event.action == .press)]
    | none => []

/-- What an event of the keyboard is to the keypad. -/
def KeyEvent.onKeypad (event : KeyEvent) (keypad : Keypad) : Keypad :=
  if event.action = .repetition then keypad
  else match boundKey? event.code with
    | some key => keypad.set key (event.action == .press)
    | none => keypad

/-- The keypad after events of the keyboard. -/
def Keypad.after (keypad : Keypad) (events : List KeyEvent) : Keypad :=
  events.foldl (fun keypad event => event.onKeypad keypad) keypad

theorem KeyEvent.apply_eq_feed (event : KeyEvent) (machine : Machine) :
    event.apply machine = machine.feed event.inputs := by
  unfold apply inputs
  split
  · rfl
  · cases boundKey? event.code <;> rfl

/-- An event touches nothing but the keypad. -/
theorem KeyEvent.apply_eq (event : KeyEvent) (machine : Machine) :
    event.apply machine = { machine with keypad := event.onKeypad machine.keypad } := by
  unfold apply onKeypad
  split
  · rfl
  · cases boundKey? event.code <;> rfl

namespace Frame

/-- What the events of a frame are to the machine. -/
def keys (frame : Frame) : List Input := frame.flatMap KeyEvent.inputs

/-- All that is done to the machine in a frame that goes through. -/
def inputs (instructions : Nat) (frame : Frame) : List Input :=
  frame.keys ++ List.replicate instructions .tick ++ [.acknowledge]

theorem apply_eq_feed (frame : Frame) (machine : Machine) :
    frame.apply machine = machine.feed frame.keys := by
  unfold apply keys
  induction frame generalizing machine with
  | nil => rfl
  | cons event rest inductionHypothesis =>
    rw [List.foldl_cons, List.flatMap_cons, Machine.feed_append, inductionHypothesis,
      KeyEvent.apply_eq_feed]

theorem apply_eq (frame : Frame) (machine : Machine) :
    frame.apply machine = { machine with keypad := machine.keypad.after frame } := by
  unfold apply
  induction frame generalizing machine with
  | nil => rfl
  | cons event rest inductionHypothesis =>
    rw [List.foldl_cons, inductionHypothesis, KeyEvent.apply_eq]
    rfl

end Frame

/-! ### Ticks in a row -/

/-- What does not hold all the way fails somewhere for the first time. -/
theorem forall_or_first (motive : Nat → Prop) (count : Nat) :
    (∀ place < count, motive place) ∨
      ∃ first < count, (∀ place < first, motive place) ∧ ¬motive first := by
  induction count with
  | zero => exact Or.inl fun _ absurd => (Nat.not_lt_zero _ absurd).elim
  | succ count inductionHypothesis =>
    rcases inductionHypothesis with all | ⟨first, below, rest⟩
    · by_cases here : motive count
      · exact Or.inl (Nat.forall_lt_succ_right.mpr ⟨all, here⟩)
      · exact Or.inr ⟨count, Nat.lt_succ_self count, all, here⟩
    · exact Or.inr ⟨first, Nat.lt_succ_of_lt below, rest⟩

namespace Machine

/-- So many ticks in a row go through. -/
def Lasts (machine : Machine) (count : Nat) : Prop :=
  ∀ tick < count, (machine.feed (List.replicate tick .tick)).tick.fault = none

/-- Of ticks in a row, so many go through, and the next one ends in a fault. -/
def Fails (machine : Machine) (count : Nat) (fault : Fault) : Prop :=
  machine.Lasts count ∧ (machine.feed (List.replicate count .tick)).tick.fault = some fault

/-- The last of some ticks in a row follows the others. -/
theorem feed_ticks_succ (machine : Machine) (count : Nat) :
    machine.feed (List.replicate (count + 1) .tick) =
      (machine.feed (List.replicate count .tick)).tick.machine := by
  rw [List.replicate_succ', feed_append]
  rfl

theorem lasts_succ_iff (machine : Machine) (count : Nat) :
    machine.Lasts (count + 1) ↔
      machine.tick.fault = none ∧ machine.tick.machine.Lasts count :=
  Nat.forall_lt_succ_left

theorem lasts_or_fails (machine : Machine) (count : Nat) :
    machine.Lasts count ∨ ∃ last < count, ∃ fault, machine.Fails last fault := by
  rcases forall_or_first
    (fun tick => (machine.feed (List.replicate tick .tick)).tick.fault = none) count with
    all | ⟨last, below, all, faults⟩
  · exact Or.inl all
  · obtain ⟨fault, fails⟩ := Option.ne_none_iff_exists'.mp faults
    exact Or.inr ⟨last, below, fault, all, fails⟩

theorem run_of_lasts {machine : Machine} {count : Nat} (all : machine.Lasts count) :
    ∃ log, machine.run count =
      ⟨count, none, machine.feed (List.replicate count .tick), log⟩ := by
  induction count generalizing machine with
  | zero => exact ⟨[], rfl⟩
  | succ count inductionHypothesis =>
    obtain ⟨first, later⟩ := (machine.lasts_succ_iff count).mp all
    obtain ⟨log, rest⟩ := inductionHypothesis later
    refine ⟨machine.tick.log ++ log, ?_⟩
    simp only [run, first, rest]
    rfl

theorem run_of_fails {machine : Machine} {count last : Nat} {fault : Fault} (below : last < count)
    (fails : machine.Fails last fault) :
    ∃ log, machine.run count =
      ⟨last + 1, some fault, (machine.feed (List.replicate last .tick)).tick.machine, log⟩ := by
  obtain ⟨all, fails⟩ := fails
  induction last generalizing machine count with
  | zero =>
    obtain ⟨count, rfl⟩ := Nat.exists_eq_succ_of_ne_zero (Nat.ne_zero_of_lt below)
    have first : machine.tick.fault = some fault := fails
    refine ⟨machine.tick.log, ?_⟩
    simp only [run, first]
    rw [← first]
    rfl
  | succ last inductionHypothesis =>
    obtain ⟨count, rfl⟩ := Nat.exists_eq_succ_of_ne_zero (Nat.ne_zero_of_lt below)
    obtain ⟨first, later⟩ := (machine.lasts_succ_iff last).mp all
    obtain ⟨log, rest⟩ := inductionHypothesis (Nat.lt_of_succ_lt_succ below) later fails
    refine ⟨machine.tick.log ++ log, ?_⟩
    simp only [run, first, rest]
    rfl

/-! ### Frames in a row -/

section Frames

variable (machine : Machine) (instructions : Nat) (frames : List Frame)

/-- The machine that a frame finds, after frames that went through. -/
def atFrame (frame : Nat) : Machine :=
  machine.feed ((frames.take frame).flatMap (Frame.inputs instructions))

/-- The machine that a tick of a frame finds, after frames and ticks that went through. -/
def atTick (frame tick : Nat) : Machine :=
  ((machine.atFrame instructions frames frame).feed (frames[frame]?.getD []).keys).feed
    (List.replicate tick .tick)

/-- All ticks of a frame go through. -/
def Passes (frame : Nat) : Prop :=
  ∀ tick < instructions, (machine.atTick instructions frames frame tick).tick.fault = none

theorem atFrame_succ (first : Frame) (frame : Nat) :
    machine.atFrame instructions (first :: frames) (frame + 1) =
      (machine.feed (first.inputs instructions)).atFrame instructions frames frame := by
  rw [atFrame, List.take_succ_cons, List.flatMap_cons, feed_append, atFrame]

theorem atTick_succ (first : Frame) (frame tick : Nat) :
    machine.atTick instructions (first :: frames) (frame + 1) tick =
      (machine.feed (first.inputs instructions)).atTick instructions frames frame tick := by
  rw [atTick, atFrame_succ, List.getElem?_cons_succ, atTick]

theorem passes_succ (first : Frame) (frame : Nat) :
    machine.Passes instructions (first :: frames) (frame + 1) ↔
      (machine.feed (first.inputs instructions)).Passes instructions frames frame := by
  simp only [Passes, atTick_succ]

section Found

variable {machine instructions frames} {frame : Nat} {keys : Frame}

/-- The ticks of a frame begin where its keys have been read. -/
theorem atTick_eq (here : frames[frame]? = some keys) (tick : Nat) :
    machine.atTick instructions frames frame tick =
      (keys.apply (machine.atFrame instructions frames frame)).feed
        (List.replicate tick .tick) := by
  rw [atTick, here, Frame.apply_eq_feed]
  rfl

theorem passes_iff (here : frames[frame]? = some keys) :
    machine.Passes instructions frames frame ↔
      (keys.apply (machine.atFrame instructions frames frame)).Lasts instructions := by
  simp only [Passes, Lasts, atTick_eq here]

theorem atFrame_add_one (here : frames[frame]? = some keys) :
    machine.atFrame instructions frames (frame + 1) =
      (machine.atFrame instructions frames frame).feed (keys.inputs instructions) := by
  rw [atFrame, List.take_add_one, here, List.flatMap_append, feed_append, atFrame]
  simp

end Found

end Frames

end Machine

/-! ### Frames of a session -/

/-- Whether an event shows something in the window. -/
def Event.isDraw : Event → Bool
  | draw _ _ _ => true
  | _ => false

namespace Session

variable (host : Host) (instructions : Nat)

/-- Bringing the tone in line leaves the machine alone and draws nothing. -/
theorem sound_cases (session : Session) :
    ∃ tone log events,
      session.sound host = (⟨session.machine, tone, session.frames⟩, log, events) ∧
        ∀ event ∈ events, event.isDraw = false := by
  unfold sound
  split
  · exact ⟨session.tone, [], [], rfl, by simp⟩
  · dsimp only
    split <;> split <;> exact ⟨_, _, _, rfl, by simp [Event.isDraw]⟩

/-- A frame leaves nothing new to show. -/
theorem redraw_eq (session : Session) :
    session.redraw =
      (⟨session.machine.acknowledge, session.tone, session.frames⟩,
        if session.machine.display.updated then
          [.draw session.frames ink session.machine.display.picture]
        else []) := by
  unfold redraw
  split
  · rfl
  · next shown =>
    have same : session.machine.acknowledge = session.machine := by
      unfold Machine.acknowledge Display.acknowledge
      rw [← Bool.eq_false_iff.mpr shown]
    rw [same]

theorem step_of_lasts (session : Session) {frame : Frame}
    (all : (frame.apply session.machine).Lasts instructions) :
    let shown := (frame.apply session.machine).feed (List.replicate instructions .tick)
    ∃ tone log events,
      session.step host instructions frame =
        ⟨⟨session.machine.feed (frame.inputs instructions), tone, session.frames + 1⟩, log,
          events ++ if shown.display.updated then
            [.draw (session.frames + 1) ink shown.display.picture] else [],
          none, frame.closes⟩ ∧
        ∀ event ∈ events, event.isDraw = false := by
  intro shown
  obtain ⟨ticksLog, run⟩ := Machine.run_of_lasts all
  obtain ⟨tone, log, events, sounds, still⟩ :=
    sound_cases host ⟨shown, session.tone, session.frames + 1⟩
  have after : session.machine.feed (frame.inputs instructions) = shown.acknowledge := by
    rw [Frame.inputs, Machine.feed_append, Machine.feed_append, ← Frame.apply_eq_feed]
    rfl
  refine ⟨tone, ticksLog ++ log, events, ?_, still⟩
  rw [step, run]
  dsimp only
  rw [sounds]
  dsimp only
  rw [redraw_eq, after]

theorem step_of_fails (session : Session) {frame : Frame} {last : Nat} {fault : Fault}
    (below : last < instructions) (fails : (frame.apply session.machine).Fails last fault) :
    ∃ log, session.step host instructions frame =
      ⟨⟨((frame.apply session.machine).feed (List.replicate last .tick)).tick.machine,
          session.tone, session.frames + 1⟩, log, [], some fault, frame.closes⟩ := by
  obtain ⟨ticksLog, run⟩ := Machine.run_of_fails below fails
  rw [step, run]
  exact ⟨_, rfl⟩

/-- The first frame is played in any case, and it is the last one if it does not go through
or closes the window. -/
theorem play_cases (session : Session) (frame : Frame) (rest : List Frame) :
    let result := session.step host instructions frame
    let goesOn := (frame.apply session.machine).Lasts instructions ∧ frame.closes = false
    ¬goesOn ∧ session.play host instructions (frame :: rest) = [result] ∨
      goesOn ∧ ∃ tone, session.play host instructions (frame :: rest) =
        result :: play host instructions
          ⟨session.machine.feed (frame.inputs instructions), tone, session.frames + 1⟩ rest := by
  rcases (frame.apply session.machine).lasts_or_fails instructions with
    all | ⟨last, below, fault, fails⟩
  · obtain ⟨tone, log, events, step, -⟩ := step_of_lasts host instructions session all
    cases closes : frame.closes with
    | true => exact Or.inl ⟨by simp, by simp [play, step, closes]⟩
    | false => exact Or.inr ⟨⟨all, rfl⟩, tone, by simp [play, step, closes]⟩
  · obtain ⟨log, step⟩ := step_of_fails host instructions session below fails
    refine Or.inl ⟨?_, by simp [play, step]⟩
    rintro ⟨all, -⟩
    cases (all last below).symm.trans fails.2

theorem isEmpty_play (session : Session) (frames : List Frame) :
    (session.play host instructions frames).isEmpty = frames.isEmpty := by
  cases frames with
  | nil => rfl
  | cons frame rest =>
    rw [play]
    split <;> rfl

/-- A frame is played exactly when those before it went through and none of them closed the
window. -/
theorem lt_length_play_iff (session : Session) (frames : List Frame) (place : Nat) :
    place < (session.play host instructions frames).length ↔
      place < frames.length ∧ ∀ earlier < place,
        session.machine.Passes instructions frames earlier ∧
          (frames[earlier]?.getD []).closes = false := by
  induction frames generalizing session place with
  | nil => simp [play]
  | cons frame rest inductionHypothesis =>
    have first : session.machine.Passes instructions (frame :: rest) 0 ↔
        (frame.apply session.machine).Lasts instructions := by
      rw [Frame.apply_eq_feed]
      exact Iff.rfl
    rcases play_cases host instructions session frame rest with
      ⟨ends, played⟩ | ⟨⟨all, opens⟩, tone, played⟩
    · rw [played]
      cases place with
      | zero => simp
      | succ place =>
        rw [Nat.forall_lt_succ_left, first]
        exact iff_of_false (by simp) fun goesOn => ends goesOn.2.1
    · rw [played]
      cases place with
      | zero => simp
      | succ place =>
        rw [List.length_cons, Nat.succ_lt_succ_iff, inductionHypothesis, Nat.forall_lt_succ_left,
          first]
        simp [all, opens, Machine.passes_succ]

/-- What is played of a frame is what comes of it where the frames before it have led to. -/
theorem eq_of_getElem?_play {session : Session} {frames : List Frame} {place : Nat}
    {result : FrameResult}
    (found : (session.play host instructions frames)[place]? = some result) :
    ∃ frame tone, frames[place]? = some frame ∧
      result = step host instructions
        ⟨session.machine.atFrame instructions frames place, tone, session.frames + place⟩
        frame := by
  induction frames generalizing session place with
  | nil => simp [play] at found
  | cons frame rest inductionHypothesis =>
    rcases play_cases host instructions session frame rest with
      ⟨-, played⟩ | ⟨-, tone, played⟩ <;> rw [played] at found <;> cases place with
      | zero => exact ⟨frame, session.tone, rfl, (Option.some.inj found).symm⟩
      | succ place => ?_
    · simp at found
    · obtain ⟨frame', tone', here, rfl⟩ := inductionHypothesis found
      refine ⟨frame', tone', here, ?_⟩
      rw [Machine.atFrame_succ, Nat.add_right_comm]
      rfl

section Found

variable {host instructions} {session : Session} {frames : List Frame} {place : Nat}
  {result : FrameResult}

/-- What comes of a frame that goes through. -/
theorem result_of_passes
    (found : (session.play host instructions frames)[place]? = some result)
    (passes : session.machine.Passes instructions frames place) :
    let shown := session.machine.atTick instructions frames place instructions
    ∃ tone log events closed,
      result = ⟨⟨session.machine.atFrame instructions frames (place + 1), tone,
          session.frames + place + 1⟩, log,
        events ++ if shown.display.updated then
          [.draw (session.frames + place + 1) ink shown.display.picture] else [],
        none, closed⟩ ∧
      ∀ event ∈ events, event.isDraw = false := by
  obtain ⟨frame, tone, here, rfl⟩ := eq_of_getElem?_play host instructions found
  obtain ⟨after, log, events, step, still⟩ :=
    step_of_lasts host instructions
      ⟨session.machine.atFrame instructions frames place, tone, session.frames + place⟩
      ((Machine.passes_iff here).mp passes)
  rw [Machine.atTick_eq here, Machine.atFrame_add_one here]
  exact ⟨after, log, events, frame.closes, step, still⟩

/-- What comes of a frame with a tick that faults. -/
theorem result_of_fails {tick : Nat} {fault : Fault}
    (found : (session.play host instructions frames)[place]? = some result)
    (below : tick < instructions)
    (all : ∀ earlier < tick,
      (session.machine.atTick instructions frames place earlier).tick.fault = none)
    (fails : (session.machine.atTick instructions frames place tick).tick.fault = some fault) :
    ∃ tone log closed,
      result = ⟨⟨(session.machine.atTick instructions frames place tick).tick.machine, tone,
        session.frames + place + 1⟩, log, [], some fault, closed⟩ := by
  obtain ⟨frame, tone, here, rfl⟩ := eq_of_getElem?_play host instructions found
  simp only [Machine.atTick_eq here] at all fails ⊢
  obtain ⟨log, step⟩ := step_of_fails host instructions
    ⟨session.machine.atFrame instructions frames place, tone, session.frames + place⟩
    below ⟨all, fails⟩
  exact ⟨tone, log, frame.closes, step⟩

/-- A frame without a fault is one that went through. -/
theorem passes_of_fault_eq_none
    (found : (session.play host instructions frames)[place]? = some result)
    (succeeds : result.fault = none) : session.machine.Passes instructions frames place := by
  obtain ⟨frame, tone, here, rfl⟩ := eq_of_getElem?_play host instructions found
  rw [Machine.passes_iff here]
  refine (Machine.lasts_or_fails _ instructions).resolve_right ?_
  rintro ⟨last, below, fault, fails⟩
  obtain ⟨log, step⟩ := step_of_fails host instructions
    ⟨session.machine.atFrame instructions frames place, tone, session.frames + place⟩
    below fails
  rw [step] at succeeds
  cases succeeds

theorem machine_of_fault_eq_none
    (found : (session.play host instructions frames)[place]? = some result)
    (succeeds : result.fault = none) :
    result.session.machine = session.machine.atFrame instructions frames (place + 1) := by
  obtain ⟨tone, log, events, closed, same, -⟩ :=
    result_of_passes found (passes_of_fault_eq_none found succeeds)
  rw [same]

/-- Before every frame but the first there is one without a fault. -/
theorem exists_before
    (found : (session.play host instructions frames)[place + 1]? = some result) :
    ∃ before, (session.play host instructions frames)[place]? = some before ∧
      before.fault = none := by
  obtain ⟨inside, -⟩ := List.getElem?_eq_some_iff.mp found
  obtain ⟨-, went⟩ := (lt_length_play_iff host instructions session frames (place + 1)).mp inside
  have earlier := List.getElem?_eq_getElem (Nat.lt_of_succ_lt inside)
  obtain ⟨tone, log, events, closed, same, -⟩ :=
    result_of_passes earlier (went place (Nat.lt_succ_self place)).1
  exact ⟨_, earlier, by rw [same]⟩

end Found

end Session

end Chip8
