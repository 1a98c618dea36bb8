/-
The schedule of the main loop, and what the machine sees of the keyboard. How many frames
there are is settled by the key script alone, up to the first frame that closes the window,
unless a tick ends in a fault before that: then the frame and the tick it happens in are the
last. Ticks neither press nor release a key, so what a tick sees of the keypad is what the
events of all frames so far have made of it; and as a key of the keypad is bound to one key of
the host, it is down if the last of the events of that key, repetitions apart, is a press.
-/

import Chip8.Proofs.Frame
import Chip8.Proofs.Courses
import Chip8.Proofs.Tick

namespace Chip8

/-! ### Events of the keyboard -/

/-- What was last done to a key of the host, repetitions apart. -/
def lastAction? (code : Int) (events : List KeyEvent) : Option KeyAction :=
  (events.filter fun event => event.code = code ∧ event.action ≠ .repetition).getLast?.map
    KeyEvent.action

theorem lastAction?_cons (code : Int) (event : KeyEvent) (rest : List KeyEvent) :
    lastAction? code (event :: rest) =
      (lastAction? code rest).or
        (if event.code = code ∧ event.action ≠ .repetition then some event.action else none) := by
  unfold lastAction?
  rw [List.filter_cons]
  split
  · next counts =>
    rw [if_pos (of_decide_eq_true counts), List.getLast?_cons]
    cases (List.filter _ rest).getLast? <;> rfl
  · next passes =>
    rw [if_neg (by simpa using passes), Option.or_none]

/-- Codes and keys are bound one to one. -/
theorem boundKey?_eq_some_iff (code : Int) (key : UInt8) :
    boundKey? code = some key ↔ (code, key) ∈ bindings := by
  constructor
  · intro bound
    obtain ⟨before, after, split, -⟩ := List.lookup_eq_some_iff.mp bound
    rw [split]
    simp
  · have each : ∀ pair ∈ bindings, boundKey? pair.1 = some pair.2 := by decide
    exact each (code, key)

theorem boundKey?_injective {code other : Int} {key : UInt8} (bound : boundKey? code = some key)
    (bound' : boundKey? other = some key) : other = code := by
  have apart : ∀ first ∈ bindings, ∀ second ∈ bindings,
      second.2 = first.2 → second.1 = first.1 := by
    decide
  exact apart _ ((boundKey?_eq_some_iff code key).mp bound) _
    ((boundKey?_eq_some_iff other key).mp bound') rfl

/-- Every key of the keypad is bound to one key of the host. -/
theorem exists_boundKey?_iff {key : UInt8} (named : key.toNat < 16) :
    ∃ code, ∀ other, boundKey? other = some key ↔ other = code := by
  have each : ∀ key : Fin 16, ∃ own ∈ bindings, own.2 = UInt8.ofNat key.val := by decide
  obtain ⟨own, member, mine⟩ := each ⟨key.toNat, named⟩
  have mine : own.2 = key := mine.trans UInt8.ofNat_toNat
  have bound : boundKey? own.1 = some key := (boundKey?_eq_some_iff own.1 key).mpr (mine ▸ member)
  exact ⟨own.1, fun other => ⟨boundKey?_injective bound, fun same => same ▸ bound⟩⟩

namespace KeyEvent

/-- An event does nothing, or it presses or releases the key that its code is bound to. -/
theorem onKeypad_cases (event : KeyEvent) :
    (∀ keypad, event.onKeypad keypad = keypad) ∨
      ∃ key, boundKey? event.code = some key ∧
        ∀ keypad, event.onKeypad keypad = keypad.set key (event.action == .press) := by
  unfold onKeypad
  by_cases repeats : event.action = .repetition
  · exact Or.inl fun keypad => if_pos repeats
  · simp only [if_neg repeats]
    cases boundKey? event.code with
    | none => exact Or.inl fun keypad => rfl
    | some key => exact Or.inr ⟨key, rfl, fun keypad => rfl⟩

/-- Repetitions, and events of a key that is bound to none, do nothing. -/
theorem apply_eq_self {event : KeyEvent} (machine : Machine)
    (idle : event.action = .repetition ∨ boundKey? event.code = none) :
    event.apply machine = machine := by
  unfold apply
  split
  · rfl
  · next counts => rw [idle.resolve_left counts]

/-- Events of different keys of the host can change places. -/
theorem apply_comm {first second : KeyEvent} (machine : Machine)
    (different : first.code ≠ second.code) :
    second.apply (first.apply machine) = first.apply (second.apply machine) := by
  have keypads : second.onKeypad (first.onKeypad machine.keypad) =
      first.onKeypad (second.onKeypad machine.keypad) := by
    rcases first.onKeypad_cases with idle | ⟨key, bound, sets⟩
    · rw [idle, idle]
    rcases second.onKeypad_cases with idle | ⟨key', bound', sets'⟩
    · rw [idle, idle]
    · have apart : key' ≠ key := by
        rintro rfl
        exact different (boundKey?_injective bound' bound)
      rw [sets, sets', sets', sets, Keypad.set_comm _ _ _ apart]
  rw [apply_eq, apply_eq, apply_eq, apply_eq, keypads]

/-- What an event makes of a key. -/
theorem isHeld_onKeypad (event : KeyEvent) (keypad : Keypad) {code : Int} {key : UInt8}
    (named : key.toNat < 16) (bound : ∀ other, boundKey? other = some key ↔ other = code) :
    (event.onKeypad keypad).isHeld key =
      if event.code = code ∧ event.action ≠ .repetition then event.action == .press
      else keypad.isHeld key := by
  have mine : boundKey? event.code = some key ↔ event.code = code := bound event.code
  unfold onKeypad
  by_cases repeats : event.action = .repetition
  · rw [if_pos repeats, if_neg fun both => both.2 repeats]
  · rw [if_neg repeats]
    by_cases own : event.code = code
    · rw [mine.mpr own, if_pos ⟨own, repeats⟩]
      exact keypad.isHeld_set_self key _ named
    · rw [if_neg fun both => own both.1]
      cases found : boundKey? event.code with
      | none => rfl
      | some other =>
        refine keypad.isHeld_set_other other key _ ?_
        rintro rfl
        exact own (mine.mp found)

end KeyEvent

/-- A key is what the last of its events has made of it. -/
theorem Keypad.isHeld_after (keypad : Keypad) (events : List KeyEvent) {code : Int} {key : UInt8}
    (named : key.toNat < 16) (bound : ∀ other, boundKey? other = some key ↔ other = code) :
    (keypad.after events).isHeld key =
      ((lastAction? code events).map fun action => action == .press).getD
        (keypad.isHeld key) := by
  induction events generalizing keypad with
  | nil => rfl
  | cons event rest inductionHypothesis =>
    have later : keypad.after (event :: rest) = (event.onKeypad keypad).after rest := rfl
    rw [later, inductionHypothesis, lastAction?_cons, event.isHeld_onKeypad keypad named bound]
    cases lastAction? code rest with
    | some action => rfl
    | none =>
      rw [Option.none_or]
      split <;> rfl

/-! ### Keys along a session -/

namespace Machine

/-- A tick presses no key and releases none. -/
theorem keypad_tick (machine : Machine) : machine.tick.machine.keypad = machine.keypad :=
  machine.part_tick Machine.keypad (fun _ _ _ _ _ _ _ _ => rfl) fun _ _ _ _ _ _ =>
    (books_perform _ _ _).1

theorem keypad_ticks (machine : Machine) (count : Nat) :
    (machine.feed (List.replicate count .tick)).keypad = machine.keypad := by
  induction count with
  | zero => rfl
  | succ count inductionHypothesis => rw [feed_ticks_succ, keypad_tick, inductionHypothesis]

/-- Frames that go through do to the keypad what their keys do. -/
theorem keypad_frames (machine : Machine) (instructions : Nat) (frames : List Frame) :
    (machine.feed (frames.flatMap (Frame.inputs instructions))).keypad =
      machine.keypad.after frames.flatten := by
  induction frames generalizing machine with
  | nil => rfl
  | cons frame rest inductionHypothesis =>
    have here : (machine.feed (frame.inputs instructions)).keypad = machine.keypad.after frame := by
      rw [Frame.inputs, feed_append, feed_append, ← Frame.apply_eq_feed, Frame.apply_eq]
      exact keypad_ticks _ instructions
    rw [List.flatMap_cons, feed_append, inductionHypothesis, here, List.flatten_cons]
    exact List.foldl_append.symm

/-- What a tick sees of the keypad is what the events of all frames so far have made of it. -/
theorem keypad_atTick (machine : Machine) (instructions : Nat) (frames : List Frame)
    (frame tick : Nat) :
    (machine.atTick instructions frames frame tick).keypad =
      machine.keypad.after (frames.take (frame + 1)).flatten := by
  rw [atTick, keypad_ticks, ← Frame.apply_eq_feed, Frame.apply_eq, atFrame, keypad_frames,
    List.take_add_one, List.flatten_append]
  show Keypad.after _ _ = Keypad.after _ _
  rw [Keypad.after, Keypad.after, Keypad.after, List.foldl_append]
  cases frames[frame]? with
  | none => rfl
  | some keys => simp

end Machine

/-! ### The schedule -/

theorem Frame.closes_iff (frame : Frame) : frame.closes = true ↔ ⟨256, .press⟩ ∈ frame := by
  unfold Frame.closes
  rw [List.any_eq_true]
  constructor
  · rintro ⟨⟨code, action⟩, member, closes⟩
    obtain ⟨rfl, rfl⟩ : code = 256 ∧ action = .press := by
      simpa [KeyEvent.closes, escapeCode] using closes
    exact member
  · exact fun member => ⟨_, member, rfl⟩

/-- How many frames there are if no tick ends in a fault: all up to the first one in which
the key that closes the window is pressed. -/
def polls (frames : List Frame) : Nat :=
  match frames.findIdx? fun frame => (⟨256, .press⟩ : KeyEvent) ∈ frame with
  | some first => first + 1
  | none => frames.length

theorem lt_polls_iff (frames : List Frame) (place : Nat) :
    place < polls frames ↔
      place < frames.length ∧ ∀ earlier < place, (frames[earlier]?.getD []).closes = false := by
  have same (frame : Frame) : decide ((⟨256, .press⟩ : KeyEvent) ∈ frame) = frame.closes := by
    rw [Bool.eq_iff_iff, decide_eq_true_iff, frame.closes_iff]
  simp only [polls, same]
  cases found : frames.findIdx? Frame.closes with
  | none =>
    have opens := List.findIdx?_eq_none_iff.mp found
    refine (and_iff_left_of_imp fun inside earlier below => ?_).symm
    rw [List.getElem?_eq_getElem (Nat.lt_trans below inside)]
    exact opens _ (List.getElem_mem _)
  | some first =>
    obtain ⟨inside, closes, opens⟩ := List.findIdx?_eq_some_iff_getElem.mp found
    dsimp only
    constructor
    · intro below
      refine ⟨by omega, fun earlier before => ?_⟩
      have within : earlier < first := by omega
      rw [List.getElem?_eq_getElem (Nat.lt_trans within inside)]
      exact Bool.eq_false_iff.mpr (opens earlier within)
    · rintro ⟨-, before⟩
      refine Nat.lt_succ_of_le (Nat.le_of_not_lt fun beyond => ?_)
      have missed := before first beyond
      rw [List.getElem?_eq_getElem inside] at missed
      cases missed.symm.trans closes

namespace Session

section Length

variable {host : Host} {instructions : Nat} {session : Session} {frames : List Frame}

/-- As long as frames go through, their number is settled by the script. -/
theorem length_play_of_passes
    (all : ∀ frame < polls frames, session.machine.Passes instructions frames frame) :
    (session.play host instructions frames).length = polls frames := by
  refine Nat.le_antisymm (Nat.le_of_not_lt fun beyond => ?_) (Nat.le_of_not_lt fun short => ?_)
  · obtain ⟨inside, before⟩ := (lt_length_play_iff host instructions session frames _).mp beyond
    have opens := (lt_polls_iff frames _).mpr
      ⟨inside, fun earlier below => (before earlier below).2⟩
    exact Nat.lt_irrefl _ opens
  · obtain ⟨inside, opens⟩ := (lt_polls_iff frames _).mp short
    have further := (lt_length_play_iff host instructions session frames _).mpr
      ⟨inside, fun earlier below => ⟨all earlier (Nat.lt_trans below short), opens earlier below⟩⟩
    exact Nat.lt_irrefl _ further

/-- The first frame that does not go through is the last one. -/
theorem length_play_of_fails {frame : Nat} (inside : frame < polls frames)
    (before : ∀ earlier < frame, session.machine.Passes instructions frames earlier)
    (fails : ¬session.machine.Passes instructions frames frame) :
    (session.play host instructions frames).length = frame + 1 := by
  refine Nat.le_antisymm (Nat.le_of_not_lt fun beyond => ?_) ?_
  · obtain ⟨-, all⟩ := (lt_length_play_iff host instructions session frames _).mp beyond
    exact fails (all frame (Nat.lt_succ_self frame)).1
  · obtain ⟨within, opens⟩ := (lt_polls_iff frames frame).mp inside
    exact (lt_length_play_iff host instructions session frames frame).mpr
      ⟨within, fun earlier below => ⟨before earlier below, opens earlier below⟩⟩

end Length

end Session

/-! ### Sessions of the program -/

namespace Invocation

/-- How many ticks are made in the first frames. -/
def ticksMade (invocation : Invocation) (image : List UInt8) : (count : Nat) → Nat
  | 0 => 0
  | count + 1 => invocation.ticksMade image count +
      ((invocation.atTick image count 0).run invocation.options.instructionsPerFrame).ticks

theorem ticksMade_of_passes {invocation : Invocation} {image : List UInt8} {count : Nat}
    (all : ∀ frame < count, (invocation.machine image).Passes
      invocation.options.instructionsPerFrame invocation.frames frame) :
    invocation.ticksMade image count =
      count * invocation.options.instructionsPerFrame := by
  induction count with
  | zero => exact (Nat.zero_mul _).symm
  | succ count inductionHypothesis =>
    obtain ⟨before, here⟩ := Nat.forall_lt_succ_right.mp all
    have ticks : (invocation.atTick image count 0).Lasts
        invocation.options.instructionsPerFrame := here
    obtain ⟨log, run⟩ := Machine.run_of_lasts ticks
    rw [ticksMade, inductionHypothesis before, run, Nat.succ_mul]

/-- The machine of a session begins with all keys up. -/
theorem keypad_machine (invocation : Invocation) {image : List UInt8}
    (fits : image.length ≤ 3584) : (invocation.machine image).keypad = .released := by
  rw [machine, Machine.load_of_le _ fits]
  rfl

/-- What the main loop does in a session: how long it goes on, and what the machine sees of
the keyboard meanwhile. -/
structure Schedule (invocation : Invocation) (image : List UInt8) : Prop where
  /-- The frames ask the host for all that is asked for between the opening and the closing. -/
  events : invocation.run.events =
    openingEvents ++ (invocation.results image).flatMap FrameResult.events ++ closingEvents
  /-- A frame reads its keys where the frames before it have led to, and then makes its ticks. -/
  steps : ∀ place result, (invocation.results image)[place]? = some result →
    ∃ frame now tone, invocation.frames[place]? = some frame ∧
      invocation.atTick image place 0 = frame.apply now ∧
      result = Session.step invocation.host invocation.options.instructionsPerFrame
        ⟨now, tone, place⟩ frame
  /-- If all ticks go through, the script alone settles how many there are. -/
  completes :
    (∀ frame < polls invocation.frames, ∀ tick < invocation.options.instructionsPerFrame,
      (invocation.atTick image frame tick).tick.fault = none) →
    (invocation.results image).length = polls invocation.frames ∧
      invocation.ticksMade image (invocation.results image).length =
        polls invocation.frames * invocation.options.instructionsPerFrame ∧
      invocation.run.exit.code = 0
  /-- If not, the first tick that does not is the last one, and its frame is the last frame and
  asks the host for nothing any more. -/
  halts :
    ¬(∀ frame < polls invocation.frames, ∀ tick < invocation.options.instructionsPerFrame,
      (invocation.atTick image frame tick).tick.fault = none) →
    ∃ frame < polls invocation.frames, ∃ tick < invocation.options.instructionsPerFrame,
      (∀ earlier < frame, ∀ tick < invocation.options.instructionsPerFrame,
        (invocation.atTick image earlier tick).tick.fault = none) ∧
      (∀ earlier < tick, (invocation.atTick image frame earlier).tick.fault = none) ∧
      (invocation.results image).length = frame + 1 ∧
      invocation.ticksMade image (invocation.results image).length =
        frame * invocation.options.instructionsPerFrame + (tick + 1) ∧
      (∃ result, (invocation.results image)[frame]? = some result ∧
        result.fault = (invocation.atTick image frame tick).tick.fault ∧
        result.fault ≠ none ∧
        result.session.machine = (invocation.atTick image frame tick).tick.machine ∧
        result.events = []) ∧
      invocation.run.exit.code = 1
  /-- To every tick a key of the keypad is down if the last thing that was done to the one key
  of the host that is bound to it, up to and including the frame of the tick, was to press it. -/
  keys : ∀ key : UInt8, key.toNat < 16 →
    ∃ code, (∀ other, boundKey? other = some key ↔ other = code) ∧
      ∀ frame tick, (invocation.atTick image frame tick).keypad.isHeld key = true ↔
        lastAction? code (invocation.frames.take (frame + 1)).flatten = some .press

section Plays

variable {invocation : Invocation} {image : List UInt8}

theorem schedule_completes (plays : invocation.Plays image)
    (all : ∀ frame < polls invocation.frames, (invocation.machine image).Passes
      invocation.options.instructionsPerFrame invocation.frames frame) :
    (invocation.results image).length = polls invocation.frames ∧
      invocation.ticksMade image (invocation.results image).length =
        polls invocation.frames * invocation.options.instructionsPerFrame ∧
      invocation.run.exit.code = 0 := by
  have length : (invocation.results image).length = polls invocation.frames :=
    Session.length_play_of_passes all
  have clean : ∀ result ∈ invocation.results image, result.fault = none := by
    intro result member
    obtain ⟨place, inside, found⟩ := List.mem_iff_getElem.mp member
    obtain ⟨tone, log, events, closed, same, -⟩ :=
      Session.result_of_passes (List.getElem?_eq_some_iff.mpr ⟨inside, found⟩)
        (all place (length ▸ inside))
    rw [same]
  refine ⟨length, ?_, ?_⟩
  · rw [length, ticksMade_of_passes all]
  · rw [(run_of_plays plays).2, if_neg]
    · rfl
    · simp only [List.any_eq_true, not_exists, not_and]
      intro result member
      simp [clean result member]

theorem schedule_halts (plays : invocation.Plays image) {frame tick : Nat} {fault : Fault}
    (inside : frame < polls invocation.frames)
    (below : tick < invocation.options.instructionsPerFrame)
    (before : ∀ earlier < frame, (invocation.machine image).Passes
      invocation.options.instructionsPerFrame invocation.frames earlier)
    (fails : (invocation.atTick image frame 0).Fails tick fault) :
    (invocation.results image).length = frame + 1 ∧
      invocation.ticksMade image (invocation.results image).length =
        frame * invocation.options.instructionsPerFrame + (tick + 1) ∧
      (∃ result, (invocation.results image)[frame]? = some result ∧
        result.fault = some fault ∧
        result.session.machine = (invocation.atTick image frame tick).tick.machine ∧
        result.events = []) ∧
      invocation.run.exit.code = 1 := by
  obtain ⟨all, faults⟩ := fails
  have length : (invocation.results image).length = frame + 1 :=
    Session.length_play_of_fails inside before fun passes => by
      cases (passes tick below).symm.trans faults
  have within : frame < (invocation.results image).length := length ▸ Nat.lt_succ_self frame
  have found := List.getElem?_eq_getElem within
  obtain ⟨tone, log, closed, same⟩ := Session.result_of_fails found below all faults
  refine ⟨length, ?_, ⟨_, found, by rw [same], by rw [same]; rfl, by rw [same]⟩, ?_⟩
  · obtain ⟨log, run⟩ := Machine.run_of_fails below ⟨all, faults⟩
    rw [length, ticksMade, ticksMade_of_passes before, run]
  · rw [(run_of_plays plays).2, if_pos]
    · rfl
    · rw [List.any_eq_true]
      exact ⟨_, List.getElem_mem within, by rw [same]; rfl⟩

theorem schedule (plays : invocation.Plays image) : invocation.Schedule image where
  events := (run_of_plays plays).1
  steps place result found := by
    obtain ⟨frame, tone, here, same⟩ := Session.eq_of_getElem?_play _ _ found
    refine ⟨frame, _, tone, here, Machine.atTick_eq here 0, ?_⟩
    rw [same, Session.start, Nat.zero_add]
  completes all := schedule_completes plays all
  halts stops := by
    obtain ⟨frame, inside, before, breaks⟩ :=
      (forall_or_first (fun frame => (invocation.machine image).Passes
        invocation.options.instructionsPerFrame invocation.frames frame) _).resolve_left stops
    obtain ⟨tick, below, fault, fails⟩ :=
      ((invocation.atTick image frame 0).lasts_or_fails _).resolve_left breaks
    obtain ⟨length, ticks, ⟨result, found, faults, machine, events⟩, exit⟩ :=
      schedule_halts plays inside below before fails
    refine ⟨frame, inside, tick, below, before, fails.1, length, ticks,
      ⟨result, found, ?_, ?_, machine, events⟩, exit⟩
    · exact faults.trans fails.2.symm
    · rw [faults]
      exact Option.some_ne_none fault
  keys key named := by
    obtain ⟨code, bound⟩ := exists_boundKey?_iff named
    refine ⟨code, bound, fun frame tick => ?_⟩
    have up : Keypad.released.isHeld key = false := by
      simp [Keypad.isHeld, Keypad.released]
    rw [atTick, Machine.keypad_atTick, keypad_machine _ plays.fits,
      Keypad.isHeld_after _ _ named bound, up]
    cases lastAction? code (invocation.frames.take (frame + 1)).flatten with
    | none => simp
    | some action => simp

end Plays

/-- The schedule of any session of the program, and the part that the keyboard has in it.
Events of a key that is bound to none, of the one that closes the window among them, and
repetitions do nothing to a machine, and events of two different keys can change places. -/
theorem schedule_along_sessions :
    (∀ (invocation : Invocation) (image : List UInt8), invocation.Plays image →
      invocation.Schedule image) ∧
    (∀ (event : KeyEvent) (machine : Machine),
      boundKey? event.code = none ∨ event.code = 256 ∨ event.action = .repetition →
      event.apply machine = machine) ∧
    ∀ (first second : KeyEvent) (machine : Machine), first.code ≠ second.code →
      second.apply (first.apply machine) = first.apply (second.apply machine) := by
  refine ⟨fun _ _ => schedule, ?_, fun _ _ machine => KeyEvent.apply_comm machine⟩
  rintro event machine (unbound | escape | repeats)
  · exact event.apply_eq_self machine (Or.inr unbound)
  · exact event.apply_eq_self machine (Or.inr (escape ▸ rfl))
  · exact event.apply_eq_self machine (Or.inl repeats)

/-- A session in which `Q` is held until the window is closed, and one that ends with a return
to nowhere in its first tick. -/
theorem schedule_along_sessions_escape :
    let circle : List UInt8 := [0x12, 0x00]
    let astray : List UInt8 := [0x00, 0xEE]
    let start (image : List UInt8) : Invocation := {
      arguments := ["INVADERS", "1"]
      files := fun path => if path = "INVADERS" then some (.file image) else none
      assets := "assets"
      host := .willing
      frames := [[⟨81, .press⟩, ⟨81, .repetition⟩], [⟨81, .release⟩, ⟨256, .press⟩], []]
      seed := 7 }
    let goesThrough (image : List UInt8) : Prop :=
      ∀ frame < polls (start image).frames,
        ∀ tick < (start image).options.instructionsPerFrame,
          ((start image).atTick image frame tick).tick.fault = none
    ((start circle).Plays circle ∧ goesThrough circle ∧ (start astray).Plays astray ∧
        ¬goesThrough astray) ∧
      (((start circle).results circle).length = 2 ∧ (start circle).run.exit.code = 0 ∧
        ((start circle).atTick circle 0 0).keypad.isHeld 4 = true ∧
        ((start circle).atTick circle 1 0).keypad.isHeld 4 ≠ true) ∧
      (((start astray).results astray).length = 1 ∧ (start astray).run.exit.code = 1) ∧
      ∀ machine, (⟨256, .press⟩ : KeyEvent).apply machine = machine ∧
        (⟨87, .press⟩ : KeyEvent).apply ((⟨81, .press⟩ : KeyEvent).apply machine) =
          (⟨81, .press⟩ : KeyEvent).apply ((⟨87, .press⟩ : KeyEvent).apply machine) := by
  intro circle astray start goesThrough
  obtain ⟨laws, idle, change⟩ := schedule_along_sessions
  have plays : (start circle).Plays circle :=
    ⟨by decide +kernel, by decide +kernel, rfl, by decide, by simp [start]⟩
  have plays' : (start astray).Plays astray :=
    ⟨by decide +kernel, by decide +kernel, rfl, by decide, by simp [start]⟩
  have all : goesThrough circle := by decide +kernel
  have stops : ((start astray).atTick astray 0 0).tick.fault ≠ none := by decide +kernel
  have breaks : ¬goesThrough astray := fun all => stops (all 0 (by decide) 0 (by decide +kernel))
  obtain ⟨length, -, exit⟩ := (laws _ _ plays).completes all
  obtain ⟨code, bound, held⟩ := (laws _ _ plays).keys 4 (by decide)
  obtain rfl : 81 = code := (bound 81).mp rfl
  obtain ⟨frame, -, tick, -, before, -, length', -, -, exit'⟩ := (laws _ _ plays').halts breaks
  have first : frame = 0 :=
    Nat.eq_zero_of_not_pos fun later => stops (before 0 later 0 (by decide +kernel))
  subst first
  refine ⟨⟨plays, all, plays', breaks⟩, ⟨length, exit, (held 0 0).mpr (by decide), ?_⟩,
    ⟨length', exit'⟩, fun machine => ⟨?_, change _ _ machine (by decide)⟩⟩
  · exact fun down => absurd ((held 1 0).mp down) (by decide)
  · exact idle _ machine (Or.inr (Or.inl rfl))

end Invocation

end Chip8
