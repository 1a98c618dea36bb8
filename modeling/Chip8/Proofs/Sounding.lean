/-
The tone, and the device that sounds it. What the program remembers of the device is one bit,
and any call to the device may be refused. The device itself is known from the calls alone: it
runs if it was started and has not been stopped since, refusals apart. By induction on the
requests, one at a time from the last one, the bit says whether it runs; so it is never started
or stopped twice in a row, and a call that was refused is made again as long as it is wanted.
In a session without refusals the tone is therefore always where the sound timer wants it at
the end of a frame, and is switched just when that changes.
-/

import Chip8.Proofs.Brackets
import Mathlib.Data.List.Induction

namespace Chip8

/-! ### Requests in a row -/

namespace Tone

/-- What is asked of the tone, and whether the host grants the call that this may lead to. -/
structure Request where
  sounding : Bool
  granted : Bool

/-- A call to the device, and whether it was granted. -/
structure Attempt where
  call : HostCall
  granted : Bool
  deriving DecidableEq, Repr

/-- The tone after a request. -/
def serve (tone : Tone) (request : Request) : Tone :=
  tone.update request.sounding request.granted

/-- The call that a request leads to, if any. -/
def attempt? (tone : Tone) (request : Request) : Option Attempt :=
  (tone.call? request.sounding).map fun call => ⟨call, request.granted⟩

/-- The tone after requests in a row. -/
def after (tone : Tone) (requests : List Request) : Tone := requests.foldl serve tone

/-- The calls that requests in a row lead to. -/
def attempts (tone : Tone) : List Request → List Attempt
  | [] => []
  | request :: rest => (tone.attempt? request).toList ++ (tone.serve request).attempts rest

/-- Of calls in a row, one has started the device, and none has stopped it since. -/
def Running (attempts : List Attempt) : Prop :=
  ∃ before after, attempts = before ++ ⟨.startDevice, true⟩ :: after ∧
    ⟨.stopDevice, true⟩ ∉ after

theorem not_running_nil : ¬Running [] := by
  rintro ⟨before, after, split, -⟩
  simp at split

theorem running_concat_iff (attempts : List Attempt) (last : Attempt) :
    Running (attempts ++ [last]) ↔
      last = ⟨.startDevice, true⟩ ∨ last ≠ ⟨.stopDevice, true⟩ ∧ Running attempts := by
  constructor
  · rintro ⟨before, after, split, unstopped⟩
    cases after using List.reverseRecOn with
    | nil => exact Or.inl (List.singleton_inj.mp (List.append_inj' split rfl).2)
    | append_singleton later last' =>
      rw [← List.cons_append, ← List.append_assoc] at split
      obtain ⟨rfl, same⟩ := List.append_inj' split rfl
      obtain rfl := List.singleton_inj.mp same
      rw [List.mem_append, List.mem_singleton, not_or] at unstopped
      exact Or.inr ⟨Ne.symm unstopped.2, before, later, rfl, unstopped.1⟩
  · rintro (rfl | ⟨goesOn, before, after, rfl, unstopped⟩)
    · exact ⟨attempts, [], rfl, List.not_mem_nil⟩
    · refine ⟨before, after ++ [last], by simp, ?_⟩
      rw [List.mem_append, List.mem_singleton, not_or]
      exact ⟨unstopped, goesOn.symm⟩

section Requests

variable (tone : Tone)

theorem after_append (first second : List Request) :
    tone.after (first ++ second) = (tone.after first).after second :=
  List.foldl_append

theorem attempts_append (first second : List Request) :
    tone.attempts (first ++ second) =
      tone.attempts first ++ (tone.after first).attempts second := by
  induction first generalizing tone with
  | nil => rfl
  | cons request rest inductionHypothesis =>
    rw [List.cons_append, attempts, attempts, inductionHypothesis, List.append_assoc]
    rfl

variable {tone}

theorem attempt?_eq_some_iff {request : Request} {attempt : Attempt} :
    tone.attempt? request = some attempt ↔
      request.sounding ≠ tone.sounding ∧
        ⟨if request.sounding then .startDevice else .stopDevice, request.granted⟩ = attempt := by
  unfold attempt? call?
  by_cases same : request.sounding = tone.sounding
  · simp [same]
  · rw [if_neg same, ← apply_ite, Option.map_some]
    simp [same]

/-- A request that no call is granted for leaves the tone as it is. -/
theorem serve_of_refused {request : Request}
    (refused : ∀ attempt ∈ tone.attempt? request, attempt.granted = false) :
    tone.serve request = tone := by
  unfold serve update
  refine if_neg fun granted => ?_
  rw [Bool.and_eq_true, Option.isSome_iff_exists] at granted
  obtain ⟨⟨call, found⟩, granted⟩ := granted
  have refuses := refused ⟨call, request.granted⟩ (by simp [attempt?, found])
  exact Bool.false_ne_true (refuses.symm.trans granted)

/-- A request that a call is granted for gets what it asks for. -/
theorem serve_of_granted {request : Request} {attempt : Attempt}
    (found : tone.attempt? request = some attempt) (granted : attempt.granted = true) :
    tone.serve request = ⟨request.sounding⟩ := by
  obtain ⟨call, called, rfl⟩ := Option.map_eq_some_iff.mp found
  have granted : request.granted = true := granted
  rw [serve, update, called, granted]
  rfl

theorem after_of_refused {requests : List Request}
    (refused : ∀ attempt ∈ tone.attempts requests, attempt.granted = false) :
    tone.after requests = tone := by
  induction requests with
  | nil => rfl
  | cons request rest inductionHypothesis =>
    rw [attempts, List.forall_mem_append] at refused
    have same : tone.serve request = tone :=
      serve_of_refused fun attempt found => refused.1 attempt (Option.mem_toList.mpr found)
    rw [same] at refused
    rw [after, List.foldl_cons, same]
    exact inductionHypothesis refused.2

end Requests

/-- What is remembered is whether the device runs. -/
theorem sounding_iff_running (requests : List Request) :
    (silent.after requests).sounding = true ↔ Running (silent.attempts requests) := by
  induction requests using List.reverseRecOn with
  | nil => exact iff_of_false Bool.false_ne_true not_running_nil
  | append_singleton earlier request inductionHypothesis =>
    have next : silent.attempts (earlier ++ [request]) =
        silent.attempts earlier ++ ((silent.after earlier).attempt? request).toList := by
      rw [attempts_append, attempts, attempts, List.append_nil]
    have served : silent.after (earlier ++ [request]) =
        (silent.after earlier).serve request := after_append _ _ _
    rw [next, served]
    cases found : (silent.after earlier).attempt? request with
    | none =>
      rw [serve_of_refused (by simp [found]), Option.toList_none, List.append_nil]
      exact inductionHypothesis
    | some attempt =>
      rw [Option.toList_some, running_concat_iff, ← inductionHypothesis]
      cases granted : attempt.granted with
      | false =>
        rw [serve_of_refused (by simp [found, granted])]
        have apart (call : HostCall) : attempt ≠ ⟨call, true⟩ := by
          rintro rfl
          cases granted
        exact ((or_iff_right (apart _)).trans (and_iff_right (apart _))).symm
      | true =>
        rw [serve_of_granted found granted]
        obtain ⟨-, rfl⟩ := attempt?_eq_some_iff.mp found
        have granted : request.granted = true := granted
        cases wish : request.sounding <;> simp [granted]

/-- What comes of requests in a row to a silent tone, and of the next one. -/
structure Law (requests : List Request) : Prop where
  /-- What is remembered is whether the device runs. -/
  sounding : (silent.after requests).sounding = true ↔ Running (silent.attempts requests)
  /-- There is a call if something else is asked for than what is remembered. -/
  asks : ∀ next, ((silent.after requests).attempt? next).isSome = true ↔
    next.sounding ≠ (silent.after requests).sounding
  starts : ∀ next granted,
    (silent.after requests).attempt? next = some ⟨.startDevice, granted⟩ →
      ¬Running (silent.attempts requests)
  stops : ∀ next granted,
    (silent.after requests).attempt? next = some ⟨.stopDevice, granted⟩ →
      Running (silent.attempts requests)
  /-- The device is never asked for anything else. -/
  calls : ∀ attempt ∈ silent.attempts requests,
    attempt.call = .startDevice ∨ attempt.call = .stopDevice
  /-- A call that is refused changes nothing. -/
  refused : ∀ next call, (silent.after requests).attempt? next = some ⟨call, false⟩ →
    silent.after (requests ++ [next]) = silent.after requests
  /-- A call that is refused is made again at every later request for the same, until a call is
  granted. -/
  retried : ∀ next call later again,
    (silent.after requests).attempt? next = some ⟨call, false⟩ →
    (∀ attempt ∈ (silent.after requests).attempts later, attempt.granted = false) →
    again.sounding = next.sounding →
    (silent.after (requests ++ next :: later)).attempt? again = some ⟨call, again.granted⟩

theorem call_of_mem_attempts {tone : Tone} {requests : List Request} {attempt : Attempt}
    (member : attempt ∈ tone.attempts requests) :
    attempt.call = .startDevice ∨ attempt.call = .stopDevice := by
  induction requests generalizing tone with
  | nil => cases member
  | cons request rest inductionHypothesis =>
    rcases List.mem_append.mp member with here | later
    · obtain ⟨-, rfl⟩ := attempt?_eq_some_iff.mp (Option.mem_toList.mp here)
      cases request.sounding with
      | true => exact Or.inl rfl
      | false => exact Or.inr rfl
    · exact inductionHypothesis later

theorem law (requests : List Request) : Law requests where
  sounding := sounding_iff_running requests
  asks next := by
    simp [Option.isSome_iff_exists, attempt?_eq_some_iff]
  starts next granted found := by
    obtain ⟨differs, called⟩ := attempt?_eq_some_iff.mp found
    rw [← sounding_iff_running]
    cases wish : next.sounding with
    | true => exact fun on => differs (wish.trans on.symm)
    | false => simp [wish] at called
  stops next granted found := by
    obtain ⟨differs, called⟩ := attempt?_eq_some_iff.mp found
    rw [← sounding_iff_running]
    cases wish : next.sounding with
    | true => simp [wish] at called
    | false => simpa [wish] using differs
  calls attempt member := call_of_mem_attempts member
  refused next call found := by
    rw [after_append]
    exact serve_of_refused (by simp [found])
  retried next call later again found refused wish := by
    have same : silent.after (requests ++ next :: later) = silent.after requests := by
      have served : (silent.after requests).serve next = silent.after requests :=
        serve_of_refused (by simp [found])
      rw [after_append, after, List.foldl_cons, served]
      exact after_of_refused refused
    obtain ⟨differs, called⟩ := attempt?_eq_some_iff.mp found
    rw [same, attempt?_eq_some_iff, wish, (Attempt.mk.inj called).1]
    exact ⟨differs, rfl⟩

end Tone

/-! ### Switching -/

/-- Whether an event starts the tone. -/
def Event.isStart : Event → Bool
  | start _ => true
  | _ => false

/-- Whether an event starts or stops the tone. -/
def Event.isSwitch : Event → Bool
  | start _ | stop _ => true
  | _ => false

/-- Frame by frame, a tone is wanted or not: it is switched in the frames in which that changes. -/
def switches (frame : Nat) (before : Bool) : List Bool → List Event
  | [] => []
  | now :: rest =>
    (if now = before then [] else if now then [.start frame] else [.stop frame]) ++
      switches (frame + 1) now rest

/-- Switching on and switching off take turns, and what comes first is what is not so yet. -/
theorem isStart_of_switches {frame : Nat} {before : Bool} {wanted : List Bool} {place : Nat}
    {event : Event} (found : (switches frame before wanted)[place]? = some event) :
    event.isStart = ((place % 2 == 0) != before) := by
  induction wanted generalizing frame before place with
  | nil => simp [switches] at found
  | cons now rest inductionHypothesis =>
    rw [switches] at found
    by_cases same : now = before
    · rw [if_pos same, List.nil_append] at found
      rw [inductionHypothesis found, same]
    · obtain rfl : now = !before := Bool.eq_not_of_ne same
      cases place with
      | zero =>
        cases before <;> (simp at found; subst found; rfl)
      | succ place =>
        have later : (switches (frame + 1) (!before) rest)[place]? = some event := by
          cases before <;> simpa using found
        have parity : ((place + 1) % 2 == 0) = !(place % 2 == 0) := by
          rcases Nat.mod_two_eq_zero_or_one place with even | odd <;> simp [Nat.add_mod, *]
        rw [inductionHypothesis later, parity]
        cases before <;> simp

namespace Session

section Granted

variable {host : Host} (starts : host.refuses .startDevice = false)
  (stops : host.refuses .stopDevice = false)

include starts stops

/-- If the host refuses nothing, the tone is what the sound timer wants. -/
theorem sound_of_granted (session : Session) :
    session.sound host =
      ({ session with tone := ⟨session.machine.beeping⟩ }, [],
        if session.machine.beeping = session.tone.sounding then []
        else if session.machine.beeping then [.start session.frames, .sound firstSamples]
        else [.stop session.frames]) := by
  obtain ⟨machine, ⟨sounding⟩, frames⟩ := session
  cases wanted : machine.beeping <;> cases sounding <;>
    simp [sound, Tone.call?, Tone.update, wanted, starts, stops]

theorem step_of_granted (instructions : Nat) (session : Session) (frame : Frame) :
    let result := session.step host instructions frame
    (∃ fault, result.fault = some fault ∧ result.events = []) ∨
      result.fault = none ∧ result.session.tone = ⟨result.session.machine.beeping⟩ ∧
        result.session.frames = session.frames + 1 ∧
        result.events.filter Event.isSwitch =
          switches (session.frames + 1) session.tone.sounding [result.session.machine.beeping] := by
  intro result
  unfold result step
  dsimp only
  split
  · next fault _ => exact Or.inl ⟨fault, rfl, rfl⟩
  · rw [sound_of_granted starts stops, redraw_eq]
    refine Or.inr ⟨rfl, rfl, rfl, ?_⟩
    have drawing (shown : Bool) (event : Event) (drawn : event.isSwitch = false) :
        (if shown then [event] else []).filter Event.isSwitch = [] := by
      cases shown <;> simp [drawn]
    rw [List.filter_append, drawing _ _ rfl, switches, switches, Machine.beeping_acknowledge,
      List.append_nil, List.append_nil]
    split
    · rfl
    · split <;> rfl

/-- The tone is switched in the frames in which the sound timer begins or ceases to want it. -/
theorem switches_play (instructions : Nat) (session : Session) (frames : List Frame) :
    ((session.play host instructions frames).flatMap FrameResult.events).filter Event.isSwitch =
      switches (session.frames + 1) session.tone.sounding
        (((session.play host instructions frames).filter fun result => result.fault.isNone).map
          fun result => result.session.machine.beeping) := by
  induction frames generalizing session with
  | nil => rfl
  | cons frame rest inductionHypothesis =>
    rcases step_of_granted starts stops instructions session frame with
      ⟨fault, faults, still⟩ | ⟨clean, tone, count, switched⟩
    · simp [play, faults, still, switches]
    · cases closes : (session.step host instructions frame).closed with
      | true => simp [play, clean, closes, switched]
      | false =>
        have further := inductionHypothesis (session.step host instructions frame).session
        rw [tone, count] at further
        have played : session.play host instructions (frame :: rest) =
            session.step host instructions frame ::
              (session.step host instructions frame).session.play host instructions rest := by
          simp [play, clean, closes]
        rw [played, List.flatMap_cons, List.filter_append, switched, further,
          List.filter_cons_of_pos (by rw [clean]; rfl), List.map_cons, switches, switches, switches,
          List.append_nil]

end Granted

end Session

/-! ### Sessions of the program -/

namespace Invocation

/-- What the tone does in a session that is refused no switching of it. -/
structure Sounds (invocation : Invocation) (image : List UInt8) : Prop where
  /-- After every frame without a fault the tone is on if the sound timer is not at zero. -/
  sounding : ∀ result ∈ invocation.results image, result.fault = none →
    (result.session.tone.sounding = true ↔ 0 < result.session.machine.soundTimer)
  /-- It is switched once in every frame in which that changes, and in no other. -/
  switching : invocation.run.events.filter Event.isSwitch =
    switches 1 false (((invocation.results image).filter fun result => result.fault.isNone).map
      fun result => decide (0 < result.session.machine.soundTimer))

section Granted

variable {invocation : Invocation} (starts : invocation.host.refuses .startDevice = false)
  (stops : invocation.host.refuses .stopDevice = false)

include starts stops

theorem sounds {image : List UInt8} (plays : invocation.Plays image) :
    invocation.Sounds image where
  sounding result member clean := by
    obtain ⟨place, found⟩ := List.mem_iff_getElem?.mp member
    obtain ⟨frame, tone, -, rfl⟩ := Session.eq_of_getElem?_play _ _ found
    rcases Session.step_of_granted starts stops _ _ _ with
      ⟨fault, faults, -⟩ | ⟨-, sounding, -⟩
    · cases clean.symm.trans faults
    · rw [sounding]
      exact decide_eq_true_iff
  switching := by
    rw [(run_of_plays plays).1, List.filter_append, List.filter_append]
    exact (List.append_nil _).trans (Session.switches_play starts stops _ _ _)

/-- Whatever the program does, what it does first to the tone is to start it, and then stopping
and starting it take turns. -/
theorem isStart_of_getElem? {place : Nat} {event : Event}
    (found : (invocation.run.events.filter Event.isSwitch)[place]? = some event) :
    event.isStart = true ↔ place % 2 = 0 := by
  rcases invocation.plays_or_deviceless with ⟨image, plays⟩ | ⟨-, unframed⟩
  · rw [(sounds starts stops plays).switching] at found
    rw [isStart_of_switches found]
    simp
  · have none : invocation.run.events.filter Event.isSwitch = [] := by
      refine List.filter_eq_nil_iff.mpr fun event member switch => ?_
      have still := unframed event member
      cases event with
      | start | stop => cases still
      | _ => cases switch
    simp [none] at found

end Granted

/-- The tone through requests in a row, whichever of them are refused, and through all sessions
that are refused none. -/
theorem tone_along_sessions :
    (∀ requests, Tone.Law requests) ∧
    ∀ invocation : Invocation, invocation.host.refuses .startDevice = false →
      invocation.host.refuses .stopDevice = false →
      (∀ image, invocation.Plays image → invocation.Sounds image) ∧
        ∀ place event, (invocation.run.events.filter Event.isSwitch)[place]? = some event →
          (event.isStart = true ↔ place % 2 = 0) :=
  ⟨Tone.law, fun _ starts stops =>
    ⟨fun _ => sounds starts stops, fun _ _ => isStart_of_getElem? starts stops⟩⟩

/-- A tone that is refused to start and refused to stop, each once, and a session that sets the
sound timer to one again and again. -/
theorem tone_along_sessions_beeps :
    let refused : Tone.Request := ⟨true, false⟩
    let again : Tone.Request := ⟨true, true⟩
    let image : List UInt8 := [0x60, 0x01, 0xF0, 0x18, 0x12, 0x02]
    let start : Invocation := {
      arguments := ["INVADERS", "1"]
      files := fun path => if path = "INVADERS" then some (.file image) else none
      assets := "assets"
      host := .willing
      frames := [[], [], [], [], []]
      seed := 7 }
    (Tone.silent.attempt? refused = some ⟨.startDevice, false⟩ ∧
        Tone.silent.after [refused] = Tone.silent ∧
        (Tone.silent.after [refused]).attempt? again = some ⟨.startDevice, true⟩ ∧
        Tone.Running (Tone.silent.attempts [refused, again, ⟨false, false⟩])) ∧
      (start.host.refuses .startDevice = false ∧ start.host.refuses .stopDevice = false ∧
        start.Plays image) ∧
      start.run.events.filter Event.isSwitch = [.start 2, .stop 3, .start 4, .stop 5] ∧
      ∀ place event, (start.run.events.filter Event.isSwitch)[place]? = some event →
        (event.isStart = true ↔ place % 2 = 0) := by
  intro refused again image start
  obtain ⟨laws, sessions⟩ := tone_along_sessions
  have plays : start.Plays image :=
    ⟨by decide +kernel, by decide +kernel, rfl, by decide, by simp [start]⟩
  obtain ⟨sounds, turns⟩ := sessions start rfl rfl
  have wanted : ((start.results image).filter fun result => result.fault.isNone).map
      (fun result => decide (0 < result.session.machine.soundTimer)) =
        [false, true, false, true, false] := by
    decide +kernel
  refine ⟨⟨rfl, ?_, ?_, ?_⟩, ⟨rfl, rfl, plays⟩, ?_, turns⟩
  · exact (laws []).refused refused .startDevice rfl
  · exact (laws []).retried refused .startDevice [] again rfl (by simp [Tone.attempts]) rfl
  · exact (laws _).sounding.mp rfl
  · rw [(sounds image plays).switching, wanted]
    rfl

end Invocation

end Chip8
