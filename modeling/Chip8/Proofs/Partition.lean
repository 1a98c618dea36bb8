/-
How ticks are dealt out to frames makes no difference to a game that is left alone. At the end
of a frame the tone is brought in line, the window is redrawn and the flag of the display is
lowered, and all a tick could notice of that is the flag. But ticks do not look at it: machines
that differ in nothing else go on differing in nothing else (`run_congr`). So frames without
keys make the ticks of one long run, whatever their lengths (`play_idle`), and as the flag is
down and the tone in line after each of them, sessions with equally many ticks end alike.
-/

import Chip8.Proofs.Observation
import Chip8.Proofs.Screen
import Chip8.Proofs.Sounding

namespace Chip8

/-! ### One outcome after another -/

namespace Outcome

/-- Goes on from an outcome without a fault. -/
def andThen (outcome : Outcome) (proceed : Machine → Outcome) : Outcome :=
  match outcome.fault with
  | some _ => outcome
  | none => .after outcome.log (proceed outcome.machine)

theorem andThen_of_fault {outcome : Outcome} {fault : Fault} (fails : outcome.fault = some fault)
    (proceed : Machine → Outcome) : outcome.andThen proceed = outcome := by
  unfold andThen
  rw [fails]

theorem andThen_of_none {outcome : Outcome} (succeeds : outcome.fault = none)
    (proceed : Machine → Outcome) :
    outcome.andThen proceed = .after outcome.log (proceed outcome.machine) := by
  unfold andThen
  rw [succeeds]

theorem after_andThen (log : List Log.Record) (outcome : Outcome) (proceed : Machine → Outcome) :
    (after log outcome).andThen proceed = after log (outcome.andThen proceed) := by
  unfold andThen
  rw [fault_after]
  cases outcome.fault with
  | some fault => rfl
  | none => exact congrArg (Outcome.mk _ _) (List.append_assoc _ _ _)

theorem andThen_andThen (outcome : Outcome) (first second : Machine → Outcome) :
    (outcome.andThen first).andThen second =
      outcome.andThen fun machine => (first machine).andThen second := by
  cases here : outcome.fault with
  | some fault => rw [andThen_of_fault here, andThen_of_fault here, andThen_of_fault here]
  | none => rw [andThen_of_none here, andThen_of_none here, after_andThen]

/-- The outcome with the flag of the display lowered. -/
def acknowledged (outcome : Outcome) : Outcome := outcome.map Machine.acknowledge

@[simp] theorem fault_acknowledged (outcome : Outcome) :
    outcome.acknowledged.fault = outcome.fault := rfl

@[simp] theorem machine_acknowledged (outcome : Outcome) :
    outcome.acknowledged.machine = outcome.machine.acknowledge := rfl

@[simp] theorem log_acknowledged (outcome : Outcome) :
    outcome.acknowledged.log = outcome.log := rfl

theorem acknowledged_counted (outcome : Outcome) :
    outcome.counted.acknowledged = outcome.acknowledged.counted := by
  obtain ⟨fault, machine, log⟩ := outcome
  cases fault <;> rfl

theorem acknowledged_andThen {first second : Outcome} {proceed : Machine → Outcome}
    (same : first.acknowledged = second.acknowledged)
    (blind : ∀ {here there : Machine}, here.acknowledge = there.acknowledge →
      (proceed here).acknowledged = (proceed there).acknowledged) :
    (first.andThen proceed).acknowledged = (second.andThen proceed).acknowledged := by
  have faults : first.fault = second.fault := by simpa using congrArg fault same
  have logs : first.log = second.log := by simpa using congrArg log same
  cases here : first.fault with
  | some fault =>
    rw [andThen_of_fault here, andThen_of_fault (faults.symm.trans here)]
    exact same
  | none =>
    rw [andThen_of_none here, andThen_of_none (faults.symm.trans here), logs]
    exact congrArg (after second.log) (blind (congrArg machine same))

end Outcome

/-! ### The flag of the display -/

namespace Machine

theorem acknowledge_withBooks {machine : Machine} {books : Books}
    (cycles : books.cycles = machine.cycles) (history : books.history = machine.history) :
    (machine.withBooks books).acknowledge = machine.acknowledge := by
  unfold withBooks
  rw [cycles, history]
  rfl

/-- An instruction does not look at the flag. -/
theorem perform_acknowledge (origin : Address) (instruction : Instruction) (machine : Machine) :
    (perform origin instruction machine.acknowledge).acknowledged =
      (perform origin instruction machine).acknowledged := by
  obtain ⟨after, same⟩ :=
    perform_withBooks origin instruction machine { machine.books with updated := false }
  have lowered : perform origin instruction machine.acknowledge =
      (perform origin instruction machine).map (·.withBooks after) := same.symm
  -- No instruction touches the other books, so they are those of the machine in both cases.
  obtain ⟨-, cycles, history⟩ := books_perform origin instruction machine
  obtain ⟨-, cycles', history'⟩ := books_perform origin instruction machine.acknowledge
  rw [lowered] at cycles' history' ⊢
  exact congrArg (fun machine : Machine => Outcome.mk _ machine _)
    (acknowledge_withBooks (cycles'.trans cycles.symm) (history'.trans history.symm))

theorem execute_acknowledge (machine : Machine) (word : Word) :
    (machine.acknowledge.execute word).acknowledged = (machine.execute word).acknowledged := by
  cases moves : machine.pc.advance 2 with
  | error fault =>
    rw [execute_of_error machine word moves, execute_of_error machine.acknowledge word moves]
    rfl
  | ok next =>
    rw [execute_of_ok machine word moves, execute_of_ok machine.acknowledge word moves]
    have same := perform_acknowledge machine.pc (.ofWord word)
      { machine with history := machine.history.add (machine.stepLine word), pc := next }
    have counted := congrArg Outcome.counted same
    rw [← Outcome.acknowledged_counted, ← Outcome.acknowledged_counted] at counted
    exact congrArg (Outcome.after [.debug (machine.stepLine word)]) counted

theorem receive_acknowledge (machine : Machine) (key : Fin 16) :
    machine.acknowledge.receive key = (machine.receive key).acknowledge := by
  by_cases named : machine.awaited.toNat < 16 <;>
    simp [receive, acknowledge, setRegister, named]

theorem tick_acknowledge (machine : Machine) :
    machine.acknowledge.tick.acknowledged = machine.tick.acknowledged := by
  have wakesToo : machine.acknowledge.wake? = machine.wake?.map acknowledge :=
    wake?_change acknowledge machine rfl rfl fun key _ _ => machine.receive_acknowledge key
  refine tick_cases_change (motive := fun plain changed =>
      changed.acknowledged = plain.acknowledged)
    acknowledge machine wakesToo ?reads ?idle ?unreadable ?executed
  case reads => exact fun _ _ => fetch_congr rfl rfl
  case idle => exact fun _ => rfl
  case unreadable => exact fun _ _ _ _ => rfl
  case executed => exact fun woken word _ _ => execute_acknowledge woken.countDown word

/-! ### Runs -/

theorem outcome_run_succ (machine : Machine) (count : Nat) :
    (machine.run (count + 1)).outcome =
      machine.tick.andThen fun next => (next.run count).outcome := by
  unfold Outcome.andThen
  rw [run]
  dsimp only
  cases machine.tick.fault <;> rfl

/-- A run can be cut in two anywhere. -/
theorem outcome_run_add (machine : Machine) (first second : Nat) :
    (machine.run (first + second)).outcome =
      (machine.run first).outcome.andThen fun next => (next.run second).outcome := by
  induction first generalizing machine with
  | zero =>
    rw [Nat.zero_add]
    rfl
  | succ first inductionHypothesis =>
    rw [Nat.add_right_comm, outcome_run_succ, outcome_run_succ, Outcome.andThen_andThen]
    simp only [inductionHypothesis]

/-- The ticks of several frames are those of the first one and then those of the others. -/
theorem outcome_run_mul_succ (machine : Machine) (instructions count : Nat) :
    (machine.run (instructions * (count + 1))).outcome =
      (machine.run instructions).outcome.andThen fun next =>
        (next.run (instructions * count)).outcome := by
  rw [Nat.mul_succ, Nat.add_comm, outcome_run_add]

/-- Runs of machines that differ in the flag differ in nothing else. -/
theorem run_congr (count : Nat) {first second : Machine}
    (same : first.acknowledge = second.acknowledge) :
    (first.run count).outcome.acknowledged = (second.run count).outcome.acknowledged := by
  induction count generalizing first second with
  | zero => exact congrArg Outcome.done same
  | succ count inductionHypothesis =>
    have ticks : first.tick.acknowledged = second.tick.acknowledged := by
      rw [← tick_acknowledge first, same, tick_acknowledge]
    rw [outcome_run_succ, outcome_run_succ]
    exact Outcome.acknowledged_andThen ticks inductionHypothesis

theorem run_acknowledge (machine : Machine) (count : Nat) :
    (machine.acknowledge.run count).outcome.acknowledged =
      (machine.run count).outcome.acknowledged :=
  run_congr count rfl

end Machine

/-! ### Frames without keys -/

/-- What is told of ticks in the end: all that they had to say, and what the main loop says if
the last one has faulted. -/
def Outcome.told (outcome : Outcome) : List Log.Record :=
  outcome.log ++ match outcome.fault with
    | some fault => Session.faultReport fault outcome.machine
    | none => []

theorem Outcome.told_acknowledged (outcome : Outcome) :
    outcome.acknowledged.told = outcome.told := by
  obtain ⟨fault, machine, log⟩ := outcome
  cases fault <;> rfl

theorem Outcome.told_after (log : List Log.Record) (outcome : Outcome) :
    (after log outcome).told = log ++ outcome.told :=
  List.append_assoc _ _ _

namespace Session

/-- A session after its frames. -/
def ending (session : Session) (results : List FrameResult) : Session :=
  (results.getLast?.map FrameResult.session).getD session

theorem ending_cons (session : Session) (result : FrameResult) (rest : List FrameResult) :
    session.ending (result :: rest) = result.session.ending rest := by
  unfold ending
  rw [List.getLast?_cons]
  cases rest.getLast? <;> rfl

/-- A session between two frames: the flag is down and the tone is in line. -/
def settled (machine : Machine) (frames : Nat) : Session :=
  ⟨machine.acknowledge, ⟨machine.beeping⟩, frames⟩

theorem settled_congr {first second : Machine} (same : first.acknowledge = second.acknowledge)
    (frames : Nat) : settled first frames = settled second frames := by
  rw [settled, settled, ← first.beeping_acknowledge, same, second.beeping_acknowledge]

section Idle

variable {host : Host} (instructions : Nat) (session : Session)

theorem play_idle_cons (count : Nat) :
    session.play host instructions (List.replicate (count + 1) []) =
      let result := session.step host instructions []
      if result.fault.isSome then [result]
      else result :: result.session.play host instructions (List.replicate count []) := by
  have opens : (session.step host instructions []).closed = false := by
    unfold step
    dsimp only
    split <;> rfl
  rw [List.replicate_succ, play]
  simp only [opens, Bool.or_false]

theorem play_idle_of_fault {fault : Fault} (count : Nat)
    (fails : (session.machine.run instructions).outcome.fault = some fault) :
    ∃ session', session.play host instructions (List.replicate (count + 1) []) =
      [⟨session', (session.machine.run instructions).outcome.told, [], some fault, false⟩] := by
  have same : Frame.apply [] session.machine = session.machine := rfl
  rw [play_idle_cons, step, same, Outcome.told, fails]
  exact ⟨_, rfl⟩

variable (starts : host.refuses .startDevice = false) (stops : host.refuses .stopDevice = false)

include starts stops

theorem play_idle_of_none (count : Nat)
    (succeeds : (session.machine.run instructions).outcome.fault = none) :
    ∃ events,
      let after := settled (session.machine.run instructions).outcome.machine (session.frames + 1)
      session.play host instructions (List.replicate (count + 1) []) =
        ⟨after, (session.machine.run instructions).outcome.log, events, none, false⟩ ::
          after.play host instructions (List.replicate count []) := by
  have same : Frame.apply [] session.machine = session.machine := rfl
  rw [play_idle_cons, step, same, succeeds]
  dsimp only
  rw [sound_of_granted starts stops, redraw_eq, List.append_nil]
  exact ⟨_, rfl⟩

/-- Frames without keys make the ticks of one run: they say what it says, and fault if it
does. -/
theorem play_idle (count : Nat) :
    let results := session.play host instructions (List.replicate count [])
    let outcome := (session.machine.run (instructions * count)).outcome
    results.flatMap FrameResult.log = outcome.told ∧
      (results.any fun result => result.fault.isSome) = outcome.fault.isSome := by
  induction count generalizing session with
  | zero => exact ⟨rfl, rfl⟩
  | succ count inductionHypothesis =>
    dsimp only
    rw [Machine.outcome_run_mul_succ]
    cases ends : (session.machine.run instructions).outcome.fault with
    | some fault =>
      obtain ⟨session', played⟩ := session.play_idle_of_fault instructions count ends
      rw [played, Outcome.andThen_of_fault ends, ends]
      simp
    | none =>
      obtain ⟨events, played⟩ := session.play_idle_of_none instructions starts stops count ends
      -- The next frames begin with the flag down, which the run knows nothing of.
      have same := (session.machine.run instructions).outcome.machine.run_acknowledge
        (instructions * count)
      obtain ⟨logs, faults⟩ := inductionHypothesis
        (settled (session.machine.run instructions).outcome.machine (session.frames + 1))
      rw [← Outcome.told_acknowledged, settled, same, Outcome.told_acknowledged] at logs
      rw [← Outcome.fault_acknowledged, settled, same, Outcome.fault_acknowledged] at faults
      rw [played, Outcome.andThen_of_none ends, Outcome.told_after, ← logs, Outcome.fault_after,
        ← faults]
      exact ⟨rfl, rfl⟩

/-- After frames that went through, the flag is down and the tone is in line. -/
theorem ending_play_idle (count : Nat)
    (succeeds : (session.machine.run (instructions * (count + 1))).outcome.fault = none) :
    session.ending (session.play host instructions (List.replicate (count + 1) [])) =
      settled (session.machine.run (instructions * (count + 1))).outcome.machine
        (session.frames + (count + 1)) := by
  induction count generalizing session with
  | zero =>
    rw [Nat.zero_add, Nat.mul_one] at succeeds ⊢
    obtain ⟨events, played⟩ := session.play_idle_of_none instructions starts stops 0 succeeds
    rw [played]
    rfl
  | succ count inductionHypothesis =>
    rw [Machine.outcome_run_mul_succ] at succeeds ⊢
    cases ends : (session.machine.run instructions).outcome.fault with
    | some fault =>
      rw [Outcome.andThen_of_fault ends, ends] at succeeds
      cases succeeds
    | none =>
      rw [Outcome.andThen_of_none ends] at succeeds ⊢
      obtain ⟨events, played⟩ :=
        session.play_idle_of_none instructions starts stops (count + 1) ends
      have same := (session.machine.run instructions).outcome.machine.run_acknowledge
        (instructions * (count + 1))
      have later := inductionHypothesis
        (settled (session.machine.run instructions).outcome.machine (session.frames + 1))
        (by rw [← Outcome.fault_acknowledged, settled, same]; exact succeeds)
      have frames : session.frames + 1 + (count + 1) = session.frames + (count + 1 + 1) := by
        omega
      rw [played, ending_cons, later, ← frames]
      exact settled_congr (congrArg Outcome.machine same) _

end Idle

end Session

/-! ### Sessions of the program -/

/-- The corners of a drawing. -/
def Event.corners? : Event → Option (List Vertex)
  | draw _ _ corners => some corners
  | _ => none

/-- What the last drawing among events shows, if there is one. -/
def lastPicture? (events : List Event) : Option (List Vertex) :=
  (events.filter Event.isDraw).getLast?.bind Event.corners?

namespace Invocation

/-- A session after its last frame. -/
def ending (invocation : Invocation) (image : List UInt8) : Session :=
  (Session.start (invocation.machine image)).ending (invocation.results image)

/-- Two sessions of one program deal equally many ticks out to frames without keys, on a host
that refuses nothing. -/
structure Redeals (image : List UInt8) (first second : Invocation) : Prop where
  plays : first.Plays image ∧ second.Plays image
  seed : first.seed = second.seed
  host : first.host = second.host
  path : first.path = second.path
  debug : first.options.debug = second.options.debug
  granted : ∀ call, first.host.refuses call = false
  idle : ∀ frame ∈ first.frames ++ second.frames, frame = []
  ticks : first.options.instructionsPerFrame * first.frames.length =
    second.options.instructionsPerFrame * second.frames.length

section Plays

variable {invocation : Invocation} {image : List UInt8}

/-- When a session that went through is over, the window shows what is on the screen, unless
there was no frame. -/
theorem lastPicture?_run (plays : invocation.Plays image)
    (success : invocation.run.exit = .success) :
    lastPicture? invocation.run.events =
      if invocation.frames.isEmpty then none
      else some (invocation.ending image).machine.display.picture := by
  have opening : openingEvents.filter Event.isDraw = [] := by decide
  have closing : closingEvents.filter Event.isDraw = [] := by decide
  have frames : (invocation.results image).isEmpty = invocation.frames.isEmpty :=
    Session.isEmpty_play _ _ _ _
  rw [lastPicture?, (run_of_plays plays).1, List.filter_append, List.filter_append, opening,
    closing, List.nil_append, List.append_nil, ← frames]
  cases last : (invocation.results image).getLast? with
  | none =>
    rw [List.getLast?_eq_none_iff.mp last]
    rfl
  | some result =>
    have member := List.mem_of_getLast? last
    have clean : result.fault = none := by
      simpa using List.any_eq_false.mp ((exit_of_plays plays).mp success) result member
    have found := last
    rw [List.getLast?_eq_getElem?] at found
    obtain ⟨earlier, -, drawn⟩ :=
      Session.last_draw (invocation.updated_machine plays.fits) found clean
    have whole : (invocation.results image).take ((invocation.results image).length - 1 + 1) =
        invocation.results image := List.take_of_length_le (by omega)
    unfold results at whole
    rw [results, whole] at drawn
    have some : (invocation.results image).isEmpty = false :=
      List.isEmpty_eq_false_iff_exists_mem.mpr ⟨result, member⟩
    rw [some, ending, Session.ending, last]
    exact congrArg (·.bind Event.corners?) drawn

end Plays

/-- All the ticks of a session, made in a row. -/
def ticked (invocation : Invocation) (image : List UInt8) : Outcome :=
  ((invocation.machine image).run
    (invocation.options.instructionsPerFrame * invocation.frames.length)).outcome

section Idle

variable {invocation : Invocation} {image : List UInt8} (plays : invocation.Plays image)
  (granted : ∀ call, invocation.host.refuses call = false)
  (idle : ∀ frame ∈ invocation.frames, frame = [])

include granted idle

/-- Of a session without keys, what is told and whether it goes through is settled by its ticks
alone. -/
theorem results_idle :
    (invocation.results image).flatMap FrameResult.log = (invocation.ticked image).told ∧
      ((invocation.results image).any fun result => result.fault.isSome) =
        (invocation.ticked image).fault.isSome := by
  have frames : invocation.frames = List.replicate invocation.frames.length [] :=
    List.eq_replicate_of_mem idle
  have played := Session.play_idle invocation.options.instructionsPerFrame
    (Session.start (invocation.machine image)) (granted _) (granted _) invocation.frames.length
  rw [← frames] at played
  exact played

theorem ending_idle (succeeds : (invocation.ticked image).fault = none) :
    invocation.ending image =
      if invocation.frames.isEmpty then Session.start (invocation.machine image)
      else Session.settled (invocation.ticked image).machine invocation.frames.length := by
  have frames : invocation.frames = List.replicate invocation.frames.length [] :=
    List.eq_replicate_of_mem idle
  unfold ticked at succeeds ⊢
  unfold ending results
  cases count : invocation.frames.length with
  | zero =>
    rw [List.eq_nil_of_length_eq_zero count]
    rfl
  | succ count =>
    rw [count] at frames succeeds
    have played := Session.ending_play_idle invocation.options.instructionsPerFrame
      (Session.start (invocation.machine image)) (granted _) (granted _) _ succeeds
    rw [frames, played]
    simp [Session.start]

include plays

theorem exit_idle : invocation.run.exit = .success ↔ (invocation.ticked image).fault = none := by
  rw [exit_of_plays plays, (results_idle granted idle).2]
  exact Option.isSome_eq_false_iff.trans Option.isNone_iff_eq_none

end Idle

namespace Redeals

variable {image : List UInt8} {first second : Invocation} (redeals : Redeals image first second)

include redeals

theorem symm : Redeals image second first where
  plays := redeals.plays.symm
  seed := redeals.seed.symm
  host := redeals.host.symm
  path := redeals.path.symm
  debug := redeals.debug.symm
  granted := redeals.host ▸ redeals.granted
  idle frame member := redeals.idle frame (List.mem_append.mpr (List.mem_append.mp member).symm)
  ticks := redeals.ticks.symm

theorem machine : first.machine image = second.machine image := by
  rw [Invocation.machine, redeals.seed, Invocation.machine]

theorem ticked : first.ticked image = second.ticked image := by
  rw [Invocation.ticked, redeals.machine, redeals.ticks, Invocation.ticked]

theorem idle_first : ∀ frame ∈ first.frames, frame = [] :=
  fun frame member => redeals.idle frame (List.mem_append_left _ member)

/-- As there are ticks in every frame, a session without frames has only sessions without frames
beside it. -/
theorem isEmpty_second (none : first.frames.isEmpty = true) : second.frames.isEmpty = true := by
  have ticks := redeals.ticks
  have some := second.one_le_instructionsPerFrame
  rw [List.isEmpty_iff.mp none, List.length_nil, Nat.mul_zero, eq_comm, Nat.mul_eq_zero] at ticks
  exact List.isEmpty_iff_length_eq_zero.mpr (ticks.resolve_left (Nat.ne_of_gt some))

theorem isEmpty : first.frames.isEmpty = second.frames.isEmpty :=
  Bool.eq_iff_iff.mpr ⟨redeals.isEmpty_second, redeals.symm.isEmpty_second⟩

end Redeals

/-- Where frames begin and end makes no difference to how a session without keys ends. -/
theorem partition_immaterial {image : List UInt8} {first second : Invocation}
    (redeals : Redeals image first second) :
    first.run.exit.code = second.run.exit.code ∧ first.run.log = second.run.log ∧
      (first.run.exit.code = 0 →
        (first.ending image).machine = (second.ending image).machine ∧
        (first.ending image).tone.sounding = (second.ending image).tone.sounding ∧
        lastPicture? first.run.events = lastPicture? second.run.events) := by
  have ticked := redeals.ticked
  obtain ⟨plays, plays'⟩ := redeals.plays
  obtain ⟨told, faults⟩ := results_idle redeals.granted redeals.idle_first
  obtain ⟨told', faults'⟩ := results_idle redeals.symm.granted redeals.symm.idle_first
  have exit : first.run.exit = second.run.exit := by
    rw [(run_of_plays plays).2, (run_of_plays plays').2, faults, faults', ticked]
  refine ⟨congrArg Exit.code exit, ?_, fun ends => ?_⟩
  · rw [log_of_plays plays, log_of_plays plays', told, told', ticked, level, level, loadRecords,
      loadRecords, redeals.path, redeals.debug, redeals.host]
  · have success := Exit.code_eq_zero_iff.mp ends
    have clean := (exit_idle plays redeals.granted redeals.idle_first).mp success
    have ending := ending_idle redeals.granted redeals.idle_first clean
    have ending' := ending_idle redeals.symm.granted redeals.symm.idle_first (ticked ▸ clean)
    rw [lastPicture?_run plays success, lastPicture?_run plays' (exit ▸ success), ending, ending',
      ticked, redeals.isEmpty, redeals.machine]
    cases second.frames.isEmpty with
    | true => exact ⟨rfl, rfl, rfl⟩
    | false => exact ⟨rfl, rfl, rfl⟩

/-- Six ticks that sound the tone and draw a digit over and over, in three frames and in two. -/
theorem partition_immaterial_six_ticks :
    let image : List UInt8 := [0x60, 0x05, 0xF0, 0x18, 0xD0, 0x05, 0x12, 0x04]
    let start (instructions : String) (frames : List Frame) : Invocation := {
      arguments := ["INVADERS", instructions]
      files := fun path => if path = "INVADERS" then some (.file image) else none
      assets := "assets"
      host := .willing
      frames := frames
      seed := 7 }
    let first := start "2" [[], [], []]
    let second := start "3" [[], []]
    Redeals image first second ∧ first.run.exit.code = 0 ∧ second.run.exit.code = 0 ∧
      first.run.log = second.run.log ∧
      (first.ending image).machine = (second.ending image).machine ∧
      (first.ending image).tone.sounding = true ∧ (second.ending image).tone.sounding = true ∧
      lastPicture? first.run.events = lastPicture? second.run.events := by
  intro image start first second
  have plays : first.Plays image :=
    ⟨by decide +kernel, by decide +kernel, rfl, by decide, by simp [first, start]⟩
  have plays' : second.Plays image :=
    ⟨by decide +kernel, by decide +kernel, rfl, by decide, by simp [second, start]⟩
  have redeals : Redeals image first second :=
    ⟨⟨plays, plays'⟩, rfl, rfl, by decide +kernel, by decide +kernel, fun _ => rfl, by decide,
      by decide +kernel⟩
  obtain ⟨exit, log, endings⟩ := partition_immaterial redeals
  obtain ⟨clean, beeping⟩ : (first.ticked image).fault = none ∧
      (first.ticked image).machine.beeping = true := by
    decide +kernel
  have ends : first.run.exit.code = 0 :=
    Exit.code_eq_zero_iff.mpr ((exit_idle plays redeals.granted redeals.idle_first).mpr clean)
  obtain ⟨machine, tone, picture⟩ := endings ends
  have sounding : (first.ending image).tone.sounding = true := by
    rw [ending_idle redeals.granted redeals.idle_first clean]
    exact beeping
  exact ⟨redeals, ends, exit ▸ ends, log, machine, sounding, tone ▸ sounding, picture⟩

end Invocation

end Chip8
