/-
How the program ends. It ends well exactly if everything goes well that it depends on: the
command line, the file, and, if the file is played, the five things that the host has to grant
before the first frame and all the ticks. The file is the one of the name that was given or,
failing that, the one of that name among the assets, and all of it has to be read. How the
program ends never depends on whether the tone could be started or stopped. If it does not end
well it says so in the log and prints nothing, so no failure is silent and nothing is made of
half a file. The condition on the ticks comes from the schedule of the main loop; all others are
read off the courses that the program can take.
-/

import Chip8.Proofs.Courses
import Chip8.Proofs.Schedule

namespace Chip8

/-! ### Failing openly -/

/-- Records of things that went wrong are shown whatever the command line asks for. -/
theorem shownAt_level {record : Log.Record} (options : Options)
    (wrong : record.severity = .error) : record.shownAt (Invocation.level options) = true := by
  unfold Log.Record.shownAt Invocation.level
  rw [wrong]
  split <;> rfl

namespace Activity

/-- An activity that fails puts nothing out and says what went wrong. -/
def FailsOpenly (activity : Activity) : Prop :=
  activity.exit = .failure →
    activity.output = [] ∧ ∃ record ∈ activity.log, record.severity = .error

theorem failsOpenly_of_mem {log : List Log.Record} (events : List Event) (exit : Exit)
    {record : Log.Record} (said : record ∈ log) (wrong : record.severity = .error) :
    FailsOpenly ⟨[], log, events, exit⟩ :=
  fun _ => ⟨rfl, record, said, wrong⟩

theorem FailsOpenly.after {activity : Activity} (openly : activity.FailsOpenly)
    (log : List Log.Record) (events : List Event) :
    (Activity.after log events activity).FailsOpenly := by
  intro fails
  obtain ⟨outputless, record, said, wrong⟩ := openly fails
  exact ⟨outputless, record, List.mem_append_right log said, wrong⟩

theorem FailsOpenly.shownAt {activity : Activity} (openly : activity.FailsOpenly)
    (options : Options) : (activity.shownAt (Invocation.level options)).FailsOpenly := by
  intro fails
  obtain ⟨outputless, record, said, wrong⟩ := openly fails
  exact ⟨outputless, record, List.mem_filter.mpr ⟨said, shownAt_level options wrong⟩, wrong⟩

/-- Playing says what it was refused, and what is done with what it was granted says the rest. -/
theorem FailsOpenly.withWindow_withSpeaker {host : Host} {body : Activity}
    (openly : body.FailsOpenly) :
    (withWindow host (withSpeaker host body)).FailsOpenly := by
  refine withWindow_withSpeaker_cases (motive := FailsOpenly) host body
    (fun _ => failsOpenly_of_mem _ _ List.mem_cons_self rfl)
    (fun _ _ => failsOpenly_of_mem _ _ List.mem_cons_self rfl)
    (fun _ _ _ => failsOpenly_of_mem _ _ List.mem_cons_self rfl)
    (fun _ _ _ _ => failsOpenly_of_mem _ _ (List.mem_append_right _ List.mem_cons_self) rfl)
    (fun _ _ _ _ _ => failsOpenly_of_mem _ _ (List.mem_append_right _ List.mem_cons_self) rfl)
    fun _ fails => ?_
  obtain ⟨outputless, record, said, wrong⟩ := openly fails
  exact ⟨outputless, record,
    List.mem_append_right _ (List.mem_cons_of_mem _ said), wrong⟩

end Activity

namespace Session

/-- A frame with a tick that faults says so. -/
theorem exists_error_of_fault {host : Host} {instructions : Nat} {session : Session}
    {frame : Frame} (faults : (session.step host instructions frame).fault.isSome = true) :
    ∃ record ∈ (session.step host instructions frame).log, record.severity = .error := by
  unfold step at faults ⊢
  dsimp only at faults ⊢
  split at faults
  · exact ⟨_, List.mem_append_right _ List.mem_cons_self, rfl⟩
  · cases faults

theorem failsOpenly_play (host : Host) (instructions : Nat) (session : Session)
    (frames : List Frame) :
    (Activity.ofFrames (session.play host instructions frames)).FailsOpenly := by
  intro fails
  unfold Activity.ofFrames at fails ⊢
  dsimp only at fails ⊢
  split at fails
  · next faulty =>
    obtain ⟨result, played, faults⟩ := List.any_eq_true.mp faulty
    obtain ⟨place, found⟩ := List.mem_iff_getElem?.mp played
    obtain ⟨frame, tone, -, rfl⟩ := eq_of_getElem?_play host instructions found
    obtain ⟨record, said, wrong⟩ := exists_error_of_fault faults
    exact ⟨rfl, record, List.mem_flatMap.mpr ⟨_, played, said⟩, wrong⟩
  · cases fails

end Session

namespace Invocation

theorem failsOpenly_run (invocation : Invocation) : invocation.run.FailsOpenly := by
  refine invocation.run_cases (motive := Activity.FailsOpenly) ?rejected ?unread ?listed
    ?oversized ?loaded
  case rejected =>
    exact fun _ _ => (Activity.failsOpenly_of_mem _ _ List.mem_cons_self rfl).shownAt _
  case unread =>
    exact fun _ _ _ => (Activity.failsOpenly_of_mem _ _ List.mem_cons_self rfl).shownAt _
  case listed =>
    intro image _ _ _ fails
    cases fails
  case oversized =>
    exact fun image _ _ _ _ => (Activity.failsOpenly_of_mem _ _
      (List.mem_cons_of_mem _ List.mem_cons_self) rfl).shownAt _
  case loaded =>
    exact fun image _ => (((Session.failsOpenly_play _ _ _ _).withWindow_withSpeaker).after
      _ _).shownAt _

/-! ### Ending well -/

/-- The path of the program's file among the assets: it is in their directory `roms`, unless its
name begins at the root of the machine. -/
def romAsset (invocation : Invocation) : String :=
  let assets := invocation.assets
  let name := invocation.options.rom
  if name.toList.head? = some '/' then name
  else if assets = "" ∨ assets.toList.getLast? = some '/' then assets ++ "roms/" ++ name
  else assets ++ "/roms/" ++ name

/-- The file of the program is there, can be opened and measured, and all its bytes are read. -/
structure ReadsAll (invocation : Invocation) (image : List UInt8) : Prop where
  /-- It is the file of the name that was given, or, if there is no such file, the one among the
  assets. A directory of that name is no file. -/
  found : invocation.files invocation.options.rom = some (.file image) ∨
    (∀ contents, invocation.files invocation.options.rom ≠ some (.file contents)) ∧
      invocation.files invocation.romAsset = some (.file image)
  opens : invocation.host.refuses .openFile = false
  seeks : invocation.host.refuses .seekEnd = false
  measures : invocation.host.refuses .measure = false
  whole : (invocation.host.gives image.length).val = image.length

/-- All that has to go well goes well. -/
def Succeeds (invocation : Invocation) : Prop :=
  (Options.parse invocation.arguments).complaint = none ∧
    ∃ image, invocation.ReadsAll image ∧
      ("--disassemble" ∈ invocation.arguments ∨
        image.length ≤ 3584 ∧
          (∀ call ∈ [HostCall.startWindows, .openWindow, .loadFunctions, .makeWaveform,
            .openDevice], invocation.host.refuses call = false) ∧
          ∀ frame < polls invocation.frames,
            ∀ tick < invocation.options.instructionsPerFrame,
              (invocation.atTick image frame tick).tick.fault = none)

section Ending

variable {invocation : Invocation} {image : List UInt8}

/-- Where the program looks for its file, there is the one of the given name if there is one, and
else the one among the assets. -/
theorem files_path_iff :
    invocation.files invocation.path = some (.file image) ↔
      invocation.files invocation.options.rom = some (.file image) ∨
        (∀ contents, invocation.files invocation.options.rom ≠ some (.file contents)) ∧
          invocation.files invocation.romAsset = some (.file image) := by
  unfold path romPath
  split
  · next named =>
    obtain ⟨contents, there⟩ := FileSystem.isFile_iff.mp named
    exact (or_iff_left fun elsewhere => elsewhere.1 contents there).symm
  · next unnamed =>
    have absent (contents : List UInt8) :
        invocation.files invocation.options.rom ≠ some (.file contents) :=
      fun there => unnamed (FileSystem.isFile_iff.mpr ⟨contents, there⟩)
    rw [assetPath_eq, or_iff_right (absent image), and_iff_right absent]
    rfl

theorem readsAll_iff :
    invocation.ReadsAll image ↔
      readRom invocation.files invocation.host invocation.path = .ok image := by
  rw [readRom_eq_ok_iff, files_path_iff]
  exact ⟨fun reads => ⟨reads.found, reads.opens, reads.seeks, reads.measures, reads.whole⟩,
    fun ⟨found, opens, seeks, measures, whole⟩ => ⟨found, opens, seeks, measures, whole⟩⟩

theorem disassemble_options_iff
    (accepted : (Options.parse invocation.arguments).complaint = none) :
    invocation.options.disassemble = true ↔ "--disassemble" ∈ invocation.arguments :=
  (Options.disassemble_parseFrom_iff accepted).trans (or_iff_right Bool.false_ne_true)

/-- Playing does not end well if it is refused anything on the way to the first frame. -/
theorem granted_of_success (success : (invocation.performance image).exit = .success) :
    ∀ call ∈ [HostCall.startWindows, .openWindow, .loadFunctions, .makeWaveform, .openDevice],
      invocation.host.refuses call = false := by
  revert success
  refine Activity.withWindow_withSpeaker_cases (motive := fun activity =>
    activity.exit = .success → _) invocation.host _
    ?_ ?_ ?_ ?_ ?_ fun granted _ => granted
  · exact fun _ success => by cases success
  · exact fun _ _ success => by cases success
  · exact fun _ _ _ success => by cases success
  · exact fun _ _ _ _ success => by cases success
  · exact fun _ _ _ _ _ success => by cases success

/-- The program ends well if all that has to go well goes well. -/
theorem success_of_succeeds (succeeds : invocation.Succeeds) :
    invocation.run.exit = .success := by
  obtain ⟨accepted, image, reads, listed | ⟨fits, granted, ticks⟩⟩ := succeeds
  · rw [run_of_listed accepted (readsAll_iff.mp reads)
      ((disassemble_options_iff accepted).mpr listed)]
    rfl
  · cases played : invocation.options.disassemble with
    | true =>
      rw [run_of_listed accepted (readsAll_iff.mp reads) played]
      rfl
    | false =>
      have plays : invocation.Plays image :=
        ⟨accepted, played, readsAll_iff.mp reads, fits, granted⟩
      exact Exit.code_eq_zero_iff.mp ((schedule plays).completes ticks).2.2

/-- The program ends well only if all that has to go well goes well. -/
theorem succeeds_of_success (success : invocation.run.exit = .success) :
    invocation.Succeeds := by
  revert success
  refine invocation.run_cases (motive := fun activity => activity.exit = .success → _) ?rejected
    ?unread ?listed ?oversized ?loaded
  case rejected => exact fun _ _ success => by cases success
  case unread => exact fun _ _ _ success => by cases success
  case listed =>
    exact fun image accepted reads listed _ =>
      ⟨accepted, image, readsAll_iff.mpr reads,
        Or.inl ((disassemble_options_iff accepted).mp listed)⟩
  case oversized => exact fun _ _ _ _ _ success => by cases success
  case loaded =>
    intro image loads success
    have granted := granted_of_success success
    have plays : invocation.Plays image :=
      ⟨loads.accepted, loads.played, loads.reads, loads.fits, granted⟩
    refine ⟨loads.accepted, image, readsAll_iff.mpr loads.reads,
      Or.inr ⟨loads.fits, granted, Classical.not_not.mp fun stops => ?_⟩⟩
    obtain ⟨-, -, -, -, -, -, -, -, -, fails⟩ := (schedule plays).halts stops
    rw [run_of_loads loads, success] at fails
    cases fails

theorem exit_eq_success_iff (invocation : Invocation) :
    invocation.run.exit = .success ↔ invocation.Succeeds :=
  ⟨succeeds_of_success, success_of_succeeds⟩

/-- Of a file that is not read as a whole, nothing is listed and nothing is played. -/
theorem idle_of_unread (unread : ∀ image, ¬invocation.ReadsAll image) :
    invocation.run.output = [] ∧ invocation.run.events = [] := by
  refine invocation.run_cases (motive := fun activity =>
    activity.output = [] ∧ activity.events = []) ?rejected ?unread ?listed ?oversized ?loaded
  case rejected => exact fun _ _ => ⟨rfl, rfl⟩
  case unread => exact fun _ _ _ => ⟨rfl, rfl⟩
  case listed => exact fun image _ reads _ => (unread image (readsAll_iff.mpr reads)).elim
  case oversized => exact fun _ _ _ _ _ => ⟨rfl, rfl⟩
  case loaded => exact fun image loads => (unread image (readsAll_iff.mpr loads.reads)).elim

/-- What has to go well has nothing to do with starting and stopping the tone. -/
theorem Succeeds.of_agrees (succeeds : invocation.Succeeds) {refuses : HostCall → Bool}
    (agrees : ∀ call, call ≠ .startDevice → call ≠ .stopDevice →
      refuses call = invocation.host.refuses call) :
    Succeeds { invocation with host := { invocation.host with refuses } } := by
  obtain ⟨accepted, image, ⟨found, opens, seeks, measures, whole⟩, goes⟩ := succeeds
  refine ⟨accepted, image, ⟨found, ?_, ?_, ?_, whole⟩, goes.imp_right fun
    ⟨fits, granted, ticks⟩ => ⟨fits, fun call asked => ?_, ticks⟩⟩
  · exact (agrees _ (by decide) (by decide)).trans opens
  · exact (agrees _ (by decide) (by decide)).trans seeks
  · exact (agrees _ (by decide) (by decide)).trans measures
  · have apart : ∀ call ∈ [HostCall.startWindows, .openWindow, .loadFunctions, .makeWaveform,
        .openDevice], call ≠ .startDevice ∧ call ≠ .stopDevice := by
      decide
    exact (agrees call (apart call asked).1 (apart call asked).2).trans (granted call asked)

end Ending

/-- How the program ends, and what it leaves behind if it does not end well. -/
structure ExitStatus (invocation : Invocation) : Prop where
  success : invocation.run.exit.code = 0 ↔ invocation.Succeeds
  /-- A file of any size can be listed, and the host is not asked for anything. -/
  listed : ∀ image, (Options.parse invocation.arguments).complaint = none →
    invocation.ReadsAll image → "--disassemble" ∈ invocation.arguments →
    invocation.run.output = listing 0x200 image ∧ invocation.run.events = []
  /-- No failure is silent. -/
  failure : ¬invocation.Succeeds →
    invocation.run.exit.code = 1 ∧ invocation.run.output = [] ∧
      ∃ record ∈ invocation.run.log, record.severity = .error
  /-- Nothing is made of a part of a file. -/
  unread : (∀ image, ¬invocation.ReadsAll image) →
    invocation.run.output = [] ∧ invocation.run.events = []
  /-- It is all the same whether the tone can be started and stopped. -/
  tone : ∀ refuses : HostCall → Bool,
    (∀ call, call ≠ .startDevice → call ≠ .stopDevice →
      refuses call = invocation.host.refuses call) →
    ({ invocation with host := { invocation.host with refuses } } : Invocation).run.exit =
      invocation.run.exit

/-- The exit status of the program is settled by what it was given, whatever that is. -/
theorem exit_status_settled (invocation : Invocation) : invocation.ExitStatus where
  success := Exit.code_eq_zero_iff.trans invocation.exit_eq_success_iff
  listed image accepted reads asked := by
    rw [run_of_listed accepted (readsAll_iff.mp reads)
      ((disassemble_options_iff accepted).mpr asked)]
    exact ⟨rfl, rfl⟩
  failure fails := by
    have failure : invocation.run.exit = .failure := by
      cases ends : invocation.run.exit with
      | success => exact (fails (invocation.exit_eq_success_iff.mp ends)).elim
      | failure => rfl
    rw [failure]
    exact ⟨rfl, invocation.failsOpenly_run failure⟩
  unread := idle_of_unread
  tone refuses agrees := by
    have same : ({ invocation with host := { invocation.host with refuses } } :
        Invocation).run.exit = .success ↔ invocation.run.exit = .success := by
      rw [exit_eq_success_iff, exit_eq_success_iff]
      refine ⟨fun succeeds => ?_, fun succeeds => succeeds.of_agrees agrees⟩
      have back := succeeds.of_agrees fun call start stop => (agrees call start stop).symm
      exact back
    cases ends : invocation.run.exit with
    | success => exact same.mpr ends
    | failure =>
      cases other : Activity.exit _ with
      | success => cases (same.mp other).symm.trans ends
      | failure => rfl

/-- A name that is that of a directory, and a file among the assets: it is listed if all its bytes
come, and if one of the two does not, the program fails and says so. -/
theorem exit_status_settled_among_assets :
    let image : List UInt8 := [0x00, 0xE0]
    let whole : Invocation := {
      arguments := ["games", "--disassemble"]
      files := fun path =>
        if path = "games" then some .directory
        else if path = "assets/roms/games" then some (.file image)
        else none
      assets := "assets"
      host := .willing
      frames := []
      seed := 7 }
    let halved := { whole with
      host := { Host.willing with gives := fun count => ⟨count / 2, by omega⟩ } }
    (whole.Succeeds ∧ ¬halved.Succeeds) ∧
      whole.run.exit.code = 0 ∧ whole.run.output = ["0x200  00E0  CLS"] ∧
      halved.run.exit.code = 1 ∧ halved.run.output = [] ∧
      ∃ record ∈ halved.run.log, record.severity = .error := by
  intro image whole halved
  have accepted : (Options.parse whole.arguments).complaint = none := by decide
  have named : whole.files whole.options.rom = some .directory := by decide
  have among : whole.files whole.romAsset = some (.file image) := by decide
  have reads : whole.ReadsAll image := by
    refine ⟨Or.inr ⟨fun contents there => ?_, among⟩, rfl, rfl, rfl, rfl⟩
    cases named.symm.trans there
  have succeeds : whole.Succeeds := ⟨accepted, image, reads, Or.inl (by decide)⟩
  have fails : ¬halved.Succeeds := by
    rintro ⟨-, contents, ⟨found, -, -, -, came⟩, -⟩
    rcases found with there | ⟨-, there⟩
    · cases named.symm.trans there
    · cases among.symm.trans there
      exact absurd came (by decide)
  have settled := exit_status_settled whole
  have listed := settled.listed image accepted reads (by decide)
  exact ⟨⟨succeeds, fails⟩, settled.success.mpr succeeds, listed.1.trans (by decide),
    (exit_status_settled halved).failure fails⟩

end Invocation

end Chip8
