/-
One record, one line. What the program says is made of texts of its own, of numbers, of
mnemonics, and of names that came from outside: arguments, the directory of the assets and what
the host says of itself. Only these could have a line break in them. So if none of them has one,
no record has, and the log as it is shown has a line for each record. The newest instructions,
which a fault has repeated, are kept by the machine; that none of them breaks a line is an
invariant along every run.
-/

import Chip8.Proofs.Chronicle
import Chip8.Proofs.Courses
import Chip8.Proofs.Mnemonics

namespace Chip8

/-! ### Texts -/

/-- A text without a line break. -/
def Unbroken (text : String) : Prop := '\n' ∉ text.toList

instance (text : String) : Decidable (Unbroken text) := inferInstanceAs (Decidable (¬_))

theorem Unbroken.append {first second : String} (left : Unbroken first)
    (right : Unbroken second) : Unbroken (first ++ second) := by
  rw [Unbroken, String.toList_append, List.mem_append, not_or]
  exact ⟨left, right⟩

theorem unbroken_hex (width value : Nat) : Unbroken (Hex.text width value) := by
  intro among
  obtain ⟨place, same⟩ := Hex.exists_of_mem_text among
  revert place
  decide

theorem unbroken_number (value : Nat) : Unbroken (toString value) := by
  intro among
  rw [Nat.toString_eq_ofList_toDigits, String.toList_ofList] at among
  have digit := Nat.isDigit_of_mem_toDigits (by decide) (by decide) among
  revert digit
  decide

theorem unbroken_intercalate {separator : String} {texts : List String}
    (between : Unbroken separator) (all : ∀ text ∈ texts, Unbroken text) :
    Unbroken (separator.intercalate texts) := by
  induction texts with
  | nil => exact List.not_mem_nil
  | cons text rest inductionHypothesis =>
    have here := all text List.mem_cons_self
    have later := inductionHypothesis fun other member => all other (List.mem_cons_of_mem _ member)
    cases rest with
    | nil =>
      rw [String.intercalate_singleton]
      exact here
    | cons next rest =>
      rw [String.intercalate_cons_cons]
      exact .append (.append here between) later

/-! ### Lines of instructions -/

theorem Operand.unbroken_text (operand : Operand) : Unbroken operand.text := by
  cases operand with
  | register _ | byte _ | nibble _ | address _ => exact .append (by decide) (unbroken_hex _ _)
  | _ => decide

/-- The names of all operations are plain words. -/
theorem Operation.unbroken_name {operation : Operation} {fields : Fields} {name : String}
    {operands : List Operand} (written : operation.assembly fields = .instruction name operands) :
    Unbroken name := by
  cases operation <;> cases written <;> decide

theorem Operand.unbroken_texts {separator : String} (between : Unbroken separator)
    (operands : List Operand) : Unbroken (separator.intercalate (operands.map text)) := by
  refine unbroken_intercalate between fun text among => ?_
  obtain ⟨operand, -, rfl⟩ := List.mem_map.mp among
  exact operand.unbroken_text

theorem Word.unbroken_mnemonic (word : Word) : Unbroken word.mnemonic := by
  unfold Word.mnemonic Operation.mnemonic
  cases written : (Operation.ofWord word).assembly word.fields with
  | data digits =>
    rw [Assembly.text, ← Function.comp_def Operand.text Operand.nibble, ← List.map_map]
    exact Operand.unbroken_texts (by decide) _
  | instruction name operands =>
    have name := Operation.unbroken_name written
    cases operands with
    | nil => exact name
    | cons operand rest =>
      have texts := Operand.unbroken_texts (by decide : Unbroken ", ") (operand :: rest)
      exact .append (.append name (by decide)) texts

theorem unbroken_addressText (address : UInt32) : Unbroken (addressText address) :=
  .append (by decide) (unbroken_hex _ _)

theorem unbroken_traceLine (address : UInt32) {text : String} (plain : Unbroken text) :
    Unbroken (traceLine address text) :=
  .append (.append (.append (by decide) (unbroken_addressText address)) (by decide)) plain

theorem Fault.unbroken_message (fault : Fault) : Unbroken fault.message := by
  cases fault <;> decide

/-! ### The log of a machine -/

/-- Each record of a log takes one line. -/
def Log.Lined (records : List Record) : Prop := ∀ record ∈ records, Unbroken record.text

theorem Log.lined_nil : Lined [] := nofun

theorem Log.Lined.cons {record : Record} {rest : List Record} (first : Unbroken record.text)
    (later : Lined rest) : Lined (record :: rest) :=
  List.forall_mem_cons.mpr ⟨first, later⟩

theorem Log.Lined.append {first second : List Record} (left : Lined first)
    (right : Lined second) : Lined (first ++ second) :=
  List.forall_mem_append.mpr ⟨left, right⟩

theorem Log.Lined.visible {records : List Record} (lined : Lined records) (level : Level) :
    Lined (visible level records) :=
  fun record among => lined record (List.mem_of_mem_filter among)

namespace Machine

theorem unbroken_stepLine (machine : Machine) (word : Word) : Unbroken (machine.stepLine word) :=
  unbroken_traceLine _ word.unbroken_mnemonic

theorem lined_perform (origin : Address) (instruction : Instruction) (machine : Machine) :
    Log.Lined (perform origin instruction machine).log := by
  by_cases known : ∀ word, instruction ≠ .unknown word
  · rw [log_perform origin instruction machine known]
    exact Log.lined_nil
  · obtain ⟨word, rfl⟩ := Classical.not_forall_not.mp known
    exact .cons (.append (by decide) (unbroken_traceLine _ (unbroken_hex _ _))) Log.lined_nil

theorem lined_tick (machine : Machine) : Log.Lined machine.tick.log := by
  refine machine.tick_cases (motive := fun outcome => Log.Lined outcome.log)
    ?idle ?unreadable ?cornered ?performed
  case idle => exact fun _ => Log.lined_nil
  case unreadable => exact fun _ _ _ _ => Log.lined_nil
  case cornered => exact fun woken word _ _ => .cons (woken.unbroken_stepLine word) Log.lined_nil
  case performed =>
    intro woken word next _ _ _
    refine .cons (woken.unbroken_stepLine word) ?_
    rw [log_counted]
    exact lined_perform _ _ _

/-- None of the lines that a machine keeps has a line break in it. -/
def Legible (machine : Machine) : Prop := ∀ line ∈ machine.history.toList, Unbroken line

theorem legible_tick {machine : Machine} (legible : machine.Legible) :
    machine.tick.machine.Legible := by
  unfold Legible
  rw [tick_history]
  cases machine.upcoming? with
  | none => exact legible
  | some word =>
    show ∀ line ∈ (machine.history.add (machine.stepLine word)).toList, Unbroken line
    intro line among
    rcases Nat.eq_zero_or_pos machine.history.limit with off | on
    · rw [History.add_of_zero off] at among
      exact legible line among
    · rw [History.toList_add on] at among
      rcases List.mem_append.mp (List.mem_of_mem_drop among) with kept | new
      · exact legible line kept
      · rw [List.mem_singleton.mp new]
        exact machine.unbroken_stepLine word

theorem legible_respond {machine : Machine} (legible : machine.Legible) (input : Input) :
    (machine.respond input).machine.Legible := by
  cases input with
  | tick => exact legible_tick legible
  | load image =>
    rcases Nat.lt_or_ge imageLimit image.length with exceeds | fits
    · rw [respond, load_of_lt machine exceeds]
      exact legible
    · rw [respond, load_of_le machine fits]
      exact fun _ among => absurd among List.not_mem_nil
  | _ => exact legible

theorem legible_feed {machine : Machine} (legible : machine.Legible) (inputs : List Input) :
    (machine.feed inputs).Legible :=
  feed_preserves machine inputs legible fun _ input _ legible => legible_respond legible input

/-- Ticks in a row leave nothing but whole lines, in the log and in the machine. -/
theorem lined_run {machine : Machine} (legible : machine.Legible) (count : Nat) :
    Log.Lined (machine.run count).outcome.log ∧ (machine.run count).outcome.machine.Legible := by
  induction count generalizing machine with
  | zero => exact ⟨Log.lined_nil, legible⟩
  | succ count inductionHypothesis =>
    have next := legible_tick legible
    rw [run]
    dsimp only
    split
    · exact ⟨machine.lined_tick, next⟩
    · obtain ⟨rest, last⟩ := inductionHypothesis next
      exact ⟨.append machine.lined_tick rest, last⟩

end Machine

/-! ### The log of a session -/

namespace Session

theorem lined_faultReport (fault : Fault) {machine : Machine} (legible : machine.Legible) :
    Log.Lined (faultReport fault machine) := by
  refine .cons ?_ (.cons ?_ fun record among => ?_)
  · exact .append (.append (.append (by decide) (unbroken_addressText _)) (by decide))
      fault.unbroken_message
  · exact .append (.append (by decide) (unbroken_number _)) (by decide)
  · obtain ⟨line, kept, rfl⟩ := List.mem_map.mp among
    exact .append (by decide) (legible line kept)

theorem lined_sound (host : Host) (session : Session) : Log.Lined (session.sound host).2.1 := by
  unfold sound
  split
  · exact Log.lined_nil
  · dsimp only
    split <;> split
    · exact Log.lined_nil
    · exact .cons (by decide) Log.lined_nil
    · exact Log.lined_nil
    · exact .cons (by decide) Log.lined_nil

theorem lined_step (host : Host) (instructions : Nat) (session : Session) (frame : Frame)
    (legible : session.machine.Legible) :
    Log.Lined (session.step host instructions frame).log := by
  have started : (frame.apply session.machine).Legible := by
    rw [Frame.apply_eq]
    exact legible
  obtain ⟨ticks, ended⟩ := Machine.lined_run started instructions
  unfold step
  dsimp only
  split
  · exact .append ticks (lined_faultReport _ ended)
  · exact .append ticks (lined_sound host _)

theorem lined_play (host : Host) (instructions : Nat) (session : Session) (frames : List Frame)
    (legible : session.machine.Legible) :
    Log.Lined ((session.play host instructions frames).flatMap FrameResult.log) := by
  intro record among
  obtain ⟨result, played, said⟩ := List.mem_flatMap.mp among
  obtain ⟨place, found⟩ := List.mem_iff_getElem?.mp played
  obtain ⟨frame, tone, -, rfl⟩ := eq_of_getElem?_play host instructions found
  exact lined_step host instructions _ frame (Machine.legible_feed legible _) record said

end Session

/-! ### The log of the program -/

/-- The argument that a complaint is about. -/
def Complaint.argument : Complaint → String
  | badInstructionsPerFrame argument | unexpectedArgument argument => argument

theorem Complaint.unbroken_message {complaint : Complaint}
    (plain : Unbroken complaint.argument) : Unbroken complaint.message := by
  cases complaint with
  | badInstructionsPerFrame argument =>
    exact .append (.append (.append (.append (by decide) (unbroken_number _)) (by decide)) plain)
      (by decide)
  | unexpectedArgument argument => exact .append (.append (by decide) plain) (by decide)

/-- What is read of a command line is taken from its arguments. -/
theorem Options.unbroken_parseFrom {options : Options} (place : Place) {arguments : List String}
    (plain : ∀ argument ∈ arguments, Unbroken argument) (rom : Unbroken options.rom) :
    Unbroken (parseFrom options place arguments).options.rom ∧
      ∀ complaint, (parseFrom options place arguments).complaint = some complaint →
        Unbroken complaint.message := by
  fun_induction parseFrom options place arguments with
  | case1 => exact ⟨rom, fun _ about => absurd about (Option.some_ne_none _).symm⟩
  | case2 _ _ _ inductionHypothesis | case3 _ _ _ _ inductionHypothesis
  | case5 _ _ _ _ _ _ _ inductionHypothesis =>
    exact inductionHypothesis (fun other member => plain other (List.mem_cons_of_mem _ member)) rom
  | case4 _ argument _ _ _ inductionHypothesis =>
    exact inductionHypothesis (fun other member => plain other (List.mem_cons_of_mem _ member))
      (plain argument List.mem_cons_self)
  | case6 _ argument | case7 _ argument =>
    have named := plain argument List.mem_cons_self
    refine ⟨rom, fun complaint about => ?_⟩
    cases about
    exact Complaint.unbroken_message named

theorem unbroken_joinPath {directory path : String} (above : Unbroken directory)
    (below : Unbroken path) : Unbroken (joinPath directory path) := by
  unfold joinPath
  split
  · exact below
  · split
    · exact .append above below
    · exact .append (.append above (by decide)) below

theorem ReadFailure.unbroken_message (failure : ReadFailure) {path : String}
    (plain : Unbroken path) : Unbroken (failure.message path) := by
  cases failure with
  | short got size =>
    exact .append (.append (.append (.append (.append (.append (by decide) plain) (by decide))
      (unbroken_number got)) (by decide)) (unbroken_number size)) (by decide)
  | _ => exact .append (by decide) plain

/-- None of the arguments and names that a program is run on has a line break in it. -/
structure Invocation.Plain (invocation : Invocation) : Prop where
  arguments : ∀ argument ∈ invocation.arguments, Unbroken argument
  assets : Unbroken invocation.assets
  renderer : Unbroken invocation.host.renderer
  drawingVersion : Unbroken invocation.host.drawingVersion
  loaderError : Unbroken invocation.host.loaderError
  speaker : Unbroken invocation.host.speaker

namespace Invocation

variable {invocation : Invocation}

theorem Plain.unbroken_path (plain : invocation.Plain) : Unbroken invocation.path := by
  have rom := (Options.unbroken_parseFrom .rom plain.arguments
    (by decide : Unbroken Options.defaults.rom)).1
  unfold Invocation.path romPath
  split
  · exact rom
  · exact unbroken_joinPath (unbroken_joinPath plain.assets (by decide)) rom

theorem Plain.lined_drawingRecords (plain : invocation.Plain) :
    Log.Lined (drawingRecords invocation.host) :=
  .cons (.append (by decide) plain.renderer)
    (.cons (.append (by decide) plain.drawingVersion) Log.lined_nil)

theorem Plain.unbroken_readRecord (plain : invocation.Plain) (image : List UInt8) :
    Unbroken (readRecord invocation.path (.ok image)).text :=
  .append (.append (.append (by decide) (unbroken_number _)) (by decide)) plain.unbroken_path

theorem Plain.lined_performance (plain : invocation.Plain) (image : List UInt8)
    (legible : (invocation.machine image).Legible) :
    Log.Lined (invocation.performance image).log := by
  have drawing := plain.lined_drawingRecords
  refine Activity.withWindow_withSpeaker_cases (motive := fun activity => Log.Lined activity.log)
    invocation.host _
    (fun _ => .cons (by decide) Log.lined_nil)
    (fun _ _ => .cons (by decide) Log.lined_nil)
    (fun _ _ _ => .cons (.append (by decide) plain.loaderError) Log.lined_nil)
    (fun _ _ _ _ => .append drawing (.cons (by decide) Log.lined_nil))
    (fun _ _ _ _ _ => .append drawing (.cons (by decide) Log.lined_nil))
    fun _ => .append drawing (.cons (.append (by decide) plain.speaker) ?_)
  exact Session.lined_play _ _ _ _ legible

theorem legible_machine (invocation : Invocation) (image : List UInt8) :
    (invocation.machine image).Legible := by
  have created : (Machine.create invocation.seed).Legible :=
    fun _ among => absurd among List.not_mem_nil
  exact Machine.legible_respond created (.load image)

/-- Whatever course the program takes, each of its records takes one line. -/
theorem Plain.lined_run (plain : invocation.Plain) : Log.Lined invocation.run.log := by
  refine invocation.run_cases (motive := fun activity => Log.Lined activity.log) ?rejected ?unread
    ?listed ?oversized ?loaded
  case rejected =>
    intro complaint rejects
    have message := (Options.unbroken_parseFrom .rom plain.arguments
      (by decide : Unbroken Options.defaults.rom)).2 complaint rejects
    exact .visible (.cons message Log.lined_nil) _
  case unread =>
    exact fun failure _ _ =>
      .visible (.cons (failure.unbroken_message plain.unbroken_path) Log.lined_nil) _
  case listed =>
    exact fun image _ _ _ => .visible (.cons (plain.unbroken_readRecord image) Log.lined_nil) _
  case oversized =>
    intro image _ _ _ _
    refine .visible (.cons (plain.unbroken_readRecord image) (.cons ?_ (.cons ?_ Log.lined_nil))) _
    · exact .append (.append (.append (.append (by decide) (unbroken_number _)) (by decide))
        (unbroken_number _)) (by decide)
    · exact .append (.append (.append (by decide) plain.unbroken_path) (by decide))
        (Fault.unbroken_message _)
  case loaded =>
    intro image _
    refine .visible (.append (.cons (plain.unbroken_readRecord image) (.cons ?_ Log.lined_nil))
      (plain.lined_performance image (invocation.legible_machine image))) _
    exact .append (.append (by decide) (unbroken_number _)) (by decide)

end Invocation

end Chip8
