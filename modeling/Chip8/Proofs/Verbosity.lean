/-
The switch for debugging only adds to the log. Two command lines that differ in nothing but
where and how often the switch stands are read alike, up to the switch itself, and are refused
with the same complaint. The program looks at the switch once, to set the level of the log, and
the lower level shows all that the higher one does, in the same order. What it adds are records
of one severity. As long as no name from outside breaks a line, each record is a line with its
severity at the front, so the added records can be told from the text alone and taken out of it.
-/

import Chip8.Proofs.Lines

namespace Chip8

/-! ### The command line -/

namespace Options

/-- What was read of a command line, with the switch set. -/
def Parse.withDebug (parse : Parse) (debug : Bool) : Parse :=
  { parse with options := { parse.options with debug := debug } }

/-- The arguments of a command line that are not the switch. -/
def undebugged (arguments : List String) : List String :=
  arguments.filter fun argument => argument ≠ "--debug"

theorem undebugged_cons {argument : String} (plain : argument ≠ "--debug")
    (rest : List String) : undebugged (argument :: rest) = argument :: undebugged rest :=
  List.filter_cons_of_pos (decide_eq_true plain)

/-- The switch can be left out of a command line wherever it stands. -/
theorem withDebug_parseFrom (options : Options) (place : Place) (arguments : List String) :
    (parseFrom options place arguments).withDebug false =
      parseFrom { options with debug := false } place (undebugged arguments) := by
  fun_induction parseFrom options place arguments with
  | case1 => rfl
  | case2 _ _ _ inductionHypothesis =>
    rw [inductionHypothesis]
    rfl
  | case3 _ _ _ _ inductionHypothesis =>
    rw [inductionHypothesis, undebugged_cons (by decide)]
    simp [parseFrom]
  | case4 _ _ _ plain other inductionHypothesis =>
    rw [inductionHypothesis, undebugged_cons plain]
    simp [parseFrom, plain, other]
  | case5 _ _ _ plain other _ found inductionHypothesis =>
    rw [inductionHypothesis, undebugged_cons plain]
    simp [parseFrom, plain, other, found]
  | case6 _ _ _ plain other unusable =>
    rw [undebugged_cons plain]
    simp [parseFrom, plain, other, unusable, Parse.withDebug]
  | case7 _ _ _ plain other =>
    rw [undebugged_cons plain]
    simp [parseFrom, plain, other, Parse.withDebug]

/-- A command line is read like the one without the switch, up to the switch. -/
theorem withDebug_parse (arguments : List String) :
    (parse arguments).withDebug false = parse (undebugged arguments) :=
  withDebug_parseFrom defaults .rom arguments

end Options

/-! ### What the program does -/

namespace Log

/-- All records but those of the finest severity. -/
def sober (records : List Record) : List Record :=
  records.filter fun record => record.severity ≠ .debug

theorem visible_info (records : List Record) : visible .info records = sober records := by
  refine List.filter_congr fun record _ => ?_
  unfold Record.shownAt
  cases record.severity <;> rfl

end Log

namespace Invocation

/-- What the program does, with all the records on the way. -/
def activity (invocation : Invocation) : Activity :=
  let parse := Options.parse invocation.arguments
  match parse.complaint with
  | some _ => .failed parse.log
  | none => invocation.follow parse.options

theorem run_eq_shownAt (invocation : Invocation) :
    invocation.run = invocation.activity.shownAt (level invocation.options) := rfl

/-- The level that options ask for shows all that is shown without the switch. -/
theorem sober_visible_level (options : Options) (records : List Log.Record) :
    Log.sober (Log.visible (level options) records) = Log.visible .info records := by
  have low : (level options).rank ≤ Log.Level.info.rank := by
    unfold level
    split <;> decide
  rw [← Log.visible_info, Log.visible_visible low]

section Inserted

variable {invocation : Invocation} {arguments : List String}
  (inserted : Options.undebugged arguments = invocation.arguments)

include inserted

theorem parse_of_inserted :
    Options.parse invocation.arguments = (Options.parse arguments).withDebug false := by
  rw [← inserted, Options.withDebug_parse]

theorem level_of_inserted : level invocation.options = .info := by
  rw [options, parse_of_inserted inserted]
  rfl

/-- The switch makes no difference to what the program does, before anything is shown of it. -/
theorem activity_of_inserted :
    { invocation with arguments := arguments }.activity = invocation.activity := by
  unfold activity
  rw [parse_of_inserted inserted]
  rfl

end Inserted

end Invocation

/-! ### What is written -/

namespace Log

/-- The log as it is written, a line for each record with its severity at the front. -/
def written (records : List Record) : List Char :=
  records.flatMap fun record => record.line.toList ++ ['\n']

/-- A text without the lines that have the finest severity at the front. -/
def withoutDebug (text : List Char) : List Char :=
  ['\n'].intercalate
    ((text.splitOn '\n').filter fun line => !("[debug] ".toList.isPrefixOf line))

theorem written_eq_intercalate (records : List Record) :
    written records =
      ['\n'].intercalate (records.map (fun record => record.line.toList) ++ [[]]) := by
  induction records with
  | nil => exact List.intercalate_singleton.symm
  | cons record rest inductionHypothesis =>
    have more : rest.map (fun record => record.line.toList) ++ [[]] ≠ [] := by simp
    rw [List.map_cons, List.cons_append, List.intercalate_cons_of_ne_nil more,
      ← inductionHypothesis]
    rfl

theorem Record.unbroken_line {record : Record} (plain : Unbroken record.text) :
    Unbroken record.line := by
  refine .append ?_ plain
  cases record.severity <;> decide

/-- The lines of a log whose records take one line each. After the last break there is no more
of it. -/
theorem splitOn_written {records : List Record} (lined : Lined records) :
    (written records).splitOn '\n' = records.map (fun record => record.line.toList) ++ [[]] := by
  rw [written_eq_intercalate]
  refine List.splitOn_intercalate '\n' (fun line among => ?_) (by simp)
  rcases List.mem_append.mp among with said | last
  · obtain ⟨record, member, rfl⟩ := List.mem_map.mp said
    exact Record.unbroken_line (lined record member)
  · rw [List.mem_singleton.mp last]
    exact List.not_mem_nil

/-- The severity of a record can be told from its line. -/
theorem Record.isPrefixOf_line (record : Record) :
    (!("[debug] ".toList.isPrefixOf record.line.toList)) = decide (record.severity ≠ .debug) := by
  obtain ⟨severity, text⟩ := record
  cases severity with
  | debug => simp [line, Severity.tag]
  | info | error => simp [line, Severity.tag, List.isPrefixOf]

/-- Taking lines out of the text is taking records out of the log. -/
theorem withoutDebug_written {records : List Record} (lined : Lined records) :
    withoutDebug (written records) = written (sober records) := by
  have last : ([[]] : List (List Char)).filter
      (fun line => !("[debug] ".toList.isPrefixOf line)) = [[]] := by
    decide
  rw [withoutDebug, splitOn_written lined, written_eq_intercalate, List.filter_append, last,
    List.filter_map]
  congr 3
  exact List.filter_congr fun record _ => record.isPrefixOf_line

end Log

namespace Invocation

theorem plain_of_inserted {invocation : Invocation} {arguments : List String}
    (inserted : Options.undebugged arguments = invocation.arguments) (plain : invocation.Plain) :
    { invocation with arguments := arguments }.Plain := by
  refine { plain with arguments := fun argument member => ?_ }
  by_cases switch : argument = "--debug"
  · rw [switch]
    decide
  · refine plain.arguments argument ?_
    rw [← inserted]
    exact List.mem_filter.mpr ⟨member, decide_eq_true switch⟩

/-- The switch for debugging only adds to the log. For any command line without it, and any way
to put it in, any number of times, the program ends with the same exit status, puts out the same
lines and asks the same of its host in the same order; and without the records of the finest
severity its log is the log of the run without the switch. If no argument and no other name from
outside has a line break in it, the same can be said of the log as a text, and of its lines. -/
theorem debug_only_adds (invocation : Invocation) (arguments : List String)
    (inserted : arguments.filter (fun argument => argument ≠ "--debug") = invocation.arguments) :
    let traced := { invocation with arguments := arguments }
    traced.run.exit.code = invocation.run.exit.code ∧
      traced.run.output = invocation.run.output ∧
      traced.run.events = invocation.run.events ∧
      (traced.run.log.filter fun record => record.severity ≠ .debug) = invocation.run.log ∧
      (invocation.Plain →
        Log.withoutDebug (Log.written traced.run.log) = Log.written invocation.run.log) := by
  intro traced
  have same : traced.activity = invocation.activity := activity_of_inserted inserted
  have log : Log.sober traced.run.log = invocation.run.log := by
    rw [run_eq_shownAt, run_eq_shownAt, same, level_of_inserted inserted]
    exact sober_visible_level _ _
  refine ⟨?_, ?_, ?_, log, fun plain => ?_⟩
  · rw [run_eq_shownAt, run_eq_shownAt, same]
    rfl
  · rw [run_eq_shownAt, run_eq_shownAt, same]
    rfl
  · rw [run_eq_shownAt, run_eq_shownAt, same]
    rfl
  · rw [Log.withoutDebug_written (plain_of_inserted inserted plain).lined_run, log]

/-- The switch given twice, to a session that ends in a fault: two lines are added, and the lines
in which the fault repeats them are there without the switch as well. -/
theorem debug_only_adds_fault :
    let image : List UInt8 := [0x00, 0xE0, 0x00, 0xEE]
    let invocation : Invocation := {
      arguments := ["INVADERS", "2"]
      files := fun path => if path = "INVADERS" then some (.file image) else none
      assets := "assets"
      host := .willing
      frames := [[]]
      seed := 7 }
    let arguments := ["--debug", "INVADERS", "--debug", "2"]
    let traced := { invocation with arguments := arguments }
    arguments.filter (fun argument => argument ≠ "--debug") = invocation.arguments ∧
      invocation.Plain ∧
      (traced.run.log.filter fun record => record.severity = .debug) =
        [.debug "| 0x200 | CLS", .debug "| 0x202 | RET"] ∧
      (traced.run.log.filter fun record => record.severity ≠ .debug) = invocation.run.log ∧
      Log.withoutDebug (Log.written traced.run.log) = Log.written invocation.run.log := by
  intro image invocation arguments traced
  have inserted :
      arguments.filter (fun argument => argument ≠ "--debug") = invocation.arguments := by
    decide
  have plain : invocation.Plain :=
    ⟨by decide, by decide, by decide, by decide, by decide, by decide⟩
  obtain ⟨-, -, -, log, text⟩ := debug_only_adds invocation arguments inserted
  exact ⟨inserted, plain, by decide +kernel, log, text plain⟩

end Invocation

end Chip8
