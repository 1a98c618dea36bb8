/-
The log. A record has one of three severities; a level says which severities are shown.
What happens is recorded in full by whoever did it, and a level is applied only when the
records are shown, so no computation can depend on what is being looked at.
-/

namespace Chip8.Log

/-- How important a record is. -/
inductive Severity where
  | debug
  | info
  | error
  deriving DecidableEq, Repr

/-- What is shown: records of a severity and above, or none at all. -/
inductive Level where
  | debug
  | info
  | error
  | off
  deriving DecidableEq, Repr

/-- The place of a level in the order from showing all to showing none. -/
def Level.rank : Level → Nat
  | debug => 0
  | info => 1
  | error => 2
  | off => 3

/-- Whether what is meant for one level is shown at another. Nothing is ever shown that
is meant for `off`. -/
def Level.enabledAt (level current : Level) : Bool :=
  level != off && decide (current.rank ≤ level.rank)

/-- The level that a severity is meant for. -/
def Severity.level : Severity → Level
  | debug => .debug
  | info => .info
  | error => .error

/-- The mark at the start of a record's line. -/
def Severity.tag : Severity → String
  | debug => "[debug] "
  | info => "[info] "
  | error => "[error] "

/-- One entry of the log. -/
structure Record where
  severity : Severity
  text : String
  deriving DecidableEq, Repr

namespace Record

/-- A record of the finest grain. -/
def debug (text : String) : Record := ⟨.debug, text⟩

/-- A record of something worth knowing. -/
def info (text : String) : Record := ⟨.info, text⟩

/-- A record of something that went wrong. -/
def error (text : String) : Record := ⟨.error, text⟩

/-- A record as it is shown. -/
def line (record : Record) : String := record.severity.tag ++ record.text

/-- Whether a record is shown at a level. -/
def shownAt (record : Record) (current : Level) : Bool := record.severity.level.enabledAt current

end Record

/-- The records that are shown at a level. -/
def visible (current : Level) (records : List Record) : List Record :=
  records.filter fun record => record.shownAt current

/-- What is shown at a level is shown at every lower one. -/
theorem shownAt_of_rank_le {record : Record} {low high : Level} (le : low.rank ≤ high.rank)
    (shown : record.shownAt high = true) : record.shownAt low = true := by
  simp only [Record.shownAt, Level.enabledAt, Bool.and_eq_true, decide_eq_true_eq] at shown ⊢
  exact ⟨shown.1, Nat.le_trans le shown.2⟩

/-- A higher level shows a part of what a lower one shows. -/
theorem visible_visible {low high : Level} (le : low.rank ≤ high.rank) (records : List Record) :
    visible high (visible low records) = visible high records := by
  rw [visible, visible, List.filter_filter]
  refine List.filter_congr fun record _ => ?_
  rw [Bool.and_eq_left_iff_imp]
  exact shownAt_of_rank_le le

end Chip8.Log
