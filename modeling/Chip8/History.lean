/-
A history keeps the newest lines of a longer record. It has a limit on how many lines it
holds; each new line is put last and the oldest ones make way for it. A history with
limit zero keeps what it has and takes nothing in.
-/

namespace Chip8

/-- The newest lines of a record, oldest first. -/
structure History where
  lines : Array String
  limit : Nat
  deriving DecidableEq, Repr

namespace History

/-- The number of lines a machine keeps unless told otherwise. -/
def defaultLimit : Nat := 64

/-- A history with no lines yet. -/
def empty (limit : Nat) : History := ⟨#[], limit⟩

/-- The lines, oldest first. -/
def toList (history : History) : List String := history.lines.toList

/-- Takes in a line, and drops from the front until the limit is kept. -/
def add (history : History) (line : String) : History :=
  if history.limit = 0 then history
  else
    let lines := history.lines.push line
    { history with lines := lines.extract (lines.size - history.limit) lines.size }

/-- Forgets all lines and keeps the limit. -/
def clear (history : History) : History := empty history.limit

/-! ### Lines -/

@[simp] theorem limit_add (history : History) (line : String) :
    (history.add line).limit = history.limit := by
  unfold add
  split <;> rfl

theorem add_of_zero {history : History} (off : history.limit = 0) (line : String) :
    history.add line = history := by
  rw [add, if_pos off]

/-- A new line goes last, and as many lines go from the front as are over the limit. -/
theorem toList_add {history : History} (on : 0 < history.limit) (line : String) :
    (history.add line).toList =
      (history.toList ++ [line]).drop (history.toList.length + 1 - history.limit) := by
  rw [add, if_neg (Nat.ne_of_gt on)]
  simp only [toList, Array.toList_extract, List.extract_eq_take_drop, Array.size_push,
    Array.toList_push, Array.length_toList]
  exact List.take_of_length_le (by simp)

/-- A limit that is kept is kept on. -/
theorem length_add_le {history : History} (kept : history.toList.length ≤ history.limit)
    (line : String) : (history.add line).toList.length ≤ history.limit := by
  rcases Nat.eq_zero_or_pos history.limit with off | on
  · rwa [add_of_zero off]
  · rw [toList_add on, List.length_drop, List.length_append, List.length_singleton]
    omega

/-- Of all the lines that a history ever took in, it has the last ones, as many as it may. -/
theorem toList_foldl_add {history : History} (lines : List String)
    (kept : history.toList.length ≤ history.limit) :
    (lines.foldl add history).toList =
      (history.toList ++ lines).drop (history.toList.length + lines.length - history.limit) := by
  induction lines generalizing history with
  | nil => simp [Nat.sub_eq_zero_of_le kept]
  | cons line rest inductionHypothesis =>
    have later := inductionHypothesis (history.limit_add line ▸ length_add_le kept line)
    rw [List.foldl_cons, later, limit_add]
    rcases Nat.eq_zero_or_pos history.limit with off | on
    · have empty : history.toList.length = 0 := Nat.le_zero.mp (off ▸ kept)
      rw [add_of_zero off, List.drop_eq_nil_of_le, List.drop_eq_nil_of_le] <;>
        simp [off, empty]
    · have within :
          history.toList.length + 1 - history.limit ≤ (history.toList ++ [line]).length := by
        rw [List.length_append, List.length_singleton]
        omega
      rw [toList_add on, ← List.drop_append_of_le_length within, List.drop_drop,
        List.append_assoc, List.singleton_append]
      congr 1
      simp only [List.length_drop, List.length_append, List.length_cons, List.length_nil]
      omega

/-- The newest line is the one taken in last. -/
theorem getLast?_add {history : History} (on : 0 < history.limit)
    (line : String) : (history.add line).toList.getLast? = some line := by
  rw [toList_add on, List.getLast?_drop]
  simp
  omega

end History

end Chip8
