/-
A stack that holds at most `capacity` items: a row of slots and a count of those in use.
A push onto a full stack and a pop from an empty one are refused and leave the stack as
it was. A pop, and a clear, only lower the count, so the slots above it keep what was
last put there. What a stack holds is its list of items from the bottom up, `toList`;
every operation is described by what it does to that list, and nothing that comes of
one depends on a slot above the count.
-/

import Chip8.Fault

namespace Chip8

/-- A last-in-first-out store of bounded depth. -/
structure Stack (Item : Type) (capacity : Nat) where
  slots : Vector Item capacity
  /-- How many slots are in use, from the bottom up. -/
  depth : Nat
  depth_le : depth ≤ capacity
  deriving DecidableEq

namespace Stack

variable {Item : Type} {capacity : Nat}

/-- The stack with nothing on it, and nothing left over. -/
def empty [Inhabited Item] : Stack Item capacity :=
  ⟨Vector.replicate capacity default, 0, Nat.zero_le _⟩

/-- The items, from the bottom up. -/
def toList (stack : Stack Item capacity) : List Item := stack.slots.toList.take stack.depth

/-- Whether there are none. -/
def isEmpty (stack : Stack Item capacity) : Bool := stack.depth == 0

/-- Puts an item on top, if there is room. -/
def push (stack : Stack Item capacity) (item : Item) : Except Fault (Stack Item capacity) :=
  if room : stack.depth < capacity then
    .ok ⟨stack.slots.set stack.depth item, stack.depth + 1, room⟩
  else .error .stackOverflow

/-- Takes the top item off, if there is one. -/
def pop (stack : Stack Item capacity) : Except Fault (Item × Stack Item capacity) :=
  if used : 0 < stack.depth then
    have top : stack.depth - 1 < capacity :=
      Nat.lt_of_lt_of_le (Nat.sub_lt used Nat.one_pos) stack.depth_le
    .ok (stack.slots[stack.depth - 1], ⟨stack.slots, stack.depth - 1, Nat.le_of_lt top⟩)
  else .error .stackUnderflow

/-- Takes all items off. -/
def clear (stack : Stack Item capacity) : Stack Item capacity :=
  { stack with depth := 0, depth_le := Nat.zero_le _ }

/-! ### Operations on the list of items -/

@[simp] theorem length_toList (stack : Stack Item capacity) :
    stack.toList.length = stack.depth := by
  simp [toList, stack.depth_le]

@[simp] theorem toList_empty [Inhabited Item] : (empty : Stack Item capacity).toList = [] := rfl

@[simp] theorem toList_clear (stack : Stack Item capacity) : stack.clear.toList = [] := rfl

/-- A push that goes through appends its item. -/
theorem toList_of_push {stack next : Stack Item capacity} {item : Item}
    (pushed : stack.push item = .ok next) : next.toList = stack.toList ++ [item] := by
  unfold push at pushed
  split at pushed
  · next room =>
    cases pushed
    have inside : stack.depth < stack.slots.toList.length := by simpa using room
    simp only [toList, Vector.toList_set]
    rw [List.take_succ_eq_append_getElem (by simpa using room), List.take_set_of_le (Nat.le_refl _),
      List.getElem_set_self]
  · cases pushed

/-- A pop that goes through gives the last item and leaves the others. -/
theorem toList_of_pop {stack rest : Stack Item capacity} {item : Item}
    (popped : stack.pop = .ok (item, rest)) : stack.toList = rest.toList ++ [item] := by
  unfold pop at popped
  split at popped
  · next used =>
    cases popped
    have inside : stack.depth - 1 < stack.slots.toList.length := by
      have := stack.depth_le
      rw [Vector.length_toList]
      omega
    obtain ⟨below, same⟩ : ∃ below, stack.depth = below + 1 := ⟨stack.depth - 1, by omega⟩
    simp only [toList, same, Nat.add_sub_cancel] at inside ⊢
    rw [List.take_succ_eq_append_getElem inside, Vector.getElem_toList]
  · cases popped

/-- A push fails in one way, and exactly on a full stack. -/
theorem push_error_iff (stack : Stack Item capacity) (item : Item) (fault : Fault) :
    stack.push item = .error fault ↔ fault = .stackOverflow ∧ stack.toList.length = capacity := by
  have := stack.depth_le
  rw [length_toList]
  unfold push
  split
  · simp only [reduceCtorEq, false_iff]
    omega
  · simp only [Except.error.injEq, eq_comm (a := Fault.stackOverflow), iff_self_and]
    omega

/-- A pop fails in one way, and exactly on an empty stack. -/
theorem pop_error_iff (stack : Stack Item capacity) (fault : Fault) :
    stack.pop = .error fault ↔ fault = .stackUnderflow ∧ stack.toList = [] := by
  rw [← List.length_eq_zero_iff, length_toList]
  unfold pop
  split
  · simp only [reduceCtorEq, false_iff]
    omega
  · simp only [Except.error.injEq, eq_comm (a := Fault.stackUnderflow), iff_self_and]
    omega

/-- Pushes onto stacks with the same items come to the same. -/
theorem push_congr {first second : Stack Item capacity} (item : Item)
    (same : first.toList = second.toList) :
    (∃ fault, first.push item = .error fault ∧ second.push item = .error fault) ∨
      ∃ next next', first.push item = .ok next ∧ second.push item = .ok next' ∧
        next.toList = next'.toList := by
  cases pushed : first.push item with
  | error fault =>
    have full := (push_error_iff first item fault).mp pushed
    rw [same] at full
    exact Or.inl ⟨fault, rfl, (push_error_iff second item fault).mpr full⟩
  | ok next =>
    cases pushed' : second.push item with
    | error fault =>
      have full := (push_error_iff second item fault).mp pushed'
      rw [← same] at full
      rw [(push_error_iff first item fault).mpr full] at pushed
      cases pushed
    | ok next' =>
      refine Or.inr ⟨next, next', rfl, rfl, ?_⟩
      rw [toList_of_push pushed, toList_of_push pushed', same]

/-- Pops from stacks with the same items come to the same. -/
theorem pop_congr {first second : Stack Item capacity} (same : first.toList = second.toList) :
    (∃ fault, first.pop = .error fault ∧ second.pop = .error fault) ∨
      ∃ item rest rest', first.pop = .ok (item, rest) ∧ second.pop = .ok (item, rest') ∧
        rest.toList = rest'.toList := by
  cases popped : first.pop with
  | error fault =>
    have none := (pop_error_iff first fault).mp popped
    rw [same] at none
    exact Or.inl ⟨fault, rfl, (pop_error_iff second fault).mpr none⟩
  | ok top =>
    obtain ⟨item, rest⟩ := top
    cases popped' : second.pop with
    | error fault =>
      have none := (pop_error_iff second fault).mp popped'
      rw [← same] at none
      rw [(pop_error_iff first fault).mpr none] at popped
      cases popped
    | ok top' =>
      obtain ⟨item', rest'⟩ := top'
      have whole : rest.toList ++ [item] = rest'.toList ++ [item'] := by
        rw [← toList_of_pop popped, ← toList_of_pop popped', same]
      obtain ⟨rests, items⟩ := List.append_inj' whole rfl
      obtain rfl := List.singleton_inj.mp items
      exact Or.inr ⟨item, rest, rest', rfl, rfl, rests⟩

end Stack

end Chip8
