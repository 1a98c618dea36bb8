/-
A bounded stack is a list of bounded length, as far as can be seen from outside: in whatever
order it is pushed to, popped from and cleared, each request is refused just when the list would
have to refuse it, and otherwise does to the items what it does to the list. One request comes to
the same on both sides, so any number of them do. The slots that pops and clears leave behind are
not in the list, and so they cannot come out again.
-/

import Chip8.Stack
import Chip8.Proofs.Attempts

namespace Chip8.Stack

open Attempts

variable {Item : Type} {capacity : Nat}

/-! ### Requests -/

/-- What is asked of a stack. -/
inductive Request (Item : Type) where
  | push (item : Item)
  | pop
  | clear
  deriving DecidableEq, Repr

/-- What can be seen at any time: the variable that items are popped into, and how many items
there are. -/
structure Sight (Item : Type) where
  popped : Item
  size : Nat
  isEmpty : Bool
  deriving DecidableEq, Repr

/-- A stack, and the variable that items are popped into. -/
structure InUse (Item : Type) (capacity : Nat) where
  stack : Stack Item capacity
  popped : Item
  deriving DecidableEq

/-- A plain list, the last item on top, and the variable that items are popped into. -/
structure Pile (Item : Type) where
  items : List Item
  popped : Item
  deriving DecidableEq, Repr

namespace InUse

/-- A request to a stack. -/
def attempt (use : InUse Item capacity) : Request Item → Except Fault (InUse Item capacity)
  | .push item => (use.stack.push item).map fun next => { use with stack := next }
  | .pop => use.stack.pop.map fun top => ⟨top.2, top.1⟩
  | .clear => .ok { use with stack := use.stack.clear }

/-- What can be seen of a stack. -/
def sight (use : InUse Item capacity) : Sight Item :=
  ⟨use.popped, use.stack.depth, use.stack.isEmpty⟩

/-- The items of a stack as a list. -/
def pile (use : InUse Item capacity) : Pile Item := ⟨use.stack.toList, use.popped⟩

end InUse

namespace Pile

/-- A request to a list that may have so many items. -/
def attempt (capacity : Nat) (pile : Pile Item) : Request Item → Except Fault (Pile Item)
  | .push item =>
    if pile.items.length = capacity then .error .stackOverflow
    else .ok { pile with items := pile.items ++ [item] }
  | .pop =>
    match pile.items.getLast? with
    | some last => .ok ⟨pile.items.dropLast, last⟩
    | none => .error .stackUnderflow
  | .clear => .ok { pile with items := [] }

/-- What can be seen of a list. -/
def sight (pile : Pile Item) : Sight Item :=
  ⟨pile.popped, pile.items.length, pile.items.isEmpty⟩

end Pile

/-! ### One request -/

theorem length_lt_of_push {stack next : Stack Item capacity} {item : Item}
    (pushed : stack.push item = .ok next) : stack.toList.length < capacity := by
  have bound := next.depth_le
  rw [← length_toList, toList_of_push pushed, List.length_append] at bound
  exact bound

namespace InUse

theorem sight_pile (use : InUse Item capacity) : use.pile.sight = use.sight := by
  have none : use.stack.toList.isEmpty = use.stack.isEmpty := by
    rw [isEmpty, ← length_toList, Bool.eq_iff_iff, List.isEmpty_iff, beq_iff_eq,
      List.length_eq_zero_iff]
  rw [Pile.sight, pile, none, length_toList, sight]

/-- A request does to the list of the items what it does to the stack. -/
theorem attempt_pile (use : InUse Item capacity) (request : Request Item) :
    use.pile.attempt capacity request = (use.attempt request).map pile := by
  cases request with
  | clear => rfl
  | push item =>
    rw [Pile.attempt, attempt]
    cases pushed : use.stack.push item with
    | ok next =>
      have room : use.pile.items.length ≠ capacity := Nat.ne_of_lt (length_lt_of_push pushed)
      rw [if_neg room, Except.map, Except.map, pile, pile, toList_of_push pushed]
    | error fault =>
      obtain ⟨rfl, full⟩ := (push_error_iff ..).mp pushed
      exact if_pos full
  | pop =>
    rw [Pile.attempt, attempt]
    cases popped : use.stack.pop with
    | ok top =>
      have items : use.pile.items = top.2.toList ++ [top.1] := toList_of_pop popped
      rw [items, List.getLast?_concat, List.dropLast_concat]
      rfl
    | error fault =>
      obtain ⟨rfl, none⟩ := (pop_error_iff ..).mp popped
      have items : use.pile.items = [] := none
      rw [items]
      rfl

end InUse

/-! ### Any number of requests -/

/-- A stack behaves as a list of bounded length. To any requests in a row the same is answered by
both, the same is seen after each of them, and the list is that of the items in the end; it is
never too long. A refused request changes nothing at all. So stacks with the same items cannot be
told apart, whatever is left in their other slots, and a new stack is one without items. -/
theorem behaves_as_list (Item : Type) (capacity : Nat) :
    (∀ (use : InUse Item capacity) (requests : List (Request Item)),
      answers InUse.attempt InUse.sight use requests =
          answers (Pile.attempt capacity) Pile.sight use.pile requests ∧
        (after InUse.attempt use requests).pile =
          after (Pile.attempt capacity) use.pile requests ∧
        (after (Pile.attempt capacity) use.pile requests).items.length ≤ capacity) ∧
    (∀ (use : InUse Item capacity) (request : Request Item) (fault : Fault),
      use.attempt request = .error fault → after InUse.attempt use [request] = use) ∧
    (∀ first second : InUse Item capacity, first.pile = second.pile → ∀ requests,
      answers InUse.attempt InUse.sight first requests =
        answers InUse.attempt InUse.sight second requests) ∧
    ∀ [Inhabited Item], (empty : Stack Item capacity).toList = [] := by
  have same (use : InUse Item capacity) (requests : List (Request Item)) :=
    answers_carried InUse.attempt_pile InUse.sight_pile use requests
  refine ⟨fun use requests => ?_, fun use request fault refused => ?_,
    fun first second piles requests => ?_, toList_empty⟩
  · have carried := after_carried InUse.attempt_pile use requests
    refine ⟨(same use requests).symm, carried.symm, ?_⟩
    rw [carried]
    show (after InUse.attempt use requests).stack.toList.length ≤ capacity
    rw [length_toList]
    exact Stack.depth_le _
  · show (settle use (use.attempt request)).2 = use
    rw [refused]
    rfl
  · rw [← same, ← same, piles]

/-- A stack with an item left over above its top, and one without: filled, emptied and cleared. -/
theorem behaves_as_list_leftover :
    let used : InUse Nat 2 :=
      after InUse.attempt ⟨empty, 0⟩ [.push 7, .push 8, .pop, .pop, .push 7]
    let plain : InUse Nat 2 := ⟨⟨#v[7, 0], 1, by decide⟩, 7⟩
    let requests : List (Request Nat) :=
      [.push 1, .push 2, .pop, .pop, .pop, .push 3, .clear, .pop, .push 4]
    let full := after InUse.attempt used [.push 1]
    (used ≠ plain ∧ used.pile = plain.pile ∧ full.attempt (.push 2) = .error .stackOverflow) ∧
      answers InUse.attempt InUse.sight used requests =
        answers InUse.attempt InUse.sight plain requests ∧
      answers InUse.attempt InUse.sight used requests =
        answers (Pile.attempt 2) Pile.sight ⟨[7], 7⟩ requests ∧
      after InUse.attempt full [.push 2] = full := by
  intro used plain requests full
  obtain ⟨list, refusal, slots, -⟩ := behaves_as_list Nat 2
  have same : used.pile = plain.pile := rfl
  have refused : full.attempt (.push 2) = .error .stackOverflow := rfl
  exact ⟨⟨by decide, same, refused⟩, slots used plain same requests, (list used requests).1,
    refusal full _ _ refused⟩

end Chip8.Stack
