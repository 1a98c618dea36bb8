/-
Requests that can be refused, one after another. A request that goes through leads to a new
state; one that is refused leaves the old one behind, with the reason. If a map takes states of
one kind to states of another, and each single request comes to the same on both sides, then so
do any number of them: the same ones are refused for the same reasons, and the states go on
corresponding.
-/

import Chip8.Fault

namespace Chip8.Attempts

variable {State Image Request View : Type}

/-- What comes of an attempt: the fault, if it failed, and the state afterwards, which is the one
before if it failed. -/
def settle (state : State) : Except Fault State → Option Fault × State
  | .ok next => (none, next)
  | .error fault => (some fault, state)

/-- The state after requests in a row. -/
def after (attempt : State → Request → Except Fault State) (state : State)
    (requests : List Request) : State :=
  requests.foldl (fun state request => (settle state (attempt state request)).2) state

/-- What is answered to requests in a row: to each one its fault, if any, and what there is to be
seen of the state after it. -/
def answers (attempt : State → Request → Except Fault State) (look : State → View)
    (state : State) : List Request → List (Option Fault × View)
  | [] => []
  | request :: rest =>
    let (fault, next) := settle state (attempt state request)
    (fault, look next) :: answers attempt look next rest

theorem after_concat (attempt : State → Request → Except Fault State) (state : State)
    (requests : List Request) (last : Request) :
    after attempt state (requests ++ [last]) =
      (settle (after attempt state requests) (attempt (after attempt state requests) last)).2 :=
  List.foldl_append

theorem settle_map (carry : State → Image) (state : State) (result : Except Fault State) :
    settle (carry state) (result.map carry) =
      ((settle state result).1, carry (settle state result).2) := by
  cases result <;> rfl

/-! ### Requests on two sides -/

section Carried

variable {attempt : State → Request → Except Fault State}
  {attempt' : Image → Request → Except Fault Image} {carry : State → Image}
  (carried : ∀ state request, attempt' (carry state) request = (attempt state request).map carry)

include carried

theorem after_carried (state : State) (requests : List Request) :
    after attempt' (carry state) requests = carry (after attempt state requests) := by
  induction requests generalizing state with
  | nil => rfl
  | cons request rest inductionHypothesis =>
    rw [after, List.foldl_cons, carried, settle_map]
    exact inductionHypothesis _

theorem answers_carried {look : State → View} {look' : Image → View}
    (seen : ∀ state, look' (carry state) = look state) (state : State)
    (requests : List Request) :
    answers attempt' look' (carry state) requests = answers attempt look state requests := by
  induction requests generalizing state with
  | nil => rfl
  | cons request rest inductionHypothesis =>
    rw [answers, answers, carried, settle_map]
    dsimp only
    rw [seen, inductionHypothesis]

end Carried

end Chip8.Attempts
