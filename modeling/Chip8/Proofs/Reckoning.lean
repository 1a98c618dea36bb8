/-
Addresses reckoned with as numbers. Any number of times an address is set to a value or moved on
by a distance, and the same is done to a number, which has no bound: what leads to 4096 or beyond
is skipped, and nothing else is. Both always agree, on what is skipped and on where they are. It
is the true sum that decides, never the one formed in thirty-two bits: a sum that wraps comes out
below the address that it started from, which is in range, and still the address does not move.
-/

import Chip8.Address
import Chip8.Proofs.Attempts

namespace Chip8.Address

open Attempts

/-! ### Requests -/

/-- What is asked of an address. -/
inductive Request where
  | set (raw : UInt32)
  | advance (distance : UInt32)
  deriving DecidableEq, Repr

/-- The number that a request leads to from a number. -/
def Request.target (number : Nat) : Request → Nat
  | .set raw => raw.toNat
  | .advance distance => number + distance.toNat

/-- A request to an address. -/
def attempt (address : Address) : Request → Except Fault Address
  | .set raw => checked raw
  | .advance distance => address.advance distance

/-- A request to a number. -/
def reckon (number : Nat) (request : Request) : Except Fault Nat :=
  if request.target number < 4096 then .ok (request.target number) else .error .addressOutOfRange

/-! ### One request -/

theorem attempt_eq_ok_iff {address next : Address} {request : Request} :
    address.attempt request = .ok next ↔ next.val = request.target address.val := by
  cases request with
  | set raw => exact checked_eq_ok_iff
  | advance distance => exact advance_eq_ok_iff

theorem attempt_eq_error_iff {address : Address} {request : Request} {fault : Fault} :
    address.attempt request = .error fault ↔
      fault = .addressOutOfRange ∧ 4096 ≤ request.target address.val := by
  cases request with
  | set raw => exact checked_eq_error_iff
  | advance distance => exact advance_eq_error_iff

theorem attempt_of_lt {address : Address} {request : Request}
    (inside : request.target address.val < 4096) :
    address.attempt request = .ok ⟨request.target address.val, inside⟩ :=
  attempt_eq_ok_iff.mpr rfl

theorem attempt_of_ge {address : Address} {request : Request}
    (beyond : 4096 ≤ request.target address.val) :
    address.attempt request = .error .addressOutOfRange :=
  attempt_eq_error_iff.mpr ⟨rfl, beyond⟩

/-- A request does to the number of an address what it does to the address. -/
theorem reckon_val (address : Address) (request : Request) :
    reckon address.val request = (address.attempt request).map val := by
  unfold reckon
  split
  · next inside => rw [attempt_of_lt inside, Except.map]
  · next outside => rw [attempt_of_ge (Nat.le_of_not_lt outside), Except.map]

/-! ### Any number of requests -/

/-- After any requests an address is the number that they lead to without bounds, those skipped
that lead beyond the last address. The same ones are refused, and they leave the address where it
was. Moving on is refused also where the sum wraps, although it then comes out in range. -/
theorem reckoned_along_requests (address : Address) (requests : List Request) :
    let current := after attempt address requests
    answers attempt val address requests = answers reckon id address.val requests ∧
      current.val = after reckon address.val requests ∧
      after reckon address.val requests < 4096 ∧
      (∀ request, settle current (current.attempt request) =
        if inside : request.target current.val < 4096 then
          (none, ⟨request.target current.val, inside⟩)
        else (some .addressOutOfRange, current)) ∧
      ∀ distance : UInt32, UInt32.size ≤ current.val + distance.toNat →
        (UInt32.ofNat current.val + distance).toNat < 4096 ∧
          current.attempt (.advance distance) = .error .addressOutOfRange := by
  intro current
  have answered : answers reckon id address.val requests = answers attempt val address requests :=
    answers_carried reckon_val (fun _ => rfl) address requests
  have carried : after reckon address.val requests = current.val :=
    after_carried reckon_val address requests
  refine ⟨answered.symm, carried.symm, carried ▸ current.isLt, fun request => ?_,
    fun distance wraps => ⟨?_, attempt_of_ge ?_⟩⟩
  · split
    · next inside => rw [attempt_of_lt inside, settle]
    · next outside => rw [attempt_of_ge (Nat.le_of_not_lt outside), settle]
  · exact Nat.lt_trans (sum_lt_of_wraps current wraps) current.isLt
  · exact Nat.le_trans (by decide) wraps

/-- Moved to the last address past two refusals, and then on by a distance with which the sum
wraps to the second address. -/
theorem reckoned_along_requests_wrapping :
    let start : Address := ⟨0xFFC, by decide⟩
    let requests : List Request := [.advance 2, .set 0x1000, .advance 1, .advance 0xFFFFF001]
    let current := after attempt start requests
    let distance : UInt32 := 0xFFFFF002
    UInt32.size ≤ current.val + distance.toNat ∧
      answers attempt val start requests =
        [(none, 0xFFE), (some .addressOutOfRange, 0xFFE), (none, 0xFFF),
          (some .addressOutOfRange, 0xFFF)] ∧
      (UInt32.ofNat current.val + distance).toNat < 4096 ∧
      current.attempt (.advance distance) = .error .addressOutOfRange := by
  intro start requests current distance
  obtain ⟨answered, -, -, -, refusal⟩ := reckoned_along_requests start requests
  have wraps : UInt32.size ≤ current.val + distance.toNat := by decide
  exact ⟨wraps, answered.trans (by decide), refusal distance wraps⟩

end Chip8.Address
