/-
Ranges of memory. A range is stored or loaded as a whole if its end, computed without wrapping,
lies in memory, and it is refused as a whole if not, whatever its length. A store that goes
through puts its bytes at the addresses that it covers and leaves the others alone. So a byte of
memory is the one that the newest store put there, among those that went through and covered it,
and only if there was none is it what it was at the start; that is what a load finds, however the
stores overlapped.
-/

import Chip8.Memory
import Chip8.Proofs.Attempts
import Mathlib.Data.List.Induction

namespace Chip8.Memory

open Attempts

/-! ### Requests -/

/-- So many bytes from an address on, whether or not there are as many. -/
structure Range where
  start : Address
  count : UInt64
  deriving DecidableEq, Repr

namespace Range

/-- All of a range lies in memory. -/
def Fits (range : Range) : Prop := range.start.val + range.count.toNat ≤ 4096

/-- An address lies in a range. -/
def Covers (range : Range) (address : Nat) : Prop :=
  range.start.val ≤ address ∧ address < range.start.val + range.count.toNat

instance (range : Range) : Decidable range.Fits := inferInstanceAs (Decidable (_ ≤ _))

instance (range : Range) : DecidablePred range.Covers :=
  fun _ => inferInstanceAs (Decidable (_ ∧ _))

end Range

/-- Bytes to be stored in a range. There are enough of them, unless the range has to be refused
anyway: one that reaches past the end of memory may claim any length. -/
structure StoreRequest where
  range : Range
  source : List UInt8
  enough : range.Fits → range.count.toNat ≤ source.length

/-- A range to be loaded into a buffer. There is room enough in it, unless the range has to be
refused anyway. -/
structure LoadRequest where
  range : Range
  buffer : List UInt8
  enough : range.Fits → range.count.toNat ≤ buffer.length

/-- Carries out a store. -/
def accept (memory : Memory) (request : StoreRequest) : Except Fault Memory :=
  memory.store request.range.start request.source request.range.count

/-- Loads a range into the front of a buffer. -/
def fill (memory : Memory) (request : LoadRequest) : Except Fault (List UInt8) :=
  (memory.load request.range.start request.range.count).map fun run =>
    run ++ request.buffer.drop run.length

namespace StoreRequest

theorem lt_length_source (request : StoreRequest) {address : Nat}
    (covered : request.range.Fits ∧ request.range.Covers address) :
    address - request.range.start.val < request.source.length := by
  have enough := request.enough covered.1
  obtain ⟨-, above, below⟩ := covered
  omega

/-- The byte that a store puts at an address, if it goes through and covers it. -/
def byte? (request : StoreRequest) (address : Nat) : Option UInt8 :=
  if covered : request.range.Fits ∧ request.range.Covers address then
    some (request.source.get ⟨_, request.lt_length_source covered⟩)
  else none

end StoreRequest

/-- The byte that was last put at an address: by the newest of the stores that went through and
covered it. -/
def newest? (requests : List StoreRequest) (address : Nat) : Option UInt8 :=
  requests.reverse.findSome? fun request => request.byte? address

theorem newest?_concat (requests : List StoreRequest) (last : StoreRequest) (address : Nat) :
    newest? (requests ++ [last]) address = (last.byte? address).or (newest? requests address) := by
  rw [newest?, List.reverse_concat, List.findSome?_cons]
  cases last.byte? address <;> rfl

/-! ### One request -/

theorem accept_of_fits (memory : Memory) {request : StoreRequest} (inside : request.range.Fits) :
    memory.accept request = .ok (memory.write request.range.start.val
      (request.source.take request.range.count.toNat)) :=
  if_pos ((fits_iff ..).mpr inside)

theorem accept_of_not_fits (memory : Memory) {request : StoreRequest}
    (outside : ¬request.range.Fits) : memory.accept request = .error .memoryOutOfBounds :=
  if_neg (mt (fits_iff ..).mp outside)

theorem fill_of_fits (memory : Memory) {request : LoadRequest} (inside : request.range.Fits) :
    memory.fill request =
      .ok (memory.slice request.range.start.val request.range.count.toNat ++
        request.buffer.drop request.range.count.toNat) := by
  have whole : min request.range.count.toNat (4096 - request.range.start.val) =
      request.range.count.toNat := by
    unfold Range.Fits at inside
    omega
  rw [fill, load, if_pos ((fits_iff ..).mpr inside), Except.map, length_slice, whole]

theorem fill_of_not_fits (memory : Memory) {request : LoadRequest}
    (outside : ¬request.range.Fits) : memory.fill request = .error .memoryOutOfBounds := by
  rw [fill, load, if_neg (mt (fits_iff ..).mp outside), Except.map]

/-- A store that goes through puts its bytes at the addresses that it covers. -/
theorem get_accept_of_covers (memory : Memory) {request : StoreRequest} {address : Address}
    (covered : request.range.Fits ∧ request.range.Covers address.val) :
    (settle memory (memory.accept request)).2.get address =
      request.source.get ⟨_, request.lt_length_source covered⟩ := by
  have within : address.val - request.range.start.val < request.range.count.toNat := by
    obtain ⟨-, above, below⟩ := covered
    omega
  rw [accept_of_fits memory covered.1, settle, get_write, if_pos covered.2.1,
    List.getElem?_take_of_lt within,
    List.getElem?_eq_getElem (request.lt_length_source covered)]
  rfl

/-- No store changes an address outside of its range. -/
theorem get_accept_of_not_covers (memory : Memory) {request : StoreRequest} {address : Address}
    (outside : ¬request.range.Covers address.val) :
    (settle memory (memory.accept request)).2.get address = memory.get address := by
  by_cases inside : request.range.Fits
  · rw [accept_of_fits memory inside, settle, get_write]
    split
    · next above =>
      have beyond : (request.source.take request.range.count.toNat).length ≤
          address.val - request.range.start.val := by
        rw [List.length_take]
        unfold Range.Covers at outside
        omega
      rw [List.getElem?_eq_none beyond, Option.getD_none]
    · rfl
  · rw [accept_of_not_fits memory inside, settle]

theorem get_accept (memory : Memory) (request : StoreRequest) (address : Address) :
    (settle memory (memory.accept request)).2.get address =
      (request.byte? address.val).getD (memory.get address) := by
  by_cases covered : request.range.Fits ∧ request.range.Covers address.val
  · rw [get_accept_of_covers memory covered, StoreRequest.byte?, dif_pos covered, Option.getD_some]
  · rw [StoreRequest.byte?, dif_neg covered, Option.getD_none]
    rcases not_and_or.mp covered with outside | outside
    · rw [accept_of_not_fits memory outside, settle]
    · exact get_accept_of_not_covers memory outside

/-- A load that goes through finds the bytes of its range, and leaves the rest of the buffer. -/
theorem getElem?_fill (memory : Memory) {request : LoadRequest} (inside : request.range.Fits) :
    let filled := (settle request.buffer (memory.fill request)).2
    filled.length = request.buffer.length ∧
      (∀ place < request.range.count.toNat,
        ∃ here : request.range.start.val + place < 4096,
          filled[place]? = some (memory.get ⟨request.range.start.val + place, here⟩)) ∧
      ∀ place, request.range.count.toNat ≤ place → filled[place]? = request.buffer[place]? := by
  rw [fill_of_fits memory inside, settle]
  have enough := request.enough inside
  unfold Range.Fits at inside
  have whole : (memory.slice request.range.start.val request.range.count.toNat).length =
      request.range.count.toNat := by
    rw [length_slice]
    omega
  refine ⟨?_, fun place within => ?_, fun place beyond => ?_⟩
  · rw [List.length_append, whole, List.length_drop]
    omega
  · have here : request.range.start.val + place < 4096 := by omega
    refine ⟨here, ?_⟩
    rw [List.getElem?_append_left (by rwa [whole])]
    exact (getElem?_slice_eq_some_iff ..).mpr ⟨within, here, rfl⟩
  · rw [List.getElem?_append_right (by rwa [whole]), whole, List.getElem?_drop,
      Nat.add_sub_cancel' beyond]

/-- A store fails in one way, and exactly if its range does not fit. So does a load. -/
theorem fault_accept (memory : Memory) (request : StoreRequest) :
    (settle memory (memory.accept request)).1 =
      if request.range.Fits then none else some .memoryOutOfBounds := by
  split
  · next inside => rw [accept_of_fits memory inside, settle]
  · next outside => rw [accept_of_not_fits memory outside, settle]

theorem fault_fill (memory : Memory) (request : LoadRequest) :
    (settle request.buffer (memory.fill request)).1 =
      if request.range.Fits then none else some .memoryOutOfBounds := by
  split
  · next inside => rw [fill_of_fits memory inside, settle]
  · next outside => rw [fill_of_not_fits memory outside, settle]

/-! ### Any number of requests -/

/-- Memory is what the stores put there, the newest one first, and else what it was. -/
theorem get_after (memory : Memory) (requests : List StoreRequest) (address : Address) :
    (after accept memory requests).get address =
      (newest? requests address.val).getD (memory.get address) := by
  induction requests using List.reverseRecOn with
  | nil => rfl
  | append_singleton requests last inductionHypothesis =>
    rw [after_concat, get_accept, inductionHypothesis, newest?_concat]
    cases last.byte? address.val <;> rfl

/-- Ranges of memory, after any stores in any memory. The next store goes through exactly if the
end of its range, which is not wrapped, lies in memory; one that does not changes nothing, and
none changes an address outside of its range. Each byte is the newest one that was stored at its
address, or what was there at the start. A load goes through in the same case, and finds just these
bytes; otherwise it leaves its buffer alone. A range without bytes always fits. -/
theorem ranges_settled (memory : Memory) (requests : List StoreRequest) :
    let current := after accept memory requests
    (∀ request : StoreRequest,
      let result := settle current (current.accept request)
      result.1 = (if request.range.Fits then none else some .memoryOutOfBounds) ∧
        (¬request.range.Fits → result.2 = current) ∧
        ∀ address, ¬request.range.Covers address.val →
          result.2.get address = current.get address) ∧
    (∀ address, current.get address = (newest? requests address.val).getD (memory.get address)) ∧
    (∀ request : LoadRequest,
      let result := settle request.buffer (current.fill request)
      result.1 = (if request.range.Fits then none else some .memoryOutOfBounds) ∧
        (¬request.range.Fits → result.2 = request.buffer) ∧
        (request.range.Fits →
          result.2.length = request.buffer.length ∧
          (∀ place < request.range.count.toNat,
            ∃ here : request.range.start.val + place < 4096,
              result.2[place]? = some ((newest? requests (request.range.start.val + place)).getD
                (memory.get ⟨request.range.start.val + place, here⟩))) ∧
          ∀ place, request.range.count.toNat ≤ place →
            result.2[place]? = request.buffer[place]?)) ∧
    ∀ range : Range, range.count = 0 → range.Fits := by
  intro current
  refine ⟨fun request => ⟨fault_accept current request, fun outside => ?_,
    fun _ => get_accept_of_not_covers current⟩, get_after memory requests, fun request =>
    ⟨fault_fill current request, fun outside => ?_, fun inside => ?_⟩, fun range none => ?_⟩
  · rw [accept_of_not_fits current outside, settle]
  · rw [fill_of_not_fits current outside, settle]
  · obtain ⟨length, found, rest⟩ := getElem?_fill current inside
    refine ⟨length, fun place within => ?_, rest⟩
    obtain ⟨here, byte⟩ := found place within
    exact ⟨here, byte.trans (congrArg some (get_after memory requests _))⟩
  · have small := range.start.isLt
    rw [Range.Fits, none]
    exact Nat.le_of_lt small

/-- Stores that overlap, then one whose end would wrap round into range, and a load across them. -/
theorem ranges_settled_overlapping :
    let stores : List StoreRequest :=
      [⟨⟨⟨0x300, by decide⟩, 4⟩, [1, 2, 3, 4], by decide⟩,
        ⟨⟨⟨0x302, by decide⟩, 3⟩, [5, 6, 7], by decide⟩]
    let wrapping : StoreRequest := ⟨⟨Address.last, 0xFFFFFFFFFFFFFFFF⟩, [], by decide⟩
    let load : LoadRequest := ⟨⟨⟨0x2FF, by decide⟩, 7⟩, List.replicate 9 0xEE, by decide⟩
    let current := after accept blank stores
    let filled := (settle load.buffer (current.fill load)).2
    (¬wrapping.range.Fits ∧ ¬wrapping.range.Covers Address.zero.val ∧ load.range.Fits ∧
        2 < load.range.count.toNat ∧ 3 < load.range.count.toNat ∧
        load.range.count.toNat ≤ 8 ∧ (0 : UInt64) = 0) ∧
      settle current (current.accept wrapping) = (some .memoryOutOfBounds, current) ∧
      (settle current (current.accept wrapping)).2.get .zero = current.get .zero ∧
      filled[2]? = some 2 ∧ filled[3]? = some 5 ∧ filled[8]? = some 0xEE ∧
      (⟨Address.last, 0⟩ : Range).Fits := by
  intro stores wrapping load current filled
  have outside : ¬wrapping.range.Fits := by decide
  have apart : ¬wrapping.range.Covers Address.zero.val := by decide
  have inside : load.range.Fits := by decide
  obtain ⟨storing, -, loading, empty⟩ := ranges_settled blank stores
  obtain ⟨refused, unchanged, others⟩ := storing wrapping
  obtain ⟨-, found, rest⟩ := (loading load).2.2 inside
  have small : 2 < load.range.count.toNat ∧ 3 < load.range.count.toNat := by decide
  have older : newest? stores (load.range.start.val + 2) = some 2 := by decide
  have newer : newest? stores (load.range.start.val + 3) = some 5 := by decide
  obtain ⟨_, second⟩ := found 2 small.1
  obtain ⟨_, third⟩ := found 3 small.2
  rw [older, Option.getD_some] at second
  rw [newer, Option.getD_some] at third
  refine ⟨⟨outside, apart, inside, small.1, small.2, by decide, rfl⟩, ?_, others _ apart, second,
    third, rest 8 (by decide), empty _ rfl⟩
  exact Prod.ext (refused.trans (if_neg outside)) (unchanged outside)

end Chip8.Memory
