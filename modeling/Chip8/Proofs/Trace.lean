/-
A step is traced as it is listed. The trace of a run and the listing of an image come about
apart: one is made of the words that the machine reads out of memory as it goes, the other
of the bytes of the image, two by two. Where the machine steps on a pair of bytes that is
one of the listing's and that memory still has, both show the same address and the same
mnemonic, whether or not the instruction then goes through.
-/

import Chip8.Proofs.Coherence
import Chip8.Proofs.Digits

namespace Chip8.Machine

/-! ### Steps -/

/-- The word that a tick carries out is the one at the program counter, asleep or awake. -/
theorem fetch_of_upcoming {machine : Machine} {word : Word}
    (upcoming : machine.upcoming? = some word) : machine.fetch = .ok word := by
  obtain ⟨woken, wakes, reads⟩ := upcoming?_eq_some_iff.mp upcoming
  obtain ⟨registers, rfl⟩ := eq_of_wake? wakes
  exact reads

/-! ### The limit of the history -/

/-- Nothing that is done to a machine moves the limit of its history. -/
theorem limit_respond (machine : Machine) (input : Input) :
    (machine.respond input).machine.history.limit = machine.history.limit := by
  cases input with
  | tick =>
    simp only [respond, tick_history]
    split
    · rfl
    · exact History.limit_add _ _
  | key | releaseKeys | acknowledge => rfl
  | load image =>
    simp only [respond]
    rcases Nat.lt_or_ge imageLimit image.length with exceeds | fits
    · rw [load_of_lt machine exceeds]
      rfl
    · rw [load_of_le machine fits]
      rfl

theorem limit_feed (machine : Machine) (inputs : List Input) :
    (machine.feed inputs).history.limit = machine.history.limit :=
  feed_preserves (motive := fun now => now.history.limit = machine.history.limit) machine inputs
    rfl fun now input _ same => (limit_respond now input).trans same

/-! ### Lines -/

/-- The line of a listing for a pair of bytes at its place. -/
theorem listing_at {image : List UInt8} {place next : Address} {upper lower : UInt8}
    (even : place.val % 2 = 0) (above : 0x200 ≤ place.val) (behind : next.val = place.val + 1)
    (upperHere : image[place.val - 0x200]? = some upper)
    (lowerHere : image[next.val - 0x200]? = some lower) :
    (listing 0x200 image)[(place.val - 0x200) / 2]? =
      some (listingLine (UInt32.ofNat place.val) (.ofBytes upper lower)) := by
  have twice : 2 * ((place.val - 0x200) / 2) = place.val - 0x200 := by omega
  have after : next.val - 0x200 = place.val - 0x200 + 1 := by omega
  have along : 0x200 + UInt32.ofNat (place.val - 0x200) = UInt32.ofNat place.val := by
    have bound := place.isLt
    simp only [← UInt32.toNat_inj, UInt32.toNat_add, UInt32.toNat_ofNat', UInt32.reduceToNat]
    omega
  rw [listing_getElem?_of_pair 0x200 _ (twice ▸ upperHere) (twice ▸ after ▸ lowerHere), twice,
    along]

/-- Along any run from a load on, on a machine that keeps trace lines: when a tick gets as
far as an instruction, at an even address where memory has two bytes of the image, the
newest line of the history shows the address and the mnemonic that the listing shows. -/
theorem trace_matches_listing (machine : Machine) (image : List UInt8) (inputs : List Input)
    (keeps : 0 < machine.history.limit) :
    let now := (machine.load image).machine.feed inputs
    ∀ (word : Word) (next : Address), now.upcoming? = some word →
      now.pc.val % 2 = 0 → 0x200 ≤ now.pc.val → next.val = now.pc.val + 1 →
      image[now.pc.val - 0x200]? = some (now.memory.get now.pc) →
      image[next.val - 0x200]? = some (now.memory.get next) →
      ∃ address digits mnemonic,
        now.tick.machine.history = now.history.add ("| " ++ address ++ " | " ++ mnemonic) ∧
        now.tick.machine.history.toList.getLast? =
          some ("| " ++ address ++ " | " ++ mnemonic) ∧
        (listing 0x200 image)[(now.pc.val - 0x200) / 2]? =
          some (address ++ "  " ++ digits ++ "  " ++ mnemonic) ∧
        address = "0x" ++ Hex.text 3 now.pc.val ∧
        digits = Hex.text 4 (256 * (now.memory.get now.pc).toNat + (now.memory.get next).toNat) ∧
        digits.length = 4 ∧ mnemonic = word.mnemonic := by
  intro now word next upcoming even above behind upperHere lowerHere
  -- Both lines are made of the word that memory holds at the program counter.
  have shown := eq_ofBytes_of_fetch (fetch_of_upcoming upcoming) behind
  have recorded : now.tick.machine.history = now.history.add (now.stepLine word) := by
    rw [tick_history, upcoming]
  have on : 0 < now.history.limit := by
    rw [limit_feed]
    exact (limit_respond machine (.load image)).symm ▸ keeps
  have number : word.raw.toNat =
      256 * (now.memory.get now.pc).toNat + (now.memory.get next).toNat := by
    rw [shown, Word.toNat_raw_ofBytes]
  have place : (UInt32.ofNat now.pc.val).toNat = now.pc.val := by
    rw [UInt32.toNat_ofNat']
    have := now.pc.isLt
    omega
  refine ⟨addressText (UInt32.ofNat now.pc.val), word.text, word.mnemonic, recorded, ?_, ?_, ?_, ?_,
    ?_, rfl⟩
  · rw [recorded]
    exact History.getLast?_add on _
  · rw [listing_at even above behind upperHere lowerHere, ← shown]
    rfl
  · rw [addressText, place]
  · rw [Word.text, number]
  · have bound := word.raw.toNat_lt
    rw [Word.text, Hex.length_text]
    exact Nat.max_eq_left (Hex.size_le bound)

/-- A return with nothing to return to, after a store behind the end of the image, on a
machine that keeps a single line. -/
theorem trace_matches_listing_fault :
    let image : List UInt8 := [0xA3, 0x00, 0xF0, 0x55, 0x00, 0xEE]
    let now := ((fresh 7 1).load image).machine.feed [.tick, .key 3 true, .tick]
    let next : Address := ⟨0x205, by decide⟩
    (0 < (fresh 7 1).history.limit ∧ now.upcoming? = some ⟨0, 0, 14, 14⟩ ∧
        now.pc.val % 2 = 0 ∧ 0x200 ≤ now.pc.val ∧ next.val = now.pc.val + 1 ∧
        image[now.pc.val - 0x200]? = some (now.memory.get now.pc) ∧
        image[next.val - 0x200]? = some (now.memory.get next)) ∧
      now.tick.fault = some .stackUnderflow ∧
      ∃ address digits mnemonic,
        now.tick.machine.history.toList.getLast? =
          some ("| " ++ address ++ " | " ++ mnemonic) ∧
        (listing 0x200 image)[(now.pc.val - 0x200) / 2]? =
          some (address ++ "  " ++ digits ++ "  " ++ mnemonic) := by
  intro image now next
  have keeps : 0 < (fresh 7 1).history.limit := Nat.one_pos
  obtain ⟨upcoming, even, above, behind, upperHere, lowerHere, fault⟩ :
      now.upcoming? = some ⟨0, 0, 14, 14⟩ ∧ now.pc.val % 2 = 0 ∧ 0x200 ≤ now.pc.val ∧
        next.val = now.pc.val + 1 ∧
        image[now.pc.val - 0x200]? = some (now.memory.get now.pc) ∧
        image[next.val - 0x200]? = some (now.memory.get next) ∧
        now.tick.fault = some .stackUnderflow := by
    decide +kernel
  obtain ⟨address, digits, mnemonic, -, traced, listed, -⟩ :=
    trace_matches_listing (fresh 7 1) image [.tick, .key 3 true, .tick] keeps _ next upcoming even
      above behind upperHere lowerHere
  exact ⟨⟨keeps, upcoming, even, above, behind, upperHere, lowerHere⟩, fault, address, digits,
    mnemonic, traced, listed⟩

end Chip8.Machine
