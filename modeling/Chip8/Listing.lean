/-
Lines in which instructions are shown. A listing has one line for each pair of bytes of
an image, with the address, the word and the mnemonic in columns two blanks apart; an odd
byte at the end makes no word and gets no line. A trace line shows a step of the machine
with the same text for the address and for the mnemonic.
-/

import Chip8.Assembly

namespace Chip8

/-- The text of an address: three digits, and more for what lies beyond a machine's
memory, as the end of an oversized image does. -/
def addressText (address : UInt32) : String := "0x" ++ Hex.text 3 address.toNat

/-- A line of a listing. -/
def listingLine (address : UInt32) (word : Word) : String :=
  addressText address ++ "  " ++ word.text ++ "  " ++ word.mnemonic

/-- The listing of an image whose first byte is at a given address. -/
def listing (origin : UInt32) : List UInt8 → List String
  | upper :: lower :: rest =>
    listingLine origin (.ofBytes upper lower) :: listing (origin + 2) rest
  | _ => []

/-- An address and what is found there, as the log and the history show a step. -/
def traceLine (address : UInt32) (text : String) : String :=
  "| " ++ addressText address ++ " | " ++ text

/-- Each pair of bytes has its line. -/
theorem listing_getElem?_of_pair {image : List UInt8} {upper lower : UInt8} (origin : UInt32)
    (line : Nat) (upperHere : image[2 * line]? = some upper)
    (lowerHere : image[2 * line + 1]? = some lower) :
    (listing origin image)[line]? =
      some (listingLine (origin + UInt32.ofNat (2 * line)) (.ofBytes upper lower)) := by
  induction line generalizing image origin with
  | zero =>
    match image with
    | first :: second :: rest =>
      obtain rfl := Option.some.inj upperHere
      obtain rfl := Option.some.inj lowerHere
      simp [listing]
    | [] | [_] => simp at lowerHere
  | succ line inductionHypothesis =>
    match image with
    | first :: second :: rest =>
      have next := inductionHypothesis (origin + 2) upperHere lowerHere
      have along :
          origin + 2 + UInt32.ofNat (2 * line) = origin + UInt32.ofNat (2 * (line + 1)) := by
        rw [UInt32.add_assoc, Nat.mul_succ, Nat.add_comm, UInt32.ofNat_add]
        rfl
      rw [listing, List.getElem?_cons_succ, next, along]
    | [] | [_] => simp at lowerHere

end Chip8
