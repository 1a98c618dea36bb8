/-
A listing can be read back. A line of it has three columns with gaps between them, and a gap is
two blanks in a row. Neither of the first two columns has a blank in it, so the first two gaps
are those between the columns, whatever the mnemonic behind them looks like. What is cut off in
this way are numerals, and they are read back as the address and the word, however wide they
have grown. A listing therefore has the whole words of its image in it, and it is put together
from the listings of the pieces of an image that is cut between two words.
-/

import Chip8.Listing
import Chip8.Proofs.Digits

namespace Chip8

/-! ### Numerals -/

namespace Hex

/-- What counts as a digit when a text is read. -/
def IsDigit (char : Char) : Prop := '0' ≤ char ∧ char ≤ '9' ∨ 'A' ≤ char ∧ char ≤ 'F'

instance : DecidablePred IsDigit := fun _ => inferInstanceAs (Decidable (_ ∨ _))

/-- Digits that are read as a value. There are as many as are asked for, and more only as the
value needs them. -/
structure Numeral (width value : Nat) (chars : List Char) : Prop where
  digits : ∀ char ∈ chars, IsDigit char
  read : read chars = value
  length : chars.length = max width (size value)

theorem isDigit_digit (place : Fin 16) : IsDigit (digit place.val) := by
  revert place
  decide

theorem numeral_text (width value : Nat) : Numeral width value (text width value).toList where
  digits char among := by
    obtain ⟨place, rfl⟩ := exists_of_mem_text among
    exact isDigit_digit place
  read := read_text width value
  length := length_text width value

theorem Numeral.blank_not_mem {width value : Nat} {chars : List Char}
    (numeral : Numeral width value chars) : ' ' ∉ chars := fun among =>
  absurd (numeral.digits ' ' among) (by decide)

end Hex

/-! ### Columns -/

/-- What stands before the first gap in a text, and what stands after it. -/
def cutAtGap : List Char → Option (List Char × List Char)
  | ' ' :: ' ' :: rest => some ([], rest)
  | char :: rest => (cutAtGap rest).map fun (before, after) => (char :: before, after)
  | [] => none

/-- The columns of a line, which is cut at its first two gaps. -/
def columns? (line : String) : Option (List Char × List Char × List Char) :=
  (cutAtGap line.toList).bind fun first =>
    (cutAtGap first.2).map fun second => (first.1, second.1, second.2)

/-- How a line of a listing reads. In the first column there is the address, in three digits or
as many as it needs, in the second one the word, in four digits, and then the mnemonic. -/
def Reads (line : String) (address word : Nat) (mnemonic : String) : Prop :=
  ∃ high low, columns? line = some ('0' :: 'x' :: high, low, mnemonic.toList) ∧
    Hex.Numeral 3 address high ∧ Hex.Numeral 4 word low ∧ low.length = 4

/-- A text without a blank ends at the gap behind it. -/
theorem cutAtGap_append {before : List Char} (solid : ' ' ∉ before) (after : List Char) :
    cutAtGap (before ++ ' ' :: ' ' :: after) = some (before, after) := by
  induction before with
  | nil => rfl
  | cons char rest inductionHypothesis =>
    rw [List.mem_cons, not_or] at solid
    -- The first character is no blank, so the gap is not at the start.
    rw [List.cons_append, cutAtGap, inductionHypothesis solid.2]
    · rfl
    · exact fun _ blank _ => solid.1 blank.symm

/-- A line reads in one way. -/
theorem Reads.unique {line mnemonic mnemonic' : String} {address address' word word' : Nat}
    (reads : Reads line address word mnemonic) (reads' : Reads line address' word' mnemonic') :
    address = address' ∧ word = word' := by
  obtain ⟨high, low, columns, upper, lower, -⟩ := reads
  obtain ⟨high', low', columns', upper', lower', -⟩ := reads'
  have cut := columns.symm.trans columns'
  simp only [Option.some.injEq, Prod.mk.injEq, List.cons.injEq, true_and] at cut
  obtain ⟨rfl, rfl, -⟩ := cut
  exact ⟨upper.read.symm.trans upper'.read, lower.read.symm.trans lower'.read⟩

theorem Word.length_text (word : Word) : word.text.length = 4 := by
  have small : Hex.size word.raw.toNat ≤ 4 := Hex.size_le word.raw.toNat_lt
  rw [text, Hex.length_text, Nat.max_eq_left small]

theorem reads_listingLine (address : UInt32) (word : Word) :
    Reads (listingLine address word) address.toNat word.raw.toNat word.mnemonic := by
  have upper := Hex.numeral_text 3 address.toNat
  have lower := Hex.numeral_text 4 word.raw.toNat
  have solid : ' ' ∉ '0' :: 'x' :: (Hex.text 3 address.toNat).toList := by
    simp [upper.blank_not_mem]
  have chars : (listingLine address word).toList =
      ('0' :: 'x' :: (Hex.text 3 address.toNat).toList) ++ ' ' :: ' ' ::
        ((Hex.text 4 word.raw.toNat).toList ++ ' ' :: ' ' :: word.mnemonic.toList) := by
    simp [listingLine, addressText, Word.text]
  refine ⟨_, _, ?_, upper, lower, word.length_text⟩
  rw [columns?, chars, cutAtGap_append solid, Option.bind_some,
    cutAtGap_append lower.blank_not_mem, Option.map_some]

/-! ### Listings -/

/-- An image without the odd byte at its end, if there is one. -/
def wholeWords (image : List UInt8) : List UInt8 := image.take (2 * (image.length / 2))

theorem wholeWords_cons_cons (upper lower : UInt8) (rest : List UInt8) :
    wholeWords (upper :: lower :: rest) = upper :: lower :: wholeWords rest := by
  have pairs : 2 * ((rest.length + 1 + 1) / 2) = 2 * (rest.length / 2) + 1 + 1 := by omega
  rw [wholeWords, List.length_cons, List.length_cons, pairs, List.take_succ_cons,
    List.take_succ_cons, wholeWords]

theorem length_listing (origin : UInt32) :
    ∀ image : List UInt8, (listing origin image).length = image.length / 2
  | [] | [_] => by simp [listing]
  | upper :: lower :: rest => by
    rw [listing, List.length_cons, length_listing (origin + 2) rest, List.length_cons,
      List.length_cons]
    omega

/-- An image that is cut between two words is listed piece by piece. -/
theorem listing_append (origin : UInt32) (second : List UInt8) :
    ∀ first : List UInt8, first.length % 2 = 0 →
      listing origin (first ++ second) =
        listing origin first ++ listing (origin + UInt32.ofNat first.length) second
  | [], _ => by
    show listing origin second = listing (origin + 0) second
    rw [UInt32.add_zero]
  | upper :: lower :: rest, even => by
    have next : origin + UInt32.ofNat (upper :: lower :: rest).length =
        origin + 2 + UInt32.ofNat rest.length := by
      rw [List.length_cons, List.length_cons, Nat.add_assoc, Nat.add_comm, UInt32.ofNat_add,
        UInt32.add_assoc]
      rfl
    have evenRest : rest.length % 2 = 0 := by
      rw [List.length_cons, List.length_cons] at even
      omega
    rw [next, List.cons_append, List.cons_append, listing, listing,
      listing_append (origin + 2) second rest evenRest, List.cons_append]

/-- Images with one listing have the same words, and they begin at one address if they have any. -/
theorem eq_of_listing_eq (origin other : UInt32) : ∀ image image' : List UInt8,
    listing origin image = listing other image' →
      wholeWords image = wholeWords image' ∧ (2 ≤ image.length → origin = other)
  | [], [], _ | [], [_], _ | [_], [], _ | [_], [_], _ => by simp [wholeWords]
  | [], _ :: _ :: _, same | [_], _ :: _ :: _, same => nomatch same
  | _ :: _ :: _, [], same | _ :: _ :: _, [_], same => nomatch same
  | upper :: lower :: rest, upper' :: lower' :: rest', same => by
    obtain ⟨line, lines⟩ := List.cons.inj same
    have reads := reads_listingLine origin (.ofBytes upper lower)
    rw [line] at reads
    obtain ⟨addresses, words⟩ := reads.unique (reads_listingLine other (.ofBytes upper' lower'))
    rw [Word.toNat_raw_ofBytes, Word.toNat_raw_ofBytes] at words
    have bounds := And.intro lower.toNat_lt lower'.toNat_lt
    obtain rfl : upper = upper' := UInt8.toNat_inj.mp (by omega)
    obtain rfl : lower = lower' := UInt8.toNat_inj.mp (by omega)
    rw [wholeWords_cons_cons, wholeWords_cons_cons,
      (eq_of_listing_eq (origin + 2) (other + 2) rest rest' lines).1]
    exact ⟨rfl, fun _ => UInt32.toNat_inj.mp addresses⟩

/-- A listing is a faithful image of what is listed. It has a line for each whole word, and each
line is read back, cut at its first two gaps, as the address of the word and the word. So two
images with one listing differ in an odd last byte at most, and a listing can be made piece by
piece. -/
theorem listing_faithful (origin : UInt16) (image : List UInt8)
    (room : origin.toNat + image.length ≤ 2 ^ 32) :
    (listing origin.toUInt32 image).length = image.length / 2 ∧
    (∀ (line : Nat) (inside : 2 * line + 1 < image.length),
      ∃ text, (listing origin.toUInt32 image)[line]? = some text ∧
        Reads text (origin.toNat + 2 * line)
          (256 * image[2 * line].toNat + image[2 * line + 1].toNat)
          (Word.ofBytes image[2 * line] image[2 * line + 1]).mnemonic) ∧
    (∀ (other : UInt16) (image' : List UInt8),
      listing origin.toUInt32 image = listing other.toUInt32 image' →
        wholeWords image = wholeWords image' ∧ (2 ≤ image.length → origin = other)) ∧
    ∀ first second, image = first ++ second → first.length % 2 = 0 →
      origin.toNat + first.length < 65536 →
      listing origin.toUInt32 image = listing origin.toUInt32 first ++
        listing (origin + UInt16.ofNat first.length).toUInt32 second := by
  refine ⟨length_listing _ image, fun line inside => ?_, fun other image' same => ?_,
    fun first second cut even below => ?_⟩
  · have address : (origin.toUInt32 + UInt32.ofNat (2 * line)).toNat =
        origin.toNat + 2 * line := by
      rw [UInt32.toNat_add, UInt16.toNat_toUInt32, UInt32.toNat_ofNat']
      omega
    have reads := reads_listingLine (origin.toUInt32 + UInt32.ofNat (2 * line))
      (.ofBytes image[2 * line] image[2 * line + 1])
    rw [address, Word.toNat_raw_ofBytes] at reads
    exact ⟨_, listing_getElem?_of_pair _ line (List.getElem?_eq_getElem _)
      (List.getElem?_eq_getElem inside), reads⟩
  · obtain ⟨words, origins⟩ := eq_of_listing_eq _ _ image image' same
    exact ⟨words, fun some => UInt16.toUInt32_inj.mp (origins some)⟩
  · have next : (origin + UInt16.ofNat first.length).toUInt32 =
        origin.toUInt32 + UInt32.ofNat first.length := by
      rw [← UInt32.toNat_inj, UInt16.toNat_toUInt32, UInt16.toNat_add, UInt16.toNat_ofNat',
        UInt32.toNat_add, UInt16.toNat_toUInt32, UInt32.toNat_ofNat']
      omega
    rw [cut, listing_append _ second first even, next]

/-- Three digits for the first address and four for the second, and a byte that is not listed. -/
theorem listing_faithful_growing :
    let origin : UInt16 := 0xFFE
    let words : List UInt8 := [0x00, 0xE0, 0x12, 0x34]
    let image := words ++ [0xFF]
    (origin.toNat + image.length ≤ 2 ^ 32 ∧ 2 * 1 + 1 < image.length ∧
        listing origin.toUInt32 image = listing origin.toUInt32 words ∧
        image = [0x00, 0xE0] ++ [0x12, 0x34, 0xFF] ∧ [0x00, 0xE0].length % 2 = 0 ∧
        origin.toNat + [0x00, 0xE0].length < 65536) ∧
      (listing origin.toUInt32 image).length = 2 ∧
      (∃ text, (listing origin.toUInt32 image)[1]? = some text ∧
        Reads text 0x1000 0x1234 "JP 0x234") ∧
      wholeWords image = wholeWords words ∧
      listing origin.toUInt32 image =
        listing origin.toUInt32 [0x00, 0xE0] ++ listing 0x1000 [0x12, 0x34, 0xFF] := by
  intro origin words image
  have room : origin.toNat + image.length ≤ 2 ^ 32 := by decide
  have inside : 2 * 1 + 1 < image.length := by decide
  have same : listing origin.toUInt32 image = listing origin.toUInt32 words := rfl
  have below : origin.toNat + [0x00, 0xE0].length < 65536 := by decide
  obtain ⟨lines, reads, unique, pieces⟩ := listing_faithful origin image room
  have mnemonic : (Word.ofBytes 0x12 0x34).mnemonic = "JP 0x234" := by decide +kernel
  have second : ∃ text, (listing origin.toUInt32 image)[1]? = some text ∧
      Reads text 0x1000 0x1234 (Word.ofBytes 0x12 0x34).mnemonic := reads 1 inside
  rw [mnemonic] at second
  exact ⟨⟨room, inside, same, rfl, rfl, below⟩, lines.trans (by decide), second,
    (unique origin words same).1, pieces [0x00, 0xE0] [0x12, 0x34, 0xFF] rfl rfl below⟩

end Chip8
