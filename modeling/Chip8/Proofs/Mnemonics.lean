/-
A mnemonic says all that there is to say about an instruction. A line of assembly is cut
into words at its blanks; the first one is the name, and what the others start with tells
operands of different kinds apart. That is enough to know the operation. Once it is known,
so are the kinds of its operands to the last detail, and then each number is read back from
its digits. Two words with the same mnemonic therefore differ in nothing that is carried
out, and a step on one of them is a step on the other.
-/

import Chip8.Machine.Watch
import Chip8.Proofs.Digits
import Mathlib.Data.List.Nodup

namespace Chip8

/-! ### Texts of operands -/

namespace Operand

/-- The character that an operand starts with. Numbers of all widths start alike. -/
def initial : Operand → Char
  | register _ => 'V'
  | byte _ | nibble _ | address _ => '0'
  | index => 'I'
  | block => '['
  | delayTimer => 'D'
  | soundTimer => 'S'
  | key => 'K'
  | glyph => 'F'
  | decimal => 'B'

theorem head?_text (operand : Operand) : operand.text.toList.head? = some operand.initial := by
  cases operand <;> simp [text, initial]

theorem blank_not_mem_text (operand : Operand) : ' ' ∉ operand.text.toList := by
  have digits (width value : Nat) : ' ' ∉ (Hex.text width value).toList := by
    intro among
    obtain ⟨place, same⟩ := Hex.exists_of_mem_text among
    revert place
    decide
  cases operand <;> simp [text, digits]

/-- The operand with nothing but zero for a number. -/
def zeroed : Operand → Operand
  | register _ => register 0
  | byte _ => byte 0
  | nibble _ => nibble 0
  | address _ => address 0
  | operand => operand

/-- Among operands of one kind, the text tells them apart. -/
theorem eq_of_text_eq {first second : Operand} (kind : first.zeroed = second.zeroed)
    (same : first.text = second.text) : first = second := by
  -- Across kinds the zeroed operands differ; within one, the digits are read back.
  cases first <;> cases second <;> cases kind <;>
    simp_all [text, Hex.text_inj, UInt8.toNat_inj, UInt16.toNat_inj]

theorem eq_of_texts_eq {first second : List Operand}
    (kinds : first.map zeroed = second.map zeroed) (same : first.map text = second.map text) :
    first = second := by
  induction first generalizing second with
  | nil => exact (List.map_eq_nil_iff.mp same.symm).symm
  | cons operand rest inductionHypothesis =>
    cases second with
    | nil => cases same
    | cons other others =>
      obtain ⟨kind, kinds⟩ := List.cons.inj kinds
      obtain ⟨head, tail⟩ := List.cons.inj same
      rw [eq_of_text_eq kind head, inductionHypothesis kinds tail]

end Operand

/-! ### Lines as words -/

namespace Assembly

/-- Operands with a comma after each but the last. -/
def punctuated : List Operand → List String
  | [] => []
  | [last] => [last.text]
  | operand :: next :: rest => (operand.text ++ ",") :: punctuated (next :: rest)

/-- The words of a line, which blanks separate. -/
def words : Assembly → List String
  | instruction name operands => name :: punctuated operands
  | data digits => digits.map fun digit => (Operand.nibble digit).text

theorem punctuated_ne_nil (operand : Operand) (rest : List Operand) :
    punctuated (operand :: rest) ≠ [] := by
  cases rest <;> exact List.cons_ne_nil _ _

theorem intercalate_punctuated (operand : Operand) (rest : List Operand) :
    " ".intercalate (punctuated (operand :: rest)) =
      ", ".intercalate ((operand :: rest).map Operand.text) := by
  induction rest generalizing operand with
  | nil => rfl
  | cons next rest inductionHypothesis =>
    have comma : operand.text ++ "," ++ " " = operand.text ++ ", " := String.append_assoc
    calc " ".intercalate ((operand.text ++ ",") :: punctuated (next :: rest))
      _ = operand.text ++ "," ++ " " ++ " ".intercalate (punctuated (next :: rest)) :=
        String.intercalate_cons_of_ne_nil (punctuated_ne_nil next rest)
      _ = operand.text ++ ", " ++ ", ".intercalate ((next :: rest).map Operand.text) := by
        rw [comma, inductionHypothesis next]
      _ = ", ".intercalate ((operand :: next :: rest).map Operand.text) :=
        String.intercalate_cons_cons.symm

theorem text_eq_intercalate (assembly : Assembly) :
    assembly.text = " ".intercalate assembly.words := by
  cases assembly with
  | data digits => rfl
  | instruction name operands =>
    cases operands with
    | nil => exact String.intercalate_singleton.symm
    | cons operand rest =>
      rw [words, String.intercalate_cons_of_ne_nil (punctuated_ne_nil operand rest),
        intercalate_punctuated operand rest]
      rfl

/-- A line whose words can be told apart, and its name from a digit. -/
def Plain : Assembly → Prop
  | instruction name _ => ' ' ∉ name.toList ∧ name.toList.head? ≠ some '0'
  | data digits => digits ≠ []

theorem blank_not_mem_of_mem_punctuated {operands : List Operand} {word : String}
    (among : word ∈ punctuated operands) : ' ' ∉ word.toList := by
  induction operands using punctuated.induct with
  | case1 => cases among
  | case2 last => exact List.mem_singleton.mp among ▸ last.blank_not_mem_text
  | case3 operand next rest inductionHypothesis =>
    rcases List.mem_cons.mp among with rfl | later
    · simp [operand.blank_not_mem_text]
    · exact inductionHypothesis later

theorem blank_not_mem_of_mem_words {assembly : Assembly} (plain : assembly.Plain) {word : String}
    (among : word ∈ assembly.words) : ' ' ∉ word.toList := by
  cases assembly with
  | instruction name operands =>
    rcases List.mem_cons.mp among with rfl | later
    · exact plain.1
    · exact blank_not_mem_of_mem_punctuated later
  | data digits =>
    obtain ⟨digit, -, rfl⟩ := List.mem_map.mp among
    exact (Operand.nibble digit).blank_not_mem_text

theorem words_ne_nil {assembly : Assembly} (plain : assembly.Plain) : assembly.words ≠ [] := by
  cases assembly with
  | instruction name operands => exact List.cons_ne_nil _ _
  | data digits => exact fun none => plain (List.map_eq_nil_iff.mp none)

/-- Cut at its blanks, a line falls into its words. -/
theorem splitOn_text {assembly : Assembly} (plain : assembly.Plain) :
    assembly.text.toList.splitOn ' ' = assembly.words.map String.toList := by
  rw [text_eq_intercalate, String.toList_intercalate]
  refine List.splitOn_intercalate ' ' (fun chars among => ?_) ?_
  · obtain ⟨word, here, rfl⟩ := List.mem_map.mp among
    exact blank_not_mem_of_mem_words plain here
  · exact fun none => words_ne_nil plain (List.map_eq_nil_iff.mp none)

theorem words_eq_of_text_eq {first second : Assembly} (firstPlain : first.Plain)
    (secondPlain : second.Plain) (same : first.text = second.text) :
    first.words = second.words := by
  refine (List.map_inj_right fun _ _ => String.toList_injective).mp ?_
  rw [← splitOn_text firstPlain, same, splitOn_text secondPlain]

/-! ### Lines with one text -/

theorem texts_eq_of_punctuated_eq : ∀ {first second : List Operand},
    punctuated first = punctuated second → first.map Operand.text = second.map Operand.text
  | [], [], _ => rfl
  | [], other :: others, same => absurd same.symm (punctuated_ne_nil other others)
  | operand :: rest, [], same => absurd same (punctuated_ne_nil operand rest)
  | [_], [_], same => same
  | [_], _ :: next :: rest, same => absurd (List.cons.inj same).2.symm (punctuated_ne_nil next rest)
  | _ :: next :: rest, [_], same => absurd (List.cons.inj same).2 (punctuated_ne_nil next rest)
  | operand :: next :: rest, other :: _ :: _, same => by
    obtain ⟨head, tail⟩ := List.cons.inj same
    have bare : operand.text = other.text := (String.append_left_inj ",").mp head
    rw [List.map_cons, texts_eq_of_punctuated_eq tail, bare]
    rfl

/-- What a line is made of, as texts. -/
def spelling : Assembly → Option String × List String
  | instruction name operands => (some name, operands.map Operand.text)
  | data digits => (none, digits.map fun digit => (Operand.nibble digit).text)

/-- A name is not taken for a digit. -/
theorem name_ne_digit {name : String} {operands : List Operand} {digit : UInt8}
    (plain : (instruction name operands).Plain) : name ≠ (Operand.nibble digit).text :=
  fun same => plain.2 (same ▸ Operand.head?_text (.nibble digit))

theorem spelling_eq_of_text_eq {first second : Assembly} (firstPlain : first.Plain)
    (secondPlain : second.Plain) (same : first.text = second.text) :
    first.spelling = second.spelling := by
  have words := words_eq_of_text_eq firstPlain secondPlain same
  -- A name and a digit cannot both be the first word; within a kind of line the rest agrees.
  match first, second with
  | instruction name operands, instruction other others =>
    obtain ⟨rfl, tail⟩ := List.cons.inj words
    simp only [spelling, texts_eq_of_punctuated_eq tail]
  | instruction name operands, data (digit :: digits) =>
    exact absurd (List.cons.inj words).1 (name_ne_digit firstPlain)
  | data (digit :: digits), instruction name operands =>
    exact absurd (List.cons.inj words).1.symm (name_ne_digit secondPlain)
  | data digits, data others => exact congrArg (Prod.mk none) words
  | instruction _ _, data [] => exact absurd rfl secondPlain
  | data [], instruction _ _ => exact absurd rfl firstPlain

/-- What the start of every word tells about a line. -/
def shape : Assembly → Option (String × List Char)
  | instruction name operands => some (name, operands.map Operand.initial)
  | data _ => none

theorem shape_eq_of_spelling_eq {first second : Assembly}
    (same : first.spelling = second.spelling) : first.shape = second.shape := by
  have initials : Operand.initial = fun operand => operand.text.toList.headD ' ' := by
    funext operand
    rw [List.headD_eq_head?_getD, operand.head?_text]
    rfl
  match first, second with
  | instruction name operands, instruction other others =>
    obtain ⟨names, texts⟩ := Prod.mk.inj same
    have starts := congrArg (List.map fun text : String => text.toList.headD ' ') texts
    rw [List.map_map, List.map_map] at starts
    rw [shape, shape, initials, Option.some.inj names]
    exact congrArg (fun starts => some (other, starts)) starts
  | data _, data _ => rfl

/-- The line with nothing but zeros for numbers. -/
def outline : Assembly → Assembly
  | instruction name operands => instruction name (operands.map Operand.zeroed)
  | data digits => data (digits.map fun _ => 0)

/-- Among lines of one outline, the texts tell them apart. -/
theorem eq_of_outline_eq {first second : Assembly} (outlines : first.outline = second.outline)
    (same : first.spelling = second.spelling) : first = second := by
  match first, second with
  | instruction name operands, instruction other others =>
    simp only [outline, instruction.injEq] at outlines
    simp only [spelling, Prod.mk.injEq] at same
    rw [outlines.1, Operand.eq_of_texts_eq outlines.2 same.2]
  | data digits, data others =>
    have each (digit other : UInt8)
        (texts : (Operand.nibble digit).text = (Operand.nibble other).text) : digit = other :=
      Operand.nibble.inj (Operand.eq_of_text_eq rfl texts)
    exact congrArg data ((List.map_inj_right each).mp (congrArg Prod.snd same))

end Assembly

/-! ### Mnemonics -/

namespace Operation

/-- Every operation. -/
def all : List Operation :=
  [clear, ret, sys, jump, call, skipEqualByte, skipUnequalByte, skipEqual, setByte, addByte, copy,
    or, and, xor, add, subtract, shiftRight, subtractFrom, shiftLeft, skipUnequal, setIndex,
    jumpForward, random, draw, skipHeld, skipReleased, readDelay, awaitKey, setDelay, setSound,
    addIndex, pointGlyph, storeDecimal, storeRegisters, loadRegisters, unknown]

theorem mem_all (operation : Operation) : operation ∈ all := by
  cases operation <;> decide

/-- How an operation is written, numbers apart. -/
def outline (operation : Operation) : Assembly := operation.assembly ⟨0, 0, 0, 0, 0, 0⟩

theorem outline_assembly (operation : Operation) (fields : Fields) :
    (operation.assembly fields).outline = operation.outline := by
  cases operation <;> rfl

theorem plain_assembly (operation : Operation) (fields : Fields) :
    (operation.assembly fields).Plain := by
  cases operation <;> simp [assembly, Assembly.Plain]

/-- No two operations have a name in common and operands that start alike. -/
theorem nodup_shapes : (all.map fun operation => operation.outline.shape).Nodup := by
  decide +kernel

theorem shape_assembly (operation : Operation) (fields : Fields) :
    (operation.assembly fields).shape = operation.outline.shape := by
  cases operation <;> rfl

theorem spelling_eq_of_mnemonic_eq {first second : Operation} {fields others : Fields}
    (same : first.mnemonic fields = second.mnemonic others) :
    (first.assembly fields).spelling = (second.assembly others).spelling :=
  Assembly.spelling_eq_of_text_eq (first.plain_assembly fields) (second.plain_assembly others) same

theorem eq_of_mnemonic_eq {first second : Operation} {fields others : Fields}
    (same : first.mnemonic fields = second.mnemonic others) : first = second := by
  have shapes : first.outline.shape = second.outline.shape := by
    rw [← shape_assembly first fields, ← shape_assembly second others]
    exact Assembly.shape_eq_of_spelling_eq (spelling_eq_of_mnemonic_eq same)
  exact List.inj_on_of_nodup_map nodup_shapes first.mem_all second.mem_all shapes

/-- A mnemonic determines the operation and every number that is written. -/
theorem mnemonic_eq_iff {first second : Operation} {fields others : Fields} :
    first.mnemonic fields = second.mnemonic others ↔
      first.assembly fields = second.assembly others := by
  refine ⟨fun same => ?_, congrArg Assembly.text⟩
  obtain rfl := eq_of_mnemonic_eq same
  have outlines : (first.assembly fields).outline = (first.assembly others).outline :=
    (first.outline_assembly fields).trans (first.outline_assembly others).symm
  exact Assembly.eq_of_outline_eq outlines (spelling_eq_of_mnemonic_eq same)

end Operation

/-! ### Steps -/

namespace Word

theorem digit_inj {first second : Fin 16} :
    UInt8.ofNat first.val = UInt8.ofNat second.val ↔ first = second := by
  revert first second
  decide

theorem address_inj {first second : Address} :
    UInt16.ofNat first.val = UInt16.ofNat second.val ↔ first = second := by
  refine ⟨fun same => Address.ext_val ?_, fun same => same ▸ rfl⟩
  have numbers := congrArg UInt16.toNat same
  have small (address : Address) : (UInt16.ofNat address.val).toNat = address.val :=
    UInt16.toNat_ofNat_of_lt' (Nat.lt_trans address.isLt (by decide))
  rwa [small, small] at numbers

theorem leading (word : Word) : word.raw.toNat / 4096 = word.family.val := by
  rw [toNat_raw]
  omega

end Word

/-- Words have one mnemonic just when they have one operation and mean one instruction. -/
theorem Word.mnemonic_eq_iff {first second : Word} :
    first.mnemonic = second.mnemonic ↔
      Operation.ofWord first = Operation.ofWord second ∧
        Instruction.ofWord first = Instruction.ofWord second := by
  -- Calls of both kinds are one instruction, so the operations are compared on their own.
  have lines (operations : Operation.ofWord first = Operation.ofWord second) :
      first.mnemonic = second.mnemonic ↔ Instruction.ofWord first = Instruction.ofWord second := by
    unfold mnemonic Instruction.ofWord
    rw [Operation.mnemonic_eq_iff, operations]
    generalize Operation.ofWord second = operation
    cases operation <;>
      simp [Operation.assembly, fields, digit_inj, address_inj, leading, Word.ext_iff]
  refine ⟨fun same => ?_, fun both => (lines both.1).mpr both.2⟩
  have operations := Operation.eq_of_mnemonic_eq same
  exact ⟨operations, (lines operations).mp same⟩

/-- A step is determined by the machine, the level and the mnemonic of the word. -/
theorem Machine.executeAt_eq_of_mnemonic_eq {first second : Word}
    (same : first.mnemonic = second.mnemonic) (level : Log.Level) (machine : Machine) :
    machine.executeAt level first = machine.executeAt level second := by
  unfold executeAt record
  rw [same, (Word.mnemonic_eq_iff.mp same).2]

/-- Both words halve the first register, and neither mnemonic has the second one in it. -/
theorem Machine.executeAt_eq_of_mnemonic_eq_shift :
    Word.mk 8 1 2 6 ≠ Word.mk 8 1 3 6 ∧
      (Word.mk 8 1 2 6).mnemonic = (Word.mk 8 1 3 6).mnemonic ∧
      (fresh 0 1).executeAt .debug (Word.mk 8 1 2 6) =
        (fresh 0 1).executeAt .debug (Word.mk 8 1 3 6) := by
  have same : (Word.mk 8 1 2 6).mnemonic = (Word.mk 8 1 3 6).mnemonic := rfl
  exact ⟨by decide, same, executeAt_eq_of_mnemonic_eq same .debug (fresh 0 1)⟩

end Chip8
