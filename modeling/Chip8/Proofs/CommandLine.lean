/-
What a command line is taken to ask for. The switches can be left out of it: what is left, its
plain arguments, decides by itself whether the reading goes through and what name and number come
of it, and the switches decide about themselves. A number is spelled by blanks, a plus sign or
none, and digits to the end, however many; reading it from the front, with numbers too large for
sixty-four bits cut short, comes to the same, since nothing above a thousand is asked for. A
reading that stops early has read what stands before the argument that stopped it.
-/

import Chip8.Options
import Mathlib.Data.List.Induction
import Mathlib.Data.List.TakeWhile
import Mathlib.Logic.Function.Iterate

namespace Chip8

namespace Options

/-! ### Numbers -/

/-- An argument is a number: blanks, a plus sign or none, and digits up to the end. -/
def Spells (argument : String) (value : Nat) : Prop :=
  ∃ blanks sign digits, argument.toList = blanks ++ sign ++ digits ∧
    (∀ character ∈ blanks, isBlank character = true) ∧ (sign = [] ∨ sign = ['+']) ∧
    digits ≠ [] ∧ (∀ character ∈ digits, character.isDigit = true) ∧ decimalValue digits = value

/-- The nearest number to a given one that sixty-four bits with a sign can hold. -/
def saturated (value : Int) : Int := max (-0x8000000000000000) (min 0x7FFFFFFFFFFFFFFF value)

/-- A sign taken off the front of a text, if there is one: whether it was a minus sign, and what
is left. -/
def unsigned : List Char → Bool × List Char
  | '-' :: rest => (true, rest)
  | '+' :: rest => (false, rest)
  | rest => (false, rest)

/-- The number at the front of a text, after blanks and a sign, and what is left behind it. If
there is no digit, then nothing is read and the number is zero. -/
def leading (text : List Char) : Int × List Char :=
  let (negative, rest) := unsigned (text.dropWhile isBlank)
  let digits := rest.takeWhile Char.isDigit
  if digits = [] then (0, text)
  else
    let size : Int := decimalValue digits
    (saturated (if negative then -size else size), rest.dropWhile Char.isDigit)

/-- The number of instructions to a frame as it is read from the front of an argument: something
has to be read, and nothing left behind it. -/
def leadingInstructionsPerFrame? (argument : String) : Option Nat :=
  let (value, rest) := leading argument.toList
  if rest = argument.toList ∨ rest ≠ [] ∨ value < 1 ∨ 1000 < value then none
  else some value.toNat

/-- There is something to read in a number. -/
theorem Spells.toList_ne_nil {argument : String} {value : Nat} (spells : Spells argument value) :
    argument.toList ≠ [] := by
  obtain ⟨blanks, sign, digits, parts, -, -, given, -⟩ := spells
  rw [parts]
  exact List.append_ne_nil_of_right_ne_nil _ given

theorem isBlank_of_isDigit {character : Char} (digit : character.isDigit = true) :
    isBlank character = false := by
  refine Bool.eq_false_iff.mpr fun blank => ?_
  simp only [isBlank, List.contains_eq_mem, List.mem_cons, List.not_mem_nil, or_false,
    decide_eq_true_eq] at blank
  rcases blank with rfl | rfl | rfl | rfl | rfl | rfl <;> cases digit

section Parts

variable {blanks sign digits : List Char}
  (blank : ∀ character ∈ blanks, isBlank character = true) (plus : sign = [] ∨ sign = ['+'])
  (given : digits ≠ []) (digit : ∀ character ∈ digits, character.isDigit = true)

include plus given digit

theorem unsigned_of_parts : unsigned (sign ++ digits) = (false, digits) := by
  rcases plus with rfl | rfl
  · rw [List.nil_append]
    fun_cases unsigned digits with
    | case1 => exact absurd (digit '-' List.mem_cons_self) (by decide)
    | case2 => exact absurd (digit '+' List.mem_cons_self) (by decide)
    | case3 => rfl
  · rfl

include blank

/-- Nothing but blanks is dropped in front of a number. -/
theorem dropWhile_of_parts : (blanks ++ sign ++ digits).dropWhile isBlank = sign ++ digits := by
  rw [List.append_assoc, List.dropWhile_append_of_pos blank]
  rcases plus with rfl | rfl
  · cases digits with
    | nil => exact absurd rfl given
    | cons first rest =>
      have dark := isBlank_of_isDigit (digit first List.mem_cons_self)
      exact List.dropWhile_cons_of_neg (Bool.not_eq_true _ ▸ dark)
  · rfl

end Parts

/-- Where no minus sign was taken off, blanks and a plus sign are all that stands in front. -/
theorem spells_of_unsigned {argument : String} {digits : List Char}
    (positive : unsigned (argument.toList.dropWhile isBlank) = (false, digits))
    (given : digits ≠ []) (digit : ∀ character ∈ digits, character.isDigit = true) :
    Spells argument (decimalValue digits) := by
  obtain ⟨sign, plus, behind⟩ : ∃ sign, (sign = [] ∨ sign = ['+']) ∧
      argument.toList.dropWhile isBlank = sign ++ digits := by
    generalize argument.toList.dropWhile isBlank = text at positive
    revert positive
    fun_cases unsigned text with
    | case1 => exact nofun
    | case2 rest =>
      rintro ⟨⟩
      exact ⟨['+'], Or.inr rfl, rfl⟩
    | case3 =>
      rintro ⟨⟩
      exact ⟨[], Or.inl rfl, rfl⟩
  refine ⟨argument.toList.takeWhile isBlank, sign, digits, ?_, fun _ => List.mem_takeWhile_imp,
    plus, given, digit, rfl⟩
  rw [List.append_assoc, ← behind, List.takeWhile_append_dropWhile]

/-- A minus sign is no digit, so what stands behind it does not count. -/
theorem number?_eq (text : List Char) :
    number? text =
      match unsigned (text.dropWhile isBlank) with
      | (true, _) => none
      | (false, digits) =>
        if digits ≠ [] ∧ digits.all Char.isDigit then some (decimalValue digits) else none := by
  unfold number?
  generalize text.dropWhile isBlank = rest
  fun_cases unsigned rest with
  | case1 => exact if_neg fun both => absurd both.2 (by simp)
  | case2 => rfl
  | case3 _ _ noPlus =>
    dsimp only
    split
    · exact (noPlus _ rfl).elim
    · rfl

/-- A text is a number exactly if it has the parts of one. -/
theorem number?_eq_some_iff {argument : String} {value : Nat} :
    number? argument.toList = some value ↔ Spells argument value := by
  rw [number?_eq]
  constructor
  · intro read
    split at read
    · cases read
    · next digits positive =>
      obtain ⟨⟨given, digit⟩, same⟩ := Option.ite_none_right_eq_some.mp read
      rw [← Option.some.inj same]
      exact spells_of_unsigned positive given (List.all_eq_true.mp digit)
  · rintro ⟨blanks, sign, digits, parts, blank, plus, given, digit, rfl⟩
    rw [parts, dropWhile_of_parts blank plus given digit, unsigned_of_parts plus given digit]
    exact if_pos ⟨given, List.all_eq_true.mpr digit⟩

theorem instructionsPerFrame?_eq_some_iff {argument : String} {value : Nat} :
    instructionsPerFrame? argument = some value ↔
      Spells argument value ∧ 1 ≤ value ∧ value ≤ 1000 := by
  rw [instructionsPerFrame?, Option.filter_eq_some_iff, number?_eq_some_iff, Bool.and_eq_true,
    decide_eq_true_iff, decide_eq_true_iff]
  rfl

/-! ### Numbers read from the front -/

/-- Cutting a number short does not bring it into range. -/
theorem saturated_eq_iff {size value : Int} (low : 1 ≤ value) (high : value ≤ 1000) :
    saturated size = value ↔ size = value := by
  unfold saturated
  omega

/-- What is spelled by a whole text is read from its front, with nothing left. -/
theorem leading_of_spells {argument : String} {value : Nat} (spells : Spells argument value) :
    leading argument.toList = (saturated value, []) := by
  obtain ⟨blanks, sign, digits, parts, blank, plus, given, digit, rfl⟩ := spells
  have whole : digits.takeWhile Char.isDigit = digits := List.takeWhile_eq_self_iff.mpr digit
  have nothing : digits.dropWhile Char.isDigit = [] := List.dropWhile_eq_nil_iff.mpr digit
  unfold leading
  rw [parts, dropWhile_of_parts blank plus given digit, unsigned_of_parts plus given digit]
  dsimp only
  rw [whole, nothing, if_neg given, if_neg Bool.false_ne_true]

/-- A positive number that is read from the front with nothing left is spelled by the whole text,
unless nothing was there to be read. -/
theorem spells_of_leading {argument : String} {value : Int} (positive : 1 ≤ value)
    (reads : leading argument.toList = (value, [])) :
    ∃ size, Spells argument size ∧ saturated size = value := by
  unfold leading at reads
  rcases sign : unsigned (argument.toList.dropWhile isBlank) with ⟨negative, digits⟩
  rw [sign] at reads
  dsimp only at reads
  split at reads
  · injection reads
    omega
  · next given =>
    obtain ⟨number, nothing⟩ := Prod.mk.inj reads
    have digit := List.dropWhile_eq_nil_iff.mp nothing
    rw [List.takeWhile_eq_self_iff.mpr digit] at number given
    cases negative with
    | true =>
      rw [if_pos rfl, saturated] at number
      omega
    | false =>
      rw [if_neg Bool.false_ne_true] at number
      exact ⟨decimalValue digits, spells_of_unsigned sign given digit, number⟩

theorem leadingInstructionsPerFrame?_eq_some_iff {argument : String} {value : Nat} :
    leadingInstructionsPerFrame? argument = some value ↔
      Spells argument value ∧ 1 ≤ value ∧ value ≤ 1000 := by
  unfold leadingInstructionsPerFrame?
  constructor
  · intro read
    rcases reads : leading argument.toList with ⟨number, rest⟩
    rw [reads] at read
    obtain ⟨fine, same⟩ := Option.ite_none_left_eq_some.mp read
    simp only [not_or, not_not, Int.not_lt] at fine
    obtain ⟨-, rfl, low, high⟩ := fine
    obtain ⟨size, spells, cut⟩ := spells_of_leading low reads
    have whole : (size : Int) = number := (saturated_eq_iff low high).mp cut
    obtain rfl : size = value := by
      have back := Option.some.inj same
      omega
    exact ⟨spells, by omega, by omega⟩
  · rintro ⟨spells, low, high⟩
    have given : ([] : List Char) ≠ argument.toList := (spells.toList_ne_nil).symm
    have whole : saturated value = value := (saturated_eq_iff (by omega) (by omega)).mpr rfl
    rw [leading_of_spells spells, whole]
    refine (if_neg ?_).trans (congrArg some (Int.toNat_natCast value))
    simp only [not_or, not_not, Int.not_lt]
    exact ⟨given, trivial, by omega, by omega⟩

/-- Taking a number from the front, and asking then whether all was read, comes to the same. -/
theorem leadingInstructionsPerFrame?_eq (argument : String) :
    leadingInstructionsPerFrame? argument = instructionsPerFrame? argument := by
  refine Option.ext fun value => ?_
  rw [leadingInstructionsPerFrame?_eq_some_iff, instructionsPerFrame?_eq_some_iff]

/-! ### Plain arguments -/

/-- An argument that means the same wherever it stands. -/
def isSwitch (argument : String) : Bool :=
  argument == "--debug" || argument == "--disassemble"

/-- The plain arguments of a command line, which are read in order. -/
def positional (arguments : List String) : List String :=
  arguments.filter fun argument => !isSwitch argument

theorem isSwitch_eq_false_iff {argument : String} :
    isSwitch argument = false ↔ argument ≠ "--debug" ∧ argument ≠ "--disassemble" := by
  rw [isSwitch, Bool.or_eq_false_iff, beq_eq_false_iff_ne, beq_eq_false_iff_ne]

theorem isSwitch_eq_true_iff {argument : String} :
    isSwitch argument = true ↔ argument = "--debug" ∨ argument = "--disassemble" := by
  rw [isSwitch, Bool.or_eq_true, beq_iff_eq, beq_iff_eq]

theorem positional_append (first second : List String) :
    positional (first ++ second) = positional first ++ positional second :=
  List.filter_append _ _

theorem positional_cons_of_plain {argument : String} (plain : isSwitch argument = false)
    (rest : List String) : positional (argument :: rest) = argument :: positional rest :=
  List.filter_cons_of_pos (by rw [plain, Bool.not_false])

theorem positional_cons_of_switch {argument : String} (switch : isSwitch argument = true)
    (rest : List String) : positional (argument :: rest) = positional rest :=
  List.filter_cons_of_neg (by rw [switch, Bool.not_true]; exact Bool.false_ne_true)

theorem positional_concat_of_plain {argument : String} (plain : isSwitch argument = false)
    (arguments : List String) :
    positional (arguments ++ [argument]) = positional arguments ++ [argument] := by
  rw [positional_append, positional_cons_of_plain plain]
  rfl

theorem positional_concat_of_switch {argument : String} (switch : isSwitch argument = true)
    (arguments : List String) : positional (arguments ++ [argument]) = positional arguments := by
  rw [positional_append, positional_cons_of_switch switch]
  exact List.append_nil _

section Plain

variable (options : Options) {argument : String} (plain : isSwitch argument = false)
  (rest : List String)

include plain

theorem parseFrom_rom :
    parseFrom options .rom (argument :: rest) =
      parseFrom { options with rom := argument } .instructionsPerFrame rest := by
  obtain ⟨noDebug, noListing⟩ := isSwitch_eq_false_iff.mp plain
  rw [parseFrom, if_neg noDebug, if_neg noListing]

theorem parseFrom_number {value : Nat} (found : instructionsPerFrame? argument = some value) :
    parseFrom options .instructionsPerFrame (argument :: rest) =
      parseFrom { options with instructionsPerFrame := value } .nothing rest := by
  obtain ⟨noDebug, noListing⟩ := isSwitch_eq_false_iff.mp plain
  rw [parseFrom, if_neg noDebug, if_neg noListing, found]

theorem parseFrom_noNumber (unusable : instructionsPerFrame? argument = none) :
    parseFrom options .instructionsPerFrame (argument :: rest) =
      ⟨options, some (.badInstructionsPerFrame argument)⟩ := by
  obtain ⟨noDebug, noListing⟩ := isSwitch_eq_false_iff.mp plain
  rw [parseFrom, if_neg noDebug, if_neg noListing, unusable]

theorem parseFrom_excess :
    parseFrom options .nothing (argument :: rest) =
      ⟨options, some (.unexpectedArgument argument)⟩ := by
  obtain ⟨noDebug, noListing⟩ := isSwitch_eq_false_iff.mp plain
  rw [parseFrom, if_neg noDebug, if_neg noListing]

end Plain

/-- A plain argument is none of the switches. -/
theorem mem_concat_iff {switch argument : String} (isSwitch_switch : isSwitch switch = true)
    (plain : isSwitch argument = false) {arguments : List String} :
    switch ∈ arguments ++ [argument] ↔ switch ∈ arguments := by
  rw [List.mem_append, List.mem_singleton]
  refine or_iff_left fun same => ?_
  rw [← same, isSwitch_switch] at plain
  cases plain

/-- What is expected after a plain argument. -/
def Place.next : Place → Place
  | .rom => .instructionsPerFrame
  | .instructionsPerFrame | .nothing => .nothing

/-- A reading that came to the end of one command line goes on with another from there. -/
theorem parseFrom_append {options : Options} {place : Place} {first : List String}
    (accepted : (parseFrom options place first).complaint = none) (second : List String) :
    parseFrom options place (first ++ second) =
      parseFrom (parseFrom options place first).options
        (Place.next^[(positional first).length] place) second := by
  fun_induction parseFrom options place first with
  | case1 => rfl
  | case2 options _ rest inductionHypothesis =>
    rw [positional_cons_of_switch (by decide), ← inductionHypothesis accepted]
    rfl
  | case3 options _ rest _ inductionHypothesis =>
    rw [positional_cons_of_switch (by decide), ← inductionHypothesis accepted]
    rfl
  | case4 _ _ _ noDebug noListing inductionHypothesis =>
    have plain := isSwitch_eq_false_iff.mpr ⟨noDebug, noListing⟩
    rw [positional_cons_of_plain plain, List.cons_append, parseFrom_rom _ plain]
    exact inductionHypothesis accepted
  | case5 _ _ _ noDebug noListing _ found inductionHypothesis =>
    have plain := isSwitch_eq_false_iff.mpr ⟨noDebug, noListing⟩
    rw [positional_cons_of_plain plain, List.cons_append, parseFrom_number _ plain _ found]
    exact inductionHypothesis accepted
  | case6 | case7 => cases accepted

/-- A reading that has stopped is not changed by what comes later. -/
theorem parseFrom_append_of_refused {options : Options} {place : Place} {first : List String}
    (refused : (parseFrom options place first).complaint ≠ none) (second : List String) :
    parseFrom options place (first ++ second) = parseFrom options place first := by
  fun_induction parseFrom options place first with
  | case1 => exact absurd rfl refused
  | case2 _ _ _ inductionHypothesis => exact inductionHypothesis refused
  | case3 _ _ _ _ inductionHypothesis => exact inductionHypothesis refused
  | case4 _ _ _ noDebug noListing inductionHypothesis =>
    rw [List.cons_append, parseFrom_rom _ (isSwitch_eq_false_iff.mpr ⟨noDebug, noListing⟩)]
    exact inductionHypothesis refused
  | case5 _ _ _ noDebug noListing _ found inductionHypothesis =>
    rw [List.cons_append,
      parseFrom_number _ (isSwitch_eq_false_iff.mpr ⟨noDebug, noListing⟩) _ found]
    exact inductionHypothesis refused
  | case6 _ _ _ noDebug noListing unusable =>
    exact parseFrom_noNumber _ (isSwitch_eq_false_iff.mpr ⟨noDebug, noListing⟩) _ unusable
  | case7 _ _ _ noDebug noListing =>
    exact parseFrom_excess _ (isSwitch_eq_false_iff.mpr ⟨noDebug, noListing⟩) _

/-! ### What is asked for -/

/-- Plain arguments that can be used: two at most, and the second of them a number of
instructions to a frame. -/
def Usable (plain : List String) : Prop :=
  plain.length ≤ 2 ∧
    ∀ argument, plain[1]? = some argument →
      ∃ value, Spells argument value ∧ 1 ≤ value ∧ value ≤ 1000

theorem usable_of_length_le_one {plain : List String} (short : plain.length ≤ 1) :
    Usable plain := by
  refine ⟨Nat.le_succ_of_le short, fun argument found => ?_⟩
  rw [List.getElem?_eq_none short] at found
  cases found

/-- What a command line asks for, if all of it can be used. -/
structure Asks (arguments : List String) (options : Options) : Prop where
  rom : options.rom = (positional arguments)[0]?.getD "INVADERS"
  given : ∀ argument, (positional arguments)[1]? = some argument →
    Spells argument options.instructionsPerFrame
  preset : (positional arguments).length ≤ 1 → options.instructionsPerFrame = 10
  disassemble : options.disassemble = true ↔ "--disassemble" ∈ arguments
  debug : options.debug = true ↔ "--debug" ∈ arguments

theorem Spells.unique {argument : String} {first second : Nat} (one : Spells argument first)
    (other : Spells argument second) : first = second :=
  Option.some.inj ((number?_eq_some_iff.mpr one).symm.trans (number?_eq_some_iff.mpr other))

/-- There is only one thing that a command line asks for. -/
theorem Asks.unique {arguments : List String} {first second : Options}
    (one : Asks arguments first) (other : Asks arguments second) : first = second := by
  have number : first.instructionsPerFrame = second.instructionsPerFrame := by
    cases two : (positional arguments)[1]? with
    | none =>
      have short := List.getElem?_eq_none_iff.mp two
      rw [one.preset short, other.preset short]
    | some argument => exact (one.given argument two).unique (other.given argument two)
  have listing : first.disassemble = second.disassemble :=
    Bool.eq_iff_iff.mpr (one.disassemble.trans other.disassemble.symm)
  have debugging : first.debug = second.debug :=
    Bool.eq_iff_iff.mpr (one.debug.trans other.debug.symm)
  cases first
  cases second
  cases one.rom.trans other.rom.symm
  cases number
  cases listing
  cases debugging
  rfl

/-- Where the switches stand does not matter, nor how often. -/
theorem Asks.congr {arguments other : List String} {options : Options}
    (plain : positional other = positional arguments)
    (switches : ∀ argument, isSwitch argument = true → (argument ∈ other ↔ argument ∈ arguments))
    (asks : Asks arguments options) : Asks other options where
  rom := by rw [plain]; exact asks.rom
  given := by rw [plain]; exact asks.given
  preset := by rw [plain]; exact asks.preset
  disassemble := asks.disassemble.trans (switches _ (by decide)).symm
  debug := asks.debug.trans (switches _ (by decide)).symm

theorem asks_nil : Asks [] defaults where
  rom := rfl
  given := nofun
  preset _ := rfl
  disassemble := by decide
  debug := by decide

section Steps

variable {arguments : List String} {options : Options} (asks : Asks arguments options)

include asks

/-- A switch adds to what is asked for, and leaves what the plain arguments said. -/
theorem Asks.concat_switch {argument : String} (switch : isSwitch argument = true)
    (disassemble debug : Bool)
    (listing : disassemble = true ↔ options.disassemble = true ∨ argument = "--disassemble")
    (debugging : debug = true ↔ options.debug = true ∨ argument = "--debug") :
    Asks (arguments ++ [argument]) { options with disassemble := disassemble, debug := debug } where
  rom := by rw [positional_concat_of_switch switch]; exact asks.rom
  given := by rw [positional_concat_of_switch switch]; exact asks.given
  preset := by rw [positional_concat_of_switch switch]; exact asks.preset
  disassemble := by rw [listing, asks.disassemble, List.mem_append, List.mem_singleton, eq_comm]
  debug := by rw [debugging, asks.debug, List.mem_append, List.mem_singleton, eq_comm]

variable {argument : String} (plain : isSwitch argument = false)

include plain

theorem Asks.concat_rom (first : positional arguments = []) :
    Asks (arguments ++ [argument]) { options with rom := argument } where
  rom := by rw [positional_concat_of_plain plain, first]; rfl
  given := by rw [positional_concat_of_plain plain, first]; exact fun _ other => nomatch other
  preset _ := asks.preset (by rw [first]; exact Nat.zero_le 1)
  disassemble := asks.disassemble.trans (mem_concat_iff (by decide) plain).symm
  debug := asks.debug.trans (mem_concat_iff (by decide) plain).symm

theorem Asks.concat_number {rom : String} (second : positional arguments = [rom]) {value : Nat}
    (spells : Spells argument value) :
    Asks (arguments ++ [argument]) { options with instructionsPerFrame := value } where
  rom := by
    rw [positional_concat_of_plain plain, second]
    exact asks.rom.trans (by rw [second]; rfl)
  given := by
    rw [positional_concat_of_plain plain, second]
    rintro _ ⟨⟩
    exact spells
  preset := by
    rw [positional_concat_of_plain plain, second]
    exact fun short => absurd short (by simp)
  disassemble := asks.disassemble.trans (mem_concat_iff (by decide) plain).symm
  debug := asks.debug.trans (mem_concat_iff (by decide) plain).symm

end Steps

/-! ### Where the reading stops -/

/-- The arguments before one that cannot be used, which are all that was read. -/
structure Stops (arguments : List String) (parse : Parse) (before : List String)
    (offending : String) (after : List String) : Prop where
  split : arguments = before ++ offending :: after
  plain : isSwitch offending = false
  usable : Usable (positional before)
  asks : Asks before parse.options
  complains :
    ((positional before).length = 1 ∧
      (¬∃ value, Spells offending value ∧ 1 ≤ value ∧ value ≤ 1000) ∧
      parse.log = [.error ("instructions-per-frame must be between 1 and 1000, got '" ++
        offending ++ "'")]) ∨
    ((positional before).length = 2 ∧
      parse.log = [.error ("unexpected argument '" ++ offending ++ "'")])

/-- With the argument that stops it, a command line can no longer be used. -/
theorem Stops.not_usable {arguments before after : List String} {parse : Parse}
    {offending : String} (stops : Stops arguments parse before offending after) :
    ¬Usable (positional arguments) := by
  rintro ⟨short, number⟩
  rw [stops.split, positional_append, positional_cons_of_plain stops.plain] at short number
  obtain ⟨one, none, -⟩ | ⟨two, -⟩ := stops.complains
  · refine none (number offending ?_)
    rw [← one, List.getElem?_append_right Nat.le.refl, Nat.sub_self]
    rfl
  · rw [List.length_append, List.length_cons] at short
    omega

theorem Stops.concat {arguments before after : List String} {parse : Parse}
    {offending : String} (stops : Stops arguments parse before offending after)
    (argument : String) :
    Stops (arguments ++ [argument]) parse before offending (after ++ [argument]) :=
  { stops with
    split := by rw [stops.split, List.append_assoc, List.cons_append] }

/-- What a reading comes to: all is read, or there is an argument that stops it. -/
inductive Reading (arguments : List String) (parse : Parse) : Prop where
  | through (accepted : parse.complaint = none) (usable : Usable (positional arguments))
      (asks : Asks arguments parse.options)
  | stopped {before : List String} {offending : String} {after : List String}
      (refused : parse.complaint ≠ none) (stops : Stops arguments parse before offending after)

/-- A plain argument on top of so many that can be used. -/
theorem reading_concat_of_plain {arguments : List String} {options : Options}
    (usable : Usable (positional arguments)) (asks : Asks arguments options) {argument : String}
    (plain : isSwitch argument = false) :
    Reading (arguments ++ [argument])
      (parseFrom options (Place.next^[(positional arguments).length] .rom) [argument]) := by
  match found : positional arguments, usable.1 with
  | [], _ =>
    rw [List.length_nil, Function.iterate_zero_apply, parseFrom_rom options plain]
    refine .through rfl ?_ (asks.concat_rom plain found)
    rw [positional_concat_of_plain plain, found]
    exact usable_of_length_le_one Nat.le.refl
  | [rom], _ =>
    rw [List.length_singleton, Function.iterate_one]
    show Reading _ (parseFrom options .instructionsPerFrame [argument])
    cases number : instructionsPerFrame? argument with
    | some value =>
      have fits := instructionsPerFrame?_eq_some_iff.mp number
      rw [parseFrom_number options plain [] number]
      refine .through rfl ?_ (asks.concat_number plain found fits.1)
      rw [positional_concat_of_plain plain, found]
      refine ⟨Nat.le.refl, ?_⟩
      rintro _ ⟨⟩
      exact ⟨value, fits⟩
    | none =>
      rw [parseFrom_noNumber options plain [] number]
      refine .stopped nofun ⟨rfl, plain, usable, asks, Or.inl ⟨congrArg _ found, ?_, rfl⟩⟩
      rintro ⟨value, fits⟩
      rw [instructionsPerFrame?_eq_some_iff.mpr fits] at number
      cases number
  | [rom, number], _ =>
    show Reading _ (parseFrom options .nothing [argument])
    rw [parseFrom_excess options plain]
    exact .stopped nofun ⟨rfl, plain, usable, asks, Or.inr ⟨congrArg _ found, rfl⟩⟩

/-- A switch on top of arguments that can be used. -/
theorem reading_concat_of_switch {arguments : List String} {options : Options} {place : Place}
    (usable : Usable (positional arguments)) (asks : Asks arguments options) {argument : String}
    (switch : isSwitch argument = true) :
    Reading (arguments ++ [argument]) (parseFrom options place [argument]) := by
  have still : Usable (positional (arguments ++ [argument])) := by
    rw [positional_concat_of_switch switch]
    exact usable
  rcases isSwitch_eq_true_iff.mp switch with rfl | rfl
  · exact .through rfl still (asks.concat_switch switch _ true (by simp) (by simp))
  · exact .through rfl still (asks.concat_switch switch true _ (by simp) (by simp))

theorem reading_parse (arguments : List String) : Reading arguments (parse arguments) := by
  -- One argument more is looked at on top of all that stand before it.
  induction arguments using List.reverseRecOn with
  | nil => exact .through rfl (usable_of_length_le_one (Nat.zero_le 1)) asks_nil
  | append_singleton arguments argument inductionHypothesis =>
    cases inductionHypothesis with
    | through accepted usable asks =>
      have step : parse (arguments ++ [argument]) = parseFrom (parse arguments).options
          (Place.next^[(positional arguments).length] .rom) [argument] :=
        parseFrom_append accepted [argument]
      rw [step]
      cases kind : isSwitch argument with
      | true => exact reading_concat_of_switch usable asks kind
      | false => exact reading_concat_of_plain usable asks kind
    | stopped refused stops =>
      have same : parse (arguments ++ [argument]) = parse arguments :=
        parseFrom_append_of_refused refused [argument]
      rw [same]
      exact .stopped refused (stops.concat argument)

/-! ### What the reading comes to -/

theorem complaint_parse_eq_none_iff (arguments : List String) :
    (parse arguments).complaint = none ↔ Usable (positional arguments) := by
  cases reading_parse arguments with
  | through accepted usable => exact iff_of_true accepted usable
  | stopped refused stops => exact iff_of_false refused stops.not_usable

/-- A command line that can be used is read as what it asks for. -/
theorem parse_eq_of_asks {arguments : List String} {options : Options}
    (usable : Usable (positional arguments)) (asks : Asks arguments options) :
    parse arguments = ⟨options, none⟩ := by
  cases reading_parse arguments with
  | through accepted _ same => rw [asks.unique same, ← accepted]
  | stopped _ stops => exact absurd usable stops.not_usable

/-- A command line is accepted exactly if its plain arguments can be used: two at most, and the
second of them a number from 1 to 1000, with any blanks and a plus sign in front and any zeros.
The plain arguments then say the name and the number, and each switch whether it is there. A
command line that is refused leaves one record, and the options that the arguments before the
first offending one ask for. -/
theorem parse_settled (arguments : List String) :
    ((parse arguments).complaint = none ↔ Usable (positional arguments)) ∧
    ((parse arguments).complaint = none →
      Asks arguments (parse arguments).options ∧ (parse arguments).log = [] ∧
        ∀ other, positional other = positional arguments →
          (∀ argument, isSwitch argument = true → (argument ∈ other ↔ argument ∈ arguments)) →
          parse other = parse arguments) ∧
    ((parse arguments).complaint ≠ none →
      ∃ before offending after, Stops arguments (parse arguments) before offending after ∧
        parse before = ⟨(parse arguments).options, none⟩) ∧
    ∀ argument, leadingInstructionsPerFrame? argument = instructionsPerFrame? argument := by
  refine ⟨complaint_parse_eq_none_iff arguments, fun accepted => ?_, fun refused => ?_,
    leadingInstructionsPerFrame?_eq⟩
  · cases reading_parse arguments with
    | through _ usable asks =>
      have whole := parse_eq_of_asks usable asks
      refine ⟨asks, by rw [whole]; rfl, fun other plain switches => ?_⟩
      rw [whole]
      exact parse_eq_of_asks (plain ▸ usable) (asks.congr plain switches)
    | stopped refused => exact absurd accepted refused
  · cases reading_parse arguments with
    | through accepted => exact absurd accepted refused
    | stopped _ stops => exact ⟨_, _, _, stops, parse_eq_of_asks stops.usable stops.asks⟩

/-- Zeros in front of a number do not count, and the switch may as well stand behind it. A number
too large for sixty-four bits ends the reading before the switch. -/
theorem parse_settled_padded_and_huge :
    let padded := ["--debug", "R", " +0012"]
    let huge := ["R", "99999999999999999999", "--debug"]
    (parse padded).complaint = none ∧ Asks padded (parse padded).options ∧
      parse ["R", " +0012", "--debug"] = parse padded ∧ (parse huge).complaint ≠ none ∧
      ∃ before offending after, Stops huge (parse huge) before offending after ∧
        parse before = ⟨(parse huge).options, none⟩ := by
  intro padded huge
  have accepted : (parse padded).complaint = none := by decide
  have refused : (parse huge).complaint ≠ none := by decide
  obtain ⟨asks, -, same⟩ := (parse_settled padded).2.1 accepted
  refine ⟨accepted, asks, same _ (by decide) fun argument switch => ?_, refused,
    (parse_settled huge).2.2.1 refused⟩
  rcases isSwitch_eq_true_iff.mp switch with rfl | rfl <;> decide

end Options

end Chip8
