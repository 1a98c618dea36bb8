/-
A tick neither reads nor writes a place outside its footprint. Both are said at once by
an exchange: whatever number is put into such a place, before the tick or after it, the
outcome is the same. An instruction that looked at the place would go another way, and
one that wrote to it would undo the exchange made before it.
-/

import Chip8.Proofs.Footprint

namespace Chip8

/-! ### The display -/

namespace Display

/-- The display with one cell switched on or off. -/
def put (display : Display) (column row : Nat) (lit : Bool) : Display :=
  if inside : row < 32 then
    let bit := BitVec.twoPow 64 63 >>> column
    let cells := display.rows[row]
    { display with rows := display.rows.set row (if lit then cells ||| bit else cells &&& ~~~bit) }
  else display

theorem cell_put (display : Display) (column row : Nat) (lit : Bool) (x y : Nat) :
    (display.put column row lit).cell x y =
      if x = column ∧ y = row ∧ column < 64 ∧ row < 32 then lit else display.cell x y := by
  by_cases inside : row < 32
  · by_cases here : y = row
    · subst here
      by_cases wide : x < 64
      · have bit : (BitVec.twoPow 64 63 >>> column).getMsbD x = decide (x = column) := by
          rw [BitVec.getMsbD_ushiftRight, BitVec.getMsbD_twoPow, Bool.eq_iff_iff]
          simp only [Bool.and_eq_true, Bool.not_eq_true', decide_eq_true_eq,
            decide_eq_false_iff_not]
          omega
        have clear : (~~~(BitVec.twoPow 64 63 >>> column)).getMsbD x = !decide (x = column) := by
          rw [BitVec.getMsbD_not, bit, decide_eq_true wide, Bool.true_and]
        by_cases same : x = column
        · subst same
          cases lit <;> simp [put, cell, inside, bit, clear, wide]
        · cases lit <;> simp [put, cell, inside, bit, clear, same]
      · have beyond : ¬(x = column ∧ y = y ∧ column < 64 ∧ y < 32) := by omega
        have off : displayWidth ≤ x ∨ displayHeight ≤ y := Or.inl (Nat.le_of_not_lt wide)
        rw [if_neg beyond, cell_of_off _ off, cell_of_off _ off]
    · simp [put, cell, inside, here, Ne.symm here]
  · simp [put, inside]

/-- A cell that a plot does not cover is neither looked at nor touched by it. -/
theorem plot_put (display : Display) {column row x y : Nat} {byte : UInt8} (lit : Bool)
    (bare : y = row % 32 → (mask column byte).getMsbD x = false) :
    (display.put x y lit).plot column row byte =
      ((display.plot column row byte).1.put x y lit, (display.plot column row byte).2) := by
  refine Prod.ext (ext_cell ?_ fun x' y' => ?_) (Bool.eq_iff_iff.mpr ?_)
  · unfold put
    split <;> rfl
  · rw [cell_plot, cell_put, cell_put, cell_plot]
    split
    · next here =>
      obtain ⟨rfl, rfl, -⟩ := here
      by_cases covered : y' = row % 32
      · simp [bare covered]
      · simp [covered]
    · rfl
  · rw [hit_plot_iff, hit_plot_iff]
    refine exists_congr fun x' => and_congr_right fun _ => and_congr_left fun toggled => ?_
    rw [cell_put, if_neg]
    rintro ⟨rfl, rfl, -⟩
    rw [bare rfl] at toggled
    cases toggled

/-- The cells that a sprite reaches are those of its rows, eight to a row. -/
theorem plotSprite_put (display : Display) (column row : Nat) (sprite : List UInt8)
    {x y : Nat} (lit : Bool)
    (bare : ∀ line < sprite.length, ∀ bit < 8,
      ¬(x = (column + bit) % displayWidth ∧ y = (row + line) % displayHeight)) :
    (display.put x y lit).plotSprite column row sprite =
      ((display.plotSprite column row sprite).1.put x y lit,
        (display.plotSprite column row sprite).2) := by
  induction sprite generalizing display row with
  | nil => rfl
  | cons byte rest inductionHypothesis =>
    have first : y = row % 32 → (mask column byte).getMsbD x = false := by
      intro here
      by_cases inside : x < 64
      · rw [getMsbD_mask column byte inside]
        refine BitVec.getMsbD_of_ge _ _ (Nat.le_of_not_lt fun within => ?_)
        refine bare 0 (Nat.zero_lt_succ _) _ within ⟨?_, here⟩
        unfold displayWidth
        omega
      · exact BitVec.getMsbD_of_ge _ _ (Nat.le_of_not_lt inside)
    have others := inductionHypothesis (display.plot column row byte).1 (row + 1)
      fun line below bit within => by
        have next := bare (line + 1) (Nat.succ_lt_succ below) bit within
        rwa [← Nat.add_assoc, Nat.add_right_comm] at next
    simp only [plotSprite, plot_put display lit first, others]

theorem put_of_off (display : Display) {column row : Nat} (lit : Bool)
    (off : ¬(column < displayWidth ∧ row < displayHeight)) :
    display.put column row lit = display := by
  refine ext_cell ?_ fun x y => ?_
  · unfold put
    split <;> rfl
  · rw [cell_put, if_neg]
    rintro ⟨-, -, inside⟩
    exact off inside

end Display

/-! ### The stack -/

namespace Stack

variable {Item : Type} {capacity : Nat}

/-- The stack with one slot filled anew. -/
def put (stack : Stack Item capacity) (number : Nat) (item : Item) : Stack Item capacity :=
  { stack with slots := stack.slots.setIfInBounds number item }

theorem push_put (stack : Stack Item capacity) {number : Nat} (item pushed : Item)
    (other : stack.depth < capacity → number ≠ stack.depth) :
    (stack.put number item).push pushed = (stack.push pushed).map (·.put number item) := by
  unfold push put
  by_cases room : stack.depth < capacity
  · simp only [room, ↓reduceDIte, Except.map]
    congr 2
    refine Vector.ext fun place inside => ?_
    have := other room
    simp only [Vector.getElem_set, Vector.getElem_setIfInBounds]
    split <;> split <;> first | rfl | omega
  · simp only [room, ↓reduceDIte, Except.map]

theorem pop_put (stack : Stack Item capacity) {number : Nat} (item : Item)
    (other : 0 < stack.depth → number ≠ stack.depth - 1) :
    (stack.put number item).pop = stack.pop.map fun top => (top.1, top.2.put number item) := by
  unfold pop put
  by_cases used : 0 < stack.depth
  · simp only [used, ↓reduceDIte, Except.map]
    have apart := other used
    simp [apart]
  · simp only [used, ↓reduceDIte, Except.map]

end Stack

namespace Outcome

theorem attempt_map {Source Result : Type} (change : Source → Result)
    (result : Except Fault Source) (machine : Machine) (proceed : Result → Machine) :
    attempt (result.map change) machine proceed =
      attempt result machine fun value => proceed (change value) := by
  cases result <;> rfl

end Outcome

/-! ### Instructions -/

namespace Machine

/-- The machine with one slot of its stack filled anew. -/
def putSlot (machine : Machine) (number : Nat) (item : Address) : Machine :=
  machine.withStack (machine.stack.put number item)

/-- The machine with one byte of memory exchanged. -/
def putByte (machine : Machine) (number : Nat) (byte : UInt8) : Machine :=
  { machine with memory := machine.memory.write number [byte] }

/-- The machine with one cell of its display switched on or off. -/
def putCell (machine : Machine) (column row : Nat) (lit : Bool) : Machine :=
  { machine with display := machine.display.put column row lit }

/-- The machine with a number put in a place, if there is such a place. -/
def put (machine : Machine) (value : Nat) : Place → Machine
  | .register number =>
    if named : number < 16 then machine.setRegister ⟨number, named⟩ (UInt8.ofNat value)
    else machine
  | .slot number => machine.putSlot number (.masked (UInt16.ofNat value))
  | .byte number => machine.putByte number (UInt8.ofNat value)
  | .cell column row => machine.putCell column row (value != 0)

theorem put_cases {motive : (Machine → Machine) → Prop} (value : Nat) (place : Place)
    (absent : motive fun machine => machine)
    (register : ∀ x byte, place = .register x.val → motive (·.setRegister x byte))
    (slot : ∀ number item, place = .slot number → motive (·.putSlot number item))
    (byte : ∀ number byte, place = .byte number → motive (·.putByte number byte))
    (cell : ∀ column row lit, place = .cell column row → motive (·.putCell column row lit)) :
    motive (·.put value place) := by
  cases place with
  | register number =>
    by_cases named : number < 16
    · simpa only [put, named, ↓reduceDIte] using register ⟨number, named⟩ _ rfl
    · simpa only [put, named, ↓reduceDIte] using absent
  | slot number => exact slot number _ rfl
  | byte number => exact byte number _ rfl
  | cell column row => exact cell column row _ rfl

section Register

variable (machine : Machine) {other : Register} (value : UInt8)

theorem holds_setRegister (condition : Condition) (off : other ∉ condition.registers) :
    (machine.setRegister other value).holds condition = machine.holds condition := by
  have read {x : Register} (apart : other ≠ x) :=
    machine.registers.get_set_other other x value apart.symm
  cases condition with
  | equalByte x _ | unequalByte x _ | held x | released x =>
    simp only [Condition.registers, List.mem_singleton] at off
    simp only [holds, setRegister, read off]
  | equal x y | unequal x y =>
    simp only [Condition.registers, List.mem_cons, List.not_mem_nil, or_false, not_or] at off
    simp only [holds, setRegister, read off.1, read off.2]

theorem advance_setRegister (distance : UInt32) :
    (machine.advance distance).map (·.setRegister other value) =
      (machine.setRegister other value).advance distance :=
  Outcome.map_attempt _ _ machine _

theorem draw_setRegister {x y : Register} (height : Fin 16) (apart : other ≠ x)
    (apart' : other ≠ y) (plain : other ≠ flagRegister) :
    (machine.draw x y height).map (·.setRegister other value) =
      (machine.setRegister other value).draw x y height := by
  have first (row : Registers) := row.get_set_other other x value apart.symm
  have second (row : Registers) := row.get_set_other other y value apart'.symm
  have carry (row : Registers) (byte : UInt8) := row.set_set_other value byte plain
  simp only [draw, setRegister, first, second, carry]
  split <;> rfl

theorem perform_setRegister (origin : Address) (instruction : Instruction)
    (off : Place.register other.val ∉ instruction.footprint machine) :
    (perform origin instruction machine).map (·.setRegister other value) =
      perform origin instruction (machine.setRegister other value) := by
  have read {x : Register} (apart : other ≠ x) :=
    machine.registers.get_set_other other x value apart.symm
  have write {x : Register} (apart : other ≠ x) (byte : UInt8) :=
    machine.registers.set_set_other value byte apart
  cases instruction with
  | clear | jump target | setIndex target | awaitKey x | unknown word => rfl
  | ret | call target => exact Outcome.map_attempt _ _ machine _
  | jumpForward distance =>
    simp only [Instruction.footprint, List.mem_singleton, Place.register.injEq, Fin.val_inj] at off
    simp only [perform, setRegister, read off]
    exact advance_setRegister machine value _
  | skipIf condition =>
    have apart : other ∉ condition.registers := fun member =>
      off (List.mem_map.mpr ⟨other, member, rfl⟩)
    simp only [perform, holds_setRegister machine value condition apart]
    split
    · exact advance_setRegister machine value 2
    · rfl
  | setByte x _ | addByte x _ | random x _ | readDelay x | setDelay x | setSound x | pointGlyph x =>
    simp only [Instruction.footprint, List.mem_singleton, Place.register.injEq, Fin.val_inj] at off
    simp only [perform, setRegister, read off, write off]
    rfl
  | addIndex x =>
    simp only [Instruction.footprint, List.mem_singleton, Place.register.injEq, Fin.val_inj] at off
    simp only [perform, setRegister, read off]
    exact Outcome.map_attempt _ _ machine _
  | combine combination x y =>
    simp only [Instruction.footprint, List.mem_cons, List.not_mem_nil, or_false, not_or,
      Place.register.injEq, Fin.val_inj] at off
    obtain ⟨apart, apart', plain⟩ := off
    simp only [perform, setRegister,
      machine.registers.combine_set_other value combination apart apart' plain]
    rfl
  | shiftRight x =>
    simp only [Instruction.footprint, List.mem_cons, List.not_mem_nil, or_false, not_or,
      Place.register.injEq, Fin.val_inj] at off
    simp only [perform, setRegister, machine.registers.shiftRight_set_other value off.1 off.2]
    rfl
  | shiftLeft x =>
    simp only [Instruction.footprint, List.mem_cons, List.not_mem_nil, or_false, not_or,
      Place.register.injEq, Fin.val_inj] at off
    simp only [perform, setRegister, machine.registers.shiftLeft_set_other value off.1 off.2]
    rfl
  | draw x y height =>
    simp only [Instruction.footprint, List.mem_append, List.mem_cons, List.not_mem_nil, or_false,
      not_or, Place.register.injEq, Fin.val_inj] at off
    exact draw_setRegister machine value height off.1.1.1 off.1.1.2.1 off.1.1.2.2
  | storeDecimal x =>
    simp only [Instruction.footprint, List.mem_cons, not_or, Place.register.injEq,
      Fin.val_inj] at off
    simp only [perform, setRegister, read off.1]
    exact Outcome.map_attempt _ _ machine _
  | storeRegisters last =>
    have stored : machine.memory.store machine.index (machine.registers.set other value).toList
          (UInt64.ofNat (last.val + 1)) =
        machine.memory.store machine.index machine.registers.toList
          (UInt64.ofNat (last.val + 1)) := by
      refine Memory.store_congr _ _ _ fun fits => ?_
      rw [Instruction.footprint, if_pos fits, List.mem_append, not_or,
        Place.not_mem_upTo_iff] at off
      rw [toNat_blockSize, machine.registers.take_toList_set value _ off.1]
    simp only [perform, setRegister, stored]
    exact Outcome.map_attempt _ _ machine _
  | loadRegisters last =>
    simp only [perform, setRegister]
    cases loaded : machine.memory.load machine.index (UInt64.ofNat (last.val + 1)) with
    | error fault => rfl
    | ok values =>
      obtain ⟨fits, rfl⟩ := Memory.load_eq_ok_iff.mp loaded
      rw [Instruction.footprint, if_pos fits, List.mem_append, not_or,
        Place.not_mem_upTo_iff] at off
      have short : (machine.memory.slice machine.index.val
          (UInt64.ofNat (last.val + 1)).toNat).length ≤ other.val := by
        rw [Memory.length_slice, toNat_blockSize]
        exact Nat.le_trans (Nat.min_le_left _ _) off.1
      simp only [Outcome.attempt, machine.registers.fill_set_other value _ short]
      rfl

end Register

section Byte

variable (machine : Machine) {place : Nat} (byte : UInt8)

theorem store_putByte (start : Address) (source : List UInt8) (count : UInt64)
    (off : Memory.fits start count = true → place < start.val ∨ start.val + count.toNat ≤ place) :
    (Outcome.attempt (machine.memory.store start source count) machine
        fun memory => { machine with memory := memory }).map (·.putByte place byte) =
      .attempt ((machine.putByte place byte).memory.store start source count)
        (machine.putByte place byte)
        fun memory => { machine.putByte place byte with memory := memory } := by
  simp only [Memory.store]
  by_cases fits : Memory.fits start count = true
  · have outside : place < start.val ∨ start.val + (source.take count.toNat).length ≤ place := by
      have := List.length_take_le count.toNat source
      have := off fits
      omega
    simp only [if_pos fits, putByte, machine.memory.write_put byte outside]
    rfl
  · simp only [if_neg fits]
    rfl

theorem perform_putByte (origin : Address) (instruction : Instruction)
    (off : Place.byte place ∉ instruction.footprint machine) :
    (perform origin instruction machine).map (·.putByte place byte) =
      perform origin instruction (machine.putByte place byte) := by
  cases instruction with
  | ret | call _ | addIndex _ => exact Outcome.map_attempt _ _ machine _
  | jumpForward distance => exact Outcome.map_attempt _ _ machine _
  | skipIf condition =>
    have same : (machine.putByte place byte).holds condition = machine.holds condition := by
      cases condition <;> rfl
    simp only [perform, same]
    split
    · exact Outcome.map_attempt _ _ machine _
    · rfl
  | draw x y height =>
    simp only [Instruction.footprint, List.mem_append, not_or, Place.not_mem_bytes_iff] at off
    simp only [perform, draw, putByte, machine.memory.slice_put byte off.1.2]
    split <;> rfl
  | storeDecimal x =>
    refine store_putByte machine byte machine.index
      (Registers.decimalDigits (machine.registers.get x)) 3 fun fits => ?_
    rw [Instruction.footprint, if_pos fits, List.mem_cons, not_or,
      Place.not_mem_bytes_iff] at off
    exact off.2
  | storeRegisters last =>
    refine store_putByte machine byte machine.index machine.registers.toList _ fun fits => ?_
    rw [Instruction.footprint, if_pos fits, List.mem_append, not_or,
      Place.not_mem_bytes_iff] at off
    rw [toNat_blockSize]
    exact off.2
  | loadRegisters last =>
    have loaded : (machine.memory.write place [byte]).load machine.index
          (UInt64.ofNat (last.val + 1)) =
        machine.memory.load machine.index (UInt64.ofNat (last.val + 1)) := by
      unfold Memory.load
      split
      · next fits =>
        rw [Instruction.footprint, if_pos fits, List.mem_append, not_or,
          Place.not_mem_bytes_iff] at off
        have outside : place < machine.index.val ∨
            machine.index.val + min (last.val + 1) (4096 - machine.index.val) ≤ place := by
          have := off.2
          omega
        rw [toNat_blockSize, machine.memory.slice_put byte outside]
      · rfl
    simp only [perform, putByte, loaded]
    exact Outcome.map_attempt _ _ machine _
  | _ => rfl

end Byte

section Slot

variable (machine : Machine) {number : Nat} (item : Address)

theorem perform_putSlot (origin : Address) (instruction : Instruction)
    (off : Place.slot number ∉ instruction.footprint machine) :
    (perform origin instruction machine).map (·.putSlot number item) =
      perform origin instruction (machine.putSlot number item) := by
  by_cases ret : instruction = .ret
  · subst ret
    have other : 0 < machine.stack.depth → number ≠ machine.stack.depth - 1 := by
      intro used same
      rw [Instruction.footprint, if_neg (Nat.ne_of_gt used), same] at off
      exact off List.mem_cons_self
    simp only [perform, putSlot, withStack, machine.stack.pop_put item other]
    rw [Outcome.map_attempt, Outcome.attempt_map]
  by_cases call : ∃ target, instruction = .call target
  · obtain ⟨target, rfl⟩ := call
    have other : machine.stack.depth < stackCapacity → number ≠ machine.stack.depth := by
      intro room same
      rw [Instruction.footprint, if_neg (Nat.ne_of_lt room), same] at off
      exact off List.mem_cons_self
    simp only [perform, putSlot, withStack, machine.stack.push_put item machine.pc other]
    rw [Outcome.map_attempt, Outcome.attempt_map]
  have noCall : ∀ target, instruction ≠ .call target := fun target same => call ⟨target, same⟩
  rw [putSlot, ← perform_withStack origin instruction machine _ ret noCall,
    ← stack_perform origin instruction machine ret noCall]
  rfl

end Slot

section Cell

variable (machine : Machine) {column row : Nat} (lit : Bool)

theorem draw_putCell (x y : Register) (height : Fin 16)
    (off : Place.cell column row ∉ (Instruction.draw x y height).footprint machine) :
    (machine.draw x y height).map (·.putCell column row lit) =
      (machine.putCell column row lit).draw x y height := by
  simp only [Instruction.footprint, List.mem_append, not_or] at off
  have bare := off.2
  simp only [Place.sprite, List.mem_flatMap, List.mem_map, List.mem_range, Place.cell.injEq] at bare
  have apart : ∀ line < (machine.memory.slice machine.index.val height.val).length, ∀ bit < 8,
      ¬(column = (((machine.registers.set flagRegister 0).get x).toNat + bit) % displayWidth ∧
        row = (((machine.registers.set flagRegister 0).get y).toNat % displayHeight + line) %
          displayHeight) := by
    rintro line below bit within ⟨across, down⟩
    rw [Memory.length_slice] at below
    exact bare ⟨line, below, bit, within, across.symm, down.symm⟩
  simp only [draw, putCell, machine.display.plotSprite_put _ _ _ lit apart]
  split <;> rfl

theorem perform_putCell (origin : Address) (instruction : Instruction)
    (off : Place.cell column row ∉ instruction.footprint machine) :
    (perform origin instruction machine).map (·.putCell column row lit) =
      perform origin instruction (machine.putCell column row lit) := by
  cases instruction with
  | clear =>
    rw [Instruction.footprint, Place.mem_screen_iff] at off
    simp only [perform, Outcome.map, Outcome.done, putCell, Display.put_of_off _ lit off]
  | ret | call _ | addIndex _ | jumpForward _ => exact Outcome.map_attempt _ _ machine _
  | storeDecimal _ | storeRegisters _ | loadRegisters _ =>
    unfold perform
    exact Outcome.map_attempt _ _ machine _
  | skipIf condition =>
    have same : (machine.putCell column row lit).holds condition = machine.holds condition := by
      cases condition <;> rfl
    simp only [perform, same]
    split
    · exact Outcome.map_attempt _ _ machine _
    · rfl
  | draw x y height => exact draw_putCell machine lit x y height off
  | _ => rfl

end Cell

/-- An instruction has no use for a place outside its footprint. -/
theorem perform_put (origin : Address) (instruction : Instruction) (machine : Machine)
    (value : Nat) {place : Place} (off : place ∉ instruction.footprint machine) :
    (perform origin instruction machine).map (·.put value place) =
      perform origin instruction (machine.put value place) := by
  refine put_cases (motive := fun change =>
    (perform origin instruction machine).map change = perform origin instruction (change machine))
    value place rfl ?register ?slot ?byte ?cell
  case register =>
    rintro x byte rfl
    exact perform_setRegister machine byte origin instruction off
  case slot =>
    rintro number item rfl
    exact perform_putSlot machine item origin instruction off
  case byte =>
    rintro number byte rfl
    exact perform_putByte machine byte origin instruction off
  case cell =>
    rintro column row lit rfl
    exact perform_putCell machine lit origin instruction off

/-! ### Ticks -/

section Put

variable (machine : Machine) (value : Nat) (place : Place)

theorem pc_put : (machine.put value place).pc = machine.pc :=
  put_cases (motive := fun change => (change machine).pc = machine.pc) value place rfl
    (fun _ _ _ => rfl) (fun _ _ _ => rfl) (fun _ _ _ => rfl) fun _ _ _ _ => rfl

theorem mode_put : (machine.put value place).mode = machine.mode :=
  put_cases (motive := fun change => (change machine).mode = machine.mode) value place rfl
    (fun _ _ _ => rfl) (fun _ _ _ => rfl) (fun _ _ _ => rfl) fun _ _ _ _ => rfl

theorem keypad_put : (machine.put value place).keypad = machine.keypad :=
  put_cases (motive := fun change => (change machine).keypad = machine.keypad) value place rfl
    (fun _ _ _ => rfl) (fun _ _ _ => rfl) (fun _ _ _ => rfl) fun _ _ _ _ => rfl

theorem poised_put (word : Word) (next : Address) :
    (machine.put value place).poised word next = (machine.poised word next).put value place :=
  put_cases (motive := fun change =>
    (change machine).poised word next = change (machine.poised word next)) value place rfl
    (fun _ _ _ => rfl) (fun _ _ _ => rfl) (fun _ _ _ => rfl) fun _ _ _ _ => rfl

theorem stepLine_put (word : Word) :
    (machine.put value place).stepLine word = machine.stepLine word := by
  rw [stepLine, pc_put, stepLine]

theorem countDown_put :
    (machine.put value place).countDown = machine.countDown.put value place :=
  put_cases (motive := fun change => (change machine).countDown = change machine.countDown)
    value place rfl (fun _ _ _ => rfl) (fun _ _ _ => rfl) (fun _ _ _ => rfl) fun _ _ _ _ => rfl

theorem counted_put (outcome : Outcome) :
    outcome.counted.map (·.put value place) = (outcome.map (·.put value place)).counted := by
  obtain ⟨fault, machine, log⟩ := outcome
  cases fault with
  | some fault => rfl
  | none =>
    exact put_cases (motive := fun change =>
      (Outcome.counted ⟨none, machine, log⟩).map change =
        (Outcome.map change ⟨none, machine, log⟩).counted)
      value place rfl (fun _ _ _ => rfl) (fun _ _ _ => rfl) (fun _ _ _ => rfl) fun _ _ _ _ => rfl

/-- A key goes to the awaited register whatever another place holds. -/
theorem receive_put (key : Fin 16) (off : place ≠ .register machine.awaited.toNat) :
    (machine.put value place).receive key = (machine.receive key).put value place := by
  refine put_cases (motive := fun change =>
    (change machine).receive key = change (machine.receive key)) value place rfl ?register
    (fun _ _ _ => ?slot) (fun _ _ _ => ?byte) fun _ _ _ _ => ?cell
  case register =>
    rintro x byte rfl
    by_cases named : machine.awaited.toNat < 16
    · have apart : x ≠ ⟨machine.awaited.toNat, named⟩ := fun same => off (same ▸ rfl)
      simp only [receive, setRegister, named, ↓reduceDIte, Registers.set_set_other _ _ _ apart]
    · simp only [receive, setRegister, named, ↓reduceDIte]
  all_goals
    by_cases named : machine.awaited.toNat < 16 <;>
      simp only [receive, setRegister, putSlot, withStack, putByte, putCell, named, ↓reduceDIte]

theorem wake?_put
    (off : ∀ woken, machine.wake? = some woken → machine.mode = .waitingKey →
      place ≠ .register machine.awaited.toNat) :
    (machine.put value place).wake? = machine.wake?.map (·.put value place) :=
  wake?_change (·.put value place) machine (mode_put machine value place)
    (keypad_put machine value place) fun key wakes waiting =>
      receive_put machine value place key (off _ wakes waiting)

theorem fetch_put
    (off : ∀ word, machine.fetch = .ok word → place ∉ Place.bytes machine.pc.val 2) :
    (machine.put value place).fetch = machine.fetch := by
  refine put_cases (motive := fun change => (change machine).fetch = machine.fetch) value place rfl
    (fun _ _ _ => rfl) (fun _ _ _ => rfl) ?_ fun _ _ _ _ => rfl
  rintro number byte rfl
  unfold fetch putByte at *
  unfold Memory.loadPair at *
  split
  · next inside =>
    have outside := off (.ofBytes (machine.memory.get machine.pc)
      (machine.memory.get ⟨machine.pc.val + 1, inside⟩)) (by simp only [inside]; rfl)
    rw [Place.not_mem_bytes_iff] at outside
    have upper : machine.pc.val ≠ number := by omega
    have lower : machine.pc.val + 1 ≠ number := by omega
    rw [Memory.get_put, Memory.get_put, if_neg upper, if_neg lower]
  · rfl

end Put

theorem execute_put (machine : Machine) (word : Word) (value : Nat) {place : Place}
    (off : ∀ next, machine.pc.advance 2 = .ok next →
      place ∉ (Instruction.ofWord word).footprint (machine.poised word next)) :
    (machine.countDown.execute word).map (·.put value place) =
      (machine.put value place).countDown.execute word := by
  have pc := pc_put machine value place
  cases moves : machine.pc.advance 2 with
  | error fault =>
    have movesToo : (machine.put value place).countDown.pc.advance 2 = .error fault :=
      (congrArg (Address.advance · 2) pc).trans moves
    rw [execute_of_error machine.countDown word moves, execute_of_error _ word movesToo]
    show Outcome.map _ ⟨_, machine.poised word machine.pc, _⟩ =
      ⟨_, (machine.put value place).poised word (machine.put value place).pc,
        [.debug ((machine.put value place).stepLine word)]⟩
    rw [pc, stepLine_put, poised_put]
    rfl
  | ok next =>
    have movesToo : (machine.put value place).countDown.pc.advance 2 = .ok next :=
      (congrArg (Address.advance · 2) pc).trans moves
    rw [execute_of_ok machine.countDown word moves, execute_of_ok _ word movesToo]
    show Outcome.map _ (.after _ (perform machine.pc _ (machine.poised word next)).counted) =
      .after [.debug ((machine.put value place).stepLine word)]
        (perform (machine.put value place).pc (.ofWord word)
          ((machine.put value place).poised word next)).counted
    rw [pc, stepLine_put, poised_put, ← perform_put _ _ _ value (off next moves), ← counted_put]
    rfl

/-- A tick has no use for a place outside its footprint. -/
theorem tick_put (machine : Machine) (value : Nat) {place : Place}
    (off : place ∉ machine.footprint) :
    machine.tick.map (·.put value place) = (machine.put value place).tick := by
  -- what it is to be off the footprint, for each of its three parts
  have offKey {woken : Machine} (wakes : machine.wake? = some woken)
      (waiting : machine.mode = .waitingKey) : place ≠ .register machine.awaited.toNat := by
    intro here
    refine off ?_
    rw [footprint, wakes, if_pos waiting]
    exact List.mem_append_left _ (List.mem_singleton.mpr here)
  have offWord {woken : Machine} {word : Word} (wakes : machine.wake? = some woken)
      (reads : woken.fetch = .ok word) : place ∉ Place.bytes woken.pc.val 2 := by
    intro here
    refine off ?_
    simp only [footprint, wakes, reads]
    exact List.mem_append_right _ (List.mem_append_left _ here)
  have offInstruction {woken : Machine} {word : Word} {next : Address}
      (wakes : machine.wake? = some woken) (reads : woken.fetch = .ok word)
      (moves : woken.pc.advance 2 = .ok next) :
      place ∉ (Instruction.ofWord word).footprint (woken.poised word next) := by
    intro here
    refine off ?_
    simp only [footprint, wakes, reads, moves]
    exact List.mem_append_right _ (List.mem_append_right _ here)
  refine tick_cases_change (motive := fun plain changed => plain.map (·.put value place) = changed)
    (·.put value place) machine ?wakes ?reads ?idle ?unreadable ?executed
  case wakes => exact machine.wake?_put value place fun _ => offKey
  case reads => exact fun woken wakes => woken.fetch_put value place fun _ => offWord wakes
  case idle => exact fun _ => rfl
  case unreadable =>
    intro woken fault _ _
    rw [countDown_put]
    rfl
  case executed =>
    exact fun woken word wakes reads =>
      execute_put woken word value fun next => offInstruction wakes reads

/-! ### Every machine -/

/-- A machine that was created empty is well formed, whatever has been done to it: its
addresses are addresses, its stack is not too high, its parts agree with each other, and
every register, slot, byte and cell that its next tick has a use for is there. -/
theorem coherent_along_runs (seed : UInt64) (limit : Nat) (inputs : List Input) :
    let machine := (fresh seed limit).feed inputs
    machine.pc.val ≤ 0xFFF ∧ machine.index.val ≤ 0xFFF ∧ machine.stack.depth ≤ 16 ∧
      machine.Coherent limit ∧
      (∀ place ∈ machine.footprint, place.Exists) ∧
      ∀ place ∉ machine.footprint, ∀ value,
        machine.tick.map (·.put value place) = (machine.put value place).tick := by
  intro machine
  have coherent : machine.Coherent limit := coherent_feed seed limit inputs
  refine ⟨?_, ?_, machine.stack.depth_le, coherent, exists_footprint coherent, ?_⟩
  · exact Nat.le_of_lt_succ machine.pc.isLt
  · exact Nat.le_of_lt_succ machine.index.isLt
  · exact fun place off value => tick_put machine value off

end Machine

end Chip8
