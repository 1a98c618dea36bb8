/-
What a word `DXYN` does, told at once. Of its rows those are drawn that are in memory, from the
place that the two registers name once the flag is cleared. A set bit of a row falls on one cell,
and on any cell there falls at most one: a row has fewer bits than the screen has columns, and a
sprite has fewer rows than the screen. So the cells that change, and whether one of them was lit,
can be told from the screen as it was before, in whatever order the bits are drawn.
-/

import Chip8.Proofs.Refusals
import Chip8.Proofs.Sprites

namespace Chip8

namespace Machine

/-! ### Where bits fall -/

/-- How many rows of a sprite at the index are in memory. -/
def rowsAtIndex (machine : Machine) (height : Fin 16) : Nat :=
  min height.val (4096 - machine.index.val)

/-- A bit of a row of the sprite at the index, counted from the left, is set and falls on a
cell. -/
structure Falls (machine : Machine) (x y : Register) (height : Fin 16)
    (line bit column row : Nat) : Prop where
  present : line < machine.rowsAtIndex height
  small : bit < 8
  set : ∃ inside : machine.index.val + line < 4096,
    (machine.memory.get ⟨machine.index.val + line, inside⟩).toNat.testBit (7 - bit) = true
  across : column = ((machine.flagCleared.get x).toNat + bit) % 64
  down : row = ((machine.flagCleared.get y).toNat % 32 + line) % 32

theorem strikes_iff_falls (machine : Machine) (x y : Register) (height : Fin 16)
    (column row : Nat) :
    machine.Strikes x y height column row ↔
      ∃ line bit, machine.Falls x y height line bit column row := by
  constructor
  · rintro ⟨line, bit, inside, within, small, set, across, down⟩
    have present : line < machine.rowsAtIndex height := by
      rw [rowsAtIndex]
      omega
    exact ⟨line, bit, present, small, ⟨inside, set⟩, across, down⟩
  · rintro ⟨line, bit, present, small, ⟨inside, set⟩, across, down⟩
    have within : line < height.val := Nat.lt_of_lt_of_le present (Nat.min_le_left _ _)
    exact ⟨line, bit, inside, within, small, set, across, down⟩

/-- No two bits fall on one cell. -/
theorem Falls.unique {machine : Machine} {x y : Register} {height : Fin 16}
    {line bit line' bit' column row : Nat}
    (falls : machine.Falls x y height line bit column row)
    (falls' : machine.Falls x y height line' bit' column row) : line = line' ∧ bit = bit' := by
  have rows : machine.rowsAtIndex height ≤ height.val := Nat.min_le_left _ _
  have tall := height.isLt
  have across := falls.across.symm.trans falls'.across
  have down := falls.down.symm.trans falls'.down
  have := falls.present
  have := falls'.present
  have := falls.small
  have := falls'.small
  omega

/-! ### The word -/

/-- What a word `DXYN` comes to. -/
structure Drawn (machine : Machine) (x y : Register) (height : Fin 16) (outcome : Outcome) :
    Prop where
  toggled : ∀ column row, (∃ line bit, machine.Falls x y height line bit column row) →
    outcome.machine.display.cell column row = !machine.display.cell column row
  spared : ∀ column row, (¬∃ line bit, machine.Falls x y height line bit column row) →
    outcome.machine.display.cell column row = machine.display.cell column row
  single : ∀ line bit line' bit' column row, machine.Falls x y height line bit column row →
    machine.Falls x y height line' bit' column row → line = line' ∧ bit = bit'
  /-- The flag is set if a toggled cell was lit before, -/
  hit : (∃ column row, (∃ line bit, machine.Falls x y height line bit column row) ∧
    machine.display.cell column row = true) → outcome.machine.registers.get flagRegister = 1
  /-- and else it is cleared. -/
  missed : (¬∃ column row, (∃ line bit, machine.Falls x y height line bit column row) ∧
    machine.display.cell column row = true) → outcome.machine.registers.get flagRegister = 0
  others : ∀ other ≠ flagRegister,
    outcome.machine.registers.get other = machine.registers.get other
  raised : 1 ≤ height.val → outcome.machine.display.updated = true
  still : height.val = 0 → outcome.machine.display.updated = machine.display.updated
  succeeds : outcome.fault = none ↔ machine.rowsAtIndex height = height.val
  memory : outcome.machine.memory = machine.memory
  /-- All else but what is named here is as it was. -/
  rest : outcome.machine = { machine with
    history := outcome.machine.history, pc := outcome.machine.pc,
    registers := outcome.machine.registers, display := outcome.machine.display,
    cycles := outcome.machine.cycles }

/-- What is drawn on the cells that are struck is drawn on those that some bit falls on. -/
theorem Draws.drawn {machine : Machine} {x y : Register} {height : Fin 16} {outcome : Outcome}
    (draws : machine.Draws x y height outcome.machine)
    (succeeds : outcome.fault = none ↔ machine.rowsAtIndex height = height.val)
    (rest : outcome.machine = { machine with
      history := outcome.machine.history, pc := outcome.machine.pc,
      registers := outcome.machine.registers, display := outcome.machine.display,
      cycles := outcome.machine.cycles }) :
    machine.Drawn x y height outcome where
  toggled column row falls :=
    draws.cells.toggled column row ((machine.strikes_iff_falls ..).mpr falls)
  spared column row spared :=
    draws.cells.spared column row (mt (machine.strikes_iff_falls ..).mp spared)
  single _ _ _ _ _ _ falls falls' := falls.unique falls'
  hit := fun ⟨column, row, falls, lit⟩ =>
    draws.hit ⟨column, row, (machine.strikes_iff_falls ..).mpr falls, lit⟩
  missed clear := by
    refine draws.missed fun ⟨column, row, struck, lit⟩ => clear ⟨column, row, ?_, lit⟩
    exact (machine.strikes_iff_falls ..).mp struck
  others := draws.others
  raised tall := draws.updated.mpr (Or.inr tall)
  still flat := by
    rw [Bool.eq_iff_iff]
    refine draws.updated.trans (or_iff_left ?_)
    omega
  succeeds := succeeds
  memory := (congrArg Machine.memory rest :)
  rest := rest

theorem fault_draw_eq_none_iff (machine : Machine) (x y : Register) (height : Fin 16) :
    (machine.draw x y height).fault = none ↔ machine.rowsAtIndex height = height.val := by
  have start := machine.index.isLt
  rw [Option.eq_none_iff_forall_ne_some, rowsAtIndex]
  simp only [ne_eq, fault_draw_iff, not_and, forall_eq]
  omega

/-- The word `DXYN` in closed form, for every machine that can move past it and all registers,
the flag among them: which cells it toggles, what the flag says of them, and that it is refused
exactly if a row is not in memory, with the other rows drawn all the same. -/
theorem drawing_settled (machine : Machine) (x y : Register) (height : Fin 16)
    (inside : machine.pc.val ≤ 0xFFD) :
    machine.Drawn x y height (machine.execute ⟨0xD, x, y, height⟩) := by
  refine machine.execute_cases _ (motive := machine.Drawn x y height) (fun corner => by omega)
    fun next _ => ?_
  rw [Instruction.ofWord_of_fits (.draw x y height) ⟨rfl, rfl, rfl, rfl⟩, perform]
  have draws := (machine.past ⟨0xD, x, y, height⟩ next).draws_draw x y height
  have succeeds := (machine.past ⟨0xD, x, y, height⟩ next).fault_draw_eq_none_iff x y height
  obtain ⟨cycles, counted⟩ :=
    Outcome.machine_counted ((machine.past ⟨0xD, x, y, height⟩ next).draw x y height)
  refine Draws.drawn ?_ ?_ ?_
  -- Recording, moving on and counting are nothing to the screen, the registers and the memory.
  · rw [Outcome.machine_after, counted]
    exact ⟨draws.cells, draws.updated, draws.hit, draws.missed, draws.others⟩
  · rw [Outcome.fault_after, Outcome.fault_counted]
    exact succeeds
  · rw [Outcome.machine_after, counted, machine_draw]
    rfl

/-- The shape of the digit zero is drawn where the flag says, and that is the corner of the screen,
because the flag is cleared first. One cell of its left edge was lit before. -/
theorem drawing_settled_flag_corner :
    let blank := (create 7).setRegister flagRegister 63
    let machine := { blank with display := (blank.display.plot 0 2 0x80).1 }
    let outcome := machine.execute ⟨0xD, 15, 15, 5⟩
    machine.pc.val ≤ 0xFFD ∧ machine.Drawn 15 15 5 outcome ∧
      outcome.machine.display.cell 0 2 = false ∧ outcome.machine.display.cell 3 1 = true ∧
      outcome.machine.registers.get flagRegister = 1 ∧ outcome.fault = none := by
  intro blank machine outcome
  have drawn : machine.Drawn 15 15 5 outcome := drawing_settled machine 15 15 5 (by decide)
  obtain ⟨corner, lit, dark⟩ : machine.flagCleared.get 15 = 0 ∧
      machine.display.cell 0 2 = true ∧ machine.display.cell 3 1 = false := by
    decide +kernel
  have left : machine.Falls 15 15 5 2 0 0 2 :=
    ⟨by decide, by decide, ⟨by decide, by decide +kernel⟩, by rw [corner]; decide,
      by rw [corner]; decide⟩
  have right : machine.Falls 15 15 5 1 3 3 1 :=
    ⟨by decide, by decide, ⟨by decide, by decide +kernel⟩, by rw [corner]; decide,
      by rw [corner]; decide⟩
  refine ⟨by decide, drawn, ?_, ?_, drawn.hit ⟨0, 2, ⟨2, 0, left⟩, lit⟩, ?_⟩
  · rw [drawn.toggled 0 2 ⟨2, 0, left⟩, lit]
    rfl
  · rw [drawn.toggled 3 1 ⟨1, 3, right⟩, dark]
    rfl
  · exact drawn.succeeds.mpr (by decide)

end Machine

end Chip8
