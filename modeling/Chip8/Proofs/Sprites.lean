/-
What a sprite does to the screen. A cell is struck by a sprite if one of its bytes has a set
bit that falls on it, round both edges. A byte reaches eight columns and a sprite has fewer
bytes than there are rows, so no cell is struck twice, and the cells can be told from the
screen as it was before any of the sprite was drawn: the struck ones are toggled, the others
stay, and there was a collision exactly if a struck cell was lit. The bytes of a sprite are
those in memory from the index on, as far as memory goes.
-/

import Chip8.Machine.Step

namespace Chip8

namespace Display

/-! ### One byte -/

/-- A byte drawn from a column on has a set bit, the most significant one leftmost, that falls
on a column of the screen. -/
theorem getMsbD_mask_iff (column : Nat) (byte : UInt8) (x : Nat) :
    (mask column byte).getMsbD x = true ↔
      ∃ bit < 8, byte.toNat.testBit (7 - bit) = true ∧ x = (column + bit) % 64 := by
  have bits (bit : Nat) : byte.toBitVec.getMsbD bit = true ↔
      bit < 8 ∧ byte.toNat.testBit (7 - bit) = true := by
    rw [BitVec.getMsbD, Bool.and_eq_true, decide_eq_true_iff]
    exact Iff.rfl
  constructor
  · intro set
    have inside : x < 64 := BitVec.lt_of_getMsbD set
    rw [getMsbD_mask column byte inside, bits] at set
    exact ⟨_, set.1, set.2, by omega⟩
  · rintro ⟨bit, small, set, rfl⟩
    have inside : (column + bit) % 64 < 64 := Nat.mod_lt _ (by decide)
    have back : ((column + bit) % 64 + 64 - column % 64) % 64 = bit := by omega
    rw [getMsbD_mask column byte inside, back, bits]
    exact ⟨small, set⟩

/-! ### A sprite -/

/-- A sprite with its corner at a given place has a set bit that falls on a cell. -/
def Strikes (column row : Nat) (sprite : List UInt8) (x y : Nat) : Prop :=
  ∃ line byte bit, sprite[line]? = some byte ∧ bit < 8 ∧
    byte.toNat.testBit (7 - bit) = true ∧ x = (column + bit) % 64 ∧ y = (row + line) % 32

theorem strikes_nil (column row x y : Nat) : ¬Strikes column row [] x y := by
  rintro ⟨line, byte, bit, found, -⟩
  cases found

theorem strikes_cons (column row : Nat) (byte : UInt8) (rest : List UInt8) (x y : Nat) :
    Strikes column row (byte :: rest) x y ↔
      (y = row % 32 ∧ (mask column byte).getMsbD x = true) ∨
        Strikes column (row + 1) rest x y := by
  rw [getMsbD_mask_iff]
  constructor
  · rintro ⟨line, other, bit, found, small, set, across, down⟩
    cases line with
    | zero =>
      cases found
      exact Or.inl ⟨down, bit, small, set, across⟩
    | succ line =>
      exact Or.inr ⟨line, other, bit, found, small, set, across, by omega⟩
  · rintro (⟨down, bit, small, set, across⟩ | ⟨line, other, bit, found, small, set, across, down⟩)
    · exact ⟨0, byte, bit, rfl, small, set, across, down⟩
    · exact ⟨line + 1, other, bit, found, small, set, across, by omega⟩

/-- A sprite that is not as tall as the screen does not come back to the row above it. -/
theorem not_strikes_above (column row : Nat) {rest : List UInt8} (short : rest.length < 32)
    (x : Nat) : ¬Strikes column (row + 1) rest x (row % 32) := by
  rintro ⟨line, byte, bit, found, -, -, -, down⟩
  have inside : line < rest.length := (List.getElem?_eq_some_iff.mp found).1
  omega

/-- The cells of a set are toggled, and all others stay as they are. -/
structure Toggles (before after : Display) (struck : Nat → Nat → Prop) : Prop where
  toggled : ∀ x y, struck x y → after.cell x y = !before.cell x y
  spared : ∀ x y, ¬struck x y → after.cell x y = before.cell x y

/-- A sprite toggles the cells that it strikes. -/
theorem toggles_plotSprite (display : Display) (column row : Nat) (sprite : List UInt8)
    (short : sprite.length ≤ 32) :
    display.Toggles (display.plotSprite column row sprite).1 (Strikes column row sprite) := by
  induction sprite generalizing display row with
  | nil => exact ⟨fun x y struck => absurd struck (strikes_nil column row x y), fun _ _ _ => rfl⟩
  | cons byte rest inductionHypothesis =>
    have shorter : rest.length < 32 := short
    have below := inductionHypothesis (display.plot column row byte).1 (row + 1) (by omega)
    rw [plotSprite]
    dsimp only
    refine ⟨fun x y struck => ?_, fun x y spared => ?_⟩
    · rcases (strikes_cons column row byte rest x y).mp struck with ⟨rfl, set⟩ | later
      · rw [below.spared _ _ (not_strikes_above column row shorter x), cell_plot, set]
        simp
      · have lower : y ≠ row % 32 := by
          rintro rfl
          exact not_strikes_above column row shorter x later
        rw [below.toggled x y later, cell_plot]
        simp [lower]
    · rw [strikes_cons, not_or, not_and, Bool.not_eq_true] at spared
      rw [below.spared x y spared.2, cell_plot]
      by_cases here : y = row % 32
      · simp [spared.1 here]
      · simp [here]

/-- A sprite collides exactly if it strikes a cell that was lit before any of it was drawn. -/
theorem hit_plotSprite_iff (display : Display) (column row : Nat) (sprite : List UInt8)
    (short : sprite.length ≤ 32) :
    (display.plotSprite column row sprite).2 = true ↔
      ∃ x y, Strikes column row sprite x y ∧ display.cell x y = true := by
  induction sprite generalizing display row with
  | nil =>
    refine ⟨nofun, ?_⟩
    rintro ⟨x, y, struck, -⟩
    exact absurd struck (strikes_nil column row x y)
  | cons byte rest inductionHypothesis =>
    have shorter : rest.length < 32 := short
    -- What is struck further down looks the same after the first row.
    have same (x y : Nat) (later : Strikes column (row + 1) rest x y) :
        (display.plot column row byte).1.cell x y = display.cell x y := by
      have lower : y ≠ row % 32 := by
        rintro rfl
        exact not_strikes_above column row shorter x later
      rw [cell_plot]
      simp [lower]
    rw [plotSprite]
    dsimp only
    rw [Bool.or_eq_true, hit_plot_iff, inductionHypothesis _ _ (by omega)]
    constructor
    · rintro (⟨x, -, lit, set⟩ | ⟨x, y, later, lit⟩)
      · exact ⟨x, row % 32, (strikes_cons ..).mpr (Or.inl ⟨rfl, set⟩), lit⟩
      · rw [same x y later] at lit
        exact ⟨x, y, (strikes_cons ..).mpr (Or.inr later), lit⟩
    · rintro ⟨x, y, struck, lit⟩
      rcases (strikes_cons ..).mp struck with ⟨rfl, set⟩ | later
      · exact Or.inl ⟨x, BitVec.lt_of_getMsbD set, lit, set⟩
      · rw [← same x y later] at lit
        exact Or.inr ⟨x, y, later, lit⟩

end Display

/-! ### The sprite at the index -/

namespace Machine

/-- The registers that a drawing finds: its flag is cleared before it looks where to draw. -/
def flagCleared (machine : Machine) : Registers := machine.registers.set flagRegister 0

/-- One of the first `height` rows at the index, as far as they are in memory, has a set bit
that falls on a cell when it is drawn at the place that two registers name. -/
def Strikes (machine : Machine) (x y : Register) (height : Fin 16) (column row : Nat) : Prop :=
  ∃ (line bit : Nat) (inside : machine.index.val + line < 4096), line < height.val ∧ bit < 8 ∧
    (machine.memory.get ⟨machine.index.val + line, inside⟩).toNat.testBit (7 - bit) = true ∧
    column = ((machine.flagCleared.get x).toNat + bit) % 64 ∧
    row = ((machine.flagCleared.get y).toNat % 32 + line) % 32

/-- What a drawing does to the screen and the registers. -/
structure Draws (machine : Machine) (x y : Register) (height : Fin 16) (after : Machine) :
    Prop where
  cells : machine.display.Toggles after.display (machine.Strikes x y height)
  updated : after.display.updated = true ↔ machine.display.updated = true ∨ 1 ≤ height.val
  /-- The flag is set if a cell that was lit was struck. -/
  hit : (∃ column row, machine.Strikes x y height column row ∧
    machine.display.cell column row = true) → after.registers.get flagRegister = 1
  missed : (¬∃ column row, machine.Strikes x y height column row ∧
    machine.display.cell column row = true) → after.registers.get flagRegister = 0
  others : ∀ other ≠ flagRegister, after.registers.get other = machine.registers.get other

/-- The screen with the sprite at the index on it, and whether there was a collision. -/
def plotted (machine : Machine) (x y : Register) (height : Fin 16) : Display × Bool :=
  machine.display.plotSprite (machine.flagCleared.get x).toNat
    ((machine.flagCleared.get y).toNat % displayHeight)
    (machine.memory.slice machine.index.val height.val)

theorem machine_draw (machine : Machine) (x y : Register) (height : Fin 16) :
    (machine.draw x y height).machine = { machine with
      registers := machine.flagCleared.set flagRegister (flag (machine.plotted x y height).2)
      display := (machine.plotted x y height).1 } := by
  unfold draw
  dsimp only
  split <;> rfl

theorem strikes_slice (machine : Machine) (x y : Register) (height : Fin 16) :
    Display.Strikes (machine.flagCleared.get x).toNat
        ((machine.flagCleared.get y).toNat % displayHeight)
        (machine.memory.slice machine.index.val height.val) =
      machine.Strikes x y height := by
  funext column row
  simp only [Display.Strikes, Memory.getElem?_slice_eq_some_iff, eq_iff_iff]
  constructor
  · rintro ⟨line, byte, bit, ⟨within, inside, rfl⟩, small, set, across, down⟩
    exact ⟨line, bit, inside, within, small, set, across, down⟩
  · rintro ⟨line, bit, inside, within, small, set, across, down⟩
    exact ⟨line, _, bit, ⟨within, inside, rfl⟩, small, set, across, down⟩

theorem length_sprite (machine : Machine) (height : Fin 16) :
    (machine.memory.slice machine.index.val height.val).length ≤ 32 := by
  rw [Memory.length_slice]
  omega

/-- A drawing, whether or not it goes through, draws the rows that are in memory. -/
theorem draws_draw (machine : Machine) (x y : Register) (height : Fin 16) :
    machine.Draws x y height (machine.draw x y height).machine := by
  have collides : (machine.plotted x y height).2 = true ↔
      ∃ column row, machine.Strikes x y height column row ∧
        machine.display.cell column row = true := by
    rw [← strikes_slice]
    exact Display.hit_plotSprite_iff _ _ _ _ (machine.length_sprite height)
  rw [machine_draw]
  refine ⟨?_, ?_, fun collision => ?_, fun clear => ?_, fun other plain => ?_⟩
  · rw [← strikes_slice]
    exact Display.toggles_plotSprite _ _ _ _ (machine.length_sprite height)
  · have start := machine.index.isLt
    have rows : (!(machine.memory.slice machine.index.val height.val).isEmpty) = true ↔
        1 ≤ height.val := by
      rw [Bool.not_eq_true', List.isEmpty_eq_false_iff, ← List.length_pos_iff,
        Memory.length_slice]
      omega
    show (machine.plotted x y height).1.updated = true ↔ _
    rw [plotted, Display.updated_plotSprite, Bool.or_eq_true, rows]
  · show (machine.flagCleared.set flagRegister _).get flagRegister = 1
    rw [Registers.get_set_self, collides.mpr collision]
    rfl
  · show (machine.flagCleared.set flagRegister _).get flagRegister = 0
    rw [Registers.get_set_self, Bool.eq_false_iff.mpr (mt collides.mp clear)]
    rfl
  · show (machine.flagCleared.set flagRegister _).get other = _
    rw [Registers.get_set_other _ _ _ _ plain, flagCleared,
      Registers.get_set_other _ _ _ _ plain]

end Machine

end Chip8
