/-
The display is 64 columns by 32 rows of cells that are lit or dark. It is kept as one
word a row with the leftmost cell in the most significant bit, so plotting eight cells
is an exclusive or with a rotated byte: the rotation carries what leaves the right edge
back in at the left, and a lit cell was switched off exactly when the row and the mask
had a bit in common. `cell` is the view through which a display is described, and
`raster` lists all cells row by row.
-/

namespace Chip8

/-- How many columns of cells there are. -/
def displayWidth : Nat := 64

/-- How many rows of cells there are. -/
def displayHeight : Nat := 32

/-- The cells of the screen, and whether they were touched since the flag was last
lowered. -/
structure Display where
  rows : Vector (BitVec 64) 32
  updated : Bool
  deriving DecidableEq

namespace Display

/-- A dark display that nothing was drawn on. -/
def dark : Display := ⟨Vector.replicate 32 0, false⟩

/-- Whether a cell is lit. Cells off the screen never are. -/
def cell (display : Display) (column row : Nat) : Bool :=
  match display.rows[row]? with
  | some cells => cells.getMsbD column
  | none => false

/-- Switches every cell off. -/
def clear (_ : Display) : Display := ⟨Vector.replicate 32 0, true⟩

/-- Lowers the flag that says that there is something new to show. -/
def acknowledge (display : Display) : Display := { display with updated := false }

/-! ### Plotting -/

/-- Eight cells from a column on, as the bits of a row. -/
def mask (column : Nat) (byte : UInt8) : BitVec 64 :=
  (byte.toBitVec ++ 0#56).rotateRight (column % 64)

/-- Toggles the cells under the set bits of a byte, most significant bit leftmost, from
a given place on, round both edges. Says whether a lit cell was switched off. -/
def plot (display : Display) (column row : Nat) (byte : UInt8) : Display × Bool :=
  let place : Fin 32 := ⟨row % 32, Nat.mod_lt _ (by decide)⟩
  let cells := display.rows.get place
  let toggled := mask column byte
  (⟨display.rows.set place.val (cells ^^^ toggled) place.isLt, true⟩, cells &&& toggled != 0)

/-- Plots bytes one under another. Says whether any of them switched a lit cell off. -/
def plotSprite (display : Display) (column row : Nat) : List UInt8 → Display × Bool
  | [] => (display, false)
  | byte :: rest =>
    let (plotted, hit) := display.plot column row byte
    let (final, hitBelow) := plotted.plotSprite column (row + 1) rest
    (final, hit || hitBelow)

/-! ### Cell by cell -/

theorem ext_cell {first second : Display} (updated : first.updated = second.updated)
    (same : ∀ column row, first.cell column row = second.cell column row) : first = second := by
  obtain ⟨rows, _⟩ := first
  obtain ⟨rows', _⟩ := second
  obtain rfl := updated
  refine congrArg (mk · _) (Vector.ext fun row inside => ?_)
  refine BitVec.eq_of_getMsbD_eq fun column _ => ?_
  simpa [cell, inside] using same column row

theorem cell_dark (column row : Nat) : dark.cell column row = false := by
  unfold cell dark
  by_cases inside : row < 32 <;> simp [inside]

/-- No cell off the screen is lit. -/
theorem cell_of_off (display : Display) {column row : Nat}
    (off : displayWidth ≤ column ∨ displayHeight ≤ row) : display.cell column row = false := by
  unfold cell
  rcases off with beside | below
  · split
    · exact BitVec.getMsbD_of_ge _ _ beside
    · rfl
  · have outside : ¬row < 32 := Nat.not_lt_of_le below
    simp [outside]

/-- A mask has the bits of its byte from its column on, round the edge, and no others. -/
theorem getMsbD_mask (column : Nat) (byte : UInt8) {place : Nat} (inside : place < 64) :
    (mask column byte).getMsbD place =
      byte.toBitVec.getMsbD ((place + 64 - column % 64) % 64) := by
  have small : column % 64 < 64 := Nat.mod_lt _ (by decide)
  have padded (bit : Nat) :
      (byte.toBitVec ++ 0#56).getMsbD bit = byte.toBitVec.getMsbD bit := by
    rw [BitVec.getMsbD_append]
    split
    · next beyond => rw [BitVec.getMsbD_zero, BitVec.getMsbD_of_ge _ _ beyond]
    · rfl
  have same : column % 64 % 64 = column % 64 := Nat.mod_eq_of_lt small
  rw [mask, BitVec.getMsbD_rotateRight_of_lt small, padded, padded, same, decide_eq_true inside,
    Bool.true_and]
  split
  · rw [Nat.add_comm]
  · congr 1
    omega

/-- A plot toggles the cells of its row under the bits of its mask, and no others. -/
theorem cell_plot (display : Display) (column row : Nat) (byte : UInt8) (x y : Nat) :
    (display.plot column row byte).1.cell x y =
      (display.cell x y ^^ (decide (y = row % 32) && (mask column byte).getMsbD x)) := by
  have inside : row % 32 < 32 := Nat.mod_lt _ (by decide)
  unfold plot cell
  by_cases here : y = row % 32
  · subst here
    simp [inside, Vector.get]
  · simp [here, Ne.symm here]

/-- A sprite that has at least one row raises the flag. -/
theorem updated_plotSprite (display : Display) (column row : Nat) (sprite : List UInt8) :
    (display.plotSprite column row sprite).1.updated = (display.updated || !sprite.isEmpty) := by
  induction sprite generalizing display row with
  | nil => exact (Bool.or_false _).symm
  | cons byte rest inductionHypothesis =>
    have raised : (display.plot column row byte).1.updated = true := rfl
    rw [plotSprite]
    dsimp only
    rw [inductionHypothesis, raised]
    exact (Bool.or_true _).symm

/-- A plot switches a cell off exactly when it finds one lit that it toggles. -/
theorem hit_plot_iff (display : Display) (column row : Nat) (byte : UInt8) :
    (display.plot column row byte).2 = true ↔
      ∃ x < 64, display.cell x (row % 32) = true ∧ (mask column byte).getMsbD x = true := by
  have inside : row % 32 < 32 := Nat.mod_lt _ (by decide)
  have cells (x : Nat) :
      display.cell x (row % 32) = (display.rows.get ⟨row % 32, inside⟩).getMsbD x := by
    simp [cell, inside, Vector.get]
  simp only [plot, bne_iff_ne, cells, ← Bool.and_eq_true, ← BitVec.getMsbD_and]
  constructor
  · intro common
    refine Decidable.byContradiction fun none => common (BitVec.eq_of_getMsbD_eq fun x inside => ?_)
    exact (Bool.eq_false_iff.mpr fun lit => none ⟨x, inside, lit⟩).trans BitVec.getMsbD_zero.symm
  · rintro ⟨x, -, lit⟩ none
    rw [none] at lit
    cases BitVec.getMsbD_zero.symm.trans lit

/-! ### Looking at all cells -/

/-- The column and row of each cell, row by row from the top left. -/
def places : List (Nat × Nat) :=
  (List.range (displayWidth * displayHeight)).map fun place =>
    (place % displayWidth, place / displayWidth)

/-- A loop over all places is a loop over the rows with a loop over the columns in it. -/
theorem places_eq :
    places = (List.range displayHeight).flatMap fun row =>
      (List.range displayWidth).map fun column => (column, row) := by
  have rows (height : Nat) :
      ((List.range (displayWidth * height)).map fun place =>
          (place % displayWidth, place / displayWidth)) =
        (List.range height).flatMap fun row =>
          (List.range displayWidth).map fun column => (column, row) := by
    induction height with
    | zero => rfl
    | succ height inductionHypothesis =>
      rw [Nat.mul_succ, List.range_add, List.map_append, inductionHypothesis, List.range_succ,
        List.flatMap_append, List.flatMap_singleton, List.map_map]
      refine congrArg _ (List.map_congr_left fun column inside => ?_)
      have inside : column < displayWidth := List.mem_range.mp inside
      have positive : 0 < displayWidth := by decide
      show ((displayWidth * height + column) % displayWidth,
        (displayWidth * height + column) / displayWidth) = _
      rw [Nat.mul_add_mod, Nat.mod_eq_of_lt inside, Nat.mul_add_div positive,
        Nat.div_eq_of_lt inside, Nat.add_zero]
  exact rows displayHeight

/-- Whether each cell is lit, row by row from the top left. -/
def raster (display : Display) : List Bool :=
  places.map fun place => display.cell place.1 place.2

/-- The columns and rows of the lit cells, row by row from the top left. -/
def litCells (display : Display) : List (Nat × Nat) :=
  places.filter fun place => display.cell place.1 place.2

/-- All places on the screen are listed, and no others. -/
theorem mem_places_iff (column row : Nat) :
    (column, row) ∈ places ↔ column < displayWidth ∧ row < displayHeight := by
  rw [places_eq, List.mem_flatMap]
  constructor
  · rintro ⟨line, down, across⟩
    obtain ⟨_, inside, same⟩ := List.mem_map.mp across
    cases same
    exact ⟨List.mem_range.mp inside, List.mem_range.mp down⟩
  · rintro ⟨across, down⟩
    exact ⟨row, List.mem_range.mpr down, List.mem_map.mpr ⟨column, List.mem_range.mpr across, rfl⟩⟩

theorem mem_litCells_iff (display : Display) (column row : Nat) :
    (column, row) ∈ display.litCells ↔ display.cell column row = true := by
  rw [litCells, List.mem_filter, mem_places_iff, and_iff_right_iff_imp]
  intro lit
  refine Decidable.byContradiction fun outside => ?_
  rw [cell_of_off display (by omega)] at lit
  cases lit

end Display

end Chip8
