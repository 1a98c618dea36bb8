/-
The picture in the window. Each lit cell is a square of which the four corners are
given, clockwise from the upper left, and cells come row by row from the top left. The
corners are whole numbers of cells from the middle of the window.
-/

import Chip8.Display
import Chip8.Host

namespace Chip8

/-- The corners of a cell. -/
def cellCorners (column row : Nat) : List Vertex :=
  let left : Int := column - displayWidth / 2
  let top : Int := displayHeight / 2 - row
  [(left, top), (left + 1, top), (left + 1, top - 1), (left, top - 1)]

/-- The corners of all lit cells. -/
def Display.picture (display : Display) : List Vertex :=
  display.litCells.flatMap fun place => cellCorners place.1 place.2

/-! ### What a picture shows -/

theorem cellCorners_eq (column row : Nat) :
    cellCorners column row =
      [((column : Int) - 32, 16 - (row : Int)), ((column : Int) - 31, 16 - (row : Int)),
        ((column : Int) - 31, 15 - (row : Int)), ((column : Int) - 32, 15 - (row : Int))] := by
  simp only [cellCorners, displayWidth, displayHeight, List.cons.injEq, Prod.mk.injEq]
  refine ⟨⟨?_, ?_⟩, ⟨?_, ?_⟩, ⟨?_, ?_⟩, ⟨?_, ?_⟩, trivial⟩ <;> omega

/-- Different cells have different corners. -/
theorem cellCorners_injective {place place' : Nat × Nat}
    (same : cellCorners place.1 place.2 = cellCorners place'.1 place'.2) : place = place' := by
  simp only [cellCorners_eq, List.cons.injEq, Prod.mk.injEq] at same
  exact Prod.ext (by omega) (by omega)

/-- As all cells take the same number of corners, rows of corners can be told apart cell by
cell. -/
theorem flatMap_cellCorners_injective {first second : List (Nat × Nat)}
    (same : (first.flatMap fun place => cellCorners place.1 place.2) =
      second.flatMap fun place => cellCorners place.1 place.2) : first = second := by
  induction first generalizing second with
  | nil =>
    cases second with
    | nil => rfl
    | cons place rest => cases same
  | cons place rest inductionHypothesis =>
    cases second with
    | nil => cases same
    | cons place' rest' =>
      obtain ⟨here, later⟩ := List.append_inj same rfl
      rw [cellCorners_injective here, inductionHypothesis later]

namespace Display

/-- Row by row and column by column, each lit cell takes four corners, and a dark one none. -/
theorem picture_eq (display : Display) :
    display.picture =
      (List.range 32).flatMap fun row => (List.range 64).flatMap fun column =>
        if display.cell column row then
          [((column : Int) - 32, 16 - (row : Int)), ((column : Int) - 31, 16 - (row : Int)),
            ((column : Int) - 31, 15 - (row : Int)), ((column : Int) - 32, 15 - (row : Int))]
        else [] := by
  have each (cells : List (Nat × Nat)) :
      ((cells.filter fun place => display.cell place.1 place.2).flatMap fun place =>
          cellCorners place.1 place.2) =
        cells.flatMap fun place =>
          if display.cell place.1 place.2 then cellCorners place.1 place.2 else [] := by
    induction cells with
    | nil => rfl
    | cons place rest inductionHypothesis =>
      rw [List.filter_cons, List.flatMap_cons, ← inductionHypothesis]
      split <;> rfl
  rw [picture, litCells, each, places_eq, List.flatMap_assoc]
  simp only [List.flatMap_map, cellCorners_eq]
  rfl

/-- A picture tells which cells are lit. -/
theorem cell_eq_of_picture_eq {first second : Display} (same : first.picture = second.picture)
    (column row : Nat) : first.cell column row = second.cell column row := by
  have lit : first.litCells = second.litCells := flatMap_cellCorners_injective same
  rw [Bool.eq_iff_iff, ← mem_litCells_iff, ← mem_litCells_iff, lit]

end Display

end Chip8
