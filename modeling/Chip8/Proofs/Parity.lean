/-
The screen is a parity. A plot toggles some cells, whatever they were, and a clearing makes them
all dark, so a cell is lit exactly if it was toggled an odd number of times since the screen was
last cleared; that it was lit at the start counts as one time more, if the screen was never cleared.
The order of the plots is lost in the count. One stroke changes the parity of the count as it
changes the cell, and that carries over to any number of strokes, the last one first.
-/

import Chip8.Proofs.Sprites
import Mathlib.Algebra.Ring.Parity
import Mathlib.Data.List.Induction

namespace Chip8

/-- What is done to a screen. -/
inductive Stroke where
  | plot (x y byte : UInt8)
  | clear
  deriving DecidableEq, Repr

namespace Stroke

/-- A plot has a set bit, the most significant one leftmost, that falls on a cell. -/
def Covers (column row : Nat) : Stroke → Prop
  | plot x y byte => row = y.toNat % 32 ∧
      ∃ bit < 8, byte.toNat.testBit (7 - bit) = true ∧ column = (x.toNat + bit) % 64
  | clear => False

instance (column row : Nat) : DecidablePred (Covers column row)
  | plot .. => inferInstanceAs (Decidable (_ ∧ _))
  | clear => instDecidableFalse

/-- The plots since the last clearing, the newest first. -/
def latest (strokes : List Stroke) : List Stroke := strokes.reverse.takeWhile (· ≠ clear)

theorem latest_concat_plot (strokes : List Stroke) (x y byte : UInt8) :
    latest (strokes ++ [plot x y byte]) = plot x y byte :: latest strokes := by
  simp [latest]

theorem latest_concat_clear (strokes : List Stroke) : latest (strokes ++ [clear]) = [] := by
  simp [latest]

end Stroke

namespace Display

/-- The display after a stroke. -/
def apply (display : Display) : Stroke → Display
  | .plot x y byte => (display.plot x.toNat y.toNat byte).1
  | .clear => display.clear

/-- The display after any number of strokes. -/
def follow (display : Display) (strokes : List Stroke) : Display := strokes.foldl apply display

/-- How many plots fell on a cell since the screen was last cleared. If it never was, a cell that
was lit at the start has one more. -/
def tally (display : Display) (strokes : List Stroke) (column row : Nat) : Nat :=
  (Stroke.latest strokes).countP (fun stroke => stroke.Covers column row) +
    if .clear ∉ strokes ∧ display.cell column row = true then 1 else 0

/-! ### One stroke -/

theorem covers_plot_iff (x y byte : UInt8) (column row : Nat) :
    (Stroke.plot x y byte).Covers column row ↔
      row = y.toNat % 32 ∧ (mask x.toNat byte).getMsbD column = true := by
  rw [getMsbD_mask_iff]
  exact Iff.rfl

/-- A plot toggles the cells that it covers. -/
theorem cell_apply_plot (display : Display) (x y byte : UInt8) (column row : Nat) :
    (display.apply (.plot x y byte)).cell column row =
      (display.cell column row ^^ decide ((Stroke.plot x y byte).Covers column row)) := by
  rw [apply, cell_plot]
  congr 1
  rw [Bool.eq_iff_iff, decide_eq_true_iff, covers_plot_iff, Bool.and_eq_true, decide_eq_true_iff]

theorem cell_apply_clear (display : Display) (column row : Nat) :
    (display.apply .clear).cell column row = false :=
  cell_dark column row

/-- Two plots can change places. -/
theorem apply_comm (display : Display) {first second : Stroke} (plots : first ≠ .clear)
    (plots' : second ≠ .clear) :
    (display.apply first).apply second = (display.apply second).apply first := by
  cases first with
  | clear => exact absurd rfl plots
  | plot x y byte =>
    cases second with
    | clear => exact absurd rfl plots'
    | plot x' y' byte' =>
      refine ext_cell rfl fun column row => ?_
      simp only [cell_apply_plot]
      rw [Bool.xor_right_comm]

/-! ### Any number of strokes -/

theorem follow_concat (display : Display) (strokes : List Stroke) (stroke : Stroke) :
    display.follow (strokes ++ [stroke]) = (display.follow strokes).apply stroke :=
  List.foldl_append

theorem tally_nil (display : Display) (column row : Nat) :
    display.tally [] column row = if display.cell column row = true then 1 else 0 := by
  simp [tally, Stroke.latest]

theorem tally_concat_plot (display : Display) (strokes : List Stroke) (x y byte : UInt8)
    (column row : Nat) :
    display.tally (strokes ++ [.plot x y byte]) column row =
      display.tally strokes column row +
        if (Stroke.plot x y byte).Covers column row then 1 else 0 := by
  have same : .clear ∉ strokes ++ [Stroke.plot x y byte] ↔ .clear ∉ strokes := by simp
  simp only [tally, Stroke.latest_concat_plot, List.countP_cons, same, decide_eq_true_eq]
  exact Nat.add_right_comm ..

theorem tally_concat_clear (display : Display) (strokes : List Stroke) (column row : Nat) :
    display.tally (strokes ++ [.clear]) column row = 0 := by
  have cleared : ¬(.clear ∉ strokes ++ [.clear] ∧ display.cell column row = true) :=
    fun both => both.1 (List.mem_append_right _ List.mem_cons_self)
  rw [tally, Stroke.latest_concat_clear, if_neg cleared]
  rfl

/-- A cell is lit after any strokes exactly if it was toggled an odd number of times. -/
theorem cell_follow_iff (display : Display) (strokes : List Stroke) (column row : Nat) :
    (display.follow strokes).cell column row = true ↔
      Odd (display.tally strokes column row) := by
  induction strokes using List.reverseRecOn with
  | nil =>
    rw [tally_nil]
    show display.cell column row = true ↔ _
    split
    · next lit => exact iff_of_true lit odd_one
    · next dark => exact iff_of_false dark Nat.not_odd_zero
  | append_singleton strokes stroke inductionHypothesis =>
    rw [follow_concat]
    cases stroke with
    | clear =>
      rw [cell_apply_clear, tally_concat_clear]
      exact iff_of_false Bool.false_ne_true Nat.not_odd_zero
    | plot x y byte =>
      rw [cell_apply_plot, tally_concat_plot]
      by_cases covers : (Stroke.plot x y byte).Covers column row
      · rw [decide_eq_true covers, if_pos covers, Nat.odd_add_one, ← inductionHypothesis,
          Bool.xor_true, Bool.not_eq_true', Bool.not_eq_true]
      · rw [decide_eq_false covers, if_neg covers, Nat.add_zero, ← inductionHypothesis,
          Bool.xor_false]

/-- Between two clearings the order of the plots is nothing to the display. -/
theorem follow_of_perm (display : Display) (before after : List Stroke)
    {plots reordered : List Stroke} (noClear : .clear ∉ plots) (perm : plots.Perm reordered) :
    display.follow (before ++ plots ++ after) = display.follow (before ++ reordered ++ after) := by
  have same (start : Display) : plots.foldl apply start = reordered.foldl apply start :=
    perm.foldl_eq' (fun first member second member' display =>
      display.apply_comm (fun clear => noClear (clear ▸ member))
        fun clear => noClear (clear ▸ member')) start
  simp only [follow, List.foldl_append, same]

/-! ### What a plot says, and where it does not reach -/

/-- A plot says that it switched a cell off exactly if it covers one that was lit. -/
theorem hit_plot_iff_covers (display : Display) (x y byte : UInt8) :
    (display.plot x.toNat y.toNat byte).2 = true ↔
      ∃ column row, (Stroke.plot x y byte).Covers column row ∧
        display.cell column row = true := by
  rw [hit_plot_iff]
  constructor
  · rintro ⟨column, -, lit, set⟩
    exact ⟨column, _, (covers_plot_iff ..).mpr ⟨rfl, set⟩, lit⟩
  · rintro ⟨column, row, covers, lit⟩
    obtain ⟨rfl, set⟩ := (covers_plot_iff ..).mp covers
    exact ⟨column, BitVec.lt_of_getMsbD set, lit, set⟩

/-- A plot reaches eight cells of a row, round the edge. -/
theorem cell_plot_outside (display : Display) (x y byte : UInt8) {column row : Nat}
    (outside : row ≠ y.toNat % 32 ∨ ∀ bit < 8, column ≠ (x.toNat + bit) % 64) :
    (display.plot x.toNat y.toNat byte).1.cell column row = display.cell column row := by
  have uncovered : ¬(Stroke.plot x y byte).Covers column row := by
    rintro ⟨down, bit, small, -, across⟩
    rcases outside with beside | beside
    · exact beside down
    · exact beside bit small across
  have same := display.cell_apply_plot x y byte column row
  rwa [decide_eq_false uncovered, Bool.xor_false] at same

/-! ### All cells -/

theorem nodup_places : places.Nodup := by
  refine List.Pairwise.map _ (fun first second apart same => ?_) List.nodup_range
  have := (Prod.mk.injEq ..).mp same
  unfold displayWidth at this
  omega

/-- The screen as a parity, for any strokes on any display. A cell is lit in the end exactly if the
plots that fell on it since the last clearing, and its being lit at the start if there was none,
make an odd number. So plots between two clearings can be put in any order. A plot says that it
switched a cell off exactly if it covers one that was lit, and it reaches eight cells of its row
at most. The places that a display is looked at are all of its cells, each of them once. -/
theorem cells_along_strokes :
    (∀ (display : Display) (strokes : List Stroke) (column row : Nat),
      (display.follow strokes).cell column row = true ↔
        Odd (display.tally strokes column row)) ∧
    (∀ (display : Display) (before plots reordered after : List Stroke), .clear ∉ plots →
      plots.Perm reordered →
      display.follow (before ++ plots ++ after) =
        display.follow (before ++ reordered ++ after)) ∧
    (∀ (display : Display) (x y byte : UInt8),
      ((display.plot x.toNat y.toNat byte).2 = true ↔ ∃ column row,
        (Stroke.plot x y byte).Covers column row ∧ display.cell column row = true) ∧
      ∀ column row, row ≠ y.toNat % 32 ∨ (∀ bit < 8, column ≠ (x.toNat + bit) % 64) →
        (display.plot x.toNat y.toNat byte).1.cell column row = display.cell column row) ∧
    places.length = 2048 ∧ places.Nodup ∧
    (∀ column row, (column, row) ∈ places ↔ column < 64 ∧ row < 32) ∧
    (∀ place < 2048, places[place]? = some (place % 64, place / 64)) ∧
    ∀ display : Display,
      display.raster = places.map fun place => display.cell place.1 place.2 := by
  refine ⟨cell_follow_iff, fun display before plots reordered after noClear perm =>
    display.follow_of_perm before after noClear perm, fun display x y byte =>
    ⟨display.hit_plot_iff_covers x y byte, fun _ _ => display.cell_plot_outside x y byte⟩,
    ?_, nodup_places, mem_places_iff, fun place below => ?_, fun _ => rfl⟩
  · rw [places, List.length_map, List.length_range]
    rfl
  · have listed : (List.range (displayWidth * displayHeight))[place]? = some place :=
      List.getElem?_range below
    rw [places, List.getElem?_map, listed]
    rfl

/-- A cell in the corner that was lit at the start is toggled three times, round both edges, and a
cell in the same row once. -/
theorem cells_along_strokes_corner :
    let start := (dark.plot 63 31 0x80).1
    let plots : List Stroke := [.plot 255 95 0x81, .plot 63 31 0x80, .plot 60 63 0xF8]
    let reordered : List Stroke := [.plot 60 63 0xF8, .plot 255 95 0x81, .plot 63 31 0x80]
    let final := start.follow (plots ++ [.plot 0 0 0xFF])
    (.clear ∉ plots ∧ plots.Perm reordered ∧ (31 ≠ (0 : UInt8).toNat % 32) ∧ 2047 < 2048) ∧
      final = start.follow (reordered ++ [.plot 0 0 0xFF]) ∧
      final.cell 63 31 = false ∧ final.cell 6 31 = true ∧
      (final.plot 0 0 0x80).1.cell 63 31 = false ∧ places[2047]? = some (63, 31) := by
  intro start plots reordered final
  have noClear : .clear ∉ plots := by decide
  have perm : plots.Perm reordered := by decide
  have beside : 31 ≠ (0 : UInt8).toNat % 32 := by decide
  obtain ⟨parity, order, plotting, -, -, -, place, -⟩ := cells_along_strokes
  have dark : final.cell 63 31 = false := by
    rw [← Bool.not_eq_true, parity]
    decide
  refine ⟨⟨noClear, perm, beside, by decide⟩, order start [] plots reordered _ noClear perm, dark,
    (parity ..).mpr (by decide), ?_, place 2047 (by decide)⟩
  exact ((plotting final 0 0 0x80).2 63 31 (Or.inl beside)).trans dark

end Display

end Chip8
