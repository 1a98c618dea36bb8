/-
The window is never behind the screen. The flag of the display is raised by every word that
may change a cell, and by nothing else, and at the end of a frame the window is redrawn if
the flag is up and the flag is lowered. So a frame that draws nothing leaves the cells as the
last drawing has shown them. A drawing lists the lit cells row by row, four corners to a cell,
and since every cell takes the same number of corners, nothing about them gets lost in it.
-/

import Chip8.Proofs.Decoding
import Chip8.Proofs.Frame
import Chip8.Proofs.Courses
import Chip8.Proofs.Tick

namespace Chip8

/-! ### Words that paint -/

/-- The words `00E0`, and the words `DXYN` that have at least one row to draw. -/
def Word.Paints (word : Word) : Prop :=
  word.IsClear ∨ word.family.val = 0xD ∧ 1 ≤ word.n.val

instance (word : Word) : Decidable word.Paints := inferInstanceAs (Decidable (_ ∨ _))

namespace Machine

/-- The next tick carries out a word that paints. -/
def Paints (machine : Machine) : Prop :=
  machine.tick.fault = none ∧ ∃ word ∈ machine.upcoming?, word.Paints

instance (machine : Machine) : Decidable machine.Paints := inferInstanceAs (Decidable (_ ∧ _))

/-- Only two instructions have an effect on the display. -/
theorem display_perform (origin : Address) (instruction : Instruction) (machine : Machine)
    (noClear : instruction ≠ .clear) (noDraw : ∀ x y height, instruction ≠ .draw x y height) :
    (perform origin instruction machine).machine.display = machine.display := by
  cases instruction with
  | clear => exact absurd rfl noClear
  | draw x y height => exact absurd rfl (noDraw x y height)
  | awaitKey _ | setDelay _ | setSound _ => rfl
  | _ => exact (inner_perform origin _ machine rfl).display

/-- A drawing that goes through has drawn all of its rows. -/
theorem display_draw {machine : Machine} {x y : Register} {height : Fin 16}
    (succeeds : (machine.draw x y height).fault = none) :
    (1 ≤ height.val → (machine.draw x y height).machine.display.updated = true) ∧
      (height.val = 0 → (machine.draw x y height).machine.display = machine.display) := by
  unfold draw at succeeds ⊢
  dsimp only at succeeds ⊢
  split at succeeds
  · next whole =>
    rw [if_pos whole]
    constructor
    · intro some
      have rows : (machine.memory.slice machine.index.val height.val).isEmpty = false := by
        rw [List.isEmpty_eq_false_iff_exists_mem]
        exact List.exists_mem_of_length_pos (by omega)
      rw [Outcome.machine_done, Display.updated_plotSprite, rows]
      exact Bool.or_true _
    · intro none
      rw [List.eq_nil_of_length_eq_zero (whole.trans none)]
      rfl
  · cases succeeds

/-- What paints raises the flag if it goes through, and nothing else changes the display. -/
theorem perform_paints (origin : Address) (word : Word) {machine : Machine}
    (succeeds : (perform origin (.ofWord word) machine).fault = none) :
    (word.Paints →
        (perform origin (.ofWord word) machine).machine.display.updated = true) ∧
      (¬word.Paints →
        (perform origin (.ofWord word) machine).machine.display = machine.display) := by
  by_cases clear : word.IsClear
  · rw [Instruction.ofWord_of_fits .clear clear]
    exact ⟨fun _ => rfl, fun dark => absurd (Or.inl clear) dark⟩
  by_cases draw : word.family.val = 0xD
  · rw [Instruction.ofWord_of_fits (.draw word.x word.y word.n) ⟨draw, rfl, rfl, rfl⟩] at succeeds ⊢
    obtain ⟨raised, same⟩ := display_draw succeeds
    refine ⟨fun paints => raised (paints.resolve_left clear).2, fun dark => same ?_⟩
    exact Nat.eq_zero_of_not_pos fun some => dark (Or.inr ⟨draw, some⟩)
  · refine ⟨fun paints => ?_, fun _ => display_perform origin _ machine ?_ ?_⟩
    · exact absurd paints (not_or.mpr ⟨clear, fun both => draw both.1⟩)
    · exact fun same => clear (Instruction.ofWord_eq_iff.mp same)
    · exact fun x y height same => draw (Instruction.ofWord_eq_iff.mp same).1

/-! ### Ticks -/

/-- A tick that goes through raises the flag if it paints, and leaves the display alone if it
does not. -/
theorem tick_display {machine : Machine} (succeeds : machine.tick.fault = none) :
    (machine.Paints → machine.tick.machine.display.updated = true) ∧
      (¬machine.Paints → machine.tick.machine.display = machine.display) := by
  cases upcoming : machine.upcoming? with
  | none =>
    refine ⟨?_, fun _ => by rw [tick_of_upcoming?_eq_none upcoming succeeds]; rfl⟩
    rintro ⟨-, word, found, -⟩
    cases upcoming.symm.trans found
  | some word =>
    have paints : machine.Paints ↔ word.Paints := by
      simp [Paints, succeeds, upcoming]
    obtain ⟨woken, next, wakes, -, -, course⟩ := tick_of_upcoming upcoming succeeds
    have same : (woken.poised word next).display = machine.display := by
      obtain ⟨registers, rfl⟩ := eq_of_wake? wakes
      rfl
    obtain ⟨cycles, counted⟩ :=
      (perform woken.pc (.ofWord word) (woken.poised word next)).machine_counted
    rw [course, Outcome.fault_after, Outcome.fault_counted] at succeeds
    rw [paints, course, Outcome.machine_after, counted, ← same]
    exact perform_paints woken.pc word succeeds

/-- The flag is up after some ticks if it was up before or one of them has painted, and if
none has, the display is the same. -/
theorem ticks_display {machine : Machine} {count : Nat} (all : machine.Lasts count) :
    let now := machine.feed (List.replicate count .tick)
    let painted := ∃ tick < count, (machine.feed (List.replicate tick .tick)).Paints
    (now.display.updated = true ↔ machine.display.updated = true ∨ painted) ∧
      (¬painted → now.display = machine.display) := by
  induction count with
  | zero => simp
  | succ count inductionHypothesis =>
    obtain ⟨before, here⟩ := Nat.forall_lt_succ_right.mp all
    obtain ⟨raised, same⟩ := inductionHypothesis before
    obtain ⟨paints, rests⟩ := tick_display here
    rw [feed_ticks_succ, Nat.exists_lt_succ_right]
    by_cases painting : (machine.feed (List.replicate count .tick)).Paints
    · simp [paints painting, painting]
    · simp only [rests painting, raised, painting, or_false, true_and]
      exact same

/-! ### Frames -/

section Frames

variable {machine : Machine} {instructions : Nat} {frames : List Frame} {frame : Nat}
  {keys : Frame}

/-- Keys do not touch the display, and the end of a frame touches its flag only. -/
theorem display_atFrame_add_one (here : frames[frame]? = some keys) :
    (machine.atFrame instructions frames (frame + 1)).display =
      (machine.atTick instructions frames frame instructions).display.acknowledge := by
  rw [atFrame_add_one here, Frame.inputs, feed_append, feed_append, atTick_eq here,
    Frame.apply_eq_feed]
  rfl

/-- A machine with a screen to show has shown it after the first frame. -/
theorem updated_atFrame_iff (fresh : machine.display.updated = true)
    (here : frames[frame]? = some keys) :
    (machine.atFrame instructions frames frame).display.updated = true ↔ frame = 0 := by
  cases frame with
  | zero => exact iff_of_true fresh rfl
  | succ frame =>
    have inside : frame < frames.length :=
      Nat.lt_of_succ_lt (List.getElem?_eq_some_iff.mp here).1
    rw [display_atFrame_add_one (List.getElem?_eq_getElem inside)]
    exact iff_of_false Bool.false_ne_true (Nat.succ_ne_zero frame)

theorem frame_display (here : frames[frame]? = some keys)
    (passes : machine.Passes instructions frames frame) :
    let before := (machine.atFrame instructions frames frame).display
    let shown := (machine.atTick instructions frames frame instructions).display
    let painted := ∃ tick < instructions, (machine.atTick instructions frames frame tick).Paints
    (shown.updated = true ↔ before.updated = true ∨ painted) ∧ (¬painted → shown = before) := by
  have untouched : (keys.apply (machine.atFrame instructions frames frame)).display =
      (machine.atFrame instructions frames frame).display := by
    rw [Frame.apply_eq]
  have ticks := ticks_display ((passes_iff here).mp passes)
  rw [untouched] at ticks
  simp only [atTick_eq here]
  exact ticks

end Frames

end Machine

namespace Session

section Draws

variable {host : Host} {instructions : Nat} {frames : List Frame} {machine : Machine}
  {place : Nat} {result : FrameResult}

/-- A frame that goes through draws its screen if it is the first one or if it has painted, and
nothing otherwise. -/
theorem draws_of_frame (fresh : machine.display.updated = true)
    (found : ((start machine).play host instructions frames)[place]? = some result)
    (succeeds : result.fault = none) :
    result.events.filter Event.isDraw =
      if place = 0 ∨
          ∃ tick < instructions, (machine.atTick instructions frames place tick).Paints then
        [.draw (place + 1) ink result.session.machine.display.picture]
      else [] := by
  have passes : machine.Passes instructions frames place :=
    passes_of_fault_eq_none found succeeds
  obtain ⟨keys, -, here, -⟩ := eq_of_getElem?_play host instructions found
  obtain ⟨tone, log, events, closed, rfl, still⟩ := result_of_passes found passes
  have shows := (Machine.frame_display here passes).1
  rw [Machine.updated_atFrame_iff fresh here] at shows
  have silent : events.filter Event.isDraw = [] :=
    List.filter_eq_nil_iff.mpr fun event member => by simp [still event member]
  have screen : (machine.atFrame instructions frames (place + 1)).display.picture =
      (machine.atTick instructions frames place instructions).display.picture := by
    rw [Machine.display_atFrame_add_one here]
    rfl
  simp only [List.filter_append, silent, List.nil_append, start, Nat.zero_add, shows, screen]
  split <;> rfl

/-- After a frame that goes through, the last drawing shows what is on the screen. -/
theorem last_draw (fresh : machine.display.updated = true)
    (found : ((start machine).play host instructions frames)[place]? = some result)
    (succeeds : result.fault = none) :
    ∃ earlier ≤ place,
      ((((start machine).play host instructions frames).take (place + 1)).flatMap
          FrameResult.events |>.filter Event.isDraw).getLast? =
        some (.draw (earlier + 1) ink result.session.machine.display.picture) := by
  induction place generalizing result with
  | zero =>
    refine ⟨0, Nat.le_refl 0, ?_⟩
    rw [List.take_add_one, found]
    simp [draws_of_frame fresh found succeeds]
  | succ place inductionHypothesis =>
    rw [List.take_add_one, found, List.flatMap_append, List.filter_append, Option.toList_some,
      List.flatMap_singleton, draws_of_frame fresh found succeeds]
    split
    · exact ⟨place + 1, Nat.le_refl _, List.getLast?_concat⟩
    · next undrawn =>
      -- The frame before went through as well, and the screen has not changed since.
      obtain ⟨before, there, clean⟩ := exists_before found
      obtain ⟨earlier, below, drawn⟩ := inductionHypothesis there clean
      refine ⟨earlier, Nat.le_succ_of_le below, ?_⟩
      obtain ⟨keys, -, here, -⟩ := eq_of_getElem?_play host instructions found
      have passes : machine.Passes instructions frames (place + 1) :=
        passes_of_fault_eq_none found succeeds
      have same := (Machine.frame_display here passes).2 (not_or.mp undrawn).2
      have screen : before.session.machine.display.picture =
          result.session.machine.display.picture := by
        rw [machine_of_fault_eq_none there clean, machine_of_fault_eq_none found succeeds]
        show (machine.atFrame instructions frames (place + 1)).display.picture =
          (machine.atFrame instructions frames (place + 2)).display.picture
        rw [Machine.display_atFrame_add_one here, same]
        rfl
      rw [List.append_nil, drawn, screen]

end Draws

end Session

/-! ### Sessions of the program -/

namespace Invocation

theorem updated_machine (invocation : Invocation) {image : List UInt8}
    (fits : image.length ≤ 3584) : (invocation.machine image).display.updated = true := by
  rw [machine, Machine.load_of_le _ fits]
  rfl

/-- What the window shows along any session of the program. Only frames draw. When one that
went through is over, the last of all drawings so far is the picture of the screen as it then
is; and the frame has made that drawing itself, once, if it is the first one or if a word that
paints has been carried out in it, and otherwise it has drawn nothing. The picture goes
through the cells row by row, and it tells which of them are lit. -/
theorem window_along_sessions :
    (∀ (invocation : Invocation) (image : List UInt8), invocation.Plays image →
      let results := invocation.results image
      invocation.run.events =
          openingEvents ++ results.flatMap FrameResult.events ++ closingEvents ∧
        (∀ event ∈ openingEvents ++ closingEvents, event.isDraw = false) ∧
        ∀ place result, results[place]? = some result → result.fault = none →
          let soFar := openingEvents ++ (results.take (place + 1)).flatMap FrameResult.events
          let picture := result.session.machine.display.picture
          (∃ frame, (soFar.filter Event.isDraw).getLast? = some (.draw frame ink picture)) ∧
            result.events.filter Event.isDraw =
              if place = 0 ∨ ∃ tick < invocation.options.instructionsPerFrame,
                  (invocation.atTick image place tick).Paints then
                [.draw (place + 1) ink picture]
              else []) ∧
    (∀ display : Display, display.picture =
      (List.range 32).flatMap fun row => (List.range 64).flatMap fun column =>
        if display.cell column row then
          [((column : Int) - 32, 16 - (row : Int)), ((column : Int) - 31, 16 - (row : Int)),
            ((column : Int) - 31, 15 - (row : Int)), ((column : Int) - 32, 15 - (row : Int))]
        else []) ∧
    ∀ first second : Display, first.picture = second.picture →
      ∀ column row, first.cell column row = second.cell column row := by
  refine ⟨?_, Display.picture_eq, fun _ _ => Display.cell_eq_of_picture_eq⟩
  intro invocation image plays results
  have fresh := invocation.updated_machine plays.fits
  refine ⟨(run_of_plays plays).1, by decide, ?_⟩
  intro place result found succeeds soFar picture
  obtain ⟨earlier, -, last⟩ := Session.last_draw fresh found succeeds
  have opening : openingEvents.filter Event.isDraw = [] := by decide
  refine ⟨⟨earlier + 1, ?_⟩, Session.draws_of_frame fresh found succeeds⟩
  rw [List.filter_append, opening, List.nil_append]
  exact last

/-- A frame that only goes round in a circle leaves the drawing of the frame before it, the top
row of a digit, where it is. -/
theorem window_along_sessions_still :
    let image : List UInt8 := [0xD0, 0x01, 0x12, 0x02]
    let invocation : Invocation := {
      arguments := ["INVADERS", "1"]
      files := fun path => if path = "INVADERS" then some (.file image) else none
      assets := "assets"
      host := .willing
      frames := [[], []]
      seed := 7 }
    let picture : List Vertex :=
      [(-32, 16), (-31, 16), (-31, 15), (-32, 15), (-31, 16), (-30, 16), (-30, 15), (-31, 15),
        (-30, 16), (-29, 16), (-29, 15), (-30, 15), (-29, 16), (-28, 16), (-28, 15), (-29, 15)]
    ∃ result, (invocation.Plays image ∧ (invocation.results image)[1]? = some result ∧
        result.fault = none) ∧
      (∃ frame, ((openingEvents ++ ((invocation.results image).take 2).flatMap
        FrameResult.events).filter Event.isDraw).getLast? = some (.draw frame ink picture)) ∧
      result.events.filter Event.isDraw = [] := by
  intro image invocation picture
  have plays : invocation.Plays image :=
    ⟨by decide +kernel, by decide +kernel, rfl, by decide, by simp [invocation]⟩
  obtain ⟨inside, succeeds, shown, unpainted⟩ :
      ∃ inside : 1 < (invocation.results image).length,
        (invocation.results image)[1].fault = none ∧
        (invocation.results image)[1].session.machine.display.picture = picture ∧
        ¬(1 = 0 ∨ ∃ tick < invocation.options.instructionsPerFrame,
          (invocation.atTick image 1 tick).Paints) := by
    decide +kernel
  have found := List.getElem?_eq_getElem inside
  obtain ⟨last, drawn⟩ :=
    (window_along_sessions.1 invocation image plays).2.2 1 _ found succeeds
  rw [shown] at last
  rw [if_neg unpainted] at drawn
  exact ⟨_, ⟨plays, found, succeeds⟩, last, drawn⟩

end Invocation

end Chip8
