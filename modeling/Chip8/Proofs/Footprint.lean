/-
The places that a tick reads or writes: registers, slots of the stack, bytes of memory
and cells of the display, each by the number that the tick computes for it. The numbers
come out of registers, of words and of one stored byte, and nothing checks them on the
way; they are in range all the same.
-/

import Chip8.Proofs.Coherence

namespace Chip8

/-- A place in one of the stores of a machine. -/
inductive Place where
  | register (number : Nat)
  | slot (number : Nat)
  | byte (number : Nat)
  | cell (column row : Nat)
  deriving DecidableEq, Repr

namespace Place

/-- Whether there is such a place. -/
def Exists : Place → Prop
  | register number => number < 16
  | slot number => number < stackCapacity
  | byte number => number < 4096
  | cell column row => column < displayWidth ∧ row < displayHeight

/-- The bytes of a range. -/
def bytes (start count : Nat) : List Place :=
  (List.range count).map fun offset => byte (start + offset)

/-- The registers from zero up to a number. -/
def upTo (last : Register) : List Place :=
  (List.range (last.val + 1)).map register

/-- The cells of a sprite of so many rows. -/
def sprite (column row height : Nat) : List Place :=
  (List.range height).flatMap fun line =>
    (List.range 8).map fun bit =>
      cell ((column + bit) % displayWidth) ((row + line) % displayHeight)

/-- All cells. -/
def screen : List Place := Display.places.map fun place => cell place.1 place.2

end Place

/-! ### What is touched -/

/-- The registers that a condition looks at. -/
def Condition.registers : Condition → List Register
  | equalByte x _ | unequalByte x _ | held x | released x => [x]
  | equal x y | unequal x y => [x, y]

/-- The places that an instruction reads or writes. An access that is refused touches
nothing, and of a sprite that reaches past the end of memory the rows in memory count. -/
def Instruction.footprint (machine : Machine) : Instruction → List Place
  | clear => Place.screen
  | ret => if machine.stack.depth = 0 then [] else [.slot (machine.stack.depth - 1)]
  | call _ => if machine.stack.depth = stackCapacity then [] else [.slot machine.stack.depth]
  | jump _ | setIndex _ | awaitKey _ | unknown _ => []
  | jumpForward _ => [.register jumpRegister.val]
  | skipIf condition => condition.registers.map fun x => .register x.val
  | setByte x _ | addByte x _ | random x _ | readDelay x | setDelay x | setSound x | addIndex x
  | pointGlyph x => [.register x.val]
  | combine _ x y => [.register x.val, .register y.val, .register flagRegister.val]
  | shiftRight x | shiftLeft x => [.register x.val, .register flagRegister.val]
  | draw x y height =>
    let cleared := machine.registers.set flagRegister 0
    let rows := min height.val (4096 - machine.index.val)
    [.register x.val, .register y.val, .register flagRegister.val] ++
      Place.bytes machine.index.val rows ++
      Place.sprite (cleared.get x).toNat ((cleared.get y).toNat % displayHeight) rows
  | storeDecimal x =>
    .register x.val ::
      if Memory.fits machine.index 3 then Place.bytes machine.index.val 3 else []
  | storeRegisters last | loadRegisters last =>
    if Memory.fits machine.index (UInt64.ofNat (last.val + 1)) then
      Place.upTo last ++ Place.bytes machine.index.val (last.val + 1)
    else []

/-- The places that the next tick reads or writes. -/
def Machine.footprint (machine : Machine) : List Place :=
  match machine.wake? with
  | none => []
  | some woken =>
    (if machine.mode = .waitingKey then [.register machine.awaited.toNat] else []) ++
      match woken.fetch with
      | .error _ => []
      | .ok word =>
        Place.bytes woken.pc.val 2 ++
          match woken.pc.advance 2 with
          | .error _ => []
          | .ok next => (Instruction.ofWord word).footprint (woken.poised word next)

/-! ### In range -/

namespace Place

theorem exists_bytes {start count : Nat} (inside : start + count ≤ 4096) :
    ∀ place ∈ bytes start count, place.Exists := by
  intro place member
  obtain ⟨offset, below, rfl⟩ := List.mem_map.mp member
  have := List.mem_range.mp below
  simp only [Exists]
  omega

theorem exists_upTo (last : Register) : ∀ place ∈ upTo last, place.Exists := by
  intro place member
  obtain ⟨number, below, rfl⟩ := List.mem_map.mp member
  have := List.mem_range.mp below
  simp only [Exists]
  omega

theorem not_mem_upTo_iff (last : Register) (number : Nat) :
    register number ∉ upTo last ↔ last.val < number := by
  simp only [upTo, List.mem_map, List.mem_range, register.injEq, exists_eq_right]
  omega

theorem not_mem_bytes_iff (start count number : Nat) :
    byte number ∉ bytes start count ↔ number < start ∨ start + count ≤ number := by
  simp only [bytes, List.mem_map, List.mem_range, byte.injEq]
  constructor
  · intro none
    refine Decidable.byContradiction fun inside => none ⟨number - start, ?_, ?_⟩ <;> omega
  · rintro outside ⟨offset, below, rfl⟩
    omega

theorem exists_sprite (column row height : Nat) :
    ∀ place ∈ sprite column row height, place.Exists := by
  intro place member
  obtain ⟨line, -, cells⟩ := List.mem_flatMap.mp member
  obtain ⟨bit, -, rfl⟩ := List.mem_map.mp cells
  exact ⟨Nat.mod_lt _ (by decide), Nat.mod_lt _ (by decide)⟩

theorem mem_screen_iff (column row : Nat) :
    cell column row ∈ screen ↔ column < displayWidth ∧ row < displayHeight := by
  rw [screen, List.mem_map, ← Display.mem_places_iff]
  constructor
  · rintro ⟨place, member, same⟩
    cases same
    exact member
  · exact fun member => ⟨(column, row), member, rfl⟩

theorem exists_screen : ∀ place ∈ screen, place.Exists := by
  intro place member
  obtain ⟨⟨column, row⟩, -, rfl⟩ := List.mem_map.mp member
  exact (mem_screen_iff column row).mp member

end Place

/-- An instruction touches no place that is not there. -/
theorem Instruction.exists_footprint (machine : Machine) (instruction : Instruction) :
    ∀ place ∈ instruction.footprint machine, place.Exists := by
  have registers (x : Register) : (Place.register x.val).Exists := x.isLt
  have deep := machine.stack.depth_le
  cases instruction with
  | clear => exact Place.exists_screen
  | ret =>
    simp only [footprint]
    split
    · exact List.forall_mem_nil _
    · simp only [List.mem_singleton, forall_eq, Place.Exists]
      omega
  | call target =>
    simp only [footprint]
    split
    · exact List.forall_mem_nil _
    · simp only [List.mem_singleton, forall_eq, Place.Exists]
      omega
  | draw x y height =>
    simp only [footprint, List.forall_mem_append]
    refine ⟨⟨by simp [registers], Place.exists_bytes ?_⟩, Place.exists_sprite _ _ _⟩
    have := machine.index.isLt
    omega
  | storeDecimal x =>
    simp only [footprint, List.forall_mem_cons]
    refine ⟨registers x, ?_⟩
    split
    · next fits => exact Place.exists_bytes ((Memory.fits_iff _ _).mp fits)
    · exact List.forall_mem_nil _
  | storeRegisters last | loadRegisters last =>
    simp only [footprint]
    split
    · next fits =>
      have inside := (Memory.fits_iff _ _).mp fits
      rw [toNat_blockSize] at inside
      exact List.forall_mem_append.mpr ⟨Place.exists_upTo last, Place.exists_bytes inside⟩
    · exact List.forall_mem_nil _
  | skipIf condition => cases condition <;> simp [footprint, Condition.registers, registers]
  | _ => simp [footprint, registers]

theorem Machine.fetch_inside {machine : Machine} {word : Word}
    (reads : machine.fetch = .ok word) : machine.pc.val + 2 ≤ 4096 := by
  rcases machine.fetch_cases with ⟨-, unread⟩ | ⟨inside, -⟩
  · cases reads.symm.trans unread
  · exact inside

/-- A machine that keeps to the invariant touches no place that is not there. The one
number that its type does not keep in range is that of the register waited for. -/
theorem Machine.exists_footprint {limit : Nat} {machine : Machine}
    (coherent : machine.Coherent limit) : ∀ place ∈ machine.footprint, place.Exists := by
  unfold footprint
  split
  · exact List.forall_mem_nil _
  next woken wakes =>
    refine List.forall_mem_append.mpr ⟨?_, ?_⟩
    · split
      · simpa [Place.Exists] using coherent.awaited_lt
      · exact List.forall_mem_nil _
    split
    · exact List.forall_mem_nil _
    next word reads =>
      refine List.forall_mem_append.mpr ⟨Place.exists_bytes (fetch_inside reads), ?_⟩
      split
      · exact List.forall_mem_nil _
      · exact Instruction.exists_footprint _ _

end Chip8
