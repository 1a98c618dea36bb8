/-
When random bytes come round. What `k` steps add to a state is what the first of them adds, taken
`span k` times, where `span k` is the sum of the first `k` powers of the multiplier. The multiplier
and the increment are odd, so a step adds an odd amount. The multiplier is even one more than a
multiple of four, so twice as many steps have a span with exactly one factor of two more, and a
power of two divides `span k` exactly if it divides `k`. Hence the low `e` bits of a state are the
same at two positions exactly if `2 ^ e` divides the number of steps between them: they take all
their values before they come round, and the bits above them have no say in it.
-/

import Chip8.Proofs.Randomness
import Mathlib.Data.List.Nodup
import Mathlib.Data.List.Perm.Subperm
import Mathlib.Data.Nat.ModEq
import Mathlib.Data.Nat.Prime.Basic
import Mathlib.Tactic.Ring

namespace Chip8

namespace Generator

/-! ### Many steps at once -/

/-- The sum of the first powers of the multiplier. -/
def span : (steps : Nat) → Nat
  | 0 => 0
  | steps + 1 => 6364136223846793005 * span steps + 1

/-- What a step adds to a number. -/
def stride (number : Nat) : Nat := 6364136223846793004 * number + 1442695040888963407

theorem number_add (seed first second : Nat) :
    number seed (first + second) = number (number seed first) second := by
  induction second with
  | zero => rfl
  | succ second inductionHypothesis => exact congrArg successor inductionHypothesis

/-- Many steps from a number add its stride, as often as their span says. -/
theorem number_modEq (seed steps : Nat) :
    number seed steps ≡ seed + stride seed * span steps [MOD 2 ^ 64] := by
  induction steps with
  | zero =>
    rw [span, Nat.mul_zero, Nat.add_zero]
    exact Nat.ModEq.refl _
  | succ steps inductionHypothesis =>
    have step : number seed (steps + 1) ≡
        6364136223846793005 * number seed steps + 1442695040888963407 [MOD 2 ^ 64] :=
      Nat.mod_modEq _ _
    have sum : 6364136223846793005 * (seed + stride seed * span steps) + 1442695040888963407 =
        seed + stride seed * span (steps + 1) := by
      rw [span, stride]
      ring
    rw [← sum]
    exact step.trans ((inductionHypothesis.mul_left _).add_right _)

/-! ### Factors of two -/

theorem odd_stride (number : Nat) : Odd (stride number) := by
  rw [Nat.odd_iff, stride]
  omega

theorem span_mod_two (steps : Nat) : span steps % 2 = steps % 2 := by
  induction steps with
  | zero => rfl
  | succ steps inductionHypothesis =>
    rw [span]
    omega

theorem span_add (first second : Nat) :
    span (first + second) =
      span first * (6364136223846793004 * span second + 1) + span second := by
  induction second with
  | zero => simp [span]
  | succ second inductionHypothesis =>
    rw [← Nat.add_assoc, span, inductionHypothesis, span]
    ring

/-- Twice as many steps have a span with one more factor of two. -/
theorem span_double (steps : Nat) :
    span (2 * steps) = 2 * (span steps * (3182068111923396502 * span steps + 1)) := by
  rw [Nat.two_mul, span_add]
  ring

/-- A power of two divides the span of a number of steps exactly if it divides the number. -/
theorem two_pow_dvd_span_iff (exponent steps : Nat) :
    2 ^ exponent ∣ span steps ↔ 2 ^ exponent ∣ steps := by
  induction exponent generalizing steps with
  | zero => simp
  | succ exponent inductionHypothesis =>
    rcases Nat.even_or_odd' steps with ⟨half, rfl | rfl⟩
    · have odd : Odd (3182068111923396502 * span half + 1) := by
        rw [Nat.odd_iff]
        omega
      have coprime : Nat.Coprime (2 ^ exponent) (3182068111923396502 * span half + 1) :=
        (Nat.coprime_two_left.mpr odd).pow_left exponent
      rw [span_double, Nat.pow_succ', Nat.mul_dvd_mul_iff_left Nat.two_pos,
        Nat.mul_dvd_mul_iff_left Nat.two_pos, coprime.dvd_mul_right, inductionHypothesis]
    · have even : 2 ∣ 2 ^ (exponent + 1) := dvd_pow_self 2 (Nat.succ_ne_zero exponent)
      have parity := span_mod_two (2 * half + 1)
      refine iff_of_false (fun divides => ?_) fun divides => ?_
      · have divided := even.trans divides
        omega
      · have divided := even.trans divides
        omega

/-! ### Low bits -/

/-- The low bits of two numbers of a run are the same exactly if they come round between. -/
theorem number_modEq_number_iff {exponent : Nat} (small : exponent ≤ 64)
    (seed first second : Nat) :
    number seed first ≡ number seed second [MOD 2 ^ exponent] ↔
      first ≡ second [MOD 2 ^ exponent] := by
  have later (first steps : Nat) :
      number seed first ≡ number seed (first + steps) [MOD 2 ^ exponent] ↔
        first ≡ first + steps [MOD 2 ^ exponent] := by
    have sum := (number_modEq (number seed first) steps).of_dvd (Nat.pow_dvd_pow 2 small)
    have coprime : Nat.Coprime (2 ^ exponent) (stride (number seed first)) :=
      (Nat.coprime_two_left.mpr (odd_stride _)).pow_left exponent
    rw [number_add, Nat.left_modEq_add_iff, ← two_pow_dvd_span_iff, ← coprime.dvd_mul_left,
      ← Nat.left_modEq_add_iff (a := number seed first)]
    exact ⟨fun same => same.trans sum, fun same => same.trans sum.symm⟩
  rcases Nat.le_total first second with le | le
  · obtain ⟨steps, rfl⟩ := Nat.exists_eq_add_of_le le
    exact later first steps
  · obtain ⟨steps, rfl⟩ := Nat.exists_eq_add_of_le le
    rw [Nat.ModEq.comm, later second steps, Nat.ModEq.comm]

/-- The low bits of a number never see the bits above them. -/
theorem number_congr {exponent : Nat} (small : exponent ≤ 64) {seed seed' : Nat}
    (same : seed ≡ seed' [MOD 2 ^ exponent]) (steps : Nat) :
    number seed steps ≡ number seed' steps [MOD 2 ^ exponent] := by
  induction steps with
  | zero => exact same
  | succ steps inductionHypothesis =>
    have low (number : Nat) : successor number ≡
        6364136223846793005 * number + 1442695040888963407 [MOD 2 ^ exponent] :=
      (Nat.mod_modEq _ _).of_dvd (Nat.pow_dvd_pow 2 small)
    exact (low _).trans (((inductionHypothesis.mul_left _).add_right _).trans (low _).symm)

/-! ### Bytes -/

/-- The byte that a seed gives at a position, counted from zero. -/
def valueAt (seed : UInt64) (position : Nat) : UInt8 := ((ofSeed seed).take position).2.next.1

theorem take_snd (generator : Generator) (count : Nat) :
    (generator.take count).2.state.toNat = number generator.state.toNat count := by
  induction count generalizing generator with
  | zero => rfl
  | succ count inductionHypothesis =>
    rw [take, next_eq]
    dsimp only
    rw [inductionHypothesis, toNat_following, number_successor]

theorem valueAt_eq (seed : UInt64) (position : Nat) :
    valueAt seed position = byte seed.toNat (position + 1) := by
  rw [valueAt, next_eq, take_snd]
  rfl

theorem byte_eq_byte_iff (first second : Nat) (position position' : Nat) :
    byte first position = byte second position' ↔
      number first position ≡ number second position' [MOD 2 ^ 8] := by
  rw [byte, byte, ← UInt8.toNat_inj, UInt8.toNat_ofNat', UInt8.toNat_ofNat', Nat.mod_mod,
    Nat.mod_mod]
  rfl

/-- As many bytes in a row as there are bytes are all of them. -/
theorem perm_bytes (seed : Nat) :
    ((List.range 256).map fun drawn => byte seed (drawn + 1)).Perm
      ((List.range 256).map UInt8.ofNat) := by
  have different : ((List.range 256).map fun drawn => byte seed (drawn + 1)).Nodup := by
    refine List.Nodup.map_on (fun first below second below' same => ?_) List.nodup_range
    rw [List.mem_range] at below below'
    have apart : (first + 1) % 256 = (second + 1) % 256 :=
      (number_modEq_number_iff (by decide) seed _ _).mp ((byte_eq_byte_iff ..).mp same)
    omega
  have contained : ((List.range 256).map fun drawn => byte seed (drawn + 1)) ⊆
      (List.range 256).map UInt8.ofNat := by
    intro value _
    exact List.mem_map.mpr ⟨value.toNat, List.mem_range.mpr value.toNat_lt, UInt8.ofNat_toNat⟩
  refine (different.subperm contained).perm_of_length_le ?_
  rw [List.length_map, List.length_map]

/-- Random bytes come round every 256 draws. Whatever the seed is and however many bytes were
drawn, the next 256 are all the bytes there are, each once, and after them they come in the same
order again. Of the seed they depend on the low byte alone; so the words `CXKK` that a machine
carries out, over any run, see one of 256 streams, which the low byte of the seed chooses. -/
theorem bytes_come_round :
    (∀ (seed : UInt64) (skipped : Nat),
      (((ofSeed seed).take skipped).2.take 256).1.Perm ((List.range 256).map UInt8.ofNat)) ∧
    (∀ (seed : UInt64) (position : Nat),
      valueAt seed (position + 256) = valueAt seed position) ∧
    (∀ seed seed' : UInt64, seed.toNat % 256 = seed'.toNat % 256 →
      ∀ position, valueAt seed position = valueAt seed' position) ∧
    ∀ (machine : Machine) (seed : UInt64) (inputs : List Input),
      machine.generator = ofSeed seed →
      ∀ word, (machine.feed inputs).upcoming? = some word → word.family.val = 0xC →
        (machine.feed inputs).tick.fault = none →
        ∃ woken, (machine.feed inputs).wake? = some woken ∧
          (machine.feed inputs).tick.machine.registers = woken.registers.set word.x
            (valueAt (UInt64.ofNat (seed.toNat % 256))
              ((machine.atTicks inputs).countP fun earlier => earlier.Rolls) &&& word.kk) := by
  have residue (seed seed' : UInt64) (same : seed.toNat % 256 = seed'.toNat % 256)
      (position : Nat) : valueAt seed position = valueAt seed' position := by
    have low : seed.toNat ≡ seed'.toNat [MOD 2 ^ 8] := same
    rw [valueAt_eq, valueAt_eq, byte_eq_byte_iff]
    exact number_congr (by decide) low _
  refine ⟨fun seed skipped => ?_, fun seed position => ?_, residue, ?_⟩
  · rw [take_fst]
    exact perm_bytes _
  · rw [valueAt_eq, valueAt_eq, byte_eq_byte_iff, number_modEq_number_iff (by decide)]
    show (position + 256 + 1) % 256 = (position + 1) % 256
    omega
  · intro machine seed inputs seeded word upcoming family succeeds
    obtain ⟨woken, wakes, registers, -⟩ := Machine.roll upcoming family succeeds
    refine ⟨woken, wakes, ?_⟩
    have low : (UInt64.ofNat (seed.toNat % 256)).toNat % 256 = seed.toNat % 256 := by
      rw [UInt64.toNat_ofNat']
      omega
    rw [registers, machine.generator_feed inputs, seeded, ← residue _ _ low.symm, valueAt_eq]
    rfl

/-- A machine whose seed has every bit above the low byte set rolls what the low byte alone
would have it roll. -/
theorem bytes_come_round_upper_bits :
    let seed : UInt64 := 0xFFFFFFFFFFFFFF07
    let inputs : List Input := [.load [0xC0, 0xFF, 0xC1, 0x3F], .tick]
    let now := (Machine.create seed).feed inputs
    seed.toNat % 256 = (7 : UInt64).toNat % 256 ∧
      (∀ position, valueAt seed position = valueAt 7 position) ∧
      (Machine.create seed).generator = ofSeed seed ∧
      now.upcoming? = some (.ofBytes 0xC1 0x3F) ∧ now.tick.fault = none ∧
      now.tick.machine.registers.get 1 = valueAt 7 1 &&& 0x3F := by
  intro seed inputs now
  obtain ⟨upcoming, succeeds, counted⟩ : now.upcoming? = some (.ofBytes 0xC1 0x3F) ∧
      now.tick.fault = none ∧
      (((Machine.create seed).atTicks inputs).countP fun earlier => earlier.Rolls) = 1 := by
    decide +kernel
  obtain ⟨woken, -, registers⟩ :=
    bytes_come_round.2.2.2 (Machine.create seed) seed inputs rfl _ upcoming (by decide) succeeds
  have low : UInt64.ofNat (seed.toNat % 256) = 7 := by decide
  refine ⟨by decide, bytes_come_round.2.2.1 seed 7 (by decide), rfl, upcoming, succeeds, ?_⟩
  rw [registers, counted, low]
  exact Registers.get_set_self _ _ _

end Generator

end Chip8
