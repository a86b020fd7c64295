import DualCan.Emu.Security
import Mathlib.Logic.Function.Basic

/-!
# Streams of seeds, and their keys

Both generators from the same start give the same seeds for ever. The key of a seed is reached through steps
that can each be undone.
-/

namespace DualCan.Emu

open DualCan.Uds

/-! ## Streams -/

section Streams

variable {σ τ α β : Type*}

/-- The output after `n` earlier ones of a generator started in a state. -/
def nthOutput (next : σ → α × σ) : ℕ → σ → α
  | 0, state => (next state).1
  | n + 1, state => nthOutput next n (next state).2

/-- Generators whose steps correspond have corresponding outputs. -/
theorem nthOutput_of_step {next : σ → α × σ} {next' : τ → β × τ} {f : σ → τ} {g : α → β}
    (hstep : ∀ state, next' (f state) = (g (next state).1, f (next state).2)) (n : ℕ) (state : σ) :
    nthOutput next' n (f state) = g (nthOutput next n state) := by
  induction n generalizing state with
  | zero => rw [nthOutput, nthOutput, hstep]
  | succ n ih => rw [nthOutput, nthOutput, hstep, ih]

/-- What one step guarantees of its output, whatever the state, holds of every output. -/
theorem nthOutput_of_all {next : σ → α × σ} (P : α → Prop) (hstep : ∀ state, P (next state).1) (n : ℕ)
    (state : σ) : P (nthOutput next n state) := by
  induction n generalizing state with
  | zero => exact hstep state
  | succ n ih => exact ih (next state).2

end Streams

/-! ## Seeds -/

/-- `SeedGenerator.__init__`: the state of a generator. -/
def seedGenerator (initial : ℕ) : ℕ :=
  if initial &&& 0xFFFFFFFF = 0 then defaultSeed else initial &&& 0xFFFFFFFF

theorem seedGenerator_eq (state : UInt32) : seedGenerator state.toNat = generatorState state := by
  have hzero : state.toNat = 0 ↔ state = 0 := by
    rw [← UInt32.toNat_inj]
    rfl
  unfold seedGenerator generatorState
  rw [and_mask, Nat.mod_eq_of_lt state.toNat_lt, if_congr hzero rfl rfl]

/-- The two values that the tester reserves. -/
theorem nextSeed_reserved (state : UInt32) :
    (Uds.nextSeed state).1 ≠ 0 ∧ (Uds.nextSeed state).1 ≠ 0xFFFFFFFF := by
  unfold Uds.nextSeed
  generalize (if state = 0 then Uds.defaultSeed else state) = value
  dsimp only
  split
  · decide
  · rename_i hvalue
    exact not_or.1 hvalue

/-! ## Keys -/

theorem xorShift_xorShift (x : UInt32) : (x ^^^ x >>> 16) ^^^ (x ^^^ x >>> 16) >>> 16 = x := by
  have hgone : x >>> 16 >>> 16 = 0 := by
    rw [← UInt32.toNat_inj, UInt32.toNat_shiftRight, UInt32.toNat_shiftRight]
    have hlt := x.toNat_lt
    simp only [UInt32.reduceToNat, Nat.reduceMod, Nat.shiftRight_eq_div_pow]
    omega
  have hshift : (x ^^^ x >>> 16) >>> 16 = x >>> 16 := by
    rw [UInt32.shiftRight_xor, hgone, UInt32.xor_zero]
  rw [hshift, UInt32.xor_assoc, UInt32.xor_self, UInt32.xor_zero]

/-- The low 19 bits go up, the high 13 bits come below them. -/
theorem rotate_toNat (x : UInt32) :
    (x <<< 13 ||| x >>> 19).toNat = x.toNat % 2 ^ 19 * 2 ^ 13 + x.toNat / 2 ^ 19 := by
  have hlt := x.toNat_lt
  have hhigh : x.toNat / 2 ^ 19 < 2 ^ 13 := by omega
  have hlow : x.toNat * 2 ^ 13 % 2 ^ 32 = x.toNat % 2 ^ 19 * 2 ^ 13 := by omega
  rw [UInt32.toNat_or, UInt32.toNat_shiftLeft, UInt32.toNat_shiftRight]
  simp only [UInt32.reduceToNat, Nat.reduceMod]
  rw [Nat.shiftLeft_eq, Nat.shiftRight_eq_div_pow, hlow, shifted_or _ _ _ hhigh]

theorem rotate_injective : Function.Injective fun x : UInt32 => x <<< 13 ||| x >>> 19 := by
  intro x y h
  have hnat := congrArg UInt32.toNat h
  dsimp only at hnat
  rw [rotate_toNat, rotate_toNat] at hnat
  have hx := x.toNat_lt
  have hy := y.toNat_lt
  apply UInt32.toNat_inj.1
  omega

theorem computeKey_injective (salt : UInt32) : Function.Injective fun seed => computeKey seed salt := by
  intro seed seed' h
  unfold computeKey at h
  have hmixed := congrArg (fun x : UInt32 => x ^^^ x >>> 16) h
  dsimp only at hmixed
  rw [xorShift_xorShift, xorShift_xorShift, UInt32.add_left_inj] at hmixed
  have hsalted := rotate_injective hmixed
  exact (UInt32.xor_left_inj salt).1 hsalted

/-- **Seeds and keys**: from one start both generators give the same seeds, none of them reserved; both
languages compute the same keys; and under one salt no two seeds share a key. -/
theorem seeds_keys_agree :
    (∀ (state : UInt32) (n : ℕ),
      nthOutput nextSeed n (seedGenerator state.toNat) = (nthOutput Uds.nextSeed n state).toNat ∧
        nthOutput Uds.nextSeed n state ≠ 0 ∧ nthOutput Uds.nextSeed n state ≠ 0xFFFFFFFF) ∧
      (∀ seed salt : UInt32, seedToKey seed.toNat salt.toNat = (computeKey seed salt).toNat) ∧
      ∀ salt : UInt32, Function.Injective fun seed => computeKey seed salt := by
  refine ⟨fun state n => ⟨?_, ?_⟩, seedToKey_eq, computeKey_injective⟩
  · rw [seedGenerator_eq]
    exact nthOutput_of_step nextSeed_eq n state
  · exact nthOutput_of_all (fun seed => seed ≠ 0 ∧ seed ≠ 0xFFFFFFFF) nextSeed_reserved n state

end DualCan.Emu
