import DualCan.Bits.Bytes
import Mathlib.Logic.Function.Iterate

/-!
# Shift registers with feedback

The register of a bitwise cyclic redundancy check, shifted towards its least significant bit. A shift is
linear in exclusive or and, where the feedback word has its top bit set, loses nothing. Taking in up to `w`
bits one by one is taking them in at once and then shifting (`run_word`), so the register tells apart any two
inputs of one length that differ in a window of `w` bits only (`run_ne_of_burst`).
-/

namespace DualCan.Bits.Register

variable {w : ℕ} (poly : BitVec w)

/-- One shift: the bit shifted out feeds back `poly`. -/
def shift (r : BitVec w) : BitVec w := if r.getLsbD 0 then (r >>> 1) ^^^ poly else r >>> 1

/-- One input bit. -/
def feed (r : BitVec w) (b : Bool) : BitVec w := shift poly (r ^^^ BitVec.setWidth w (BitVec.ofBool b))

/-- The register after a list of input bits. -/
def run (r : BitVec w) (bits : List Bool) : BitVec w := bits.foldl (feed poly) r

/-- The word of a list of bits, the first one least significant. -/
def word (w : ℕ) : List Bool → BitVec w
  | [] => 0#w
  | b :: bits => BitVec.setWidth w (BitVec.ofBool b) ^^^ (word w bits <<< 1)

variable {poly}

/-! ## Shifts -/

theorem shift_xor (a b : BitVec w) : shift poly (a ^^^ b) = shift poly a ^^^ shift poly b := by
  unfold shift
  rw [BitVec.getLsbD_xor, BitVec.ushiftRight_xor_distrib]
  cases a.getLsbD 0 with
  | false =>
    cases b.getLsbD 0 with
    | false => rfl
    | true => exact BitVec.xor_assoc ..
  | true =>
    cases b.getLsbD 0 with
    | false =>
      show (a >>> 1 ^^^ b >>> 1) ^^^ poly = (a >>> 1 ^^^ poly) ^^^ b >>> 1
      rw [BitVec.xor_assoc, BitVec.xor_comm (b >>> 1), ← BitVec.xor_assoc]
    | true =>
      show a >>> 1 ^^^ b >>> 1 = (a >>> 1 ^^^ poly) ^^^ (b >>> 1 ^^^ poly)
      rw [BitVec.xor_comm (b >>> 1) poly, BitVec.xor_assoc, ← BitVec.xor_assoc poly, BitVec.xor_self,
        BitVec.zero_xor]

theorem shift_zero : shift poly 0#w = 0#w := by
  simp [shift]

theorem iterate_shift_zero (n : ℕ) : (shift poly)^[n] 0#w = 0#w := Function.iterate_fixed shift_zero n

/-- With the top bit fed back, no other register is shifted to 0. -/
theorem eq_zero_of_shift (hpoly : poly.getLsbD (w - 1) = true) {r : BitVec w} (h : shift poly r = 0#w) :
    r = 0#w := by
  have htop : (r >>> 1).getLsbD (w - 1) = false := by
    rw [BitVec.getLsbD_ushiftRight]
    exact BitVec.getLsbD_of_ge _ _ (by omega)
  have hlow : r.getLsbD 0 = false := by
    cases hbit : r.getLsbD 0 with
    | false => rfl
    | true =>
      rw [shift, if_pos hbit] at h
      have hzero := congrArg (fun x : BitVec w => x.getLsbD (w - 1)) h
      simp only [BitVec.getLsbD_xor, htop, hpoly, BitVec.getLsbD_zero] at hzero
      cases hzero
  rw [shift, hlow, if_neg Bool.false_ne_true] at h
  apply BitVec.eq_of_getLsbD_eq
  intro i _
  cases i with
  | zero => rw [hlow, BitVec.getLsbD_zero]
  | succ i =>
    have hbit := congrArg (fun x : BitVec w => x.getLsbD i) h
    simp only [BitVec.getLsbD_ushiftRight, BitVec.getLsbD_zero] at hbit
    rw [Nat.add_comm, hbit, BitVec.getLsbD_zero]

theorem eq_zero_of_iterate (hpoly : poly.getLsbD (w - 1) = true) {n : ℕ} {r : BitVec w}
    (h : (shift poly)^[n] r = 0#w) : r = 0#w := by
  induction n with
  | zero => exact h
  | succ n ih =>
    rw [Function.iterate_succ_apply'] at h
    exact ih (eq_zero_of_shift hpoly h)

/-! ## Inputs -/

@[simp] theorem run_nil (r : BitVec w) : run poly r [] = r := rfl

theorem run_cons (r : BitVec w) (b : Bool) (bits : List Bool) :
    run poly r (b :: bits) = run poly (feed poly r b) bits := rfl

theorem run_append (r : BitVec w) (bits bits' : List Bool) :
    run poly r (bits ++ bits') = run poly (run poly r bits) bits' := by
  simp [run, List.foldl_append]

theorem feed_xor (r s : BitVec w) (b c : Bool) :
    feed poly (r ^^^ s) (b ^^ c) = feed poly r b ^^^ feed poly s c := by
  have hbits : BitVec.setWidth w (BitVec.ofBool (b ^^ c)) =
      BitVec.setWidth w (BitVec.ofBool b) ^^^ BitVec.setWidth w (BitVec.ofBool c) := by
    rw [← BitVec.setWidth_xor]
    congr 1
    cases b <;> cases c <;> rfl
  unfold feed
  rw [← shift_xor, hbits]
  congr 1
  ac_rfl

/-- The difference of two registers depends on the difference of their inputs only. -/
theorem run_xor (r s : BitVec w) {bits bits' : List Bool} (hlength : bits.length = bits'.length) :
    run poly (r ^^^ s) (List.zipWith Bool.xor bits bits') = run poly r bits ^^^ run poly s bits' := by
  induction bits generalizing bits' r s with
  | nil =>
    rw [List.length_eq_zero_iff.1 hlength.symm]
    rfl
  | cons b bits ih =>
    cases bits' with
    | nil => cases hlength
    | cons c bits' =>
      rw [List.zipWith_cons_cons, run_cons, run_cons, run_cons, feed_xor]
      exact ih _ _ (Nat.succ.inj hlength)

/-- Inputs without a set bit only shift the register. -/
theorem run_quiet {bits : List Bool} (h : ∀ i, bits.getD i false = false) (r : BitVec w) :
    run poly r bits = (shift poly)^[bits.length] r := by
  induction bits generalizing r with
  | nil => rfl
  | cons b bits ih =>
    have hb : b = false := h 0
    have hfeed : feed poly r false = shift poly r := by
      simp [feed]
    rw [hb, run_cons, hfeed, ih fun i => h (i + 1)]
    rfl

theorem getD_take (bits : List Bool) (n i : ℕ) :
    (bits.take n).getD i false = if i < n then bits.getD i false else false := by
  rw [List.getD_eq_getElem?_getD, List.getElem?_take]
  split
  · rw [List.getD_eq_getElem?_getD]
  · rfl

theorem getD_drop (bits : List Bool) (n i : ℕ) : (bits.drop n).getD i false = bits.getD (n + i) false := by
  rw [List.getD_eq_getElem?_getD, List.getElem?_drop, List.getD_eq_getElem?_getD]

/-! ## Words -/

theorem getLsbD_word {bits : List Bool} {i : ℕ} (hi : i < w) : (word w bits).getLsbD i = bits.getD i false := by
  induction bits generalizing i with
  | nil => simp [word]
  | cons b bits ih =>
    rw [word, BitVec.getLsbD_xor, BitVec.getLsbD_setWidth, BitVec.getLsbD_shiftLeft, BitVec.getLsbD_ofBool]
    cases i with
    | zero => simp [hi]
    | succ i => simp [hi, ih (Nat.lt_of_succ_lt hi)]

/-- **Taking in a word**: up to `w` bits, one at a time or all at once. -/
theorem run_word {bits : List Bool} (h : bits.length ≤ w) (r : BitVec w) :
    run poly r bits = (shift poly)^[bits.length] (r ^^^ word w bits) := by
  induction bits generalizing r with
  | nil => simp [word]
  | cons b bits ih =>
    rw [List.length_cons] at h
    have hback : word w bits <<< 1 >>> 1 = word w bits := by
      apply BitVec.eq_of_getLsbD_eq
      intro i hi
      rw [BitVec.getLsbD_ushiftRight, BitVec.getLsbD_shiftLeft]
      by_cases hlt : 1 + i < w
      · have hpos : ¬1 + i < 1 := by omega
        simp [hlt]
      · have hpast : bits.length ≤ i := by omega
        rw [getLsbD_word hi, List.getD_eq_default _ _ hpast]
        simp [hlt]
    have hshift : shift poly (word w bits <<< 1) = word w bits := by
      have hlow : (word w bits <<< 1).getLsbD 0 = false := by simp
      rw [shift, hlow, if_neg Bool.false_ne_true, hback]
    rw [run_cons, ih (Nat.le_of_succ_le h), List.length_cons, Function.iterate_succ_apply, word,
      ← BitVec.xor_assoc, shift_xor, hshift]
    rfl

/-- **Bursts**: inputs of one length that differ, and only in a window of `w` bits, leave different
registers. -/
theorem run_ne_of_burst (hpoly : poly.getLsbD (w - 1) = true) {bits bits' : List Bool}
    (hlength : bits.length = bits'.length) (hne : bits ≠ bits') {start : ℕ}
    (hburst : ∀ i, bits.getD i false ≠ bits'.getD i false → start ≤ i ∧ i < start + w) (r : BitVec w) :
    run poly r bits ≠ run poly r bits' := by
  intro hsame
  have hdiff : run poly (r ^^^ r) (List.zipWith Bool.xor bits bits') = run poly r bits ^^^ run poly r bits' :=
    run_xor r r hlength
  rw [hsame, BitVec.xor_self, BitVec.xor_self] at hdiff
  generalize hd : List.zipWith Bool.xor bits bits' = d at hdiff
  have hget : ∀ i, d.getD i false = (bits.getD i false ^^ bits'.getD i false) := by
    intro i
    rw [← hd, List.getD_eq_getElem?_getD, List.getD_eq_getElem?_getD, List.getD_eq_getElem?_getD,
      List.getElem?_zipWith]
    by_cases hi : i < bits.length
    · rw [List.getElem?_eq_getElem hi, List.getElem?_eq_getElem (hlength ▸ hi)]
      rfl
    · rw [List.getElem?_eq_none (Nat.not_lt.1 hi), List.getElem?_eq_none (hlength ▸ Nat.not_lt.1 hi)]
      rfl
  have hquiet : ∀ i, i < start ∨ start + w ≤ i → d.getD i false = false := by
    intro i hi
    rw [hget]
    by_contra hbit
    have hwindow := hburst i (by simpa using hbit)
    omega
  -- the difference is some zeros, a word, and zeros
  have hfirst : ∀ i, (d.take start).getD i false = false := by
    intro i
    rw [getD_take]
    split
    · rename_i hi
      exact hquiet i (Or.inl hi)
    · rfl
  have hlast : ∀ i, ((d.drop start).drop w).getD i false = false := by
    intro i
    rw [getD_drop, getD_drop]
    exact hquiet _ (Or.inr (by omega))
  have hlong : ((d.drop start).take w).length ≤ w := List.length_take_le ..
  rw [← List.take_append_drop start d, ← List.take_append_drop w (d.drop start), run_append, run_append,
    run_quiet hfirst, iterate_shift_zero, run_word hlong, run_quiet hlast] at hdiff
  have hword := eq_zero_of_iterate hpoly (eq_zero_of_iterate hpoly hdiff)
  rw [BitVec.zero_xor] at hword
  apply hne
  apply List.ext_getElem hlength
  intro i hi hi'
  have hbit : d.getD i false = false := by
    by_cases hout : i < start ∨ start + w ≤ i
    · exact hquiet i hout
    · obtain ⟨j, rfl⟩ := Nat.exists_eq_add_of_le (Nat.not_lt.1 fun h => hout (Or.inl h))
      have hj : j < w := by omega
      have hzero := congrArg (fun x : BitVec w => x.getLsbD j) hword
      simp only [getLsbD_word hj, BitVec.getLsbD_zero] at hzero
      rwa [getD_take, if_pos hj, getD_drop] at hzero
  rw [hget, List.getD_eq_getElem _ _ hi, List.getD_eq_getElem _ _ hi'] at hbit
  simpa using hbit

end DualCan.Bits.Register
