import Mathlib.Algebra.GroupWithZero.Nat
import Mathlib.Tactic.Common

/-!
# A 32-bit millisecond clock

A tick counter of 32 bits wraps. A deadline counts as reached while the unsigned difference from it is
below half the range, which is exact as long as no more than half the range passes unobserved.
-/

namespace DualCan.Clock

/-- The deadline test `(uint32_t)(now - deadline) < 0x80000000`. -/
def reached (now deadline : UInt32) : Bool := now - deadline < 0x80000000

/-- The test `(int32_t)(left - right) < 0`. -/
def before (left right : UInt32) : Bool := (left - right).toInt32 < 0

theorem before_eq (left right : UInt32) : before left right = !reached left right := by
  unfold before reached
  generalize left - right = difference
  rw [← decide_not, decide_eq_decide, UInt32.not_lt, UInt32.le_iff_toNat_le, Int32.lt_iff_toInt_lt]
  have hlt := difference.toNat_lt
  rw [Int32.toInt, UInt32.toBitVec_toInt32, BitVec.toInt_eq_toNat_cond]
  show (if 2 * difference.toNat < 2 ^ 32 then (difference.toNat : ℤ) else difference.toNat - 2 ^ 32) < 0 ↔
    2147483648 ≤ difference.toNat
  split <;> omega

/-- The counter's reading at the real time `t`. -/
def tick (t : ℕ) : UInt32 := UInt32.ofNat t

theorem toUInt32_toNat_lt (n : UInt16) : n.toUInt32.toNat < 65536 := by
  have h := n.toNat_lt
  simpa using h

theorem toUInt32_ne_zero {n : UInt16} (h : n ≠ 0) : n.toUInt32.toNat ≠ 0 := by
  intro h0
  apply h
  have h1 : n.toNat = 0 := by simpa using h0
  exact UInt16.toNat_inj.1 (by simpa using h1)

/-- A deadline a positive 16-bit budget ahead is not reached when it is set. -/
theorem not_reached_add {now : UInt32} {n : UInt16} (h : n ≠ 0) :
    reached now (now + n.toUInt32) = false := by
  have hlt := toUInt32_toNat_lt n
  have hne := toUInt32_ne_zero h
  generalize n.toUInt32 = d at hlt hne
  have hnow := now.toNat_lt
  simp only [reached, decide_eq_false_iff_not, UInt32.lt_iff_toNat_lt, UInt32.toNat_sub,
    UInt32.toNat_add, UInt32.reduceToNat]
  omega

theorem tick_add (t d : ℕ) : tick (t + d) = tick t + UInt32.ofNat d := by
  simp [tick]

theorem succ_ne (x : UInt32) : x + 1 ≠ x := by simp

theorem ofNat_succ (n : ℕ) : UInt32.ofNat (n + 1) = UInt32.ofNat n + 1 := UInt32.ofNat_add n 1

/-- Readings of the clock differ as the times do. -/
theorem tick_sub_tick {t now : ℕ} (h : t ≤ now) : tick now - tick t = UInt32.ofNat (now - t) := by
  obtain ⟨k, rfl⟩ := Nat.exists_eq_add_of_le h
  rw [tick_add, Nat.add_sub_cancel_left, UInt32.add_comm, UInt32.add_sub_cancel]

/-- The deadline set at the real time `r`, as it reads at the real time `t`, less than half the range later. -/
theorem reached_tick {r t : ℕ} (n : UInt16) (hr : r ≤ t) (ht : t < r + 2 ^ 31) :
    reached (tick t) (tick r + n.toUInt32) = decide (r + n.toNat ≤ t) := by
  have hn := n.toNat_lt
  have hwide : n.toUInt32.toNat = n.toNat := UInt16.toNat_toUInt32 n
  simp only [reached, tick, UInt32.lt_iff_toNat_lt, UInt32.toNat_sub, UInt32.toNat_add, hwide,
    UInt32.toNat_ofNat', UInt32.reduceToNat]
  congr 1
  apply propext
  omega

/-- A deadline that reads as reached is over in real time, however much of it has passed. -/
theorem over_of_reached {r t : ℕ} {n : UInt16} (hr : r ≤ t)
    (h : reached (tick t) (tick r + n.toUInt32) = true) : r + n.toNat ≤ t := by
  have hn := n.toNat_lt
  by_cases ht : t < r + 2 ^ 31
  · rw [reached_tick n hr ht, decide_eq_true_eq] at h
    exact h
  · omega

/-- A deadline that does not read as reached was set less than 2^16 ms ago. -/
theorem lt_of_not_reached {r t : ℕ} {n : UInt16} (hr : r ≤ t) (ht : t < r + 2 ^ 31)
    (h : reached (tick t) (tick r + n.toUInt32) = false) : t < r + 2 ^ 16 := by
  have hn := n.toNat_lt
  rw [reached_tick n hr ht, decide_eq_false_iff_not] at h
  omega

/-- A deadline that is over reads as reached, for half the range. -/
theorem reached_of_over {r t : ℕ} {n : UInt16} (hover : r + n.toNat ≤ t) (ht : t < r + 2 ^ 31) :
    reached (tick t) (tick r + n.toUInt32) = true := by
  rw [reached_tick n (by omega) ht, decide_eq_true_eq]
  exact hover

/-- A separation that reads as over is over in real time, however much of it has passed. -/
theorem over_of_apart {a t : ℕ} {sep : UInt8} (ha : a ≤ t)
    (h : ¬(tick t - tick a < sep.toUInt32)) : a + sep.toNat ≤ t := by
  have hs : sep.toUInt32.toNat = sep.toNat := UInt8.toNat_toUInt32 sep
  have hlt := sep.toNat_lt
  simp only [tick, UInt32.lt_iff_toNat_lt, UInt32.toNat_sub, UInt32.toNat_ofNat', hs] at h
  omega

/-- Less than one turn of the counter apart, two real times and their readings differ by the same. -/
theorem tick_sub {a t : ℕ} (ha : a ≤ t) (ht : t < a + 2 ^ 32) :
    (tick t - tick a).toNat = t - a := by
  simp only [tick, UInt32.toNat_sub, UInt32.toNat_ofNat']
  omega

/-- A deadline in the past reads as reached for half of every turn of the counter. -/
theorem reached_tick_of_le {e t : ℕ} (h : e ≤ t) :
    reached (tick t) (tick e) = decide ((t - e) % 2 ^ 32 < 2 ^ 31) := by
  simp only [reached, tick, UInt32.lt_iff_toNat_lt, UInt32.toNat_sub, UInt32.toNat_ofNat', UInt32.reduceToNat]
  congr 1
  apply propext
  omega

/-- A deadline at most half the range ahead does not read as reached. -/
theorem not_reached_tick_of_lt {e t : ℕ} (h : t < e) (hnear : e ≤ t + 2 ^ 31) :
    reached (tick t) (tick e) = false := by
  simp only [reached, tick, UInt32.lt_iff_toNat_lt, UInt32.toNat_sub, UInt32.toNat_ofNat', UInt32.reduceToNat,
    decide_eq_false_iff_not]
  omega

/-- A time that does not read as before one at most half the range ahead is not before it. -/
theorem le_of_not_before {e t : ℕ} (hnear : e ≤ t + 2 ^ 31) (h : before (tick t) (tick e) = false) : e ≤ t := by
  by_contra hlt
  rw [before_eq, not_reached_tick_of_lt (by omega) hnear] at h
  cases h

/-- A separation of at most 255 ms that a wrapped reading still finds open is over `d` later, for any `d`
from 256 ms up to half the range. -/
theorem separation_over {now last : UInt32} {sep : UInt8} {d : ℕ} (h : now - last < sep.toUInt32)
    (h1 : 256 ≤ d) (h2 : d < 2 ^ 31) : ¬(now + UInt32.ofNat d - last < sep.toUInt32) := by
  have hs : sep.toUInt32.toNat < 256 := by
    have h := sep.toNat_lt
    simpa using h
  have hd : (UInt32.ofNat d).toNat = d := by
    rw [UInt32.toNat_ofNat']
    exact Nat.mod_eq_of_lt (by omega)
  generalize sep.toUInt32 = w at h hs ⊢
  generalize UInt32.ofNat d = dd at hd ⊢
  have hnow := now.toNat_lt
  have hlast := last.toNat_lt
  simp only [UInt32.lt_iff_toNat_lt, UInt32.toNat_sub, UInt32.toNat_add] at h ⊢
  omega

end DualCan.Clock
