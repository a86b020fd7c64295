import Mathlib.Algebra.BigOperators.Group.List.Basic
import Mathlib.Algebra.GroupWithZero.Nat
import Mathlib.Tactic.Common

/-!
# Running statistics of 32-bit samples

The last sample, the smallest, the largest and the sum, kept sample by sample in registers of 32 bits. The
sum wraps; the other three are exact (`Summarises.record`).
-/

namespace DualCan.Run

structure Latency where
  last : UInt32
  min : UInt32
  max : UInt32
  total : UInt32
  deriving DecidableEq, Repr

namespace Latency

/-- No sample yet. -/
def empty : Latency := ⟨0, 0xFFFFFFFF, 0, 0⟩

def record (s : Latency) (x : UInt32) : Latency where
  last := x
  total := s.total + x
  min := if x < s.min then x else s.min
  max := if x > s.max then x else s.max

/-- The registers hold the statistics of the samples. -/
structure Summarises (s : Latency) (xs : List UInt32) : Prop where
  last : s.last = xs.getLast?.getD 0
  min_le : ∀ x ∈ xs, s.min ≤ x
  le_max : ∀ x ∈ xs, x ≤ s.max
  min_mem : xs ≠ [] → s.min ∈ xs
  max_mem : xs ≠ [] → s.max ∈ xs
  total : s.total.toNat = (xs.map UInt32.toNat).sum % 2 ^ 32
  fresh : xs = [] → s = empty

theorem summarises_empty : Summarises empty [] := by
  refine ⟨rfl, nofun, nofun, fun h => absurd rfl h, fun h => absurd rfl h, rfl, fun _ => rfl⟩

variable {s : Latency} {xs : List UInt32}

theorem le_top (x : UInt32) : x ≤ 0xFFFFFFFF := by
  have h := x.toNat_lt
  rw [UInt32.le_iff_toNat_le, show (0xFFFFFFFF : UInt32).toNat = 2 ^ 32 - 1 from rfl]
  omega

/-- The smallest sample so far, with one more. -/
theorem Summarises.min_record (h : Summarises s xs) (x : UInt32) :
    (s.record x).min ∈ xs ++ [x] ∧ ∀ y ∈ xs ++ [x], (s.record x).min ≤ y := by
  simp only [record, List.mem_append, List.mem_singleton]
  by_cases hlt : x < s.min
  · rw [if_pos hlt]
    refine ⟨Or.inr rfl, ?_⟩
    rintro y (hy | rfl)
    · exact UInt32.le_trans (UInt32.le_of_lt hlt) (h.min_le y hy)
    · exact UInt32.le_refl _
  · rw [if_neg hlt]
    have hle : s.min ≤ x := UInt32.not_lt.1 hlt
    refine ⟨?_, ?_⟩
    · by_cases hxs : xs = []
      · -- the first sample can only be the start value
        rw [h.fresh hxs] at hle ⊢
        exact Or.inr (UInt32.le_antisymm hle (le_top x))
      · exact Or.inl (h.min_mem hxs)
    · rintro y (hy | rfl)
      · exact h.min_le y hy
      · exact hle

/-- The largest sample so far, with one more. -/
theorem Summarises.max_record (h : Summarises s xs) (x : UInt32) :
    (s.record x).max ∈ xs ++ [x] ∧ ∀ y ∈ xs ++ [x], y ≤ (s.record x).max := by
  simp only [record, List.mem_append, List.mem_singleton]
  by_cases hlt : x > s.max
  · rw [if_pos hlt]
    refine ⟨Or.inr rfl, ?_⟩
    rintro y (hy | rfl)
    · exact UInt32.le_trans (h.le_max y hy) (UInt32.le_of_lt hlt)
    · exact UInt32.le_refl _
  · rw [if_neg hlt]
    have hle : x ≤ s.max := UInt32.not_lt.1 hlt
    refine ⟨?_, ?_⟩
    · by_cases hxs : xs = []
      · rw [h.fresh hxs] at hle ⊢
        have hzero : (0 : UInt32) ≤ x := by
          rw [UInt32.le_iff_toNat_le]
          exact Nat.zero_le _
        exact Or.inr (UInt32.le_antisymm hzero hle)
      · exact Or.inl (h.max_mem hxs)
    · rintro y (hy | rfl)
      · exact h.le_max y hy
      · exact hle

/-- **One more sample.** -/
theorem Summarises.record (h : Summarises s xs) (x : UInt32) : Summarises (s.record x) (xs ++ [x]) := by
  obtain ⟨hmin, hmin_le⟩ := h.min_record x
  obtain ⟨hmax, hle_max⟩ := h.max_record x
  refine ⟨?_, hmin_le, hle_max, fun _ => hmin, fun _ => hmax, ?_, fun hnil => ?_⟩
  · rw [List.getLast?_append]
    rfl
  · rw [List.map_append, List.sum_append, List.map_singleton, List.sum_singleton]
    show (s.total + x).toNat = _
    rw [UInt32.toNat_add, h.total, Nat.mod_add_mod]
  · exact absurd hnil (by simp)

end Latency

end DualCan.Run
