import Mathlib.Algebra.GroupWithZero.Nat
import Mathlib.Data.List.Basic
import Mathlib.Tactic.Common

/-!
# Rings of slots

A ring of `n` slots between one writer and one reader holds the part of a log that was written and not yet
released. Positions of the log grow without bound; the slot of a position is its residue. One slot stays
free, so that equal indices mean an empty ring.
-/

namespace DualCan.Run.Ring

variable {α : Type*} {n : ℕ} [NeZero n]

/-- The slot of a position of the log. -/
def index (n : ℕ) [NeZero n] (k : ℕ) : Fin n := Fin.ofNat n k

theorem index_val (k : ℕ) : (index n k).val = k % n := rfl

theorem index_succ (k : ℕ) : index n (k + 1) = index n k + 1 := by
  apply Fin.ext
  rw [Fin.val_add, index_val, index_val, Nat.add_mod]
  rfl

/-- Positions less than a revolution apart have the same slot only when they are equal. -/
theorem index_inj {i j : ℕ} (h : i ≤ j) (hn : j < i + n) : index n i = index n j ↔ i = j := by
  constructor
  · intro he
    have hmod : i % n = j % n := congrArg Fin.val he
    obtain ⟨d, rfl⟩ := Nat.exists_eq_add_of_le h
    have hd : d % n = 0 := by
      have hdvd := Nat.sub_mod_eq_zero_of_mod_eq hmod.symm
      rwa [Nat.add_sub_cancel_left] at hdvd
    rw [Nat.mod_eq_of_lt (by omega)] at hd
    omega
  · rintro rfl
    rfl

/-- The slots hold the log from position `lo` on. -/
structure Window (slots : Vector α n) (log : List α) (lo : ℕ) : Prop where
  le : lo ≤ log.length
  room : log.length < lo + n
  holds : ∀ i, lo ≤ i → ∀ h : i < log.length, slots.get (index n i) = log[i]

namespace Window

variable {slots : Vector α n} {log : List α} {lo : ℕ}

/-- An untouched ring, whatever its slots hold. -/
theorem empty (slots : Vector α n) : Window slots [] 0 where
  le := Nat.le_refl 0
  room := by
    have := Nat.pos_of_neZero n
    simpa using this
  holds i _ h := absurd h (Nat.not_lt_zero i)

/-- The index after the upper end is the lower end exactly when all slots but one are taken. -/
theorem full_iff (w : Window slots log lo) :
    index n log.length + 1 = index n lo ↔ log.length + 1 = lo + n := by
  have hle := w.le
  have hroom := w.room
  have hpos := Nat.pos_of_neZero n
  have hturn : index n lo = index n (lo + n) := by
    apply Fin.ext
    rw [index_val, index_val, Nat.add_mod_right]
  rw [← index_succ, hturn, index_inj (by omega) (by omega)]

/-- The slot at the lower end. -/
theorem first (w : Window slots log lo) (h : lo < log.length) : slots.get (index n lo) = log[lo] :=
  w.holds lo (Nat.le_refl lo) h

/-- A write at the upper end. -/
theorem push (w : Window slots log lo) (h : log.length + 1 < lo + n) (a : α) :
    Window (slots.set (index n log.length).val a (index n log.length).isLt) (log ++ [a]) lo := by
  have hle := w.le
  refine ⟨?_, ?_, ?_⟩
  · rw [List.length_append]
    omega
  · rw [List.length_append]
    exact h
  · intro i hi hlt
    rw [List.length_append, List.length_singleton] at hlt
    rcases Nat.lt_or_eq_of_le (Nat.le_of_lt_succ hlt) with hold | rfl
    · have hne : (index n log.length).val ≠ (index n i).val := by
        intro he
        have := (index_inj (n := n) (Nat.le_of_lt hold) (by omega)).1 (Fin.ext he.symm)
        omega
      rw [List.getElem_append_left hold, ← w.holds i hi hold]
      exact Vector.getElem_set_ne _ _ hne
    · rw [List.getElem_concat_length]
      · exact Vector.getElem_set_self _
      · rfl

/-- The reader gives the lowest slot back. -/
theorem release (w : Window slots log lo) (h : lo < log.length) : Window slots log (lo + 1) :=
  ⟨h, Nat.lt_trans w.room (by omega), fun i hi => w.holds i (Nat.le_of_succ_le hi)⟩

end Window

end DualCan.Run.Ring
