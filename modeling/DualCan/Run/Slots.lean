import DualCan.Run.Clock

/-!
# Numbered periods on a 32-bit clock

A generator that acts once a period keeps the time of its next period and that period's number. A call that
comes late skips the periods that have passed, in the time and in the number alike, so the number always
tells the period (`OnSchedule`): what is done under the number `n` is done in the `n`-th period after the
start (`OnSchedule.catchUp`), and at most once (`Used.use`).
-/

namespace DualCan.Run

open DualCan.Clock

/-- The time of the next period and its number. -/
structure Slots where
  next : UInt32
  number : UInt32
  deriving DecidableEq, Repr

namespace Slots

/-- The periods that have passed. -/
def skipped (period now : UInt32) (s : Slots) : UInt32 :=
  if now - s.next ≥ period then (now - s.next) / period else 0

def catchUp (period now : UInt32) (s : Slots) : Slots where
  next := s.next + s.skipped period now * period
  number := s.number + s.skipped period now

/-- The period is used. -/
def use (period : UInt32) (s : Slots) : Slots := ⟨s.next + period, s.number + 1⟩

/-- The generator stands before the `n`-th period after the start. -/
structure OnSchedule (start : ℕ) (period : UInt32) (n : ℕ) (s : Slots) : Prop where
  next : s.next = tick (start + n * period.toNat)
  number : s.number = UInt32.ofNat n

variable {start t n : ℕ} {period now : UInt32} {s : Slots}

theorem skipped_eq (period now : UInt32) (s : Slots) : s.skipped period now = (now - s.next) / period := by
  unfold skipped
  split
  · rfl
  · next hlt =>
    rw [ge_iff_le, UInt32.le_iff_toNat_le, Nat.not_le] at hlt
    apply UInt32.toNat_inj.1
    rw [UInt32.toNat_div, Nat.div_eq_of_lt hlt]
    rfl

theorem tick_add_mul (a k : ℕ) (period : UInt32) :
    tick a + UInt32.ofNat k * period = tick (a + k * period.toNat) := by
  rw [tick_add, UInt32.ofNat_mul, UInt32.ofNat_toNat]

theorem OnSchedule.use (h : OnSchedule start period n s) : OnSchedule start period (n + 1) (s.use period) := by
  refine ⟨?_, ?_⟩
  · have hnext := tick_add_mul (start + n * period.toNat) 1 period
    rw [Slots.use, h.next, Nat.succ_mul, ← Nat.add_assoc]
    simpa using hnext
  · rw [Slots.use, h.number]
    exact (UInt32.ofNat_add n 1).symm

/-- Within half a turn of the clock, the period reads as still ahead when it is. -/
theorem OnSchedule.before_next (h : OnSchedule start period n s) (hahead : start + n * period.toNat ≤ t + 2 ^ 31)
    (hlate : t < start + n * period.toNat + 2 ^ 31) :
    before (tick t) s.next = decide (t < start + n * period.toNat) := by
  rw [before_eq, h.next]
  by_cases hdue : start + n * period.toNat ≤ t
  · rw [reached_tick_of_le hdue, decide_eq_true (by omega), decide_eq_false (by omega), Bool.not_true]
  · rw [not_reached_tick_of_lt (by omega) hahead, decide_eq_true (by omega), Bool.not_false]

/-- **Catching up**: less than one turn of the clock late, the generator stands in its period again. -/
theorem OnSchedule.catchUp (h : OnSchedule start period n s) (hperiod : 0 < period.toNat)
    (hdue : start + n * period.toNat ≤ t) (hnear : t < start + n * period.toNat + 2 ^ 32) :
    ∃ k, s.skipped period (tick t) = UInt32.ofNat k ∧
      OnSchedule start period (n + k) (s.catchUp period (tick t)) ∧
      start + (n + k) * period.toNat ≤ t ∧ t < start + (n + k + 1) * period.toNat := by
  have hlate : (tick t - s.next).toNat = t - (start + n * period.toNat) := by
    rw [h.next]
    exact tick_sub hdue hnear
  generalize hk : (t - (start + n * period.toNat)) / period.toNat = k
  have hskipped : s.skipped period (tick t) = UInt32.ofNat k := by
    rw [skipped_eq, ← hk, ← hlate, ← UInt32.toNat_div, UInt32.ofNat_toNat]
  have hmul := Nat.div_mul_le_self (t - (start + n * period.toNat)) period.toNat
  have hlt := Nat.lt_mul_div_succ (t - (start + n * period.toNat)) hperiod
  rw [hk] at hmul hlt
  rw [Nat.mul_succ, Nat.mul_comm period.toNat k] at hlt
  refine ⟨k, hskipped, ⟨?_, ?_⟩, ?_, ?_⟩
  · rw [Slots.catchUp, hskipped, h.next, tick_add_mul, Nat.add_mul, ← Nat.add_assoc]
  · rw [Slots.catchUp, hskipped, h.number]
    exact (UInt32.ofNat_add n k).symm
  · rw [Nat.add_mul]
    omega
  · rw [Nat.succ_mul, Nat.add_mul]
    omega

/-! ## The uses -/

/-- The period of the time `t`, counted from the start. -/
def slotOf (start : ℕ) (period : UInt32) (t : ℕ) : ℕ := (t - start) / period.toNat

theorem slotOf_eq (hperiod : 0 < period.toNat) (hfrom : start + n * period.toNat ≤ t)
    (hto : t < start + (n + 1) * period.toNat) : slotOf start period t = n := by
  rw [Nat.succ_mul] at hto
  rw [slotOf, Nat.div_eq_iff hperiod]
  omega

/-- The periods up to the last use. -/
def spanned (start : ℕ) (period : UInt32) (uses : List (ℕ × UInt32)) : ℕ :=
  uses.getLast?.elim 0 fun u => slotOf start period u.1 + 1

theorem spanned_snoc (uses : List (ℕ × UInt32)) (u : ℕ × UInt32) :
    spanned start period (uses ++ [u]) = slotOf start period u.1 + 1 := by
  simp [spanned]

/-- Each use, a time with a number, is under the number of its period, and no two are in one period. -/
structure InTime (start : ℕ) (period : UInt32) (uses : List (ℕ × UInt32)) : Prop where
  started : ∀ u ∈ uses, start ≤ u.1
  numbered : ∀ u ∈ uses, u.2 = UInt32.ofNat (slotOf start period u.1)
  increasing : uses.Pairwise fun u v => slotOf start period u.1 < slotOf start period v.1

/-- The uses are in time, and before the `n`-th period. -/
structure Used (start : ℕ) (period : UInt32) (n : ℕ) (uses : List (ℕ × UInt32)) : Prop
    extends InTime start period uses where
  below : ∀ u ∈ uses, slotOf start period u.1 < n

theorem used_nil : Used start period n [] := ⟨⟨nofun, nofun, List.Pairwise.nil⟩, nofun⟩

namespace Used

variable {uses : List (ℕ × UInt32)} (h : Used start period n uses)

include h

theorem later (k : ℕ) : Used start period (n + k) uses :=
  ⟨h.toInTime, fun u hu => Nat.lt_of_lt_of_le (h.below u hu) (Nat.le_add_right n k)⟩

/-- **A use** in the period the generator stands before. -/
theorem use (hs : OnSchedule start period n s) (hperiod : 0 < period.toNat)
    (hfrom : start + n * period.toNat ≤ t) (hto : t < start + (n + 1) * period.toNat) :
    Used start period (n + 1) (uses ++ [(t, s.number)]) := by
  have hslot := slotOf_eq hperiod hfrom hto
  refine ⟨⟨?_, ?_, ?_⟩, ?_⟩
  · intro u hu
    rcases List.mem_append.1 hu with hu | hu
    · exact h.started u hu
    · obtain rfl := List.mem_singleton.1 hu
      exact Nat.le_trans (Nat.le_add_right _ _) hfrom
  · intro u hu
    rcases List.mem_append.1 hu with hu | hu
    · exact h.numbered u hu
    · obtain rfl := List.mem_singleton.1 hu
      rw [hslot]
      exact hs.number
  · refine List.pairwise_append.2 ⟨h.increasing, List.pairwise_singleton _ _, ?_⟩
    intro u hu v hv
    obtain rfl := List.mem_singleton.1 hv
    exact hslot.symm ▸ h.below u hu
  · intro u hu
    rcases List.mem_append.1 hu with hu | hu
    · exact Nat.lt_succ_of_lt (h.below u hu)
    · obtain rfl := List.mem_singleton.1 hu
      exact hslot ▸ Nat.lt_succ_self n

end Used

end Slots

end DualCan.Run
