import Mathlib.Logic.Function.Basic
import Mathlib.Tactic.Common

/-!
# Claims under a lock

Parties share one cell each and one lock. A party that wants to become busy takes the lock, looks at the
others' cells, writes its own when none of them is busy, and lets the lock go; if one is, it lets the lock
go and may try again or give up. A holder takes the lock once more to write its idle value back.

`Moves` lists what one party can do in a step and `Safe` is what the moves keep, whatever the lock's order
of admission: at most one party holds, and a party that does not hold has the idle value in its cell.
-/

namespace DualCan.Run

/-- Where a party stands. -/
inductive Phase (β : Type*) where
  | outside
  | wanting (v : β)
  | checking (v : β)
  | claiming (v : β)
  | holding
  | resetting

namespace Phase

variable {β : Type*}

/-- The party has claimed and not yet written its idle value back. -/
def holds : Phase β → Bool
  | .holding | .resetting => true
  | _ => false

/-- The party has the lock. -/
def locked : Phase β → Bool
  | .checking _ | .claiming _ | .resetting => true
  | _ => false

/-- What the party is about to claim. -/
def wants : Phase β → Option β
  | .wanting v | .checking v | .claiming v => some v
  | _ => none

end Phase

structure Monitor (ν β : Type*) where
  phase : ν → Phase β
  cell : ν → β
  lock : Option ν

namespace Monitor

variable {ν β : Type*} {parties : ν → Prop} {Busy : β → Prop} {idle : β}
  {m : Monitor ν β} {n k : ν} {p : Phase β} {c : β} {l : Option ν}

/-- The state after a step of party `n`. -/
def move [DecidableEq ν] (m : Monitor ν β) (n : ν) (p : Phase β) (c : β) (l : Option ν) : Monitor ν β :=
  { phase := Function.update m.phase n p, cell := Function.update m.cell n c, lock := l }

/-- What party `n` can do in one step: its next phase, its cell and the lock afterwards. -/
inductive Moves (parties : ν → Prop) (Busy : β → Prop) (idle : β) (m : Monitor ν β) (n : ν) :
    Phase β → β → Option ν → Prop
  | stay : Moves parties Busy idle m n (m.phase n) (m.cell n) m.lock
  | want {v : β} (hphase : m.phase n = .outside) (hv : Busy v) :
      Moves parties Busy idle m n (.wanting v) (m.cell n) m.lock
  | enter {v : β} (hphase : m.phase n = .wanting v) (hlock : m.lock = none) :
      Moves parties Busy idle m n (.checking v) (m.cell n) (some n)
  | refuse {v : β} (hphase : m.phase n = .checking v) :
      Moves parties Busy idle m n (.wanting v) (m.cell n) none
  | giveUp {v : β} (hphase : m.phase n = .checking v) :
      Moves parties Busy idle m n .outside (m.cell n) none
  | pass {v : β} (hphase : m.phase n = .checking v)
      (hfree : ∀ k, parties k → k ≠ n → ¬Busy (m.cell k)) :
      Moves parties Busy idle m n (.claiming v) (m.cell n) m.lock
  | claim {v : β} (hphase : m.phase n = .claiming v) : Moves parties Busy idle m n .holding v none
  | leave (hphase : m.phase n = .holding) (hlock : m.lock = none) :
      Moves parties Busy idle m n .resetting (m.cell n) (some n)
  | reset (hphase : m.phase n = .resetting) : Moves parties Busy idle m n .outside idle none

/-- What every move keeps. -/
structure Safe (parties : ν → Prop) (Busy : β → Prop) (idle : β) (m : Monitor ν β) : Prop where
  owner : ∀ n, (m.phase n).locked = true ↔ m.lock = some n
  outside : ∀ n, (m.phase n).holds = false → m.cell n = idle
  holder : ∀ n, (m.phase n).holds = true → parties n ∧ Busy (m.cell n)
  wants : ∀ n v, (m.phase n).wants = some v → Busy v
  free : ∀ n v, m.phase n = .claiming v → ∀ k, parties k → k ≠ n → ¬Busy (m.cell k)
  alone : ∀ n k, (m.phase n).holds = true → (m.phase k).holds = true → n = k

theorem Safe.start (h : ∀ n, m.phase n = .outside) (hcell : ∀ n, m.cell n = idle)
    (hlock : m.lock = none) : Safe parties Busy idle m := by
  refine ⟨fun n => ?_, fun n _ => hcell n, fun n hn => ?_, fun n v hv => ?_, fun n v hv => ?_,
    fun n k hn => ?_⟩
  · rw [h, hlock]
    exact ⟨nofun, nofun⟩
  · rw [h] at hn
    cases hn
  · rw [h] at hv
    cases hv
  · rw [h] at hv
    cases hv
  · rw [h] at hn
    cases hn

/-- While party `n` has the lock, no other party has. -/
theorem Safe.unlocked (h : Safe parties Busy idle m) (hn : (m.phase n).locked = true) (hk : k ≠ n) :
    (m.phase k).locked = true ↔ (none : Option ν) = some k := by
  rw [h.owner, (h.owner n).1 hn]
  exact ⟨fun he => absurd (Option.some.inj he).symm hk, nofun⟩

/-- While nobody has the lock, party `n` may take it. -/
theorem Safe.taken (h : Safe parties Busy idle m) (hlock : m.lock = none) (hk : k ≠ n) :
    (m.phase k).locked = true ↔ some n = some k := by
  rw [h.owner, hlock]
  exact ⟨nofun, fun he => absurd (Option.some.inj he).symm hk⟩

/-- When the idle value is not a busy one, at most one cell is busy. -/
theorem Safe.busy_unique (h : Safe parties Busy idle m) (hidle : ¬Busy idle) (hn : Busy (m.cell n))
    (hk : Busy (m.cell k)) : n = k := by
  have hholds : ∀ j, Busy (m.cell j) → (m.phase j).holds = true := by
    intro j hj
    by_contra hno
    rw [h.outside j (by simpa using hno)] at hj
    exact hidle hj
  exact h.alone n k (hholds n hn) (hholds k hk)

variable [DecidableEq ν]

@[simp] theorem move_phase_self : (m.move n p c l).phase n = p := Function.update_self ..

theorem move_phase_ne (hk : k ≠ n) : (m.move n p c l).phase k = m.phase k := Function.update_of_ne hk ..

@[simp] theorem move_cell_self : (m.move n p c l).cell n = c := Function.update_self ..

theorem move_cell_ne (hk : k ≠ n) : (m.move n p c l).cell k = m.cell k := Function.update_of_ne hk ..

/-- A step that leaves the cell alone and does not start or end a hold. -/
theorem Safe.quiet (h : Safe parties Busy idle m) (hholds : p.holds = (m.phase n).holds)
    (hwants : ∀ v, p.wants = some v → Busy v) (howner : p.locked = true ↔ l = some n)
    (hothers : ∀ k, k ≠ n → ((m.phase k).locked = true ↔ l = some k))
    (hfree : ∀ v, p = .claiming v → ∀ k, parties k → k ≠ n → ¬Busy (m.cell k)) :
    Safe parties Busy idle (m.move n p (m.cell n) l) := by
  have hcell : (m.move n p (m.cell n) l).cell = m.cell := Function.update_eq_self n m.cell
  have hphase : ∀ k, ((m.move n p (m.cell n) l).phase k).holds = (m.phase k).holds := by
    intro k
    by_cases hk : k = n
    · subst hk
      rw [move_phase_self, hholds]
    · rw [move_phase_ne hk]
  refine ⟨fun k => ?_, fun k hk => ?_, fun k hk => ?_, fun k v hv => ?_, fun k v hv => ?_,
    fun i k hi hk => ?_⟩
  · by_cases hk : k = n
    · subst hk
      rw [move_phase_self]
      exact howner
    · rw [move_phase_ne hk]
      exact hothers k hk
  · rw [hcell]
    rw [hphase] at hk
    exact h.outside k hk
  · rw [hcell]
    rw [hphase] at hk
    exact h.holder k hk
  · by_cases hk : k = n
    · subst hk
      rw [move_phase_self] at hv
      exact hwants v hv
    · rw [move_phase_ne hk] at hv
      exact h.wants k v hv
  · rw [hcell]
    by_cases hk : k = n
    · subst hk
      rw [move_phase_self] at hv
      exact hfree v hv
    · rw [move_phase_ne hk] at hv
      exact h.free k v hv
  · rw [hphase] at hi hk
    exact h.alone i k hi hk

/-- A step that gives the lock back, to hold or to be outside. -/
theorem Safe.release (h : Safe parties Busy idle m) (hlocked : (m.phase n).locked = true)
    (hp : p.locked = false) (hwants : p.wants = none) (hout : p.holds = false → c = idle)
    (hhold : p.holds = true → parties n ∧ Busy c)
    (halone : p.holds = true → ∀ k, k ≠ n → (m.phase k).holds = true → False) :
    Safe parties Busy idle (m.move n p c none) := by
  refine ⟨fun k => ?_, fun k hk => ?_, fun k hk => ?_, fun k v hv => ?_, fun k v hv => ?_,
    fun i k hi hk => ?_⟩
  · by_cases hkn : k = n
    · subst hkn
      rw [move_phase_self, hp]
      exact ⟨nofun, nofun⟩
    · rw [move_phase_ne hkn]
      exact h.unlocked hlocked hkn
  · by_cases hkn : k = n
    · subst hkn
      rw [move_phase_self] at hk
      rw [move_cell_self]
      exact hout hk
    · rw [move_phase_ne hkn] at hk
      rw [move_cell_ne hkn]
      exact h.outside k hk
  · by_cases hkn : k = n
    · subst hkn
      rw [move_phase_self] at hk
      rw [move_cell_self]
      exact hhold hk
    · rw [move_phase_ne hkn] at hk
      rw [move_cell_ne hkn]
      exact h.holder k hk
  · by_cases hkn : k = n
    · subst hkn
      rw [move_phase_self, hwants] at hv
      cases hv
    · rw [move_phase_ne hkn] at hv
      exact h.wants k v hv
  · -- the lock was `n`'s, so nobody else is between its check and its claim
    by_cases hkn : k = n
    · subst hkn
      rw [move_phase_self] at hv
      rw [hv] at hp
      cases hp
    · rw [move_phase_ne hkn] at hv
      have hkl := (h.unlocked hlocked hkn).1 (by rw [hv]; rfl)
      cases hkl
  · by_cases hin : i = n
    · subst hin
      rw [move_phase_self] at hi
      by_contra hik
      rw [move_phase_ne (Ne.symm hik)] at hk
      exact halone hi k (Ne.symm hik) hk
    · rw [move_phase_ne hin] at hi
      by_cases hkn : k = n
      · subst hkn
        rw [move_phase_self] at hk
        exact (halone hk i hin hi).elim
      · rw [move_phase_ne hkn] at hk
        exact h.alone i k hi hk

/-- A claim: the cells of the others have not changed since the check, for the lock was kept. -/
theorem Safe.claim (h : Safe parties Busy idle m) (hn : parties n) {v : β}
    (hphase : m.phase n = .claiming v) : Safe parties Busy idle (m.move n .holding v none) := by
  have hbusy : Busy v := h.wants n v (by rw [hphase]; rfl)
  refine h.release (by rw [hphase]; rfl) rfl rfl nofun (fun _ => ⟨hn, hbusy⟩) fun _ k hk hholds => ?_
  obtain ⟨hparty, hb⟩ := h.holder k hholds
  exact h.free n v hphase k hparty hk hb

/-- A holder writes its idle value back. -/
theorem Safe.reset (h : Safe parties Busy idle m) (hphase : m.phase n = .resetting) :
    Safe parties Busy idle (m.move n .outside idle none) :=
  h.release (by rw [hphase]; rfl) rfl rfl (fun _ => rfl) nofun nofun

/-- **One move keeps the monitor safe.** -/
theorem Safe.step (h : Safe parties Busy idle m) (hn : parties n)
    (hm : Moves parties Busy idle m n p c l) : Safe parties Busy idle (m.move n p c l) := by
  cases hm with
  | stay => exact h.quiet rfl (h.wants n) (h.owner n) (fun k _ => h.owner k) (h.free n)
  | want hphase hv =>
    have hidle : (m.phase n).locked = false := by
      rw [hphase]
      rfl
    refine h.quiet (by rw [hphase]; rfl) ?_ ?_ (fun k _ => h.owner k) nofun
    · intro v' hv'
      obtain rfl := Option.some.inj hv'
      exact hv
    · rw [← h.owner n, hidle]
      exact Iff.rfl
  | @enter v hphase hlock =>
    have hv : Busy v := h.wants n v (by rw [hphase]; rfl)
    refine h.quiet (by rw [hphase]; rfl) ?_ ⟨fun _ => rfl, fun _ => rfl⟩
      (fun k hk => h.taken hlock hk) nofun
    intro v' hv'
    obtain rfl := Option.some.inj hv'
    exact hv
  | @refuse v hphase =>
    have hv : Busy v := h.wants n v (by rw [hphase]; rfl)
    refine h.quiet (by rw [hphase]; rfl) ?_ ⟨nofun, nofun⟩
      (fun k hk => h.unlocked (by rw [hphase]; rfl) hk) nofun
    intro v' hv'
    obtain rfl := Option.some.inj hv'
    exact hv
  | giveUp hphase =>
    exact h.quiet (by rw [hphase]; rfl) nofun ⟨nofun, nofun⟩
      (fun k hk => h.unlocked (by rw [hphase]; rfl) hk) nofun
  | @pass v hphase hfree =>
    have hv : Busy v := h.wants n v (by rw [hphase]; rfl)
    have hmine : m.lock = some n := (h.owner n).1 (by rw [hphase]; rfl)
    refine h.quiet (by rw [hphase]; rfl) ?_ ⟨fun _ => hmine, fun _ => rfl⟩ (fun k _ => h.owner k)
      fun v' _ => hfree
    intro v' hv'
    obtain rfl := Option.some.inj hv'
    exact hv
  | claim hphase => exact h.claim hn hphase
  | leave hphase hlock =>
    exact h.quiet (by rw [hphase]; rfl) nofun ⟨fun _ => rfl, fun _ => rfl⟩
      (fun k hk => h.taken hlock hk) nofun
  | reset hphase => exact h.reset hphase

end Monitor

end DualCan.Run
