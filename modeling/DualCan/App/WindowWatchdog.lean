import DualCan.Run.Clock
import DualCan.Run.Countdown
import DualCan.Run.Past

/-!
# The window watchdog

`Watchdog_WwdgInit`, `Watchdog_WwdgService` and `Watchdog_WwdgKick` of `watchdog.c` in the main loop, which
reads the millisecond tick at its head and services the watchdog at its end. Time is counted in cycles of the
bus clock that the watchdog divides. A refresh is decided on a reading that is older than the refresh itself,
in whole milliseconds, and the watchdog counts in a phase of its own; `wwdg_survives` says how long a turn of
the loop may take all the same, and `wwdg_catches` that a loop that stops is reset.
-/

namespace DualCan.App.WindowWatchdog

open DualCan.Clock DualCan.Run

/-- `WATCHDOG_WWDG_COUNTER_INIT`. -/
def counterInit : ℕ := 0x7F

/-- `WATCHDOG_WWDG_WINDOW`. -/
def window : ℕ := 0x68

/-- `WATCHDOG_WWDG_REFRESH_MS`. -/
def refreshMs : UInt32 := 30

/-- The lowest value that the counter may have. -/
def boundary : ℕ := 0x40

/-- Bus cycles for one step of the counter: 4096, times 8 for the prescaler of `WWDG_CFR_CONFIG`. -/
def prescale : ℕ := 4096 * 2 ^ 3

theorem boundary_le_counterInit : boundary ≤ counterInit := by decide

/-- The watchdog, `s_wwdg_last_refresh_tick`, the time in bus cycles and the time at which the loop has read
the tick; and what an observer has written down: the times of the last service and of all refreshes, that of
the last one, and the reading it was decided on. -/
structure Board where
  time : ℕ
  readAt : ℕ
  lastRefreshTick : UInt32
  hardware : Countdown
  servedAt : ℕ
  refreshes : List ℕ
  refreshedAt : ℕ
  decidedAt : ℕ

namespace Board

/-- `HAL_GetTick` at the time `t`, with `ms` bus cycles to a millisecond. -/
def tickAt (ms t : ℕ) : UInt32 := tick (t / ms)

/-- `loop` is the head of the main loop, `service` the call of `Watchdog_WwdgService`, and `kick` the call of
`Watchdog_WwdgKick` in the build of the self-test. -/
inductive Event where
  | advance (cycles : ℕ)
  | loop
  | service
  | kick

/-- `Watchdog_WwdgKick`. -/
def kick (b : Board) : Board :=
  { b with
    hardware := b.hardware.reload window counterInit
    refreshes := b.refreshes ++ [b.time]
    refreshedAt := b.time
    decidedAt := b.readAt }

def step (ms : ℕ) (b : Board) : Event → Board
  | .advance cycles =>
    { b with time := b.time + cycles, hardware := b.hardware.elapse prescale boundary cycles }
  | .loop => { b with readAt := b.time }
  | .service =>
    let now := tickAt ms b.readAt
    if now - b.lastRefreshTick ≥ refreshMs then { b.kick with lastRefreshTick := now, servedAt := b.time }
    else { b with servedAt := b.time }
  | .kick => b.kick

/-- After `Watchdog_WwdgInit` at the time `now`, with the watchdog in any phase of its clock. -/
def start (ms now : ℕ) (phase : Fin prescale) : Board where
  time := now
  readAt := now
  lastRefreshTick := tickAt ms now
  hardware := ⟨counterInit, phase, false⟩
  servedAt := now
  refreshes := [now]
  refreshedAt := now
  decidedAt := now

/-- A turn of the loop in the normal build: at most `body` cycles from its head to the service, at most `gap`
cycles from one service to the next. -/
def Timely (body gap : ℕ) (b : Board) : Event → Prop
  | .advance cycles => b.time + cycles ≤ b.servedAt + gap
  | .loop => True
  | .service => b.time ≤ b.readAt + body
  | .kick => False

instance (body gap : ℕ) (b : Board) (e : Event) : Decidable (b.Timely body gap e) :=
  match e with
  | .advance _ => inferInstanceAs (Decidable (_ ≤ _))
  | .loop => isTrue trivial
  | .service => inferInstanceAs (Decidable (_ ≤ _))
  | .kick => isFalse id

/-! ## A timely loop -/

variable {ms body gap : ℕ} {b : Board}

/-- The watchdog has not fired, and the last refresh was decided on the reading that the program remembers. -/
structure Fed (ms body gap : ℕ) (b : Board) : Prop where
  counting : ∃ phase < prescale, b.hardware.Since prescale counterInit phase (b.time - b.refreshedAt)
  remembered : b.lastRefreshTick = tickAt ms b.decidedAt
  decided : b.decidedAt ≤ b.refreshedAt ∧ b.refreshedAt ≤ b.decidedAt + body
  order : b.refreshedAt ≤ b.servedAt ∧ b.servedAt ≤ b.time
  read : b.decidedAt ≤ b.readAt ∧ b.readAt ≤ b.time
  served : b.servedAt ≤ b.decidedAt + 30 * ms + body
  near : b.time ≤ b.servedAt + gap

theorem fed_start (now : ℕ) (phase : Fin prescale) : Fed ms body gap (start ms now phase) := by
  refine ⟨⟨phase, phase.isLt, ?_⟩, rfl, ⟨Nat.le_refl _, Nat.le_add_right _ _⟩, ⟨Nat.le_refl _, Nat.le_refl _⟩,
    ⟨Nat.le_refl _, Nat.le_refl _⟩, ?_, Nat.le_add_right _ _⟩
  · simp only [start, Nat.sub_self]
    exact ⟨by rw [Nat.add_zero, Nat.div_eq_of_lt phase.isLt]; rfl, by rw [Nat.add_zero, Nat.mod_eq_of_lt phase.isLt],
      rfl⟩
  · simp only [start]
    omega

/-- Readings less than half a turn apart differ by whole milliseconds. -/
theorem tickAt_sub {a t : ℕ} (hms : 0 < ms) (ha : a ≤ t) (ht : t < a + 2 ^ 31) :
    (tickAt ms t - tickAt ms a).toNat = t / ms - a / ms := by
  refine tick_sub (Nat.div_le_div_right ha) ?_
  have hle := Nat.div_le_self (t - a) ms
  have hsum : a + (t - a) = t := Nat.add_sub_cancel' ha
  rw [← hsum, Nat.add_div hms]
  split <;> omega

theorem lt_of_ticks {a t k : ℕ} (hms : 0 < ms) (h : a / ms + (k + 1) ≤ t / ms) : a + k * ms < t := by
  have ht := Nat.div_mul_le_self t ms
  have ha := Nat.lt_div_mul_add hms (a := a)
  have hmul := Nat.mul_le_mul_right ms h
  rw [Nat.add_mul, Nat.succ_mul] at hmul
  omega

theorem lt_of_ticks_lt {a t k : ℕ} (hms : 0 < ms) (h : t / ms < a / ms + k) : t < a + k * ms := by
  have ht := Nat.lt_div_mul_add hms (a := t)
  have ha := Nat.div_mul_le_self a ms
  have hmul := Nat.mul_le_mul_right ms h
  rw [Nat.add_mul, Nat.succ_mul] at hmul
  omega

section Step

variable (h : Fed ms body gap b) (hms : 0 < ms) (hbody : 23 * prescale + body ≤ 29 * ms)
  (hgap : 30 * ms + body + gap ≤ 63 * prescale)

include h hgap in
theorem Fed.advance {cycles : ℕ} (htimely : b.time + cycles ≤ b.servedAt + gap) :
    Fed ms body gap (b.step ms (.advance cycles)) := by
  obtain ⟨phase, hphase, hcounting⟩ := h.counting
  obtain ⟨hdecided, hlate⟩ := h.decided
  obtain ⟨hrefreshed, hserved⟩ := h.order
  have hdue := h.served
  refine ⟨⟨phase, hphase, ?_⟩, h.remembered, h.decided, ⟨hrefreshed, Nat.le_trans hserved (Nat.le_add_right _ _)⟩,
    ⟨h.read.1, Nat.le_trans h.read.2 (Nat.le_add_right _ _)⟩, hdue, htimely⟩
  have hsum : b.time + cycles - b.refreshedAt = b.time - b.refreshedAt + cycles := by omega
  simp only [step, hsum]
  refine hcounting.elapse (Nat.zero_lt_of_lt hphase) ?_
  have hsteps : (phase + (b.time - b.refreshedAt + cycles)) / prescale < 64 := by
    rw [Nat.div_lt_iff_lt_mul (Nat.zero_lt_of_lt hphase)]
    omega
  have hvalue : counterInit = 63 + boundary := rfl
  omega

include h hms hbody hgap in
theorem Fed.service (htimely : b.time ≤ b.readAt + body) : Fed ms body gap (b.step ms .service) := by
  obtain ⟨phase, hphase, hcounting⟩ := h.counting
  obtain ⟨hdecided, hlate⟩ := h.decided
  obtain ⟨hrefreshed, hserved⟩ := h.order
  obtain ⟨hread, hpast⟩ := h.read
  have hdue := h.served
  have hnear := h.near
  have hprescale : prescale = 32768 := rfl
  have hticks : (tickAt ms b.readAt - b.lastRefreshTick).toNat = b.readAt / ms - b.decidedAt / ms := by
    rw [h.remembered]
    exact tickAt_sub hms hread (by omega)
  have hdiv := Nat.div_le_div_right (c := ms) hread
  simp only [step]
  by_cases hrefresh : tickAt ms b.readAt - b.lastRefreshTick ≥ refreshMs
  · rw [if_pos hrefresh]
    rw [ge_iff_le, UInt32.le_iff_toNat_le, hticks, show refreshMs.toNat = 29 + 1 from rfl] at hrefresh
    have hlate' := lt_of_ticks hms (by omega : b.decidedAt / ms + (29 + 1) ≤ b.readAt / ms)
    refine ⟨⟨b.hardware.phase, ?_, ?_⟩, rfl, ⟨hpast, htimely⟩, ⟨Nat.le_refl _, Nat.le_refl _⟩,
      ⟨Nat.le_refl _, hpast⟩, ?_, Nat.le_add_right _ _⟩
    · rw [hcounting.phase]
      exact Nat.mod_lt _ (Nat.zero_lt_of_lt hphase)
    · simp only [kick, Nat.sub_self]
      refine hcounting.reload (Nat.zero_lt_of_lt hphase) ?_
      have hsteps : 23 ≤ (phase + (b.time - b.refreshedAt)) / prescale := by
        rw [Nat.le_div_iff_mul_le (Nat.zero_lt_of_lt hphase)]
        omega
      have hvalue : counterInit = window + 23 := rfl
      omega
    · simp only [kick]
      omega
  · rw [if_neg hrefresh]
    rw [ge_iff_le, UInt32.le_iff_toNat_le, hticks, show refreshMs.toNat = 30 from rfl] at hrefresh
    have hsoon := lt_of_ticks_lt hms (by omega : b.readAt / ms < b.decidedAt / ms + 30)
    exact ⟨⟨phase, hphase, hcounting⟩, h.remembered, h.decided, ⟨by simp only; omega, Nat.le_refl _⟩, h.read,
      by simp only; omega, Nat.le_add_right _ _⟩

end Step

/-- **A timely loop is never reset.** If every service comes at most `body` bus cycles after its turn of the
loop began and at most `gap` after the last service, the watchdog fires in no run, whatever its phase: the
window is open at each refresh, however the readings are rounded, and the counter has not run out. With 42 MHz
on the F407 that allows 8 ms from the head of the loop to the service and 11 ms from service to service, with
36 MHz on the F103 8 ms and 19 ms. -/
theorem wwdg_survives (ms body gap : ℕ) (hms : 0 < ms) (hbody : 23 * prescale + body ≤ 29 * ms)
    (hgap : 30 * ms + body + gap ≤ 63 * prescale) (now : ℕ) (phase : Fin prescale) {es : List Event}
    (htimely : AllSteps (step ms) (start ms now phase) (Timely body gap) es) :
    (after (step ms) (start ms now phase) es).hardware.fired = false := by
  have hfed : Fed ms body gap (after (step ms) (start ms now phase) es) := by
    refine after_invariant_of (fed_start now phase) (fun b e h he => ?_) es htimely
    cases e with
    | advance cycles => exact h.advance hgap he
    | loop => exact ⟨h.counting, h.remembered, h.decided, h.order,
        ⟨Nat.le_trans h.read.1 h.read.2, Nat.le_refl _⟩, h.served, h.near⟩
    | service => exact h.service hms hbody hgap he
    | kick => exact absurd he id
  obtain ⟨phase, -, hcounting⟩ := hfed.counting
  exact hcounting.fired

/-- 12 turns of 9 ms at the F407's 42000 cycles a millisecond, the tick read 1 ms before each service. -/
def twelveTurns : List Event := (List.replicate 12 [.advance 336000, .loop, .advance 42000, .service]).flatten

theorem wwdg_survives_twelveTurns :
    (after (step 42000) (start 42000 0 ⟨5, by decide⟩) twelveTurns).refreshes.length = 4 ∧
      (after (step 42000) (start 42000 0 ⟨5, by decide⟩) twelveTurns).hardware.fired = false :=
  ⟨by decide +kernel, wwdg_survives 42000 (8 * 42000) (11 * 42000) (by decide) (by decide) (by decide) 0
    ⟨5, by decide⟩ (by decide +kernel)⟩

/-! ## Any loop -/

/-- While the watchdog has not fired, the refreshes are apart and the last one is not long ago. -/
structure Caught (b : Board) : Prop where
  counting : ∃ phase < prescale, b.hardware.Since prescale counterInit phase (b.time - b.refreshedAt)
  above : boundary ≤ b.hardware.counter
  past : b.refreshedAt ≤ b.time
  last : ∀ r ∈ b.refreshes, r ≤ b.refreshedAt
  apart : b.refreshes.Pairwise fun r s => r + 22 * prescale < s

theorem Caught.kick (h : Caught b) (hfired : b.kick.hardware.fired = false) : Caught b.kick := by
  obtain ⟨phase, hphase, hcounting⟩ := h.counting
  have hpast := h.past
  have hopen : ¬window + (phase + (b.time - b.refreshedAt)) / prescale < counterInit := by
    intro hclosed
    have hearly := hcounting.early hclosed
    rw [Board.kick] at hfired
    rw [hearly] at hfired
    cases hfired
  have hvalue : counterInit = window + 23 := rfl
  have hsteps : 23 ≤ (phase + (b.time - b.refreshedAt)) / prescale := by omega
  rw [Nat.le_div_iff_mul_le (Nat.zero_lt_of_lt hphase)] at hsteps
  refine ⟨⟨b.hardware.phase, ?_, ?_⟩, boundary_le_counterInit, Nat.le_refl _, ?_, ?_⟩
  · rw [hcounting.phase]
    exact Nat.mod_lt _ (Nat.zero_lt_of_lt hphase)
  · simp only [Board.kick, Nat.sub_self]
    exact hcounting.reload (Nat.zero_lt_of_lt hphase) (by omega)
  · intro r hr
    rcases List.mem_append.1 hr with hr | hr
    · exact Nat.le_trans (h.last r hr) hpast
    · exact Nat.le_of_eq (List.mem_singleton.1 hr)
  · refine List.pairwise_append.2 ⟨h.apart, List.pairwise_singleton _ _, ?_⟩
    intro r hr s hs
    obtain rfl := List.mem_singleton.1 hs
    have hle := h.last r hr
    omega

theorem Caught.soon (h : Caught b) : b.time < b.refreshedAt + 64 * prescale := by
  obtain ⟨phase, hphase, hcounting⟩ := h.counting
  have hcounter := hcounting.counter
  have habove := h.above
  have hpast := h.past
  have hvalue : counterInit = 63 + boundary := rfl
  have hsteps : (phase + (b.time - b.refreshedAt)) / prescale < 64 := by omega
  rw [Nat.div_lt_iff_lt_mul (Nat.zero_lt_of_lt hphase)] at hsteps
  omega

/-- A watchdog that has fired stays so. -/
theorem fired_step (e : Event) (hfired : b.hardware.fired = true) : (b.step ms e).hardware.fired = true := by
  cases e with
  | advance cycles => simp [step, Countdown.elapse, hfired]
  | loop => exact hfired
  | kick => simp [step, kick, Countdown.reload, hfired]
  | service =>
    simp only [step]
    split
    · simp [kick, Countdown.reload, hfired]
    · exact hfired

theorem Caught.step (h : Caught b) (e : Event) :
    (b.step ms e).hardware.fired = true ∨ Caught (b.step ms e) := by
  cases hfired : (b.step ms e).hardware.fired with
  | true => exact .inl rfl
  | false =>
    refine .inr ?_
    cases e with
    | loop => exact ⟨h.counting, h.above, h.past, h.last, h.apart⟩
    | kick => exact h.kick hfired
    | service =>
      simp only [Board.step] at hfired ⊢
      by_cases hrefresh : tickAt ms b.readAt - b.lastRefreshTick ≥ refreshMs
      · simp only [if_pos hrefresh] at hfired ⊢
        have hkick := h.kick hfired
        exact ⟨hkick.counting, hkick.above, hkick.past, hkick.last, hkick.apart⟩
      · simp only [if_neg hrefresh]
        exact ⟨h.counting, h.above, h.past, h.last, h.apart⟩
    | advance cycles =>
      obtain ⟨phase, hphase, hcounting⟩ := h.counting
      have hpast := h.past
      have hsum : b.time + cycles - b.refreshedAt = b.time - b.refreshedAt + cycles := by omega
      have hshort : (phase + (b.time - b.refreshedAt + cycles)) / prescale + boundary ≤ counterInit := by
        by_contra hlong
        have hfires := hcounting.fires (d := cycles) (Nat.zero_lt_of_lt hphase) (Nat.not_le.1 hlong)
        rw [Board.step] at hfired
        rw [hfires] at hfired
        cases hfired
      have hnext := hcounting.elapse (Nat.zero_lt_of_lt hphase) hshort
      have hcounter := hnext.counter
      refine ⟨⟨phase, hphase, ?_⟩, ?_, Nat.le_trans hpast (Nat.le_add_right _ _), h.last, h.apart⟩
      · simp only [Board.step, hsum]
        exact hnext
      · simp only [Board.step]
        omega

/-- **A loop that stops is reset, and so is one that refreshes too soon.** After every run, with self-test
refreshes in it or not, the watchdog has fired, or the last refresh is less than 64 steps of the counter ago
and any two refreshes are more than 22 steps apart. -/
theorem wwdg_catches (ms now : ℕ) (phase : Fin prescale) (es : List Event) :
    let b := after (step ms) (start ms now phase) es
    b.hardware.fired = true ∨
      b.time < b.refreshedAt + 64 * prescale ∧ b.refreshes.Pairwise fun r s => r + 22 * prescale < s := by
  have hcaught : (after (step ms) (start ms now phase) es).hardware.fired = true ∨
      Caught (after (step ms) (start ms now phase) es) := by
    refine after_invariant (I := fun b => b.hardware.fired = true ∨ Caught b) (.inr ?_) ?_ es
    · have hfed : Fed ms 0 0 (start ms now phase) := fed_start now phase
      exact ⟨hfed.counting, boundary_le_counterInit, Nat.le_refl _, by simp [start], by simp [start]⟩
    · rintro b e (hfired | h)
      · exact .inl (fired_step e hfired)
      · exact h.step e
  exact hcaught.imp_right fun h => ⟨h.soon, h.apart⟩

end Board

end DualCan.App.WindowWatchdog
