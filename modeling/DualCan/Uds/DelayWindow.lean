import DualCan.Uds.AttemptLimit
import DualCan.Uds.Authority
import DualCan.Uds.Reply

/-!
# The security delay in real time

The third wrong key closes security access for `securityDelayMs`. The server compares a wrapped deadline, has
the value 0 stand for "no delay", and takes a delay off only when the next request looks at it. A request
that looks at it is judged by the wrapped clock; where that agrees with real time, the delay lasts exactly as
long as it should.
-/

namespace DualCan.Uds

open DualCan.Clock DualCan.Run UdsServer

variable {σ : Type}

/-! ## Requests that look at the delay -/

/-- The reply to a security access that comes too early. -/
def Reply.delayed (reply : Reply) : Bool :=
  reply.response = [sidNegativeResponse, sidSecurityAccess, nrcRequiredTimeDelayNotExpired]

/-- The call is a security access that gets past the checks before the one of the delay. -/
def reachesCheck (s : UdsServer σ × σ) : Call → Bool
  | .process time (service :: sub :: _) _ =>
    service = sidSecurityAccess && (s.1.tick (Clock.tick time)).access.admits sub
  | _ => false

theorem reachesCheck_some {s : UdsServer σ × σ} {c : Call} (h : reachesCheck s c = true) :
    ∃ time sub data capacity, c = .process time (sidSecurityAccess :: sub :: data) capacity ∧
      s.1.tick (Clock.tick time) = s.1 ∧ s.1.access.admits sub = true ∧
      act s c.event = s.1.access.securityAct (Clock.tick time) (sub :: data) ∧
      (UdsServer.step s c.event).1.access = s.1.access.serve (Clock.tick time) (sub :: data) := by
  unfold reachesCheck at h
  split at h
  · rename_i time service sub data capacity
    simp only [Bool.and_eq_true, decide_eq_true_eq] at h
    obtain ⟨rfl, hadmits⟩ := h
    have htick : s.1.tick (Clock.tick time) = s.1 := by
      apply tick_eq_self
      cases hexpired : s.1.expired (Clock.tick time) with
      | false => rfl
      | true =>
        rw [tick_access, hexpired, if_pos rfl] at hadmits
        simp [Access.admits, sessionDefault, sessionExtended, sessionProgramming] at hadmits
    refine ⟨time, sub, data, capacity, rfl, htick, htick ▸ hadmits, ?_, ?_⟩
    · rw [Call.event, act, if_pos rfl, htick]
    · have hother : sidSecurityAccess ≠ sidDiagnosticSessionControl := by decide
      change (UdsServer.step s (.process _ _ _)).1.access = _
      rw [process_access, if_neg hother, if_pos rfl, htick]
  · cases h

/-- A call that does not look at the delay performs no security access, and leaves the delay. -/
theorem step_of_not_reachesCheck {s : UdsServer σ × σ} {c : Call} (h : reachesCheck s c = false) :
    act s c.event = .nothing ∧
      (UdsServer.step s c.event).1.access.securityDelayUntilMs = s.1.access.securityDelayUntilMs ∧
      ((UdsServer.step s c.event).1.securityUnlocked = true → s.1.securityUnlocked = true) := by
  have hview : ∀ t : UdsServer σ × σ, t.1.access.securityUnlocked = t.1.securityUnlocked := fun _ => rfl
  rw [← hview, ← hview]
  rcases step_access_cases s c.event with ⟨-, hact, session, ha⟩ |
    ⟨hlock, now, args, capacity, he, hact, ha⟩ | ⟨-, hact, ha⟩
  · rw [ha]
    exact ⟨hact, rfl, fun hfalse => absurd hfalse Bool.false_ne_true⟩
  · have hnothing : s.1.access.securityAct now args = .nothing ∧ s.1.access.serve now args = s.1.access := by
      cases args with
      | nil => exact ⟨rfl, rfl⟩
      | cons sub data =>
        have hadmits : s.1.access.admits sub = false := by
          cases c with
          | process time request room =>
            cases he
            have htick : s.1.tick (Clock.tick time) = s.1 := by
              apply tick_eq_self
              simp only [Call.event, locks, Bool.or_eq_false_iff] at hlock
              exact hlock.1
            simpa [reachesCheck, htick] using h
          | pollPending room => cases he
          | tick time => cases he
          | lockSecurity => cases he
        simp [Access.securityAct, Access.serve, hadmits]
    rw [ha, hact, hnothing.2]
    exact ⟨hnothing.1, rfl, id⟩
  · rw [ha]
    exact ⟨hact, rfl, id⟩

/-- Nor does one that finds the delay running. -/
theorem step_of_delayActive {s : UdsServer σ × σ} {c : Call} (h : reachesCheck s c = true)
    (hactive : ∀ time ∈ c.time, s.1.access.delayActive (Clock.tick time) = true) :
    act s c.event = .nothing ∧ (UdsServer.step s c.event).1.access = s.1.access := by
  obtain ⟨time, sub, data, capacity, rfl, -, -, hact, ha⟩ := reachesCheck_some h
  have hrunning := hactive time rfl
  rw [hact, ha]
  simp [Access.securityAct, Access.serve, hrunning]

/-- One that finds no delay running takes off the old one, and may start a new one. -/
theorem step_of_not_delayActive {s : UdsServer σ × σ} {c : Call} (h : reachesCheck s c = true)
    (hover : ∀ time ∈ c.time, s.1.access.delayActive (Clock.tick time) = false) :
    startsDelay s c.event = true ∨
      (UdsServer.step s c.event).1.access.securityDelayUntilMs = 0 := by
  obtain ⟨time, sub, data, capacity, rfl, -, hadmits, hact, ha⟩ := reachesCheck_some h
  have hidle := hover time rfl
  have hzero := expireDelay_of_inactive hidle
  have hserve : s.1.access.serve (Clock.tick time) (sub :: data) =
      (s.1.access.expireDelay (Clock.tick time)).perform (Clock.tick time)
        (s.1.access.securityAct (Clock.tick time) (sub :: data)) := by
    refine if_pos ?_
    rw [hadmits, hidle]
    rfl
  rw [ha, hserve]
  cases hdoes : s.1.access.securityAct (Clock.tick time) (sub :: data) with
  | nothing => exact Or.inr hzero
  | zeroSeed => exact Or.inr hzero
  | newSeed seed => exact Or.inr hzero
  | evaluate seed key =>
    change _ ∨ ((s.1.access.expireDelay _).evaluate _ seed key).securityDelayUntilMs = 0
    rcases evaluate_cases (s.1.access.expireDelay (Clock.tick time)) (Clock.tick time) seed key with
      ⟨-, hev⟩ | ⟨hkey, hlast, -⟩ | ⟨-, -, hev⟩
    · rw [hev]
      exact Or.inr rfl
    · left
      rw [expireDelay_securitySalt] at hkey
      simp only [Call.event, startsDelay, wrongKey, Bool.and_eq_true, decide_eq_true_eq]
      refine ⟨?_, hlast⟩
      change act s (.process (Clock.tick time) (sidSecurityAccess :: sub :: data) capacity) = _ at hact
      rw [hact, hdoes]
      have hsalt : s.1.access.securitySalt = s.1.securitySalt := rfl
      simpa [SecurityAct.wrong, hsalt] using hkey
    · rw [hev]
      exact Or.inr hzero

theorem Reply.IsFor.not_delayed {reply : Reply} {service : UInt8} (h : reply.IsFor service)
    (hservice : service ≠ sidSecurityAccess) : reply.delayed = false := by
  unfold delayed
  rcases h with hnone | ⟨nrc, hnegative⟩ | ⟨hne, hpositive⟩
  · simp [hnone]
  · simp [hnegative, hservice]
  · apply decide_eq_false
    intro hresponse
    rw [hresponse] at hpositive
    exact hne (Option.some.inj hpositive).symm

theorem negative_delayed {capacity : ℕ} {nrc : UInt8}
    (h : (negative capacity sidSecurityAccess nrc).delayed = true) :
    nrc = nrcRequiredTimeDelayNotExpired := by
  unfold negative at h
  split at h
  · cases h
  · simpa [Reply.delayed] using h

theorem positive_not_delayed {first : UInt8} (hfirst : first ≠ sidNegativeResponse) (suppress : Bool)
    (capacity : ℕ) (bytes : List UInt8) : (positive suppress capacity (first :: bytes)).delayed = false := by
  unfold positive
  split
  · rfl
  split
  · rfl
  · simp [Reply.delayed, hfirst]

theorem answer_delayed {access : Access} {now : UInt32} {suppress : Bool} {capacity : ℕ} {sub : UInt8}
    {data : List UInt8} (h : (access.answer now suppress capacity (sub :: data)).delayed = true) :
    access.admits sub = true ∧ access.delayActive now = true := by
  unfold Access.answer at h
  split at h
  · have hrefusal := negative_delayed h
    unfold Access.refusal at hrefusal
    dsimp only at hrefusal
    split at hrefusal
    · exact absurd hrefusal (by decide)
    rename_i hsub
    split at hrefusal
    · exact absurd hrefusal (by decide)
    rename_i hsession
    split at hrefusal
    · rename_i hactive
      refine ⟨?_, hactive⟩
      simp only [Access.admits, Bool.and_eq_true, Bool.or_eq_true, decide_eq_true_eq]
      exact ⟨by tauto, by tauto⟩
    split at hrefusal
    · exact absurd hrefusal (by decide)
    · exact absurd hrefusal (by decide)
  · rw [positive_not_delayed (by decide)] at h
    cases h
  · rw [positive_not_delayed (by decide)] at h
    cases h
  · split at h
    · rw [positive_not_delayed (by decide)] at h
      cases h
    · have hwrong := negative_delayed h
      unfold Access.wrongKey at hwrong
      split at hwrong
      · exact absurd hwrong (by decide)
      · exact absurd hwrong (by decide)

theorem tick_delayActive (server : UdsServer σ) (now later : UInt32) :
    (server.tick now).access.delayActive later = server.access.delayActive later := by
  unfold Access.delayActive
  rcases tick_access_cases server now with ⟨-, session, h⟩ | ⟨-, h⟩
  · rw [h]
    rfl
  · rw [h]

/-- Only a request that finds the delay running is answered so. -/
theorem delayed_cause {s : UdsServer σ × σ} {c : Call}
    (h : (respond s c.event).1.delayed = true) :
    reachesCheck s c = true ∧ ∃ time ∈ c.time, s.1.access.delayActive (Clock.tick time) = true := by
  have hother : ∀ {reply : Reply} {service : UInt8}, reply.IsFor service → service ≠ sidSecurityAccess →
      ¬reply.delayed = true := by
    intro reply service hfor hservice htrue
    rw [hfor.not_delayed hservice] at htrue
    cases htrue
  cases c with
  | tick time => cases h
  | lockSecurity => cases h
  | pollPending capacity =>
    rcases pollPending_isFor s.1 s.2 capacity with hwrite | hroutine
    · exact absurd h (hother hwrite (by decide))
    · exact absurd h (hother hroutine (by decide))
  | process time request capacity =>
    cases request with
    | nil => exact absurd h (hother (negative_isFor ..) (by decide))
    | cons service args =>
      by_cases h27 : service = sidSecurityAccess
      case neg => exact absurd h (hother (dispatch_isFor ..) h27)
      subst h27
      cases args with
      | nil =>
        have hreply : (respond s (.process (Clock.tick time) [sidSecurityAccess] capacity)).1 =
            negative capacity sidSecurityAccess nrcIncorrectLength := finish_reply ..
        rw [Call.event, hreply] at h
        exact absurd (negative_delayed h) (by decide)
      | cons sub data =>
        rw [Call.event, respond_security] at h
        obtain ⟨hadmits, hactive⟩ := answer_delayed h
        rw [tick_delayActive] at hactive
        refine ⟨?_, time, rfl, hactive⟩
        simpa [reachesCheck] using hadmits

/-! ## The observer -/

/-- The security delay, in milliseconds. -/
def delayMs : ℕ := securityDelayMs.toNat

/-- A server since the delay started at a real time: whether a request has looked at the delay since its end,
whether another delay has been started, and the time of the last call that read the clock. -/
structure Delayed (σ : Type) where
  state : UdsServer σ × σ
  ended : Bool
  renewed : Bool
  last : ℕ

namespace Delayed

variable (start : ℕ)

def step (d : Delayed σ) (c : Call) : Delayed σ where
  state := UdsServer.step d.state c.event
  ended := d.ended || (reachesCheck d.state c && c.time.any fun time => start + delayMs ≤ time)
  renewed := d.renewed || startsDelay d.state c.event
  last := c.time.getD d.last

/-- The calls follow each other in time. -/
def Ordered (d : Delayed σ) (c : Call) : Prop :=
  ∀ time ∈ c.time, d.last ≤ time

/-- The wrapped clock judges the delay as real time does, if the call is to look at it: before its end the
deadline is not the value that stands for none; from its end on the deadline is that value, or the call comes
in the first half of the clock's range after it. -/
def Judged (d : Delayed σ) (c : Call) : Prop :=
  reachesCheck d.state c = true → d.ended = false → ∀ time ∈ c.time,
    if time < start + delayMs then (start + delayMs) % 2 ^ 32 ≠ 0
    else (start + delayMs) % 2 ^ 32 = 0 ∨ (time - (start + delayMs)) % 2 ^ 32 < 2 ^ 31

/-- Until a request has looked at it after its end, the delay that was started is the recorded one. -/
structure Holds (d : Delayed σ) : Prop where
  since : start ≤ d.last
  recorded : d.ended = false →
    d.state.1.access.securityDelayUntilMs = Clock.tick start + securityDelayMs ∧ d.renewed = false
  cleared : d.ended = true → start + delayMs ≤ d.last ∧
    (d.renewed = false → d.state.1.access.securityDelayUntilMs = 0)

end Delayed

theorem delayActive_judged {access : Access} {start time : ℕ} (hafter : start ≤ time)
    (h : access.securityDelayUntilMs = Clock.tick start + securityDelayMs)
    (hjudged : if time < start + delayMs then (start + delayMs) % 2 ^ 32 ≠ 0
      else (start + delayMs) % 2 ^ 32 = 0 ∨ (time - (start + delayMs)) % 2 ^ 32 < 2 ^ 31) :
    access.delayActive (Clock.tick time) = decide (time < start + delayMs) := by
  have hms : delayMs = 10000 := rfl
  have hdeadline : (Clock.tick start + securityDelayMs).toNat = (start + delayMs) % 2 ^ 32 := by
    simp only [Clock.tick, securityDelayMs, UInt32.toNat_add, UInt32.toNat_ofNat', UInt32.reduceToNat, hms]
    omega
  have hzero : Clock.tick start + securityDelayMs = 0 ↔ (start + delayMs) % 2 ^ 32 = 0 := by
    rw [← UInt32.toNat_inj, hdeadline]
    rfl
  unfold Access.delayActive
  rw [h]
  generalize Clock.tick start + securityDelayMs = deadline at hdeadline hzero
  by_cases hbefore : time < start + delayMs
  · rw [if_pos hbefore] at hjudged
    have hne : deadline ≠ 0 := fun heq => hjudged (hzero.1 heq)
    have hnot : reached (Clock.tick time) deadline = false := by
      simp only [reached, Clock.tick, decide_eq_false_iff_not, UInt32.lt_iff_toNat_lt, UInt32.toNat_sub,
        UInt32.toNat_ofNat', UInt32.reduceToNat, hdeadline]
      omega
    simp [hne, hnot, hbefore]
  · rw [if_neg hbefore] at hjudged
    rcases hjudged with hnone | hhalf
    · simp [hzero.2 hnone, hbefore]
    · have hreached : reached (Clock.tick time) deadline = true := by
        simp only [reached, Clock.tick, decide_eq_true_eq, UInt32.lt_iff_toNat_lt, UInt32.toNat_sub,
          UInt32.toNat_ofNat', UInt32.reduceToNat, hdeadline]
        omega
      simp [hreached, hbefore]

namespace Delayed

variable {start : ℕ} {d : Delayed σ} {c : Call}

theorem last_le_step (hordered : d.Ordered c) : d.last ≤ (d.step start c).last := by
  change d.last ≤ c.time.getD d.last
  cases htime : c.time with
  | none => exact Nat.le_refl _
  | some time => exact hordered time htime

/-- What the check finds, for a call that is the first to look at the delay since its end, or looks at it
before. -/
theorem Holds.judged (h : d.Holds start) (hordered : d.Ordered c) (hjudged : d.Judged start c)
    (hreaches : reachesCheck d.state c = true) (hover : d.ended = false) :
    ∀ time ∈ c.time,
      d.state.1.access.delayActive (Clock.tick time) = decide (time < start + delayMs) := by
  intro time htime
  exact delayActive_judged (Nat.le_trans h.since (hordered time htime)) (h.recorded hover).1
    (hjudged hreaches hover time htime)

/-- A call that starts no delay leaves none, if none ran or it is judged to be over. -/
theorem step_idle (hcause : d.ended = true ∨ reachesCheck d.state c = true)
    (hrenewed : (d.step start c).renewed = false)
    (hzero : d.ended = true → d.state.1.access.securityDelayUntilMs = 0)
    (hinactive : ∀ time ∈ c.time, d.state.1.access.delayActive (Clock.tick time) = false) :
    (d.step start c).state.1.access.securityDelayUntilMs = 0 := by
  cases hreaches : reachesCheck d.state c with
  | true =>
    rcases step_of_not_delayActive hreaches hinactive with hstart | hdone
    · rw [(Bool.or_eq_false_iff.1 hrenewed).2] at hstart
      cases hstart
    · exact hdone
  | false =>
    rcases hcause with hbefore | htrue
    · exact (step_of_not_reachesCheck hreaches).2.1.trans (hzero hbefore)
    · rw [hreaches] at htrue
      cases htrue

theorem Holds.step (h : d.Holds start) (hordered : d.Ordered c) (hjudged : d.Judged start c) :
    (d.step start c).Holds start := by
  refine ⟨Nat.le_trans h.since (last_le_step hordered), ?_, ?_⟩
  · intro hover
    obtain ⟨hbefore, hlook⟩ := Bool.or_eq_false_iff.1 hover
    obtain ⟨hrecorded, hrenewed⟩ := h.recorded hbefore
    cases hreaches : reachesCheck d.state c with
    | false =>
      obtain ⟨hact, hdelay, -⟩ := step_of_not_reachesCheck hreaches
      refine ⟨hdelay.trans hrecorded, ?_⟩
      exact Bool.or_eq_false_iff.2 ⟨hrenewed, (not_key_of_not_evaluates (by rw [hact]; rfl)).2.2⟩
    | true =>
      have hactive : ∀ time ∈ c.time, d.state.1.access.delayActive (Clock.tick time) = true := by
        intro time htime
        rw [h.judged hordered hjudged hreaches hbefore time htime]
        simpa [hreaches, Option.mem_def.1 htime] using hlook
      obtain ⟨hact, haccess⟩ := step_of_delayActive hreaches hactive
      refine ⟨?_, ?_⟩
      · change (UdsServer.step d.state c.event).1.access.securityDelayUntilMs = _
        rw [haccess]
        exact hrecorded
      · exact Bool.or_eq_false_iff.2 ⟨hrenewed, (not_key_of_not_evaluates (by rw [hact]; rfl)).2.2⟩
  · intro hover
    rcases Bool.or_eq_true_iff.1 hover with hbefore | hlook
    · obtain ⟨hpast, hzero⟩ := h.cleared hbefore
      refine ⟨Nat.le_trans hpast (last_le_step hordered), ?_⟩
      intro hrenewed
      have hnone := hzero (Bool.or_eq_false_iff.1 hrenewed).1
      refine step_idle (Or.inl hbefore) hrenewed (fun _ => hnone) ?_
      intro time htime
      simp [Access.delayActive, hnone]
    · simp only [Bool.and_eq_true, Option.any_eq_true, decide_eq_true_eq] at hlook
      obtain ⟨hreaches, time, htime, hpast⟩ := hlook
      refine ⟨?_, ?_⟩
      · change start + delayMs ≤ c.time.getD d.last
        rw [htime]
        exact hpast
      intro hrenewed
      cases hbefore : d.ended with
      | true =>
        have hnone := (h.cleared hbefore).2 (Bool.or_eq_false_iff.1 hrenewed).1
        refine step_idle (Or.inr hreaches) hrenewed (fun _ => hnone) ?_
        intro time htime
        simp [Access.delayActive, hnone]
      | false =>
        refine step_idle (Or.inr hreaches) hrenewed (fun htrue => ?_) ?_
        · rw [hbefore] at htrue
          cases htrue
        · intro time' htime'
          cases (Option.mem_def.1 htime').symm.trans htime
          rw [h.judged hordered hjudged hreaches hbefore time htime]
          exact decide_eq_false (Nat.not_lt.2 hpast)

/-- In the delay a call performs no security access. -/
theorem Holds.closed (h : d.Holds start) (hordered : d.Ordered c) (hjudged : d.Judged start c) {time : ℕ}
    (htime : c.time = some time) (hin : time < start + delayMs) :
    UdsServer.closed d.state c.event = true ∧
      ((UdsServer.step d.state c.event).1.securityUnlocked = true →
        d.state.1.securityUnlocked = true) := by
  have hover : d.ended = false := by
    cases hover : d.ended with
    | false => rfl
    | true =>
      have hpast := (h.cleared hover).1
      have hlater := hordered time htime
      omega
  have hquiet : act d.state c.event = .nothing ∧
      ((UdsServer.step d.state c.event).1.access.securityUnlocked = true →
        d.state.1.access.securityUnlocked = true) := by
    cases hreaches : reachesCheck d.state c with
    | false =>
      obtain ⟨hact, -, hlocked⟩ := step_of_not_reachesCheck hreaches
      exact ⟨hact, hlocked⟩
    | true =>
      obtain ⟨hact, haccess⟩ := step_of_delayActive hreaches (by
        intro time' htime'
        cases (Option.mem_def.1 htime').symm.trans htime
        rw [h.judged hordered hjudged hreaches hover time htime]
        exact decide_eq_true hin)
      rw [haccess]
      exact ⟨hact, id⟩
  refine ⟨?_, hquiet.2⟩
  have hreply := respond_grants hquiet.1
  rw [UdsServer.closed, hquiet.1, hreply]
  rfl

/-- From the end of the delay on, no call is refused because of it. -/
theorem Holds.open (h : d.Holds start) (hordered : d.Ordered c) (hjudged : d.Judged start c) {time : ℕ}
    (htime : c.time = some time) (hpast : start + delayMs ≤ time)
    (hrefused : (respond d.state c.event).1.delayed = true) : d.renewed = true := by
  obtain ⟨hreaches, time', htime', hactive⟩ := delayed_cause hrefused
  cases (Option.mem_def.1 htime').symm.trans htime
  cases hover : d.ended with
  | false =>
    rw [h.judged hordered hjudged hreaches hover time htime, decide_eq_true_eq] at hactive
    omega
  | true =>
    cases hrenewed : d.renewed with
    | true => rfl
    | false =>
      have hnone := (h.cleared hover).2 hrenewed
      simp [Access.delayActive, hnone] at hactive

end Delayed

/-! ## The result -/

/-- The observer when the third wrong key has been compared. -/
def delayStarted (s : UdsServer σ × σ) (start : ℕ) (request : List UInt8) (capacity : ℕ) : Delayed σ where
  state := UdsServer.step s (.process (Clock.tick start) request capacity)
  ended := false
  renewed := false
  last := start

/-- What a call after the start of the delay should do: in the delay no seed goes out and nothing is
unlocked, and from its end on no request is refused with NRC 0x37 unless another delay has been started. -/
def DelayKept (start : ℕ) (d : Delayed σ) (c : Call) : Prop :=
  ∀ time ∈ c.time,
    (time < start + delayMs → UdsServer.closed d.state c.event = true ∧
      ((UdsServer.step d.state c.event).1.securityUnlocked = true → d.state.1.securityUnlocked = true)) ∧
    (start + delayMs ≤ time → (respond d.state c.event).1.delayed = true → d.renewed = true)

/-- **The delay lasts as long as it should** in every run in which the requests that look at it are judged by
the wrapped clock as real time judges them. -/
theorem delay_kept_of_judged {s : UdsServer σ × σ} {start : ℕ} {request : List UInt8} {capacity : ℕ}
    (hstart : startsDelay s (.process (Clock.tick start) request capacity) = true) (calls : List Call)
    (hordered : AllSteps (Delayed.step start) (delayStarted s start request capacity)
      Delayed.Ordered calls)
    (hjudged : AllSteps (Delayed.step start) (delayStarted s start request capacity)
      (Delayed.Judged start) calls) :
    AllSteps (Delayed.step start) (delayStarted s start request capacity) (DelayKept start) calls := by
  have hfresh : (delayStarted s start request capacity).Holds start :=
    ⟨Nat.le_refl start, fun _ => ⟨startsDelay_delay hstart, rfl⟩,
      fun htrue => absurd htrue Bool.false_ne_true⟩
  rintro a c b rfl
  have hsteps : AllSteps (Delayed.step start) (delayStarted s start request capacity)
      (fun d c => d.Ordered c ∧ d.Judged start c) a := by
    rintro a' c' b' rfl
    exact ⟨hordered a' c' (b' ++ c :: b) (by simp), hjudged a' c' (b' ++ c :: b) (by simp)⟩
  have hholds := after_invariant_of (I := fun d : Delayed σ => d.Holds start) hfresh
    (fun _ _ ht hc => ht.step hc.1 hc.2) a hsteps
  have hthis := hordered a c b rfl
  have hjudge := hjudged a c b rfl
  intro time htime
  exact ⟨hholds.closed hthis hjudge htime, hholds.open hthis hjudge htime⟩

/-! ## Three wrong keys at one time -/

/-- A request at a real time. -/
def requestAt (time : ℕ) (bytes : List UInt8) : Call := .process time bytes 16

def badKey : List UInt8 := [sidSecurityAccess, securitySendKey, 0, 0, 0, 0]

def askSeed : List UInt8 := [sidSecurityAccess, securityRequestSeed]

def enterExtended : List UInt8 := [sidDiagnosticSessionControl, sessionExtended]

/-- A server that has compared two wrong keys at the time `start` and has a third seed pending. -/
def twoWrongKeys (start : ℕ) : UdsServer Unit × Unit :=
  after UdsServer.step (bareServer, ()) <|
    [enterExtended, askSeed, badKey, askSeed, badKey, askSeed].map fun bytes => (requestAt start bytes).event

/-- A seed is refused in the last millisecond of the delay and goes out right after it. -/
theorem delay_kept_of_judged_zero : AllSteps (Delayed.step 0) (delayStarted (twoWrongKeys 0) 0 badKey 16)
    (DelayKept 0) [requestAt 9999 enterExtended, requestAt 9999 askSeed, requestAt 10000 askSeed] := by
  refine delay_kept_of_judged (by decide +kernel) _ ?_ ?_
  · simp only [allSteps_cons]
    refine ⟨?_, ?_, ?_, allSteps_nil⟩
    all_goals
      rintro time ⟨⟩
      decide +kernel
  · simp only [allSteps_cons]
    refine ⟨?_, ?_, ?_, allSteps_nil⟩
    all_goals
      rintro - - time ⟨⟩
      decide

/-- The delay lasts as long as it should in every run. -/
def DelayWindow (s : UdsServer σ × σ) (start : ℕ) (request : List UInt8) (capacity : ℕ) : Prop :=
  startsDelay s (.process (Clock.tick start) request capacity) = true → ∀ calls,
    AllSteps (Delayed.step start) (delayStarted s start request capacity) Delayed.Ordered calls →
    AllSteps (Delayed.step start) (delayStarted s start request capacity) (DelayKept start) calls

/-- A delay whose deadline falls on the value 0 is none: the next seed goes out at once. -/
theorem not_delayWindow_zeroDeadline :
    ¬DelayWindow (twoWrongKeys 4294957296) 4294957296 badKey 16 := by
  intro h
  have hkept := h (by decide +kernel) [requestAt 4294957297 askSeed] (by
    rw [allSteps_cons]
    refine ⟨?_, allSteps_nil⟩
    rintro time ⟨⟩
    decide +kernel)
  rw [allSteps_cons] at hkept
  have hclosed := ((hkept.1 4294957297 rfl).1 (by decide)).1
  exact absurd hclosed (by decide +kernel)

/-- A request that comes more than half the range after the end of the delay is refused because of it. -/
theorem not_delayWindow_halfRange : ¬DelayWindow (twoWrongKeys 0) 0 badKey 16 := by
  intro h
  have hkept := h (by decide +kernel) [requestAt 2147493648 enterExtended, requestAt 2147493648 askSeed] (by
    simp only [allSteps_cons]
    refine ⟨?_, ?_, allSteps_nil⟩
    all_goals
      rintro time ⟨⟩
      decide +kernel)
  simp only [allSteps_cons] at hkept
  have hrenewed := (hkept.2.1 2147493648 rfl).2 (by decide) (by decide +kernel)
  exact absurd hrenewed (by decide +kernel)

end DualCan.Uds
