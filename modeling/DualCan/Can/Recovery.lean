import DualCan.Can.Health
import DualCan.Run.Past

/-!
# Bus-Off recovery

`APP_ServiceCanHealth` as a program of single accesses to what it shares with `CanDriver_OnErrorIsr`, with error
interrupts between any two of them. Whether an attempt counts as recovered depends on BOFF at the end of the
settle window only: the event counter that should tell a new Bus-Off entry stands still during the window.
-/

namespace DualCan.Can

open DualCan.Run

/-! ## The program -/

def recoveryPeriodMs : UInt32 := 1000
def recoverySettleMs : UInt32 := 1500

/-- What the main loop does next in `APP_ServiceCanHealth`. The last six are `CanHealth_AttemptRecovery`. -/
inductive Pc where
  | idle
  | readFlag
  | readEvents
  | restart (now : UInt32)
  | arm (now : UInt32)
  | attempt (recovered : Bool)
  | setActive
  | clearTec
  | clearRec
  | countSuccess
  | countFailure
  deriving DecidableEq, Repr

/-- The monitor and the static variables of `APP_ServiceCanHealth`. -/
structure Recovery where
  health : CanHealth
  lastRecoveryTick : UInt32
  attemptStartedTick : UInt32
  busOffEventsAtAttempt : UInt32
  attemptPending : Bool
  pc : Pc

/-- After a reset of the MCU. -/
def Recovery.init : Recovery where
  health := CanHealth.init none
  lastRecoveryTick := 0
  attemptStartedTick := 0
  busOffEventsAtAttempt := 0
  attemptPending := false
  pc := .idle

/-- A step of the main loop in `APP_ServiceCanHealth`, with the time of a call, the status register if it is
read and the outcome of `CanDriver_Recover` if it is called; an error interrupt; or the synchronisation of
`APP_UpdateHealthSummary` between two calls. -/
inductive RecoveryEvent where
  | main (now esr : UInt32) (restarted : Bool)
  | errorIsr (errorCode esr : UInt32)
  | summary (esr : UInt32)
  deriving DecidableEq, Repr

namespace Recovery

/-- One access of `APP_ServiceCanHealth`. `escalation` is the build option that resets the MCU. -/
def mainStep (escalation : Bool) (s : Recovery) (now esr : UInt32) (restarted : Bool) : Recovery :=
  match s.pc with
  | .idle =>
    if s.attemptPending then
      if now - s.attemptStartedTick < recoverySettleMs then s
      else { s with attemptPending := false, pc := .readFlag }
    else if s.health.state ≠ .busOff then s
    else if now - s.lastRecoveryTick < recoveryPeriodMs then s
    else { s with lastRecoveryTick := now, pc := .restart now }
  | .readFlag => { s with pc := if busOffActive esr then .attempt false else .readEvents }
  | .readEvents => { s with pc := .attempt (s.health.busOffEvents == s.busOffEventsAtAttempt) }
  | .restart now => { s with pc := if restarted then .arm now else .attempt false }
  | .arm now =>
    { s with
      attemptPending := true
      attemptStartedTick := now
      busOffEventsAtAttempt := s.health.busOffEvents
      pc := .idle }
  | .attempt recovered =>
    { s with
      health := { s.health with recoveryAttempts := s.health.recoveryAttempts + 1 }
      pc := if recovered then .setActive else .countFailure }
  | .setActive => { s with health := { s.health with state := .errorActive }, pc := .clearTec }
  | .clearTec => { s with health := { s.health with tec := 0 }, pc := .clearRec }
  | .clearRec => { s with health := { s.health with recCounter := 0 }, pc := .countSuccess }
  | .countSuccess =>
    { s with
      health := { s.health with
        recoverySuccesses := s.health.recoverySuccesses + 1
        consecutiveRecoveryFailures := 0 }
      pc := .idle }
  | .countFailure =>
    let health := s.health.countFailure
    if escalation && health.resetRequested then init else { s with health := health, pc := .idle }

def step (escalation : Bool) (s : Recovery) : RecoveryEvent → Recovery
  | .main now esr restarted => s.mainStep escalation now esr restarted
  | .errorIsr errorCode esr => { s with health := onErrorIsr s.health errorCode esr }
  | .summary esr =>
    match s.pc with
    | .idle =>
      let (tec, rec, active) := getErrorCounters esr
      { s with health := s.health.syncHardwareCounters tec rec active }
    | _ => s

/-- The attempt that a step counts, as a success or as a failure. -/
def counted (s : Recovery) : RecoveryEvent → Option Bool
  | .main .. =>
    match s.pc with
    | .countSuccess => some true
    | .countFailure => some false
    | _ => none
  | _ => none

/-- The step adds to the successes and the failures of the monitor what it counts, or counts a failure and
resets the MCU. -/
def CountersFollow (escalation : Bool) (s : Recovery) (e : RecoveryEvent) : Prop :=
  (escalation = true ∧ s.counted e = some false ∧ s.step escalation e = init) ∨
    ((s.step escalation e).health.recoverySuccesses =
        s.health.recoverySuccesses + (if s.counted e = some true then 1 else 0) ∧
      (s.step escalation e).health.recoveryFailures =
        s.health.recoveryFailures + (if s.counted e = some false then 1 else 0))

variable {escalation : Bool}

theorem step_counters (escalation : Bool) (s : Recovery) (e : RecoveryEvent) : s.CountersFollow escalation e := by
  have hkept : ∀ {health : CanHealth}, health.recovery = s.health.recovery → s.counted e = none →
      health.recoverySuccesses = s.health.recoverySuccesses + (if s.counted e = some true then 1 else 0) ∧
        health.recoveryFailures = s.health.recoveryFailures + (if s.counted e = some false then 1 else 0) := by
    intro health hsame hnone
    simp only [CanHealth.recovery, Prod.mk.injEq] at hsame
    simp [hnone, hsame]
  unfold CountersFollow
  cases e with
  | errorIsr errorCode esr => exact Or.inr (hkept (CanHealth.onErrorIsr_recovery ..) rfl)
  | summary esr =>
    refine Or.inr (hkept ?_ rfl)
    unfold step
    dsimp only
    split
    · exact CanHealth.syncHardwareCounters_recovery ..
    · rfl
  | main now esr restarted =>
    unfold step mainStep
    cases hpc : s.pc with
    | countSuccess => simp [counted, hpc]
    | countFailure =>
      obtain ⟨hsuccesses, hfailures⟩ := CanHealth.countFailure_counters s.health
      dsimp only
      split
      · next hreset => exact Or.inl ⟨(Bool.and_eq_true_iff.1 hreset).1, by simp only [counted, hpc], rfl⟩
      · exact Or.inr (by simp [counted, hpc, hsuccesses, hfailures])
    | idle =>
      have hnone : s.counted (.main now esr restarted) = none := by simp [counted, hpc]
      dsimp only
      refine Or.inr ?_
      split
      · split <;> exact hkept rfl hnone
      split
      · exact hkept rfl hnone
      split <;> exact hkept rfl hnone
    | _ => exact Or.inr (by simp [counted, hpc])

/-- Without an interrupt the accesses after a verdict are `CanHealth_AttemptRecovery`. -/
theorem attempt_uninterrupted {s : Recovery} {recovered : Bool} (h : s.pc = .attempt recovered) :
    ∃ n, (after (step false) s (List.replicate n (.main 0 0 false))).health =
        (s.health.attemptRecovery recovered).2 ∧
      (after (step false) s (List.replicate n (.main 0 0 false))).pc = .idle := by
  obtain ⟨health, last, started, events, pending, pc⟩ := s
  obtain rfl : pc = .attempt recovered := h
  cases recovered with
  | true => exact ⟨5, rfl, rfl⟩
  | false => exact ⟨2, rfl, rfl⟩

end Recovery

/-! ## What happens during an attempt -/

/-- What the environment does during the current attempt: the register is read without BOFF at its judgement,
and an error interrupt reports a Bus-Off entry during its settle window. -/
structure Attempt where
  flagClear : Bool
  reported : Bool
  deriving DecidableEq, Repr

/-- The settle window of an attempt lasts until its verdict. -/
def Recovery.windowOpen (s : Recovery) : Bool :=
  s.attemptPending || s.pc = .readFlag || s.pc = .readEvents

/-- A restart or an arming starts a new attempt. -/
def Attempt.observe (attempt : Attempt) (s : Recovery) : RecoveryEvent → Attempt
  | .main _ esr _ =>
    match s.pc with
    | .restart _ => ⟨false, false⟩
    | .arm _ => ⟨false, false⟩
    | .readFlag => { attempt with flagClear := !busOffActive esr }
    | _ => attempt
  | .errorIsr errorCode esr =>
    { attempt with reported := attempt.reported || (s.windowOpen && reportsBusOff errorCode esr) }
  | .summary _ => attempt

/-- The program with the attempt it is in. -/
structure Watched where
  state : Recovery
  attempt : Attempt

namespace Watched

def init : Watched := ⟨Recovery.init, ⟨false, false⟩⟩

def step (escalation : Bool) (t : Watched) (e : RecoveryEvent) : Watched :=
  ⟨t.state.step escalation e, t.attempt.observe t.state e⟩

/-- An attempt that the step counts is a success exactly if BOFF was clear at its judgement and no error
interrupt reported a Bus-Off entry during its settle window. -/
def VerdictRight (t : Watched) (e : RecoveryEvent) : Prop :=
  ∀ success, t.state.counted e = some success →
    (success = true ↔ t.attempt.flagClear = true ∧ t.attempt.reported = false)

/-- The step counts an attempt with an entry reported during its settle window and BOFF clear at its end. -/
def MissesEntry (t : Watched) (e : RecoveryEvent) : Prop :=
  (t.state.counted e).isSome = true ∧ t.attempt.flagClear = true ∧ t.attempt.reported = true

end Watched

/-! ## The invariant -/

/-- BOFF as it must have been read for the main loop to be here. -/
def Pc.flagClear : Pc → Option Bool
  | readEvents => some true
  | attempt recovered => some recovered
  | setActive => some true
  | clearTec => some true
  | clearRec => some true
  | countSuccess => some true
  | countFailure => some false
  | _ => none

/-- While the window is open the state is Bus-Off and the event counter is the one that was sampled. -/
structure Watched.Sound (t : Watched) : Prop where
  window : t.state.windowOpen = true →
    t.state.health.state = .busOff ∧ t.state.health.busOffEvents = t.state.busOffEventsAtAttempt
  restarting : ∀ now, t.state.pc = .restart now ∨ t.state.pc = .arm now → t.state.health.state = .busOff
  pending : t.state.attemptPending = true → t.state.pc = .idle
  flag : ∀ clear, t.state.pc.flagClear = some clear → t.attempt.flagClear = clear

namespace Watched

theorem sound_init : init.Sound where
  window := nofun
  restarting := fun _ hpc => by rcases hpc with hpc | hpc <;> cases hpc
  pending := nofun
  flag := nofun

/-- A step that leaves Bus-Off alone, and the program where it is, keeps the invariant. -/
theorem Sound.of_health {t : Watched} (h : t.Sound) {health : CanHealth} {attempt : Attempt}
    (hstate : t.state.health.state = .busOff →
      health.state = .busOff ∧ health.busOffEvents = t.state.health.busOffEvents)
    (hflag : attempt.flagClear = t.attempt.flagClear) :
    (⟨{ t.state with health := health }, attempt⟩ : Watched).Sound where
  window := fun hopen =>
    let ⟨hbusOff, hevents⟩ := h.window hopen
    ⟨(hstate hbusOff).1, (hstate hbusOff).2.trans hevents⟩
  restarting := fun now hpc => (hstate (h.restarting now hpc)).1
  pending := h.pending
  flag := fun clear hclear => hflag.trans (h.flag clear hclear)

theorem Sound.main {t : Watched} (h : t.Sound) (escalation : Bool) (now esr : UInt32) (restarted : Bool) :
    (step escalation t (.main now esr restarted)).Sound := by
  obtain ⟨⟨health, last, started, events, pending, pc⟩, attempt⟩ := t
  have hclosed : pc ≠ .idle → pending = false := by
    intro hpc
    cases hpending : pending with
    | false => rfl
    | true => exact absurd (h.pending hpending) hpc
  cases pc with
  | idle =>
    unfold step Recovery.step Recovery.mainStep
    dsimp only
    split
    · rename_i hpending
      split
      · exact h
      · -- the attempt is judged: its window stays open
        exact ⟨fun _ => h.window (by simp [Recovery.windowOpen, hpending]), nofun, nofun, nofun⟩
    split
    · exact h
    rename_i hpending hbusOff
    split
    · exact h
    · exact ⟨fun hopen => h.window hopen, fun _ _ => not_not.1 hbusOff,
        fun htrue => absurd htrue hpending, nofun⟩
  | readFlag =>
    obtain rfl := hclosed nofun
    have hwindow := h.window rfl
    cases hflag : busOffActive esr with
    | true =>
      simp only [step, Recovery.step, Recovery.mainStep, Attempt.observe, hflag, if_true]
      exact ⟨nofun, nofun, nofun, fun clear hclear => Option.some.inj hclear⟩
    | false =>
      simp only [step, Recovery.step, Recovery.mainStep, Attempt.observe, hflag, Bool.false_eq_true, if_false]
      exact ⟨fun _ => hwindow, nofun, nofun, fun clear hclear => Option.some.inj hclear⟩
  | readEvents =>
    obtain rfl := hclosed nofun
    -- the counter is the sampled one, so the verdict is the flag's
    have hsame : (health.busOffEvents == events) = true := beq_iff_eq.2 (h.window rfl).2
    simp only [step, Recovery.step, Recovery.mainStep, Attempt.observe, hsame]
    exact ⟨nofun, nofun, nofun, h.flag⟩
  | restart start =>
    obtain rfl := hclosed nofun
    have hbusOff := h.restarting start (Or.inl rfl)
    cases restarted with
    | true => exact ⟨nofun, fun _ _ => hbusOff, nofun, nofun⟩
    | false => exact ⟨nofun, nofun, nofun, fun clear hclear => Option.some.inj hclear⟩
  | arm start =>
    have hbusOff := h.restarting start (Or.inr rfl)
    exact ⟨fun _ => ⟨hbusOff, rfl⟩, nofun, fun _ => rfl, nofun⟩
  | attempt recovered =>
    obtain rfl := hclosed nofun
    have hflag := h.flag recovered rfl
    cases recovered with
    | true => exact ⟨nofun, nofun, nofun, fun clear hclear => hflag.trans (Option.some.inj hclear)⟩
    | false => exact ⟨nofun, nofun, nofun, fun clear hclear => hflag.trans (Option.some.inj hclear)⟩
  | setActive =>
    obtain rfl := hclosed nofun
    exact ⟨nofun, nofun, nofun, h.flag⟩
  | clearTec =>
    obtain rfl := hclosed nofun
    exact ⟨nofun, nofun, nofun, h.flag⟩
  | clearRec =>
    obtain rfl := hclosed nofun
    exact ⟨nofun, nofun, nofun, h.flag⟩
  | countSuccess =>
    obtain rfl := hclosed nofun
    exact ⟨nofun, nofun, nofun, nofun⟩
  | countFailure =>
    obtain rfl := hclosed nofun
    unfold step Recovery.step Recovery.mainStep
    dsimp only
    split
    · exact ⟨nofun, nofun, nofun, nofun⟩
    · exact ⟨nofun, nofun, nofun, nofun⟩

theorem Sound.step {t : Watched} (h : t.Sound) (escalation : Bool) (e : RecoveryEvent) :
    (step escalation t e).Sound := by
  cases e with
  | main now esr restarted => exact h.main escalation now esr restarted
  | errorIsr errorCode esr =>
    exact h.of_health (fun hbusOff => CanHealth.onErrorIsr_of_busOff hbusOff errorCode esr) rfl
  | summary esr =>
    unfold Watched.step Recovery.step
    dsimp only
    split
    · exact h.of_health (fun hbusOff => CanHealth.syncHardwareCounters_of_busOff hbusOff ..) rfl
    · exact h

/-! ## The verdict -/

/-- What is counted is what the flag said. -/
theorem Sound.counted {t : Watched} (h : t.Sound) {e : RecoveryEvent} {success : Bool}
    (hcounted : t.state.counted e = some success) : t.attempt.flagClear = success := by
  refine h.flag success ?_
  unfold Recovery.counted at hcounted
  split at hcounted
  · split at hcounted
    · rename_i hpc
      rw [hpc]
      exact hcounted
    · rename_i hpc
      rw [hpc]
      exact hcounted
    · cases hcounted
  · cases hcounted

theorem Sound.verdictRight_iff {t : Watched} (h : t.Sound) (e : RecoveryEvent) :
    t.VerdictRight e ↔ ¬t.MissesEntry e := by
  unfold VerdictRight MissesEntry
  cases hcounted : t.state.counted e with
  | none => exact iff_of_true nofun (fun hmiss => Bool.false_ne_true hmiss.1)
  | some success =>
    have hflag := h.counted hcounted
    subst hflag
    constructor
    · rintro hright ⟨-, hclear, hreported⟩
      have hquiet := ((hright _ rfl).1 hclear).2
      rw [hreported] at hquiet
      cases hquiet
    · intro hmiss success hsuccess
      obtain rfl := Option.some.inj hsuccess
      refine ⟨fun hclear => ⟨hclear, ?_⟩, And.left⟩
      exact Bool.eq_false_iff.2 fun hreported => hmiss ⟨rfl, hclear, hreported⟩

/-- **When the verdict is right.** In every run, with error interrupts between any two accesses, the counters
of the monitor count the attempts; and every attempt is counted as its settle window and its final flag say,
exactly if no attempt had a Bus-Off entry reported during its settle window and BOFF clear again at its end. -/
theorem verdicts_right_iff (escalation : Bool) (es : List RecoveryEvent) :
    AllSteps (step escalation) init (fun t e => t.state.CountersFollow escalation e) es ∧
      (AllSteps (step escalation) init VerdictRight es ↔
        AllSteps (step escalation) init (fun t e => ¬t.MissesEntry e) es) := by
  have hsound : ∀ prior, (after (step escalation) init prior).Sound :=
    after_invariant sound_init fun t e ht => ht.step escalation e
  refine ⟨fun prior e _ _ => Recovery.step_counters escalation _ e, ?_⟩
  constructor
  · intro hright prior e rest hsplit
    exact ((hsound prior).verdictRight_iff e).1 (hright prior e rest hsplit)
  · intro hmiss prior e rest hsplit
    exact ((hsound prior).verdictRight_iff e).2 (hmiss prior e rest hsplit)

/-- A Bus-Off entry, a restart a second later, another entry 500 ms into its settle window, and the flag clear
at its end. -/
def entryInWindow : List RecoveryEvent :=
  [.errorIsr halErrorBof 0x04, .main 1000 0 true, .main 1000 0 true, .main 1000 0 true,
    .errorIsr halErrorBof 0x04, .main 2500 0 true, .main 2500 0 true, .main 2500 0 true, .main 2500 0 true,
    .main 2500 0 true, .main 2500 0 true, .main 2500 0 true, .main 2500 0 true]

/-- Every verdict of every run is right. -/
def VerdictsRight (escalation : Bool) : Prop :=
  ∀ es, AllSteps (step escalation) init VerdictRight es

/-- The attempt is counted as a success. -/
theorem not_verdictsRight_entryInWindow : ¬VerdictsRight true := by
  intro h
  have hright := h entryInWindow (entryInWindow.take 12) (.main 2500 0 true) [] rfl true (by decide +kernel)
  exact absurd (hright.1 rfl).2 (by decide +kernel)

end Watched

end DualCan.Can
