import DualCan.Uds.Requests

/-!
# The session timer

A third view of the server: the session, its S3 timer and the configured times. Session control sets it, an
accepted request refreshes it, a tick that finds it expired ends the session. With `access` and `work` it is
the whole server.
-/

namespace DualCan.Uds

open DualCan.Clock

/-- The session, its timer and the configured times. -/
structure Timer where
  session : UInt8
  s3Active : Bool
  s3DeadlineMs : UInt32
  sessionTimeoutCount : UInt32
  s3ServerMs : UInt16
  p2ServerMs : UInt16
  p2StarServerMs : UInt16
  supportedSessionsMask : UInt8

/-- What a request does to the timer. -/
inductive TimerAct where
  | nothing
  | enter (session : UInt8)
  | refresh
  deriving DecidableEq

namespace Timer

/-- The timer has run out. -/
def expired (timer : Timer) (now : UInt32) : Bool :=
  timer.s3Active && reached now timer.s3DeadlineMs

def tick (timer : Timer) (now : UInt32) : Timer :=
  if timer.expired now then
    { timer with
      session := sessionDefault
      s3Active := false
      s3DeadlineMs := 0
      sessionTimeoutCount := timer.sessionTimeoutCount + 1 }
  else timer

def refresh (timer : Timer) (now : UInt32) : Timer :=
  if timer.s3Active then { timer with s3DeadlineMs := now + timer.s3ServerMs.toUInt32 } else timer

def enter (timer : Timer) (session : UInt8) (now : UInt32) : Timer :=
  if session = sessionDefault then
    { timer with session := session, s3Active := false, s3DeadlineMs := 0 }
  else
    { timer with
      session := session
      s3Active := true
      s3DeadlineMs := now + timer.s3ServerMs.toUInt32 }

def perform (timer : Timer) (now : UInt32) : TimerAct → Timer
  | .nothing => timer
  | .enter session => timer.enter session now
  | .refresh => timer.refresh now

end Timer

namespace UdsServer

variable {σ : Type} (server : UdsServer σ) (env : σ) (now : UInt32) (args data : List UInt8)
  (capacity index : ℕ)

def timer : Timer where
  session := server.session
  s3Active := server.s3Active
  s3DeadlineMs := server.s3DeadlineMs
  sessionTimeoutCount := server.sessionTimeoutCount
  s3ServerMs := server.s3ServerMs
  p2ServerMs := server.p2ServerMs
  p2StarServerMs := server.p2StarServerMs
  supportedSessionsMask := server.supportedSessionsMask

/-- The three views are the whole server. -/
theorem eq_of_views {a b : UdsServer σ} (haccess : a.access = b.access) (htimer : a.timer = b.timer)
    (hwork : a.work = b.work) : a = b := by
  cases a
  cases b
  simp only [access, timer, work, Access.mk.injEq, Timer.mk.injEq, Work.mk.injEq] at haccess htimer hwork
  simp only [mk.injEq]
  tauto

/-! ## Services that leave the timer alone -/

@[simp] theorem lockSecurityState_timer : server.lockSecurityState.timer = server.timer := rfl

@[simp] theorem expireDelay_timer : (server.expireDelay now).timer = server.timer := by
  unfold expireDelay
  split <;> rfl

@[simp] theorem requestSeed_timer (suppress : Bool) :
    (server.requestSeed suppress capacity).2.timer = server.timer := by
  unfold requestSeed
  split <;> rfl

@[simp] theorem evaluateKey_timer (key : UInt32) (suppress : Bool) :
    (server.evaluateKey now key suppress capacity).2.timer = server.timer := by
  unfold evaluateKey
  dsimp only
  split
  · split <;> rfl
  · rfl

@[simp] theorem securityAccess_timer :
    (server.securityAccess now args capacity).2.timer = server.timer := by
  unfold securityAccess
  split
  · rfl
  simp only
  split
  · rfl
  split
  · rfl
  rw [securityDelayActive_eq]
  cases server.access.delayActive now with
  | true => exact expireDelay_timer ..
  | false =>
    simp only
    split
    · rw [requestSeed_timer, expireDelay_timer]
    split
    · split
      · exact expireDelay_timer ..
      · rw [evaluateKey_timer, expireDelay_timer]
    · exact expireDelay_timer ..

@[simp] theorem writeDid_timer : (server.writeDid args capacity).2.timer = server.timer := by
  rcases writeDid_cases server args capacity with
    ⟨-, nrc, -, h⟩ | ⟨index, entry, data, -, ⟨-, h⟩ | ⟨-, high, low, h⟩⟩
  all_goals exact congrArg (fun outcome => outcome.2.timer) h

@[simp] theorem dropPendingRoutine_timer :
    (server.dropPendingRoutine index).timer = server.timer := by
  unfold dropPendingRoutine
  split <;> rfl

@[simp] theorem routineControl_timer :
    (server.routineControl env args capacity).2.1.timer = server.timer := by
  rcases routineControl_cases server env args capacity with
    ⟨-, reply, next, -, h, rfl | ⟨-, -, -, -, index, -, -, -, rfl⟩⟩ |
    ⟨index, routine, sub, data, haccept, hrun⟩
  · rw [h]
  · rw [h]
    exact dropPendingRoutine_timer ..
  obtain ⟨-, -, -, -, -, -, hsub⟩ := acceptedRoutine_some haccept
  rw [hrun, ← server.dropPendingRoutine_timer index]
  rcases runRoutine_cases (server.dropPendingRoutine index) env data capacity index routine
      (sub &&& subfunctionMask) (sub &&& suppressPositiveResponse ≠ 0) hsub with
    ⟨-, reply, -, h⟩ | ⟨-, ⟨-, h⟩ | ⟨-, h⟩⟩
  all_goals exact congrArg (fun outcome => outcome.2.1.timer) h

@[simp] theorem pollPending_timer :
    (server.pollPending env capacity).2.1.timer = server.timer := by
  unfold pollPending
  split
  · rcases pollWrite_cases server env capacity with
      h | ⟨entry, save, -, -, -, ⟨-, h⟩ | ⟨-, h⟩⟩
    all_goals exact congrArg (fun outcome => outcome.2.1.timer) h
  split
  · unfold pollRoutine
    split
    · rfl
    dsimp only
    split <;> rfl
  · rfl

/-! ## What sets and refreshes it -/

theorem tick_timer : (server.tick now).timer = server.timer.tick now := by
  unfold UdsServer.tick Timer.tick Timer.expired
  simp only [Bool.and_eq_true]
  change _ = if server.s3Active = true ∧ reached now server.s3DeadlineMs = true then _ else _
  split <;> rfl

@[simp] theorem keepSessionAlive_timer :
    (server.keepSessionAlive now).timer = server.timer.refresh now := by
  unfold keepSessionAlive Timer.refresh
  change _ = if server.s3Active = true then _ else _
  split <;> rfl

theorem setSession_timer (session : UInt8) :
    (server.setSession session now).timer = server.timer.enter session now := by
  unfold setSession Timer.enter
  by_cases hne : session ≠ server.session
  · simp only [if_pos hne]
    split <;> rfl
  · simp only [if_neg hne]
    split <;> rfl

theorem finish_timer (outcome : Reply × UdsServer σ × σ) : (finish now outcome).2.1.timer =
    if outcome.1.keepsSession then outcome.2.1.timer.refresh now else outcome.2.1.timer := by
  unfold finish
  split
  · exact keepSessionAlive_timer ..
  · rfl

/-- The services after which `UdsServer_Process` refreshes the timer of its own accord. -/
def refreshes (service : UInt8) : Bool :=
  service = sidReadDataByIdentifier || service = sidSecurityAccess ||
    service = sidWriteDataByIdentifier || service = sidRoutineControl

/-- A tester present that is accepted. -/
def testerPresentAccepted : List UInt8 → Bool
  | [subfunction] => subfunction &&& subfunctionMask = 0
  | _ => false

/-- What a request does to the timer: session control enters a session, an accepted tester present
refreshes, and so does any of the four other services when its reply is positive or NRC 0x78. -/
def timerAct (reply : Reply) (service : UInt8) : TimerAct :=
  if service = sidDiagnosticSessionControl then
    match server.requestedSession args with
    | some session => .enter session
    | none => .nothing
  else if service = sidTesterPresent then
    if testerPresentAccepted args then .refresh else .nothing
  else if refreshes service && reply.keepsSession then .refresh
  else .nothing

theorem testerPresent_timer : (server.testerPresent now args capacity).2.timer =
    if testerPresentAccepted args then server.timer.refresh now else server.timer := by
  match args with
  | [] => rfl
  | [subfunction] =>
    unfold testerPresent testerPresentAccepted
    by_cases h : subfunction &&& subfunctionMask = 0
    · simp [h]
    · simp [h]
  | _ :: _ :: _ => rfl

theorem sessionControl_timer : (server.sessionControl now args capacity).2.timer =
    match server.requestedSession args with
    | some session => server.timer.enter session now
    | none => server.timer := by
  rw [sessionControl_snd]
  cases server.requestedSession args with
  | none => rfl
  | some session => exact setSession_timer ..

theorem dispatch_timer (service : UInt8) :
    (server.dispatch env now service args capacity).2.1.timer = server.timer.perform now
      (server.timerAct args (server.dispatch env now service args capacity).1 service) := by
  by_cases h10 : service = sidDiagnosticSessionControl
  · subst h10
    change (server.sessionControl now args capacity).2.timer = _
    rw [sessionControl_timer, timerAct, if_pos rfl]
    cases server.requestedSession args with
    | none => rfl
    | some session => rfl
  by_cases h3E : service = sidTesterPresent
  · subst h3E
    change (server.testerPresent now args capacity).2.timer = _
    rw [testerPresent_timer, timerAct, if_neg h10, if_pos rfl]
    split <;> rfl
  have hfinish : ∀ outcome : Reply × UdsServer σ × σ, refreshes service = true →
      server.dispatch env now service args capacity = finish now outcome →
      outcome.2.1.timer = server.timer →
      (server.dispatch env now service args capacity).2.1.timer = server.timer.perform now
        (server.timerAct args (server.dispatch env now service args capacity).1 service) := by
    intro outcome hservice hdispatch htimer
    rw [hdispatch, finish_timer, finish_reply, htimer, timerAct, if_neg h10, if_neg h3E, hservice,
      Bool.true_and]
    split <;> rfl
  by_cases h22 : service = sidReadDataByIdentifier
  · subst h22
    exact hfinish (server.readDid args capacity, server, env) rfl rfl rfl
  by_cases h27 : service = sidSecurityAccess
  · subst h27
    exact hfinish ((server.securityAccess now args capacity).1,
      (server.securityAccess now args capacity).2, env) rfl rfl (securityAccess_timer ..)
  by_cases h2E : service = sidWriteDataByIdentifier
  · subst h2E
    exact hfinish ((server.writeDid args capacity).1, (server.writeDid args capacity).2, env) rfl rfl
      (writeDid_timer ..)
  by_cases h31 : service = sidRoutineControl
  · subst h31
    exact hfinish (server.routineControl env args capacity) rfl rfl (routineControl_timer ..)
  · have hnot : refreshes service = false := by simp [refreshes, h22, h27, h2E, h31]
    simp only [dispatch, timerAct, if_neg h10, if_neg h22, if_neg h27, if_neg h2E, if_neg h31,
      if_neg h3E, hnot, Bool.false_and, Bool.false_eq_true, if_false]
    rfl

/-- The timer after a request: its tick, then what the request does to it. -/
theorem step_timer (s : UdsServer σ × σ) (service : UInt8) :
    let e := Event.process now (service :: args) capacity
    (step s e).1.timer = (s.1.timer.tick now).perform now
      ((s.1.tick now).timerAct args (respond s e).1 service) := by
  change ((s.1.tick now).dispatch s.2 now service args capacity).2.1.timer = _
  rw [dispatch_timer, tick_timer]
  rfl

end UdsServer

/-! ## Calls at real times -/

/-- A call of an entry point, with the real time in milliseconds that its clock reading is taken from. -/
inductive Call where
  | process (time : ℕ) (request : List UInt8) (capacity : ℕ)
  | pollPending (capacity : ℕ)
  | tick (time : ℕ)
  | lockSecurity
  deriving DecidableEq

namespace Call

/-- What the server sees of a call: the clock has 32 bits. -/
def event : Call → UdsServer.Event
  | process time request capacity => .process (Clock.tick time) request capacity
  | pollPending capacity => .pollPending capacity
  | tick time => .tick (Clock.tick time)
  | lockSecurity => .lockSecurity

/-- The time of a call that reads the clock. -/
def time : Call → Option ℕ
  | process time _ _ => some time
  | tick time => some time
  | pollPending _ => none
  | lockSecurity => none

end Call

end DualCan.Uds
