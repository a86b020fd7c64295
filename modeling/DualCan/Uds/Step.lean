import DualCan.Run.Past
import DualCan.Uds.Server

/-!
# What a step of the server touches

Two views of the state. `Access` holds the session and security fields: only a tick, session control and
security access change it. `Work` holds the tables and the pending operations: only writes, routine
control and polls change it. One lemma for each entry point says which service acted.
-/

namespace DualCan.Uds

open DualCan.Clock

/-- The session and security fields. -/
structure Access where
  session : UInt8
  seedState : UInt32
  pendingSeed : UInt32
  seedPending : Bool
  securityUnlocked : Bool
  securityAttempts : UInt8
  securityDelayUntilMs : UInt32
  securitySalt : UInt32
  supportedSessionsMask : UInt8

/-- The tables and the pending operations. -/
structure Work (σ : Type) where
  dids : List (Did σ)
  routines : List (Routine σ)
  routineState : ℕ → RoutineStatus
  routineResult : ℕ → List UInt8
  pendingRoutineResponse : Bool
  pendingRoutineIndex : ℕ
  pendingRoutineSubfunction : UInt8
  pendingRoutineSuppressPositive : Bool
  pendingRoutineData : List UInt8
  pendingDidWrite : Bool
  pendingDidIndex : ℕ
  pendingDidData : List UInt8

/-- What `UdsServer_LockSecurityState` does to the view. -/
def Access.lock (access : Access) : Access :=
  { access with
    pendingSeed := 0
    seedPending := false
    securityUnlocked := false
    securityAttempts := 0 }

namespace UdsServer

variable {σ : Type} (server : UdsServer σ) (env : σ) (now : UInt32) (args data : List UInt8)
  (capacity index : ℕ)

def access : Access where
  session := server.session
  seedState := server.seedState
  pendingSeed := server.pendingSeed
  seedPending := server.seedPending
  securityUnlocked := server.securityUnlocked
  securityAttempts := server.securityAttempts
  securityDelayUntilMs := server.securityDelayUntilMs
  securitySalt := server.securitySalt
  supportedSessionsMask := server.supportedSessionsMask

def work : Work σ where
  dids := server.dids
  routines := server.routines
  routineState := server.routineState
  routineResult := server.routineResult
  pendingRoutineResponse := server.pendingRoutineResponse
  pendingRoutineIndex := server.pendingRoutineIndex
  pendingRoutineSubfunction := server.pendingRoutineSubfunction
  pendingRoutineSuppressPositive := server.pendingRoutineSuppressPositive
  pendingRoutineData := server.pendingRoutineData
  pendingDidWrite := server.pendingDidWrite
  pendingDidIndex := server.pendingDidIndex
  pendingDidData := server.pendingDidData

/-! ## Session and security -/

/-- The S3 timer has run out. -/
def expired : Bool := server.s3Active && reached now server.s3DeadlineMs

/-- The session that session control enters, if it accepts the request. -/
def requestedSession : List UInt8 → Option UInt8
  | [subfunction] =>
    let requested := subfunction &&& subfunctionMask
    if requested < sessionDefault ∨ requested > sessionExtended ∨
        !sessionAllowed server.supportedSessionsMask requested then none
    else some requested
  | _ => none

/-- The request is accepted and asks for a session other than the active one. -/
def changesSession : Bool :=
  match server.requestedSession args with
  | some session => session ≠ server.session
  | none => false

@[simp] theorem lockSecurityState_access :
    server.lockSecurityState.access = server.access.lock := rfl

@[simp] theorem lockSecurityState_work : server.lockSecurityState.work = server.work := rfl

theorem tick_access : (server.tick now).access =
    if server.expired now then { server.access.lock with session := sessionDefault }
    else server.access := by
  unfold tick expired
  simp only [Bool.and_eq_true]
  split <;> rfl

@[simp] theorem tick_work : (server.tick now).work = server.work := by
  unfold tick
  split <;> rfl

theorem tick_eq_self (h : server.expired now = false) : server.tick now = server := by
  unfold tick
  rw [if_neg]
  simpa [expired] using h

theorem setSession_access (session : UInt8) : (server.setSession session now).access =
    if session ≠ server.session then { server.access.lock with session := session }
    else server.access := by
  unfold setSession
  by_cases hne : session ≠ server.session
  · simp only [if_pos hne]
    split <;> rfl
  · obtain rfl := not_not.1 hne
    simp only [if_neg hne]
    split <;> rfl

@[simp] theorem setSession_work (session : UInt8) :
    (server.setSession session now).work = server.work := by
  unfold setSession
  by_cases hne : session ≠ server.session
  · simp only [if_pos hne]
    split <;> rfl
  · simp only [if_neg hne]
    split <;> rfl

@[simp] theorem keepSessionAlive_access : (server.keepSessionAlive now).access = server.access := by
  unfold keepSessionAlive
  split <;> rfl

@[simp] theorem keepSessionAlive_work : (server.keepSessionAlive now).work = server.work := by
  unfold keepSessionAlive
  split <;> rfl

theorem sessionControl_snd : (server.sessionControl now args capacity).2 =
    match server.requestedSession args with
    | some session => server.setSession session now
    | none => server := by
  match args with
  | [subfunction] =>
    simp only [sessionControl, requestedSession]
    split <;> rfl
  | [] => rfl
  | _ :: _ :: _ => rfl

@[simp] theorem sessionControl_work :
    (server.sessionControl now args capacity).2.work = server.work := by
  rw [sessionControl_snd]
  split
  · simp
  · rfl

@[simp] theorem testerPresent_access :
    (server.testerPresent now args capacity).2.access = server.access := by
  unfold testerPresent
  split
  · split
    · rfl
    · simp
  · rfl

@[simp] theorem testerPresent_work :
    (server.testerPresent now args capacity).2.work = server.work := by
  unfold testerPresent
  split
  · split
    · rfl
    · simp
  · rfl

@[simp] theorem securityDelayActive_work :
    (server.securityDelayActive now).2.work = server.work := by
  unfold securityDelayActive
  split
  · rfl
  · split <;> rfl

end UdsServer

/-! ## Security access -/

/-- What a security access request does: nothing, issue the zero seed of an unlocked server, generate a
seed, or compare a key with the one computed from the pending seed. -/
inductive SecurityAct where
  | nothing
  | zeroSeed
  | newSeed (seed : UInt32)
  | evaluate (seed key : UInt32)
  deriving DecidableEq

namespace Access

/-- A security access request gets past the checks of its sub-function and of the session. -/
def admits (access : Access) (sub : UInt8) : Bool :=
  (sub &&& subfunctionMask = securityRequestSeed || sub &&& subfunctionMask = securitySendKey) &&
    (access.session = sessionExtended || access.session = sessionProgramming)

def delayActive (access : Access) (now : UInt32) : Bool :=
  access.securityDelayUntilMs ≠ 0 && !reached now access.securityDelayUntilMs

/-- What the security access request with the bytes `args` does. -/
def securityAct (access : Access) (now : UInt32) : List UInt8 → SecurityAct
  | [] => .nothing
  | sub :: data =>
    if access.admits sub && !access.delayActive now then
      if sub &&& subfunctionMask = securityRequestSeed then
        if access.securityUnlocked then .zeroSeed else .newSeed (nextSeed access.seedState).1
      else
        match data with
        | [k0, k1, k2, k3] =>
          if access.seedPending then .evaluate access.pendingSeed (word32 k0 k1 k2 k3)
          else .nothing
        | _ => .nothing
    else .nothing

/-- A delay that has run out is taken off, with the attempts. -/
def expireDelay (access : Access) (now : UInt32) : Access :=
  if access.securityDelayUntilMs ≠ 0 ∧ reached now access.securityDelayUntilMs then
    { access with securityDelayUntilMs := 0, securityAttempts := 0 }
  else access

/-- The key `key` compared with the one expected for `seed`. -/
def evaluate (access : Access) (now seed key : UInt32) : Access :=
  let access := { access with seedPending := false, pendingSeed := 0 }
  if key = computeKey seed access.securitySalt then
    { access with securityUnlocked := true, securityAttempts := 0, securityDelayUntilMs := 0 }
  else if access.securityAttempts + 1 ≥ securityMaxAttempts then
    { access with securityAttempts := 0, securityDelayUntilMs := now + securityDelayMs }
  else { access with securityAttempts := access.securityAttempts + 1 }

/-- What an act leaves. -/
def perform (access : Access) (now : UInt32) : SecurityAct → Access
  | .nothing => access
  | .zeroSeed => access
  | .newSeed seed =>
    { access with
      seedState := (nextSeed access.seedState).2
      pendingSeed := seed
      seedPending := true }
  | .evaluate seed key => access.evaluate now seed key

/-- What a security access request leaves. -/
def serve (access : Access) (now : UInt32) : List UInt8 → Access
  | [] => access
  | sub :: data =>
    if access.admits sub && !access.delayActive now then
      (access.expireDelay now).perform now (access.securityAct now (sub :: data))
    else access

end Access

namespace UdsServer

variable {σ : Type} (server : UdsServer σ) (env : σ) (now : UInt32) (args data : List UInt8)
  (capacity index : ℕ)

/-- The server once a delay that has run out is taken off. -/
def expireDelay : UdsServer σ :=
  if server.securityDelayUntilMs ≠ 0 ∧ reached now server.securityDelayUntilMs then
    { server with securityDelayUntilMs := 0, securityAttempts := 0 }
  else server

theorem expireDelay_access : (server.expireDelay now).access = server.access.expireDelay now := by
  unfold expireDelay Access.expireDelay access
  dsimp only
  split <;> rfl

theorem expireDelay_eq_self (h : server.access.delayActive now = true) :
    server.expireDelay now = server := by
  unfold Access.delayActive access at h
  unfold expireDelay
  rw [if_neg]
  simp_all

theorem securityDelayActive_eq :
    server.securityDelayActive now = (server.access.delayActive now, server.expireDelay now) := by
  unfold securityDelayActive Access.delayActive expireDelay access
  by_cases h0 : server.securityDelayUntilMs = 0
  · simp [h0]
  · by_cases hr : reached now server.securityDelayUntilMs = true
    · simp [h0, hr]
    · simp [h0, hr]

theorem requestSeed_access (suppress : Bool) : (server.requestSeed suppress capacity).2.access =
    server.access.perform now
      (if server.securityUnlocked then .zeroSeed else .newSeed (nextSeed server.seedState).1) := by
  unfold requestSeed
  split <;> rfl

theorem evaluateKey_access (key : UInt32) (suppress : Bool) :
    (server.evaluateKey now key suppress capacity).2.access =
      server.access.evaluate now server.pendingSeed key := by
  unfold evaluateKey Access.evaluate
  by_cases hkey : key = computeKey server.pendingSeed server.securitySalt
  · simp [hkey, access]
  · by_cases hlast : server.securityAttempts + 1 ≥ securityMaxAttempts
    · simp [hkey, hlast, access]
    · simp [hkey, hlast, access]

/-- The delay's end leaves the fields that decide a security access. -/
theorem expireDelay_kept (server : UdsServer σ) (now : UInt32) :
    server.access.securityUnlocked = (server.expireDelay now).securityUnlocked ∧
      server.access.seedState = (server.expireDelay now).seedState ∧
      server.access.seedPending = (server.expireDelay now).seedPending ∧
      server.access.pendingSeed = (server.expireDelay now).pendingSeed ∧
      server.access.securitySalt = (server.expireDelay now).securitySalt := by
  unfold expireDelay
  split <;> exact ⟨rfl, rfl, rfl, rfl, rfl⟩

theorem securityAccess_access :
    (server.securityAccess now args capacity).2.access = server.access.serve now args := by
  match args with
  | [] => rfl
  | sub :: data =>
    have hsession : server.access.session = server.session := rfl
    simp only [securityAccess, Access.serve, Access.securityAct, Access.admits,
      securityDelayActive_eq, hsession]
    by_cases hsub : sub &&& subfunctionMask ≠ securityRequestSeed ∧
        sub &&& subfunctionMask ≠ securitySendKey
    · simp [hsub]
    by_cases hses : server.session ≠ sessionExtended ∧ server.session ≠ sessionProgramming
    · simp [hsub, hses]
    rw [if_neg hsub, if_neg hses]
    rw [not_and_or, not_not, not_not] at hsub hses
    cases hdelay : server.access.delayActive now with
    | true => simp [server.expireDelay_eq_self now hdelay]
    | false =>
      obtain ⟨hunlocked, hstate, hpending, hseed, -⟩ := server.expireDelay_kept now
      simp only [hunlocked, hstate, hpending, hseed, ← expireDelay_access, ← Bool.decide_or, hsub,
        hses, decide_true, Bool.not_false, Bool.and_true, if_true]
      generalize server.expireDelay now = server
      by_cases hrequest : sub &&& subfunctionMask = securityRequestSeed
      · rw [if_pos hrequest, if_pos hrequest]
        exact server.requestSeed_access now capacity _
      rw [if_neg hrequest, if_neg hrequest]
      rcases data with _ | ⟨k0, _ | ⟨k1, _ | ⟨k2, _ | ⟨k3, _ | ⟨k4, rest⟩⟩⟩⟩⟩
      case cons.cons.cons.cons.nil =>
        cases hp : server.seedPending with
        | false => simp [Access.perform]
        | true => exact server.evaluateKey_access now capacity _ _
      all_goals rfl

@[simp] theorem expireDelay_work : (server.expireDelay now).work = server.work := by
  unfold expireDelay
  split <;> rfl

@[simp] theorem requestSeed_work (suppress : Bool) :
    (server.requestSeed suppress capacity).2.work = server.work := by
  unfold requestSeed
  split <;> rfl

@[simp] theorem evaluateKey_work (key : UInt32) (suppress : Bool) :
    (server.evaluateKey now key suppress capacity).2.work = server.work := by
  unfold evaluateKey
  dsimp only
  split
  · split <;> rfl
  · rfl

@[simp] theorem securityAccess_work :
    (server.securityAccess now args capacity).2.work = server.work := by
  match args with
  | [] => rfl
  | sub :: data =>
    simp only [securityAccess, securityDelayActive_eq]
    split
    · rfl
    split
    · rfl
    cases server.access.delayActive now with
    | true => simp
    | false =>
      simp only
      split
      · simp
      rcases data with _ | ⟨k0, _ | ⟨k1, _ | ⟨k2, _ | ⟨k3, _ | ⟨k4, rest⟩⟩⟩⟩⟩
      case cons.cons.cons.cons.nil =>
        simp only
        split
        · simp
        · simp
      all_goals simp

/-! ## Writes, routines and polls -/

@[simp] theorem clearPendingDid_access : server.clearPendingDid.access = server.access := rfl

@[simp] theorem clearPendingRoutine_access : server.clearPendingRoutine.access = server.access := rfl

@[simp] theorem writeDid_access : (server.writeDid args capacity).2.access = server.access := by
  unfold writeDid
  split
  · split
    · rfl
    · repeat' split
      all_goals rfl
  · rfl

@[simp] theorem callRoutine_access (routine : Routine σ) (subfunction : UInt8) :
    (server.callRoutine env index routine subfunction data).2.access = server.access := rfl

@[simp] theorem armPendingRoutine_access (subfunction : UInt8) (suppress : Bool) :
    (server.armPendingRoutine index subfunction suppress data).access = server.access := rfl

@[simp] theorem dropPendingRoutine_access :
    (server.dropPendingRoutine index).access = server.access := by
  unfold dropPendingRoutine
  split <;> rfl

@[simp] theorem runRoutine_access (routine : Routine σ) (subfunction : UInt8) (suppress : Bool) :
    (server.runRoutine env index routine subfunction suppress data capacity).2.1.access =
      server.access := by
  unfold runRoutine
  split
  · split <;> rfl
  split
  · split <;> rfl
  split
  · rfl
  split
  · rfl
  dsimp only [callRoutine]
  split <;> rfl

@[simp] theorem routineControl_access :
    (server.routineControl env args capacity).2.1.access = server.access := by
  unfold routineControl
  split
  · simp only
    split
    · rfl
    · split
      · simp
      split
      · simp
      split
      · simp
      · simp
  · rfl

@[simp] theorem pollWrite_access : (server.pollWrite env capacity).2.1.access = server.access := by
  unfold pollWrite
  dsimp only
  split
  · rfl
  split
  · rfl
  split
  · rfl
  split <;> rfl

@[simp] theorem pollRoutine_access :
    (server.pollRoutine env capacity).2.1.access = server.access := by
  unfold pollRoutine
  split
  · rfl
  dsimp only
  split <;> rfl

@[simp] theorem pollPending_access :
    (server.pollPending env capacity).2.1.access = server.access := by
  unfold pollPending
  split
  · simp
  split
  · simp
  · rfl

/-! ## Entry points -/

@[simp] theorem finish_access (outcome : Reply × UdsServer σ × σ) :
    (finish now outcome).2.1.access = outcome.2.1.access := by
  unfold finish
  split
  · simp
  · rfl

@[simp] theorem finish_work (outcome : Reply × UdsServer σ × σ) :
    (finish now outcome).2.1.work = outcome.2.1.work := by
  unfold finish
  split
  · simp
  · rfl

@[simp] theorem finish_env (outcome : Reply × UdsServer σ × σ) :
    (finish now outcome).2.2 = outcome.2.2 := by
  unfold finish
  split <;> rfl

@[simp] theorem finish_reply (outcome : Reply × UdsServer σ × σ) :
    (finish now outcome).1 = outcome.1 := by
  unfold finish
  split <;> rfl

/-- Only session control and security access change the session and security fields. -/
theorem dispatch_access (service : UInt8) :
    (server.dispatch env now service args capacity).2.1.access =
      if service = sidDiagnosticSessionControl then (server.sessionControl now args capacity).2.access
      else if service = sidSecurityAccess then server.access.serve now args
      else server.access := by
  unfold dispatch
  by_cases h10 : service = sidDiagnosticSessionControl
  · simp [h10]
  by_cases h22 : service = sidReadDataByIdentifier
  · simp [h22, sidReadDataByIdentifier, sidDiagnosticSessionControl, sidSecurityAccess]
  by_cases h27 : service = sidSecurityAccess
  · simp [h27, sidReadDataByIdentifier, sidDiagnosticSessionControl, sidSecurityAccess,
      securityAccess_access]
  simp only [if_neg h10, if_neg h22, if_neg h27]
  repeat' split
  all_goals simp

/-- Only writes and routine control change the tables and the pending operations. -/
theorem dispatch_work (service : UInt8) :
    (server.dispatch env now service args capacity).2.1.work =
      if service = sidWriteDataByIdentifier then (server.writeDid args capacity).2.work
      else if service = sidRoutineControl then (server.routineControl env args capacity).2.1.work
      else server.work := by
  unfold dispatch
  by_cases h2E : service = sidWriteDataByIdentifier
  · simp [h2E, sidReadDataByIdentifier, sidDiagnosticSessionControl, sidSecurityAccess,
      sidWriteDataByIdentifier]
  by_cases h31 : service = sidRoutineControl
  · simp [h31, sidReadDataByIdentifier, sidDiagnosticSessionControl, sidSecurityAccess,
      sidWriteDataByIdentifier, sidRoutineControl]
  simp only [if_neg h2E, if_neg h31]
  repeat' split
  all_goals simp

/-- Only routine control reaches the environment. -/
theorem dispatch_env (service : UInt8) :
    (server.dispatch env now service args capacity).2.2 =
      if service = sidRoutineControl then (server.routineControl env args capacity).2.2
      else env := by
  unfold dispatch
  by_cases h31 : service = sidRoutineControl
  · simp [h31, sidReadDataByIdentifier, sidDiagnosticSessionControl, sidSecurityAccess,
      sidWriteDataByIdentifier, sidRoutineControl]
  simp only [if_neg h31]
  repeat' split
  all_goals simp

/-- A write request: the reply, the tables and the pending operations. -/
theorem respond_write (s : UdsServer σ × σ) :
    let e := Event.process now (sidWriteDataByIdentifier :: args) capacity
    (respond s e).1 = ((s.1.tick now).writeDid args capacity).1 ∧
      (step s e).1.work = ((s.1.tick now).writeDid args capacity).2.work ∧ (step s e).2 = s.2 := by
  refine ⟨?_, ?_, ?_⟩
  · simp [respond, process, dispatch, sidReadDataByIdentifier, sidDiagnosticSessionControl,
      sidSecurityAccess, sidWriteDataByIdentifier]
  · simp [step, respond, process, dispatch_work]
  · simp [step, respond, process, dispatch_env, sidWriteDataByIdentifier, sidRoutineControl]

/-- A routine request: the reply, the tables, the pending operations and the environment. -/
theorem respond_routine (s : UdsServer σ × σ) :
    let e := Event.process now (sidRoutineControl :: args) capacity
    (respond s e).1 = ((s.1.tick now).routineControl s.2 args capacity).1 ∧
      (step s e).1.work = ((s.1.tick now).routineControl s.2 args capacity).2.1.work ∧
      (step s e).2 = ((s.1.tick now).routineControl s.2 args capacity).2.2 := by
  refine ⟨?_, ?_, ?_⟩
  · simp [respond, process, dispatch, sidReadDataByIdentifier, sidDiagnosticSessionControl,
      sidSecurityAccess, sidWriteDataByIdentifier, sidRoutineControl]
  · simp [step, respond, process, dispatch_work, sidWriteDataByIdentifier, sidRoutineControl]
  · simp [step, respond, process, dispatch_env]

/-- Any other request leaves the tables, the pending operations and the environment. -/
theorem step_work_of_other (s : UdsServer σ × σ) {service : UInt8}
    (h2E : service ≠ sidWriteDataByIdentifier) (h31 : service ≠ sidRoutineControl) :
    let e := Event.process now (service :: args) capacity
    (step s e).1.work = s.1.work ∧ (step s e).2 = s.2 := by
  constructor
  · simp [step, respond, process, dispatch_work, h2E, h31]
  · simp [step, respond, process, dispatch_env, h31]

/-- **Work rule**: what a write, a routine request and a poll keep of the tables and the pending operations,
every step keeps. -/
theorem step_keeps {R : UdsServer σ → Prop}
    (hcongr : ∀ {server next : UdsServer σ}, next.work = server.work → R server → R next)
    (hwrite : ∀ {server : UdsServer σ} args capacity, R server → R (server.writeDid args capacity).2)
    (hroutine : ∀ {server : UdsServer σ} env args capacity, R server →
      R (server.routineControl env args capacity).2.1)
    (hpoll : ∀ {server : UdsServer σ} env capacity, R server → R (server.pollPending env capacity).2.1)
    (s : UdsServer σ × σ) (e : Event) (h : R s.1) : R (step s e).1 := by
  cases e with
  | tick now => exact hcongr (s.1.tick_work now) h
  | lockSecurity => exact hcongr (show s.1.lockSecurityState.work = s.1.work from rfl) h
  | pollPending capacity => exact hpoll s.2 capacity h
  | process now request capacity =>
    have htick : R (s.1.tick now) := hcongr (s.1.tick_work now) h
    cases request with
    | nil => exact htick
    | cons service args =>
      by_cases h2E : service = sidWriteDataByIdentifier
      · subst h2E
        exact hcongr (respond_write now args capacity s).2.1 (hwrite args capacity htick)
      by_cases h31 : service = sidRoutineControl
      · subst h31
        exact hcongr (respond_routine now args capacity s).2.1 (hroutine s.2 args capacity htick)
      exact hcongr (step_work_of_other now args capacity s h2E h31).1 h

/-- What `UdsServer_Init` sets, where it does not depend on the defaults. -/
theorem init_some {config : UdsServerConfig σ} {server : UdsServer σ}
    (h : init config = some server) :
    server.dids = config.dids ∧ server.routines = config.routines ∧
      (config.dids.map Did.did).Nodup ∧ (config.routines.map Routine.routineId).Nodup ∧
      server.session = sessionDefault ∧ server.seedPending = false ∧
      server.securityUnlocked = false ∧ server.securityAttempts = 0 ∧
      server.securityDelayUntilMs = 0 ∧ server.pendingDidWrite = false ∧
      server.pendingRoutineResponse = false := by
  unfold init at h
  split at h
  · cases h
  split at h
  · cases h
  split at h
  · cases h
  rename_i hdids
  split at h
  · cases h
  rename_i hroutines
  cases h
  exact ⟨rfl, rfl, not_not.1 hdids, not_not.1 hroutines, rfl, rfl, rfl, rfl, rfl, rfl, rfl⟩

/-- What else a fresh server is: its timer stopped, some session supported, an S3 time set, no routine run
yet. -/
theorem init_fresh {config : UdsServerConfig σ} {server : UdsServer σ}
    (h : init config = some server) :
    server.s3Active = false ∧ server.supportedSessionsMask ≠ 0 ∧ server.s3ServerMs ≠ 0 ∧
      (∀ index, server.routineState index = .idle) ∧ ∀ index, server.routineResult index = [] := by
  unfold init at h
  split at h
  · cases h
  split at h
  · cases h
  split at h
  · cases h
  split at h
  · cases h
  cases h
  refine ⟨rfl, ?_, ?_, fun _ => rfl, fun _ => rfl⟩
  all_goals
    dsimp only
    split
    · decide
    · assumption

theorem init_s3Active {config : UdsServerConfig σ} {server : UdsServer σ}
    (h : init config = some server) : server.s3Active = false :=
  (init_fresh h).1

theorem init_mask {config : UdsServerConfig σ} {server : UdsServer σ}
    (h : init config = some server) : server.supportedSessionsMask ≠ 0 :=
  (init_fresh h).2.1

theorem init_s3ServerMs {config : UdsServerConfig σ} {server : UdsServer σ}
    (h : init config = some server) : server.s3ServerMs ≠ 0 :=
  (init_fresh h).2.2.1

theorem init_routineState {config : UdsServerConfig σ} {server : UdsServer σ}
    (h : init config = some server) (index : ℕ) : server.routineState index = .idle :=
  (init_fresh h).2.2.2.1 index

theorem init_routineResult {config : UdsServerConfig σ} {server : UdsServer σ}
    (h : init config = some server) (index : ℕ) : server.routineResult index = [] :=
  (init_fresh h).2.2.2.2 index

end UdsServer

end DualCan.Uds
