import DualCan.Uds.Security
import DualCan.Uds.Timer

/-!
# Replies

Which replies keep the session alive, which leave a response pending, and the reply to a security access as
a function of the session and security fields.
-/

namespace DualCan.Uds

open DualCan.Clock DualCan.Run

@[simp] theorem negative_keepsSession (capacity : ℕ) (service nrc : UInt8) :
    (negative capacity service nrc).keepsSession = false := by
  unfold negative Reply.keepsSession
  split
  · rfl
  · simp

@[simp] theorem responsePending_keepsSession (capacity : ℕ) (service : UInt8) :
    (responsePending capacity service).keepsSession = decide (3 ≤ capacity) := by
  unfold responsePending negative Reply.keepsSession
  by_cases h : capacity < 3
  · have hnot : ¬3 ≤ capacity := by omega
    simp [h, hnot]
  · have hle : 3 ≤ capacity := by omega
    simp [h, hle]

theorem positive_keepsSession {first : UInt8} (hfirst : first ≠ sidNegativeResponse) (suppress : Bool)
    (capacity : ℕ) (bytes : List UInt8) : (positive suppress capacity (first :: bytes)).keepsSession =
      (!suppress && decide (bytes.length + 1 ≤ capacity)) := by
  unfold positive Reply.keepsSession
  cases suppress with
  | true => rfl
  | false =>
    rw [if_neg Bool.false_ne_true]
    by_cases h : capacity < (first :: bytes).length
    · have hnot : ¬bytes.length + 1 ≤ capacity := by simpa using h
      rw [if_pos h]
      simp [hnot]
    · have hle : bytes.length + 1 ≤ capacity := by simpa using h
      rw [if_neg h]
      simp [hle, hfirst]

theorem responsePending_of_pending {capacity : ℕ} {service : UInt8}
    (h : (responsePending capacity service).pending = true) : responsePending capacity service =
      ⟨.responsePending, [sidNegativeResponse, service, nrcResponsePending]⟩ := by
  rw [responsePending_pending, decide_eq_true_eq] at h
  unfold responsePending negative
  simp [Nat.not_lt.2 h]

namespace Access

/-- The response code of a security access that does nothing. -/
def refusal (access : Access) (now : UInt32) : List UInt8 → UInt8
  | [] => nrcIncorrectLength
  | sub :: data =>
    if sub &&& subfunctionMask ≠ securityRequestSeed ∧ sub &&& subfunctionMask ≠ securitySendKey then
      nrcSubfunctionNotSupported
    else if access.session ≠ sessionExtended ∧ access.session ≠ sessionProgramming then
      nrcSubfunctionNotSupportedInActiveSession
    else if access.delayActive now then nrcRequiredTimeDelayNotExpired
    else if data.length ≠ 4 then nrcIncorrectLength
    else nrcRequestSequenceError

/-- The response code of a wrong key. -/
def wrongKey (access : Access) : UInt8 :=
  if access.securityAttempts + 1 ≥ securityMaxAttempts then nrcExceedNumberOfAttempts
  else nrcInvalidKey

/-- The reply to a security access. -/
def answer (access : Access) (now : UInt32) (suppress : Bool) (capacity : ℕ) (args : List UInt8) :
    Reply :=
  match access.securityAct now args with
  | .nothing => negative capacity sidSecurityAccess (access.refusal now args)
  | .zeroSeed =>
    positive suppress capacity ((sidSecurityAccess + 0x40) :: securityRequestSeed :: UdsServer.seedBytes 0)
  | .newSeed seed =>
    positive suppress capacity ((sidSecurityAccess + 0x40) :: securityRequestSeed ::
      UdsServer.seedBytes seed)
  | .evaluate seed key =>
    if key = computeKey seed access.securitySalt then
      positive suppress capacity [sidSecurityAccess + 0x40, securitySendKey]
    else negative capacity sidSecurityAccess (access.expireDelay now).wrongKey

theorem answer_pending (access : Access) (now : UInt32) (suppress : Bool) (capacity : ℕ)
    (args : List UInt8) : (access.answer now suppress capacity args).pending = false := by
  unfold answer
  split
  · exact negative_pending ..
  · exact positive_pending ..
  · exact positive_pending ..
  · split
    · exact positive_pending ..
    · exact negative_pending ..

end Access

namespace UdsServer

variable {σ : Type} (server : UdsServer σ) (now : UInt32) (capacity : ℕ)

theorem requestSeed_reply (suppress : Bool) : (server.requestSeed suppress capacity).1 =
    positive suppress capacity ((sidSecurityAccess + 0x40) :: securityRequestSeed ::
      seedBytes (if server.securityUnlocked then 0 else (nextSeed server.seedState).1)) := by
  unfold requestSeed
  split <;> rfl

theorem evaluateKey_reply (key : UInt32) (suppress : Bool) :
    (server.evaluateKey now key suppress capacity).1 =
      if key = computeKey server.pendingSeed server.securitySalt then
        positive suppress capacity [sidSecurityAccess + 0x40, securitySendKey]
      else negative capacity sidSecurityAccess server.access.wrongKey := by
  unfold evaluateKey Access.wrongKey
  by_cases hkey : key = computeKey server.pendingSeed server.securitySalt
  · simp [hkey]
  · by_cases hlast : server.securityAttempts + 1 ≥ securityMaxAttempts
    · simp [hkey, hlast, access]
    · simp [hkey, hlast, access]

/-- The reply to a security access is a function of the session and security fields. -/
theorem securityAccess_reply (sub : UInt8) (data : List UInt8) :
    (server.securityAccess now (sub :: data) capacity).1 =
      server.access.answer now (sub &&& suppressPositiveResponse ≠ 0) capacity (sub :: data) := by
  have hsession : server.access.session = server.session := rfl
  simp only [securityAccess, securityDelayActive_eq, Access.answer, Access.securityAct, Access.admits,
    Access.refusal, hsession]
  by_cases hsub : sub &&& subfunctionMask ≠ securityRequestSeed ∧
      sub &&& subfunctionMask ≠ securitySendKey
  · simp [hsub]
  by_cases hses : server.session ≠ sessionExtended ∧ server.session ≠ sessionProgramming
  · simp [hsub, hses]
  rw [if_neg hsub, if_neg hses, if_neg hsub, if_neg hses]
  rw [not_and_or, not_not, not_not] at hsub hses
  cases hdelay : server.access.delayActive now with
  | true => simp
  | false =>
    obtain ⟨hunlocked, hstate, hpending, hseed, hsalt⟩ := server.expireDelay_kept now
    simp only [hunlocked, hstate, hpending, hseed, hsalt, ← expireDelay_access, ← Bool.decide_or, hsub,
      hses, decide_true, Bool.not_false, Bool.and_true, if_true]
    generalize server.expireDelay now = server
    by_cases hrequest : sub &&& subfunctionMask = securityRequestSeed
    · rw [if_pos hrequest, if_pos hrequest, requestSeed_reply]
      cases server.securityUnlocked with
      | true => rfl
      | false => rfl
    rw [if_neg hrequest, if_neg hrequest]
    rcases data with _ | ⟨k0, _ | ⟨k1, _ | ⟨k2, _ | ⟨k3, _ | ⟨k4, rest⟩⟩⟩⟩⟩
    case cons.cons.cons.cons.nil =>
      cases hp : server.seedPending with
      | false => simp
      | true => exact server.evaluateKey_reply now capacity _ _
    all_goals simp

theorem respond_security (s : UdsServer σ × σ) (sub : UInt8) (data : List UInt8) :
    (respond s (.process now (sidSecurityAccess :: sub :: data) capacity)).1 =
      (s.1.tick now).access.answer now (sub &&& suppressPositiveResponse ≠ 0) capacity (sub :: data) := by
  rw [← securityAccess_reply]
  exact finish_reply ..

/-! ## Routines -/

variable (env : σ) (index : ℕ) (routine : Routine σ) (subfunction : UInt8) (data : List UInt8)

/-- The request is answered with NRC 0x78: the routine is asked for its results and goes on running. -/
def armsResponse : Bool :=
  subfunction = routineRequestResults && server.callsHandler index subfunction &&
    (server.callRoutine env index routine subfunction data).1.status = .running

/-- The result that the positive response to an accepted request carries, if it is answered so: what the
handler returns where it is called, else the stored result of a routine that has ended. -/
def answerResult : Option (List UInt8) :=
  if server.callsHandler index subfunction then
    some (server.callRoutine env index routine subfunction data).1.result
  else if subfunction = routineRequestResults ∧ (server.routineState index = .complete ∨
      server.routineState index = .failed) then
    some (server.routineResult index)
  else none

/-- The reply to an accepted routine request. -/
theorem runRoutine_reply (suppress : Bool)
    (hsub : subfunction = routineStart ∨ subfunction = routineStop ∨
      subfunction = routineRequestResults) :
    (server.runRoutine env index routine subfunction suppress data capacity).1 =
      if server.armsResponse env index routine subfunction data then
        responsePending capacity sidRoutineControl
      else
        match server.answerResult env index routine subfunction data with
        | some result => routinePositive subfunction routine.routineId result suppress capacity
        | none => negative capacity sidRoutineControl
            (if subfunction = routineStart then nrcConditionsNotCorrect else nrcRequestSequenceError) := by
  unfold runRoutine armsResponse answerResult callsHandler
  have hstart : routineRequestResults ≠ routineStart := by decide
  have hstop : routineRequestResults ≠ routineStop := by decide
  have hother : routineStop ≠ routineStart := by decide
  rcases hsub with rfl | rfl | rfl
  · by_cases hrun : server.routineState index = .running
    · simp [hrun, hstart.symm]
    · simp [hrun, hstart.symm]
  · by_cases hrun : server.routineState index = .running
    · simp [hrun, hother, hstop.symm]
    · simp [hrun, hother, hstop.symm]
  · rw [if_neg hstart, if_neg hstop]
    cases hstate : server.routineState index with
    | idle => simp [hstart]
    | complete => simp [hstart]
    | failed => simp [hstart]
    | running =>
      by_cases hrun :
          (server.callRoutine env index routine routineRequestResults data).1.status = .running
      · simp [hstart, hrun]
      · simp [hstart, hrun]

variable (args : List UInt8)

/-- The server once the pending response of the routine that the request names is dropped. -/
def dropNamed : UdsServer σ :=
  match args with
  | _ :: high :: low :: _ =>
    match server.findRoutine (word16 high low) with
    | some (index, _) => server.dropPendingRoutine index
    | none => server
  | _ => server

/-- The response code of a routine request that is not accepted. -/
def routineRefusal : UInt8 :=
  match args with
  | sub :: high :: low :: _ =>
    match server.findRoutine (word16 high low) with
    | none => nrcRequestOutOfRange
    | some (_, routine) =>
      if sub &&& subfunctionMask ≠ routineStart ∧ sub &&& subfunctionMask ≠ routineStop ∧
          sub &&& subfunctionMask ≠ routineRequestResults then nrcSubfunctionNotSupported
      else if !sessionAllowed routine.sessionsMask server.session then
        nrcSubfunctionNotSupportedInActiveSession
      else nrcSecurityAccessDenied
  | _ => nrcIncorrectLength

variable {args capacity} in
/-- A routine request that is not accepted is refused, and drops what it names. -/
theorem routineControl_refused (h : server.acceptedRoutine args = none) :
    server.routineControl env args capacity =
      (negative capacity sidRoutineControl (server.routineRefusal args), server.dropNamed args, env) := by
  rcases args with _ | ⟨sub, _ | ⟨high, _ | ⟨low, data⟩⟩⟩
  · rfl
  · rfl
  · rfl
  · simp only [acceptedRoutine] at h
    simp only [routineControl, routineRefusal, dropNamed]
    cases hfind : server.findRoutine (word16 high low) with
    | none => rfl
    | some found =>
      obtain ⟨index, routine⟩ := found
      have hsession : (server.dropPendingRoutine index).session = server.session :=
        congrArg Access.session (server.dropPendingRoutine_access index)
      have hunlocked : (server.dropPendingRoutine index).securityUnlocked = server.securityUnlocked :=
        congrArg Access.securityUnlocked (server.dropPendingRoutine_access index)
      simp only [hfind, hsession, hunlocked] at h ⊢
      split
      · rfl
      rename_i hsub
      split
      · rfl
      rename_i hallowed
      rw [if_pos]
      by_contra hlock
      refine absurd h ?_
      rw [if_pos]
      · intro hsome
        cases hsome
      simp only [routineAllowed, Bool.and_eq_true, Bool.or_eq_true, decide_eq_true_eq]
      simp only [Bool.not_eq_true', Bool.not_eq_false] at hallowed
      refine ⟨by tauto, hallowed, ?_⟩
      cases hu : server.securityUnlocked with
      | true => exact Or.inr rfl
      | false => exact Or.inl (by simpa [hu] using hlock)

variable {args capacity index routine data} in
theorem routineControl_accepted {sub : UInt8}
    (h : server.acceptedRoutine args = some (index, routine, sub, data)) :
    server.routineControl env args capacity =
      (server.dropPendingRoutine index).runRoutine env index routine (sub &&& subfunctionMask)
        (sub &&& suppressPositiveResponse ≠ 0) data capacity := by
  rcases routineControl_cases server env args capacity with
    ⟨hnone, -⟩ | ⟨index', routine', sub', data', haccept, hrun⟩
  · rw [h] at hnone
    cases hnone
  · rw [h] at haccept
    cases haccept
    exact hrun

variable {server args index routine data} in
theorem dropNamed_accepted {sub : UInt8}
    (h : server.acceptedRoutine args = some (index, routine, sub, data)) :
    server.dropNamed args = server.dropPendingRoutine index := by
  unfold acceptedRoutine at h
  split at h
  · split at h
    · cases h
    rename_i hfind
    split at h
    · cases h
      simp only [dropNamed, hfind]
    · cases h
  · cases h

/-! ## Response pending -/

theorem sessionControl_pending : (server.sessionControl now args capacity).1.pending = false := by
  unfold sessionControl
  split
  · dsimp only
    split
    · exact negative_pending ..
    · exact positive_pending ..
  · exact negative_pending ..

theorem testerPresent_pending : (server.testerPresent now args capacity).1.pending = false := by
  unfold testerPresent
  split
  · split
    · exact negative_pending ..
    · exact positive_pending ..
  · exact negative_pending ..

theorem readDid_pending : (server.readDid args capacity).pending = false := by
  unfold readDid
  split
  · exact negative_pending ..
  · split
    · exact negative_pending ..
    · split <;> rfl

theorem securityAccess_pending : (server.securityAccess now args capacity).1.pending = false := by
  cases args with
  | nil => exact negative_pending ..
  | cons sub data =>
    rw [securityAccess_reply]
    exact Access.answer_pending ..

variable {server env now args capacity}

theorem writeDid_pending (h : (server.writeDid args capacity).1.pending = true) :
    (server.writeDid args capacity).1 =
      ⟨.responsePending, [sidNegativeResponse, sidWriteDataByIdentifier, nrcResponsePending]⟩ := by
  rcases writeDid_cases server args capacity with
    ⟨-, nrc, -, hreject⟩ | ⟨index, entry, data, -, ⟨-, harm⟩ | ⟨-, high, low, hdone⟩⟩
  · rw [hreject] at h
    exact absurd h (by simp [negative_pending])
  · rw [harm] at h ⊢
    exact responsePending_of_pending h
  · rw [hdone] at h
    exact absurd h (by simp [positive_pending])

theorem routineControl_pending (h : (server.routineControl env args capacity).1.pending = true) :
    (server.routineControl env args capacity).1 =
      ⟨.responsePending, [sidNegativeResponse, sidRoutineControl, nrcResponsePending]⟩ := by
  rcases routineControl_cases server env args capacity with
    ⟨-, reply, next, hreply, hreject, -⟩ | ⟨index, routine, sub, data, haccept, hrun⟩
  · rw [hreject, hreply] at h
    cases h
  obtain ⟨-, -, -, -, -, -, hsub⟩ := acceptedRoutine_some haccept
  rcases runRoutine_cases (server.dropPendingRoutine index) env data capacity index routine
      (sub &&& subfunctionMask) (sub &&& suppressPositiveResponse ≠ 0) hsub with
    ⟨-, reply, hreply, hstep⟩ | ⟨-, ⟨-, hstep⟩ | ⟨-, hstep⟩⟩
  · rw [hrun, hstep, hreply] at h
    cases h
  · rw [hrun, hstep] at h ⊢
    exact responsePending_of_pending h
  · rw [hrun, hstep] at h
    exact absurd h (by simp [routinePositive, positive_pending])

/-- The only reply of `UdsServer_Process` that leaves a response pending is NRC 0x78. -/
theorem process_pending {request : List UInt8}
    (h : (server.process env now request capacity).1.pending = true) : ∃ service args,
      request = service :: args ∧ (server.process env now request capacity).1 =
        ⟨.responsePending, [sidNegativeResponse, service, nrcResponsePending]⟩ := by
  cases request with
  | nil =>
    rw [process, negative_pending] at h
    cases h
  | cons service args =>
    refine ⟨service, args, rfl, ?_⟩
    simp only [process] at h ⊢
    generalize server.tick now = server at h ⊢
    unfold dispatch at h ⊢
    by_cases h10 : service = sidDiagnosticSessionControl
    · simp only [if_pos h10, sessionControl_pending] at h
      cases h
    rw [if_neg h10] at h ⊢
    by_cases h22 : service = sidReadDataByIdentifier
    · simp only [if_pos h22, finish_reply, readDid_pending] at h
      cases h
    rw [if_neg h22] at h ⊢
    by_cases h27 : service = sidSecurityAccess
    · simp only [if_pos h27, finish_reply, securityAccess_pending] at h
      cases h
    rw [if_neg h27] at h ⊢
    by_cases h2E : service = sidWriteDataByIdentifier
    · simp only [if_pos h2E, finish_reply] at h ⊢
      rw [h2E]
      exact writeDid_pending h
    rw [if_neg h2E] at h ⊢
    by_cases h31 : service = sidRoutineControl
    · simp only [if_pos h31, finish_reply] at h ⊢
      rw [h31]
      exact routineControl_pending h
    rw [if_neg h31] at h
    by_cases h3E : service = sidTesterPresent
    · simp only [if_pos h3E, testerPresent_pending] at h
      cases h
    · rw [if_neg h3E, negative_pending] at h
      cases h

/-- A deferred reply leaves nothing pending. -/
theorem pollPending_pending (server : UdsServer σ) (env : σ) (capacity : ℕ) :
    (server.pollPending env capacity).1.pending = false := by
  unfold pollPending
  split
  · rcases pollWrite_cases server env capacity with
      hfail | ⟨entry, save, -, -, -, ⟨-, hfail⟩ | ⟨-, hdone⟩⟩
    · rw [hfail]
      exact negative_pending ..
    · rw [hfail]
      exact negative_pending ..
    · rw [hdone]
      exact positive_pending ..
  split
  · unfold pollRoutine
    split
    · rfl
    dsimp only
    split
    · rfl
    · exact positive_pending ..
  · rfl

end UdsServer

end DualCan.Uds
