import DualCan.Uds.Step

/-!
# Security access along a run

Which step generates a seed, which compares a key, which locks; what that makes of the security fields; and
where an unlock comes from: a key for the latest seed (`unlock_provenance`).
-/

namespace DualCan.Uds

open DualCan.Clock DualCan.Run

namespace SecurityAct

/-- A seed goes out. -/
def issues : SecurityAct → Bool
  | zeroSeed => true
  | newSeed _ => true
  | _ => false

/-- A new seed is drawn. -/
def generates : SecurityAct → Bool
  | newSeed _ => true
  | _ => false

/-- A key is compared. -/
def evaluates : SecurityAct → Bool
  | evaluate _ _ => true
  | _ => false

/-- A key is compared and differs from the one expected. -/
def wrong (salt : UInt32) : SecurityAct → Bool
  | evaluate seed key => key ≠ computeKey seed salt
  | _ => false

/-- A key is compared and is the one expected. -/
def right (salt : UInt32) : SecurityAct → Bool
  | evaluate seed key => key = computeKey seed salt
  | _ => false

end SecurityAct

namespace UdsServer

variable {σ : Type}

/-- The security access performed by an event. -/
def act (s : UdsServer σ × σ) : Event → SecurityAct
  | .process now (service :: args) _ =>
    if service = sidSecurityAccess then (s.1.tick now).access.securityAct now args else .nothing
  | _ => .nothing

/-- The event locks: the S3 timer runs out, another session is entered, or a lock is asked for. -/
def locks (s : UdsServer σ × σ) : Event → Bool
  | .process now [] _ => s.1.expired now
  | .process now (service :: args) _ =>
    s.1.expired now ||
      (service = sidDiagnosticSessionControl && s.1.changesSession args)
  | .pollPending _ => false
  | .tick now => s.1.expired now
  | .lockSecurity => true

theorem serve_of_default {access : Access} (h : access.session = sessionDefault) (now : UInt32)
    (args : List UInt8) :
    access.serve now args = access ∧ access.securityAct now args = .nothing := by
  cases args with
  | nil => exact ⟨rfl, rfl⟩
  | cons sub data =>
    have hadmits : access.admits sub = false := by
      simp [Access.admits, h, sessionDefault, sessionExtended, sessionProgramming]
    simp [Access.serve, Access.securityAct, hadmits]

theorem tick_access_cases (server : UdsServer σ) (now : UInt32) :
    (server.expired now = true ∧
        ∃ session, (server.tick now).access = { server.access.lock with session := session }) ∨
      (server.expired now = false ∧ (server.tick now).access = server.access) := by
  cases hexp : server.expired now with
  | true => exact Or.inl ⟨rfl, sessionDefault, by rw [tick_access, hexp, if_pos rfl]⟩
  | false => exact Or.inr ⟨rfl, by rw [tick_eq_self _ _ hexp]⟩

/-- The access fields after a request with a service identifier. -/
theorem process_access (s : UdsServer σ × σ) (now : UInt32) (service : UInt8) (args : List UInt8)
    (capacity : ℕ) : (step s (.process now (service :: args) capacity)).1.access =
      if service = sidDiagnosticSessionControl then
        ((s.1.tick now).sessionControl now args capacity).2.access
      else if service = sidSecurityAccess then (s.1.tick now).access.serve now args
      else (s.1.tick now).access :=
  dispatch_access ..

theorem sessionControl_access_cases (server : UdsServer σ) (now : UInt32) (args : List UInt8)
    (capacity : ℕ) :
    (server.changesSession args = true ∧
        ∃ session, (server.sessionControl now args capacity).2.access =
          { server.access.lock with session := session }) ∨
      (server.changesSession args = false ∧
        (server.sessionControl now args capacity).2.access = server.access) := by
  rw [sessionControl_snd]
  unfold changesSession
  cases server.requestedSession args with
  | none => exact Or.inr ⟨rfl, rfl⟩
  | some session =>
    simp only [setSession_access]
    by_cases hne : session ≠ server.session
    · exact Or.inl ⟨by simp [hne], session, if_pos hne⟩
    · exact Or.inr ⟨by simp [hne], if_neg hne⟩

/-- A request whose tick finds the S3 timer expired ends in the default session, locked, unless it is itself
a request for a session. -/
theorem step_access_of_expired (s : UdsServer σ × σ) {now : UInt32} (hexp : s.1.expired now = true)
    (service : UInt8) (args : List UInt8) (capacity : ℕ) :
    act s (.process now (service :: args) capacity) = .nothing ∧
      ∃ session, (step s (.process now (service :: args) capacity)).1.access =
        { s.1.access.lock with session := session } := by
  have htick : (s.1.tick now).access = { s.1.access.lock with session := sessionDefault } := by
    rw [tick_access, hexp, if_pos rfl]
  have hserve := serve_of_default (congrArg Access.session htick) now args
  refine ⟨by simp [act, hserve.2], ?_⟩
  rw [process_access]
  split
  · rcases sessionControl_access_cases (s.1.tick now) now args capacity with
      ⟨-, session, h⟩ | ⟨-, h⟩
    · exact ⟨session, by rw [h, htick]; rfl⟩
    · exact ⟨sessionDefault, by rw [h, htick]⟩
  split
  · exact ⟨sessionDefault, by rw [hserve.1, htick]⟩
  · exact ⟨sessionDefault, htick⟩

/-- What a step makes of the session and security fields: it locks them, performs a security access, or
leaves them. -/
theorem step_access_cases (s : UdsServer σ × σ) (e : Event) :
    (locks s e = true ∧ act s e = .nothing ∧
        ∃ session, (step s e).1.access = { s.1.access.lock with session := session }) ∨
      (locks s e = false ∧ ∃ now args capacity,
        e = .process now (sidSecurityAccess :: args) capacity ∧
        act s e = s.1.access.securityAct now args ∧
        (step s e).1.access = s.1.access.serve now args) ∨
      (locks s e = false ∧ act s e = .nothing ∧ (step s e).1.access = s.1.access) := by
  cases e with
  | pollPending capacity => exact Or.inr (Or.inr ⟨rfl, rfl, s.1.pollPending_access s.2 capacity⟩)
  | lockSecurity => exact Or.inl ⟨rfl, rfl, s.1.session, rfl⟩
  | tick now =>
    rcases tick_access_cases s.1 now with ⟨hexp, h⟩ | ⟨hexp, h⟩
    · exact Or.inl ⟨hexp, rfl, h⟩
    · exact Or.inr (Or.inr ⟨hexp, rfl, h⟩)
  | process now request capacity =>
    cases request with
    | nil =>
      rcases tick_access_cases s.1 now with ⟨hexp, h⟩ | ⟨hexp, h⟩
      · exact Or.inl ⟨hexp, rfl, h⟩
      · exact Or.inr (Or.inr ⟨hexp, rfl, h⟩)
    | cons service args =>
      cases hexp : s.1.expired now with
      | true =>
        have h := step_access_of_expired s hexp service args capacity
        exact Or.inl ⟨by simp [locks, hexp], h⟩
      | false =>
        have htick := s.1.tick_eq_self now hexp
        rw [process_access, htick]
        by_cases h10 : service = sidDiagnosticSessionControl
        · have hact : act s (.process now (service :: args) capacity) = .nothing := by
            simp [act, h10, sidDiagnosticSessionControl, sidSecurityAccess]
          rw [if_pos h10]
          rcases sessionControl_access_cases s.1 now args capacity with ⟨hnew, h⟩ | ⟨hnew, h⟩
          · exact Or.inl ⟨by simp [locks, h10, hnew], hact, h⟩
          · exact Or.inr (Or.inr ⟨by simp [locks, hexp, hnew], hact, h⟩)
        rw [if_neg h10]
        by_cases h27 : service = sidSecurityAccess
        · subst h27
          refine Or.inr (Or.inl ⟨by simp [locks, hexp, h10], now, args, capacity, rfl, ?_, if_pos rfl⟩)
          simp [act, htick]
        · exact Or.inr (Or.inr ⟨by simp [locks, hexp, h10], by simp [act, h27], if_neg h27⟩)

theorem serve_cases (access : Access) (now : UInt32) (args : List UInt8) :
    (access.securityAct now args = .nothing ∧
        (access.serve now args = access ∨ access.serve now args = access.expireDelay now)) ∨
      (access.securityAct now args ≠ .nothing ∧ access.delayActive now = false ∧
        access.serve now args =
          (access.expireDelay now).perform now (access.securityAct now args)) := by
  cases args with
  | nil => exact Or.inl ⟨rfl, Or.inl rfl⟩
  | cons sub data =>
    cases hgo : access.admits sub && !access.delayActive now with
    | false => exact Or.inl (by simp [Access.serve, Access.securityAct, hgo])
    | true =>
      have hserve : access.serve now (sub :: data) =
          (access.expireDelay now).perform now (access.securityAct now (sub :: data)) :=
        if_pos hgo
      rw [hserve]
      simp only [Bool.and_eq_true, Bool.not_eq_true'] at hgo
      by_cases hact : access.securityAct now (sub :: data) = .nothing
      · rw [hact]
        exact Or.inl ⟨rfl, Or.inr rfl⟩
      · exact Or.inr ⟨hact, hgo.2, rfl⟩

/-- What a step makes of the session and security fields, by the security access it performs. -/
theorem step_cases (s : UdsServer σ × σ) (e : Event) :
    (act s e = .nothing ∧ locks s e = true ∧
        ∃ session, (step s e).1.access = { s.1.access.lock with session := session }) ∨
      (act s e = .nothing ∧ locks s e = false ∧
        ((step s e).1.access = s.1.access ∨ ∃ now request capacity,
          e = .process now request capacity ∧
          (step s e).1.access = s.1.access.expireDelay now)) ∨
      (act s e ≠ .nothing ∧ locks s e = false ∧ ∃ now args capacity,
        e = .process now (sidSecurityAccess :: args) capacity ∧
        act s e = s.1.access.securityAct now args ∧ s.1.access.delayActive now = false ∧
        (step s e).1.access = (s.1.access.expireDelay now).perform now (act s e)) := by
  rcases step_access_cases s e with ⟨hlock, hact, h⟩ | ⟨hlock, now, args, capacity, he, hact, h⟩ |
    ⟨hlock, hact, h⟩
  · exact Or.inl ⟨hact, hlock, h⟩
  · rw [h, hact]
    rcases serve_cases s.1.access now args with ⟨hnone, hserve | hserve⟩ | ⟨hsome, hdelay, hserve⟩
    · exact Or.inr (Or.inl ⟨hnone, hlock, Or.inl hserve⟩)
    · exact Or.inr (Or.inl ⟨hnone, hlock, Or.inr ⟨now, _, capacity, he, hserve⟩⟩)
    · exact Or.inr (Or.inr ⟨hsome, hlock, now, args, capacity, he, rfl, hdelay, hserve⟩)
  · exact Or.inr (Or.inl ⟨hact, hlock, Or.inl h⟩)

/-- A compared key was sent after its seed: the seed is the pending one. -/
theorem securityAct_evaluate {access : Access} {now seed key : UInt32} {args : List UInt8}
    (h : access.securityAct now args = .evaluate seed key) :
    access.seedPending = true ∧ seed = access.pendingSeed ∧ ∃ sub k0 k1 k2 k3,
      args = [sub, k0, k1, k2, k3] ∧ access.admits sub = true ∧
      sub &&& subfunctionMask = securitySendKey ∧ key = word32 k0 k1 k2 k3 := by
  cases args with
  | nil => cases h
  | cons sub data =>
    simp only [Access.securityAct] at h
    split at h
    case isFalse => cases h
    rename_i hgo
    simp only [Bool.and_eq_true, Bool.not_eq_true'] at hgo
    split at h
    · split at h <;> cases h
    rename_i hsub
    split at h
    · split at h
      · rename_i k0 k1 k2 k3 hpending
        cases h
        have hkey : sub &&& subfunctionMask = securitySendKey := by
          have hadmits := hgo.1
          simp only [Access.admits, hsub, decide_false, Bool.false_or, Bool.and_eq_true,
            decide_eq_true_eq] at hadmits
          exact hadmits.1
        exact ⟨hpending, rfl, sub, k0, k1, k2, k3, rfl, hgo.1, hkey, rfl⟩
      · cases h
    · cases h

theorem securityAct_newSeed {access : Access} {now seed : UInt32} {args : List UInt8}
    (h : access.securityAct now args = .newSeed seed) :
    access.securityUnlocked = false ∧ seed = (nextSeed access.seedState).1 ∧
      (access.session = sessionExtended ∨ access.session = sessionProgramming) := by
  cases args with
  | nil => cases h
  | cons sub data =>
    simp only [Access.securityAct] at h
    split at h
    case isFalse => cases h
    rename_i hgo
    simp only [Access.admits, Bool.and_eq_true, Bool.or_eq_true, decide_eq_true_eq] at hgo
    split at h
    · split at h
      · cases h
      · rename_i hlocked
        cases h
        exact ⟨by simpa using hlocked, rfl, hgo.1.2⟩
    · split at h
      · split at h <;> cases h
      · cases h

/-! ## What the tester sees -/

end UdsServer

namespace Reply

/-- The positive response to a security access. -/
def grants (reply : Reply) : Bool :=
  reply.response.head? = some (sidSecurityAccess + 0x40)

/-- The reply, if it is sent at all, is a negative or a positive response to the service. -/
def IsFor (reply : Reply) (service : UInt8) : Prop :=
  reply.response = [] ∨ (∃ nrc, reply.response = [sidNegativeResponse, service, nrc]) ∨
    (service + 0x40 ≠ sidNegativeResponse ∧ reply.response.head? = some (service + 0x40))

theorem IsFor.not_grants {reply : Reply} {service : UInt8} (h : reply.IsFor service)
    (hservice : service ≠ sidSecurityAccess) : reply.grants = false := by
  unfold grants
  rcases h with hnone | ⟨nrc, hnegative⟩ | ⟨-, hpositive⟩
  · simp [hnone]
  · simp [hnegative, sidNegativeResponse, sidSecurityAccess]
  · have hne : service + 0x40 ≠ sidSecurityAccess + 0x40 :=
      fun heq => hservice (UInt8.add_left_inj 0x40 |>.1 heq)
    simpa [hpositive] using hne

end Reply

namespace UdsServer

@[simp] theorem negative_isFor (capacity : ℕ) (service nrc : UInt8) :
    (negative capacity service nrc).IsFor service := by
  unfold negative
  split
  · exact Or.inl rfl
  · exact Or.inr (Or.inl ⟨nrc, rfl⟩)

@[simp] theorem responsePending_isFor (capacity : ℕ) (service : UInt8) :
    (responsePending capacity service).IsFor service := by
  unfold responsePending
  dsimp only
  split
  · exact negative_isFor capacity service nrcResponsePending
  · exact negative_isFor ..

theorem positive_isFor {service first : UInt8} (hfirst : first = service + 0x40)
    (hservice : first ≠ sidNegativeResponse) (suppress : Bool) (capacity : ℕ) (l : List UInt8) :
    (positive suppress capacity (first :: l)).IsFor service := by
  subst hfirst
  unfold positive
  split
  · exact Or.inl rfl
  split
  · exact Or.inl rfl
  · exact Or.inr (Or.inr ⟨hservice, rfl⟩)

@[simp] theorem noResponse_isFor (result : ProcessResult) (service : UInt8) :
    Reply.IsFor ⟨result, []⟩ service :=
  Or.inl rfl

@[simp] theorem negative_grants (capacity : ℕ) (service nrc : UInt8) :
    (negative capacity service nrc).grants = false := by
  unfold negative
  split
  · simp [Reply.grants]
  · simp [Reply.grants, sidNegativeResponse, sidSecurityAccess]

@[simp] theorem written_isFor (capacity : ℕ) (high low : UInt8) :
    (positive false capacity [sidWriteDataByIdentifier + 0x40, high, low]).IsFor
      sidWriteDataByIdentifier :=
  positive_isFor rfl (by decide) ..

@[simp] theorem routinePositive_isFor (subfunction : UInt8) (routineId : UInt16)
    (result : List UInt8) (suppress : Bool) (capacity : ℕ) :
    (routinePositive subfunction routineId result suppress capacity).IsFor sidRoutineControl :=
  positive_isFor rfl (by decide) ..

variable (server : UdsServer σ) (env : σ) (now : UInt32) (args data : List UInt8)
  (capacity index : ℕ)

theorem sessionControl_isFor :
    (server.sessionControl now args capacity).1.IsFor sidDiagnosticSessionControl := by
  unfold sessionControl
  split
  · dsimp only
    split
    · simp
    · exact positive_isFor rfl (by decide) ..
  · simp

theorem readDid_isFor : (server.readDid args capacity).IsFor sidReadDataByIdentifier := by
  unfold readDid
  split
  · simp
  split
  · simp
  split
  · simp
  · exact Or.inr (Or.inr ⟨by decide, rfl⟩)

theorem securityAccess_isFor : (server.securityAccess now args capacity).1.IsFor sidSecurityAccess := by
  unfold securityAccess
  split
  · simp
  dsimp only
  split
  · simp
  split
  · simp
  split
  · simp
  split
  · unfold requestSeed
    split
    · exact positive_isFor rfl (by decide) ..
    · exact positive_isFor rfl (by decide) ..
  split
  · split
    · simp
    · unfold evaluateKey
      dsimp only
      split
      · split <;> simp
      · exact positive_isFor rfl (by decide) ..
  · simp

theorem writeDid_isFor : (server.writeDid args capacity).1.IsFor sidWriteDataByIdentifier := by
  unfold writeDid
  repeat' split
  all_goals simp

theorem runRoutine_isFor (routine : Routine σ) (subfunction : UInt8) (suppress : Bool) :
    (server.runRoutine env index routine subfunction suppress data capacity).1.IsFor
      sidRoutineControl := by
  unfold runRoutine
  dsimp only [callRoutine]
  repeat' split
  all_goals simp

theorem routineControl_isFor : (server.routineControl env args capacity).1.IsFor sidRoutineControl := by
  unfold routineControl
  split
  · dsimp only
    split
    · simp
    · repeat' split
      all_goals simp [runRoutine_isFor]
  · simp

theorem testerPresent_isFor : (server.testerPresent now args capacity).1.IsFor sidTesterPresent := by
  unfold testerPresent
  split
  · split
    · simp
    · exact positive_isFor rfl (by decide) ..
  · simp

theorem pollPending_isFor : (server.pollPending env capacity).1.IsFor sidWriteDataByIdentifier ∨
    (server.pollPending env capacity).1.IsFor sidRoutineControl := by
  unfold pollPending
  split
  · unfold pollWrite
    repeat' split
    all_goals simp
  split
  · unfold pollRoutine
    dsimp only [callRoutine]
    repeat' split
    all_goals simp
  · simp

/-- The reply to a request is one to its service. -/
theorem dispatch_isFor (service : UInt8) :
    (server.dispatch env now service args capacity).1.IsFor service := by
  unfold dispatch
  split
  · rename_i h10
    exact h10 ▸ sessionControl_isFor ..
  split
  · rename_i h22
    rw [finish_reply]
    exact h22 ▸ readDid_isFor ..
  split
  · rename_i h27
    rw [finish_reply]
    exact h27 ▸ securityAccess_isFor ..
  split
  · rename_i h2E
    rw [finish_reply]
    exact h2E ▸ writeDid_isFor ..
  split
  · rename_i h31
    rw [finish_reply]
    exact h31 ▸ routineControl_isFor ..
  split
  · rename_i h3E
    exact h3E ▸ testerPresent_isFor ..
  · exact negative_isFor ..

/-- A security access request that does nothing is refused. -/
theorem securityAccess_grants (h : server.access.securityAct now args = .nothing) :
    (server.securityAccess now args capacity).1.grants = false := by
  cases args with
  | nil => exact negative_grants ..
  | cons sub data =>
    simp only [securityAccess, securityDelayActive_eq]
    split
    · simp
    rename_i hsub
    split
    · simp
    rename_i hsession
    have hadmits : server.access.admits sub = true := by
      simp only [Access.admits, Bool.and_eq_true, Bool.or_eq_true, decide_eq_true_eq]
      exact ⟨by tauto, by tauto⟩
    cases hdelay : server.access.delayActive now with
    | true => simp
    | false =>
      simp only [Access.securityAct, hadmits, hdelay, Bool.not_false, Bool.and_true, if_true] at h ⊢
      by_cases hrequest : sub &&& subfunctionMask = securityRequestSeed
      · rw [if_pos hrequest] at h
        split at h <;> cases h
      rw [if_neg hrequest] at h ⊢
      rcases data with _ | ⟨k0, _ | ⟨k1, _ | ⟨k2, _ | ⟨k3, _ | ⟨k4, rest⟩⟩⟩⟩⟩
      case cons.cons.cons.cons.nil =>
        have hpending : (server.expireDelay now).seedPending = server.access.seedPending := by
          unfold expireDelay; split <;> rfl
        simp only [hpending]
        cases hp : server.access.seedPending with
        | false => simp
        | true =>
          rw [hp] at h
          cases h
      all_goals simp

/-- Without a security access no positive response to one goes out. -/
theorem respond_grants {s : UdsServer σ × σ} {e : Event} (h : act s e = .nothing) :
    (respond s e).1.grants = false := by
  cases e with
  | pollPending capacity =>
    rcases pollPending_isFor s.1 s.2 capacity with hwrite | hroutine
    · exact hwrite.not_grants (by decide)
    · exact hroutine.not_grants (by decide)
  | tick now => rfl
  | lockSecurity => rfl
  | process now request capacity =>
    cases request with
    | nil => exact negative_grants ..
    | cons service args =>
      by_cases h27 : service = sidSecurityAccess
      · subst h27
        change (finish now (_, _, _)).1.grants = false
        rw [finish_reply]
        apply securityAccess_grants
        simpa [act] using h
      · exact (dispatch_isFor (s.1.tick now) s.2 now args capacity service).not_grants h27

/-! ## Where an unlock comes from -/

@[simp] theorem expireDelay_session (access : Access) (now : UInt32) :
    (access.expireDelay now).session = access.session := by
  unfold Access.expireDelay
  split <;> rfl

@[simp] theorem expireDelay_seedPending (access : Access) (now : UInt32) :
    (access.expireDelay now).seedPending = access.seedPending := by
  unfold Access.expireDelay
  split <;> rfl

@[simp] theorem expireDelay_pendingSeed (access : Access) (now : UInt32) :
    (access.expireDelay now).pendingSeed = access.pendingSeed := by
  unfold Access.expireDelay
  split <;> rfl

@[simp] theorem expireDelay_securityUnlocked (access : Access) (now : UInt32) :
    (access.expireDelay now).securityUnlocked = access.securityUnlocked := by
  unfold Access.expireDelay
  split <;> rfl

@[simp] theorem expireDelay_securitySalt (access : Access) (now : UInt32) :
    (access.expireDelay now).securitySalt = access.securitySalt := by
  unfold Access.expireDelay
  split <;> rfl

/-- The three outcomes of a comparison: the expected key, the last wrong key allowed, an earlier one. -/
theorem evaluate_cases (access : Access) (now seed key : UInt32) :
    (key = computeKey seed access.securitySalt ∧ access.evaluate now seed key =
        { access with
          seedPending := false, pendingSeed := 0, securityUnlocked := true
          securityAttempts := 0, securityDelayUntilMs := 0 }) ∨
      (key ≠ computeKey seed access.securitySalt ∧
        access.securityAttempts + 1 ≥ securityMaxAttempts ∧ access.evaluate now seed key =
        { access with
          seedPending := false, pendingSeed := 0, securityAttempts := 0
          securityDelayUntilMs := now + securityDelayMs }) ∨
      (key ≠ computeKey seed access.securitySalt ∧
        ¬access.securityAttempts + 1 ≥ securityMaxAttempts ∧ access.evaluate now seed key =
        { access with
          seedPending := false, pendingSeed := 0
          securityAttempts := access.securityAttempts + 1 }) := by
  unfold Access.evaluate
  dsimp only
  by_cases hkey : key = computeKey seed access.securitySalt
  · exact Or.inl ⟨hkey, if_pos hkey⟩
  · rw [if_neg hkey]
    by_cases hlast : access.securityAttempts + 1 ≥ securityMaxAttempts
    · exact Or.inr (Or.inl ⟨hkey, hlast, if_pos hlast⟩)
    · exact Or.inr (Or.inr ⟨hkey, hlast, if_neg hlast⟩)

theorem evaluate_seedPending (access : Access) (now seed key : UInt32) :
    (access.evaluate now seed key).seedPending = false := by
  rcases evaluate_cases access now seed key with ⟨-, h⟩ | ⟨-, -, h⟩ | ⟨-, -, h⟩ <;> rw [h]

theorem evaluate_securitySalt (access : Access) (now seed key : UInt32) :
    (access.evaluate now seed key).securitySalt = access.securitySalt := by
  rcases evaluate_cases access now seed key with ⟨-, h⟩ | ⟨-, -, h⟩ | ⟨-, -, h⟩ <;> rw [h]

theorem step_securitySalt (s : UdsServer σ × σ) (e : Event) :
    (step s e).1.securitySalt = s.1.securitySalt := by
  show (step s e).1.access.securitySalt = s.1.access.securitySalt
  rcases step_cases s e with ⟨-, -, session, h⟩ | ⟨-, -, h | ⟨now, -, -, -, h⟩⟩ |
    ⟨-, -, now, args, capacity, -, -, -, h⟩
  · rw [h]
    rfl
  · rw [h]
  · rw [h, expireDelay_securitySalt]
  · rw [h]
    cases act s e with
    | nothing => exact expireDelay_securitySalt ..
    | zeroSeed => exact expireDelay_securitySalt ..
    | newSeed seed => exact expireDelay_securitySalt ..
    | evaluate seed key => rw [Access.perform, evaluate_securitySalt, expireDelay_securitySalt]

theorem after_securitySalt (s : UdsServer σ × σ) (es : List Event) :
    (after step s es).1.securitySalt = s.1.securitySalt := by
  refine after_invariant (I := fun t : UdsServer σ × σ => t.1.securitySalt = s.1.securitySalt) rfl
    ?_ es
  intro t e h
  rw [step_securitySalt, h]

/-- `seed` was generated in the session `session`, and since then this session went on, nothing locked, no
other seed was generated and no key was compared. -/
def LatestSeed (s : UdsServer σ × σ) (seed : UInt32) (session : UInt8) (es : List Event) : Prop :=
  Since step s (fun t e => act t e = .newSeed seed ∧ t.1.session = session)
    (fun t e => t.1.session = session ∧ locks t e = false ∧ (act t e).generates = false ∧
      (act t e).evaluates = false) es

/-- A pending seed is the latest one generated. -/
theorem latestSeed_of_pending {config : UdsServerConfig σ} {server : UdsServer σ} (env : σ)
    (hinit : init config = some server) (es : List Event)
    (hpending : (after step (server, env) es).1.seedPending = true) :
    LatestSeed (server, env) (after step (server, env) es).1.pendingSeed
      (after step (server, env) es).1.session es := by
  generalize hseed : (after step (server, env) es).1.pendingSeed = seed
  generalize hsession : (after step (server, env) es).1.session = session
  unfold LatestSeed
  refine since_of_state (J := fun _ => True) (I := fun t => t.1.access.seedPending = true ∧
      t.1.access.pendingSeed = seed ∧ t.1.access.session = session) trivial
    (fun _ _ _ => trivial) ?_ ?_ es ⟨hpending, hseed, hsession⟩
  · rintro ⟨h, -⟩
    obtain ⟨-, -, -, -, -, hoff, -⟩ := init_some hinit
    rw [show server.access.seedPending = server.seedPending from rfl, hoff] at h
    cases h
  · rintro t e - ⟨hp, hs, hses⟩
    rcases step_cases t e with ⟨-, -, session, h⟩ | ⟨hact, hlock, h | ⟨now, -, -, -, h⟩⟩ |
      ⟨hact, hlock, now, args, capacity, -, -, -, h⟩
    · rw [h] at hp
      cases hp
    · rw [h] at hp hs hses
      refine Or.inr ⟨⟨hp, hs, hses⟩, hses, hlock, ?_⟩
      rw [hact]
      exact ⟨rfl, rfl⟩
    · rw [h] at hp hs hses
      simp only [expireDelay_seedPending, expireDelay_pendingSeed, expireDelay_session] at hp hs hses
      refine Or.inr ⟨⟨hp, hs, hses⟩, hses, hlock, ?_⟩
      rw [hact]
      exact ⟨rfl, rfl⟩
    · rw [h] at hp hs hses
      cases hstep : act t e with
      | nothing => exact absurd hstep hact
      | zeroSeed =>
        simp only [hstep, Access.perform, expireDelay_seedPending, expireDelay_pendingSeed,
          expireDelay_session] at hp hs hses
        exact Or.inr ⟨⟨hp, hs, hses⟩, hses, hlock, rfl, rfl⟩
      | newSeed seed' =>
        simp only [hstep, Access.perform, expireDelay_session] at hs hses
        exact Or.inl ⟨by rw [hs], hses⟩
      | evaluate seed' key =>
        rw [hstep, Access.perform, evaluate_seedPending] at hp
        cases hp

/-- A compared key: the request that carries it, and the state it meets. -/
theorem act_evaluate {s : UdsServer σ × σ} {e : Event} {seed key : UInt32}
    (h : act s e = .evaluate seed key) :
    s.1.seedPending = true ∧ seed = s.1.pendingSeed ∧ locks s e = false ∧
      (s.1.session = sessionExtended ∨ s.1.session = sessionProgramming) ∧
      ∃ now sub k0 k1 k2 k3 capacity,
        e = .process now [sidSecurityAccess, sub, k0, k1, k2, k3] capacity ∧
        sub &&& subfunctionMask = securitySendKey ∧ key = word32 k0 k1 k2 k3 ∧
        s.1.access.delayActive now = false ∧
        (step s e).1.access = (s.1.access.expireDelay now).evaluate now seed key := by
  rcases step_cases s e with ⟨hact, -⟩ | ⟨hact, -⟩ |
    ⟨-, hlock, now, args, capacity, rfl, hact, hdelay, haccess⟩
  · rw [h] at hact
    cases hact
  · rw [h] at hact
    cases hact
  · rw [h] at hact haccess
    obtain ⟨hpending, hseed, sub, k0, k1, k2, k3, rfl, hadmits, hkey, hword⟩ :=
      securityAct_evaluate hact.symm
    simp only [Access.admits, Bool.and_eq_true, Bool.or_eq_true, decide_eq_true_eq] at hadmits
    exact ⟨hpending, hseed, hlock, hadmits.2, now, sub, k0, k1, k2, k3, capacity, rfl, hkey, hword,
      hdelay, haccess⟩

/-- Only a key that is the one expected unlocks. -/
theorem unlock_step {s : UdsServer σ × σ} {e : Event} (hlocked : s.1.securityUnlocked = false)
    (hunlocked : (step s e).1.securityUnlocked = true) :
    ∃ seed key, act s e = .evaluate seed key ∧ key = computeKey seed s.1.securitySalt := by
  have h0 : s.1.access.securityUnlocked = false := hlocked
  have h1 : (step s e).1.access.securityUnlocked = true := hunlocked
  rcases step_cases s e with ⟨-, -, session, h⟩ | ⟨-, -, h | ⟨now, -, -, -, h⟩⟩ |
    ⟨hact, -, now, args, capacity, -, -, -, h⟩
  · rw [h] at h1
    cases h1
  · rw [h, h0] at h1
    cases h1
  · rw [h, expireDelay_securityUnlocked, h0] at h1
    cases h1
  · rw [h] at h1
    cases hstep : act s e with
    | nothing => exact absurd hstep hact
    | zeroSeed =>
      rw [hstep, Access.perform, expireDelay_securityUnlocked, h0] at h1
      cases h1
    | newSeed seed =>
      rw [hstep] at h1
      simp only [Access.perform, expireDelay_securityUnlocked, h0] at h1
      cases h1
    | evaluate seed key =>
      refine ⟨seed, key, rfl, ?_⟩
      rw [hstep, Access.perform] at h1
      rcases evaluate_cases (s.1.access.expireDelay now) now seed key with
        ⟨hkey, -⟩ | ⟨-, -, he⟩ | ⟨-, -, he⟩
      · rw [hkey, expireDelay_securitySalt]
        rfl
      · rw [he, expireDelay_securityUnlocked, h0] at h1
        cases h1
      · rw [he, expireDelay_securityUnlocked, h0] at h1
        cases h1

/-- **Unlock provenance.** A key is only compared with the seed generated last, within one stay in a
non-default session and with no lock, no other seed and no other key since; so a seed is generated between
any two keys compared. The server unlocks only when such a key is the one computed from its seed. -/
theorem unlock_provenance {config : UdsServerConfig σ} {server : UdsServer σ} (env : σ)
    (hinit : init config = some server) (es : List Event) (e : Event) :
    (∀ seed key, act (after step (server, env) es) e = .evaluate seed key →
      (after step (server, env) es).1.session ≠ sessionDefault ∧
      locks (after step (server, env) es) e = false ∧
      LatestSeed (server, env) seed (after step (server, env) es).1.session es ∧
      ∀ a x b, es = a ++ x :: b → (act (after step (server, env) a) x).evaluates = true →
        Once step (after step (server, env) (a ++ [x])) (fun t e => (act t e).generates = true) b) ∧
    ((after step (server, env) es).1.securityUnlocked = false →
      (after step (server, env) (es ++ [e])).1.securityUnlocked = true →
      ∃ now sub k0 k1 k2 k3 capacity seed,
        e = .process now [sidSecurityAccess, sub, k0, k1, k2, k3] capacity ∧
        sub &&& subfunctionMask = securitySendKey ∧
        act (after step (server, env) es) e = .evaluate seed (word32 k0 k1 k2 k3) ∧
        word32 k0 k1 k2 k3 = computeKey seed server.securitySalt) := by
  constructor
  · intro seed key hact
    obtain ⟨hpending, rfl, hlock, hsession, -⟩ := act_evaluate hact
    have hlatest := latestSeed_of_pending env hinit es hpending
    refine ⟨?_, hlock, hlatest, ?_⟩
    · rcases hsession with h | h
      · rw [h]
        decide
      · rw [h]
        decide
    · rintro a x b rfl hx
      rw [after_snoc]
      apply (Since.once_after hlatest ?_ ?_).mono
      · rintro t e ⟨h, -⟩
        rw [h]
        rfl
      · rintro ⟨h, -⟩
        rw [h] at hx
        cases hx
      · rintro ⟨-, -, -, h⟩
        rw [h] at hx
        cases hx
  · intro hlocked hunlocked
    rw [after_snoc] at hunlocked
    obtain ⟨seed, key, hact, hkey⟩ := unlock_step hlocked hunlocked
    rw [after_securitySalt] at hkey
    obtain ⟨-, -, -, -, now, sub, k0, k1, k2, k3, capacity, he, hsub, rfl, -⟩ := act_evaluate hact
    exact ⟨now, sub, k0, k1, k2, k3, capacity, seed, he, hsub, hact, hkey⟩

/-! ## A server without identifiers and routines -/

def bareConfig : UdsServerConfig Unit where
  dids := []
  routines := []
  p2ServerMs := 0
  p2StarServerMs := 0
  s3ServerMs := 0
  supportedSessionsMask := 0
  securitySalt := 0

def bareServer : UdsServer Unit := (init bareConfig).get rfl

theorem init_bareConfig : init bareConfig = some bareServer := rfl

def enterSession (session : UInt8) : Event :=
  .process 0 [sidDiagnosticSessionControl, session] 16

def requestSeedEvent : Event := .process 0 [sidSecurityAccess, securityRequestSeed] 16

def goodKeyEvent : Event :=
  .process 0 [sidSecurityAccess, securitySendKey, 0xE1, 0x74, 0xF5, 0xDA] 16

/-- The first seed of a fresh server and its key. -/
theorem unlock_provenance_firstSeed :
    LatestSeed (bareServer, ()) 0x87985AA5 sessionExtended
        [enterSession sessionExtended, requestSeedEvent] ∧
      ∃ now sub k0 k1 k2 k3 capacity seed,
        goodKeyEvent = .process now [sidSecurityAccess, sub, k0, k1, k2, k3] capacity ∧
        word32 k0 k1 k2 k3 = computeKey seed bareServer.securitySalt := by
  have h := unlock_provenance () init_bareConfig [enterSession sessionExtended, requestSeedEvent]
    goodKeyEvent
  constructor
  · exact (h.1 0x87985AA5 0xE174F5DA (by decide +kernel)).2.2.1
  · obtain ⟨now, sub, k0, k1, k2, k3, capacity, seed, he, -, -, hkey⟩ :=
      h.2 (by decide +kernel) (by decide +kernel)
    exact ⟨now, sub, k0, k1, k2, k3, capacity, seed, he, hkey⟩

end UdsServer

end DualCan.Uds
