import DualCan.Emu.Security
import DualCan.Uds.Answered

/-!
# The server and the virtual ECU agree

A simulation between `UdsServer_t` on the reference table and `VirtualEcu`. The two keep the timer, the
delay and the generator in different ways: a flag and a wrapped deadline against an optional time, a deadline
that is taken off by the next request against one that stays in the past. The relation says what these have
in common at the time of a request.
-/

namespace DualCan.Emu

open DualCan.Clock DualCan.Uds

/-! ## What both send -/

/-- The bytes that go out for a reply, if any. -/
def sentBytes (reply : Reply) : Option (List UInt8) := if reply.sent then some reply.response else none

theorem negative_sentBytes {capacity : ℕ} (h : 3 ≤ capacity) (service nrc : UInt8) :
    sentBytes (Uds.negative capacity service nrc) = VirtualEcu.negative service nrc := by
  unfold sentBytes Uds.negative
  rw [if_neg (Nat.not_lt.2 h)]
  rfl

theorem positive_sentBytes {capacity : ℕ} (first : UInt8) {bytes : List UInt8} (suppress : Bool)
    (h : bytes.length + 1 ≤ capacity) : sentBytes (positive suppress capacity (first :: bytes)) =
      if suppress then none else some (first :: bytes) := by
  cases suppress with
  | true => rfl
  | false =>
    have hsent : (positive false capacity (first :: bytes)).sent = true := positive_sent h
    rw [sentBytes, if_pos hsent, positive, if_neg Bool.false_ne_true,
      if_neg (Nat.not_lt.2 (by simpa using h))]
    rfl

/-- Without NRC 0x78 the server keeps the session alive for what it answers positively, as `_handle` does. -/
theorem keepsSession_eq {reply : Reply} (h : reply.pending = false) : reply.keepsSession =
    (sentBytes reply).any fun bytes => bytes.head? ≠ some sidNegativeResponse := by
  have hdone : reply.result ≠ .responsePending := of_decide_eq_false h
  unfold Reply.keepsSession sentBytes Reply.sent
  rw [decide_eq_false hdone]
  by_cases hsent : reply.result = .response ∧ reply.response ≠ []
  · simp [hsent]
  · rw [not_and_or] at hsent
    rcases hsent with hresult | hresponse
    · simp [hresult]
    · simp [not_not.1 hresponse]

theorem didValue_of_findDid {σ : Type} {server : UdsServer σ} {did : UInt16} {index : ℕ} {entry : Did σ}
    (h : server.findDid did = some (index, entry)) : didValue server.dids did = some entry.data := by
  unfold didValue
  rw [find_eq_findDid, h]
  rfl

/-! ## The relation -/

/-- The session and security fields of both, at the time `now`. -/
structure AccessAgrees (access : Access) (ecu : VirtualEcu) (now : ℕ) : Prop where
  session : access.session = ecu.session
  generator : ecu.seedState = generatorState access.seedState
  pending : ecu.pendingSeed = if access.seedPending then some access.pendingSeed.toNat else none
  unlocked : ecu.securityUnlocked = access.securityUnlocked
  attempts : ecu.securityAttempts = access.securityAttempts.toNat
  attempts_lt : ecu.securityAttempts < securityMaxAttempts
  salt : ecu.securitySalt = access.securitySalt.toNat
  delay : (access.securityDelayUntilMs = 0 ∧ ecu.securityDelayUntil ≤ now) ∨
    (access.securityDelayUntilMs = Clock.tick ecu.securityDelayUntil ∧ 0 < ecu.securityDelayUntil ∧
      ecu.securityDelayUntil ≤ now + securityDelayMs ∧ ecu.securityAttempts = 0)

/-- The session timers of both, at the time `now`. -/
structure TimerAgrees (timer : Timer) (ecu : VirtualEcu) (now : ℕ) : Prop where
  session : timer.session = ecu.session
  stopped : ecu.s3Deadline = none → timer.s3Active = false ∧ ecu.session = sessionDefault
  running : ∀ deadline ∈ ecu.s3Deadline, timer.s3Active = true ∧ ecu.session ≠ sessionDefault ∧
    timer.s3DeadlineMs = Clock.tick deadline ∧ deadline ≤ now + 5000
  s3 : timer.s3ServerMs = defaultS3ServerMs
  timeout : ecu.s3TimeoutMs = 5000
  p2 : timer.p2ServerMs = defaultP2ServerMs
  p2Star : timer.p2StarServerMs = defaultP2StarServerMs
  mask : timer.supportedSessionsMask = defaultSessionMask
  supported : ecu.supportedSessions = [0x01, 0x02, 0x03]

/-- The tables of both. -/
structure TableAgrees {τ : Type} (variant : UdsEcuVariant) (hooks : UdsEcuHooks τ)
    (server : UdsServer (EcuEnv τ)) (ecu : VirtualEcu) : Prop where
  built : Built variant none hooks server
  value : ∀ did, did ≠ didCanHealth → did ≠ didFaultControl → didValue server.dids did = ecu.dids did
  short : ∀ did value, didValue server.dids did = some value → value.length ≤ didVinCapacity
  rules : ecu.writableDids = defaultWriteRules

/-- The fields of two states of the virtual ECU that security access does not touch. -/
structure SameOutside (ecu ecu' : VirtualEcu) : Prop where
  session : ecu'.session = ecu.session
  supported : ecu'.supportedSessions = ecu.supportedSessions
  timeout : ecu'.s3TimeoutMs = ecu.s3TimeoutMs
  deadline : ecu'.s3Deadline = ecu.s3Deadline
  dids : ecu'.dids = ecu.dids
  rules : ecu'.writableDids = ecu.writableDids
  fault : ecu'.fault = ecu.fault

variable {access : Access} {timer : Timer} {ecu : VirtualEcu} {now : ℕ}

theorem reached_tick_eq {deadline now : ℕ} (hnow : now < 2 ^ 31) (h : deadline ≤ now + 2 ^ 31) :
    reached (Clock.tick now) (Clock.tick deadline) = decide (deadline ≤ now) := by
  simp only [reached, Clock.tick, UInt32.lt_iff_toNat_lt, UInt32.toNat_sub, UInt32.toNat_ofNat',
    UInt32.reduceToNat]
  congr 1
  apply propext
  omega

/-! ## Security access -/

namespace AccessAgrees

theorem later {later : ℕ} (h : AccessAgrees access ecu now) (hle : now ≤ later) :
    AccessAgrees access ecu later := by
  refine ⟨h.session, h.generator, h.pending, h.unlocked, h.attempts, h.attempts_lt, h.salt, ?_⟩
  rcases h.delay with ⟨hzero, hpast⟩ | ⟨htick, hpositive, hsoon, hattempts⟩
  · exact Or.inl ⟨hzero, Nat.le_trans hpast hle⟩
  · exact Or.inr ⟨htick, hpositive, Nat.le_trans hsoon (Nat.add_le_add_right hle _), hattempts⟩

theorem delayActive (h : AccessAgrees access ecu now) (hnow : now < 2 ^ 31) :
    access.delayActive (Clock.tick now) = decide (now < ecu.securityDelayUntil) := by
  have hms : securityDelayMs = 10000 := rfl
  unfold Access.delayActive
  rcases h.delay with ⟨hzero, hpast⟩ | ⟨htick, hpositive, hsoon, -⟩
  · simp [hzero, hpast]
  · have hne : Clock.tick ecu.securityDelayUntil ≠ 0 := by
      intro heq
      have hval := congrArg UInt32.toNat heq
      simp only [Clock.tick, UInt32.toNat_ofNat', UInt32.reduceToNat] at hval
      omega
    rw [htick, reached_tick_eq hnow (by omega)]
    by_cases hbefore : now < ecu.securityDelayUntil
    · simp [hne, hbefore]
    · simp [hbefore, Nat.not_lt.1 hbefore]

/-- The server takes a delay that is over off; in the virtual ECU it stays in the past. -/
theorem expireDelay (h : AccessAgrees access ecu now) (hnow : now < 2 ^ 31)
    (hover : ¬now < ecu.securityDelayUntil) :
    AccessAgrees (access.expireDelay (Clock.tick now)) ecu now ∧
      (access.expireDelay (Clock.tick now)).securityDelayUntilMs = 0 := by
  have hms : securityDelayMs = 10000 := rfl
  unfold Access.expireDelay
  rcases h.delay with ⟨hzero, hpast⟩ | ⟨htick, hpositive, hsoon, hattempts⟩
  · rw [if_neg (fun hne => hne.1 hzero)]
    exact ⟨h, hzero⟩
  · split
    · refine ⟨⟨h.session, h.generator, h.pending, h.unlocked, hattempts, h.attempts_lt, h.salt, ?_⟩, rfl⟩
      exact Or.inl ⟨rfl, Nat.not_lt.1 hover⟩
    · rename_i hnot
      have hactive := h.delayActive hnow
      unfold Access.delayActive at hactive
      rw [decide_eq_false hover, htick] at hactive
      rw [htick] at hnot
      have hreached : reached (Clock.tick now) (Clock.tick ecu.securityDelayUntil) = true := by
        rw [reached_tick_eq hnow (by omega)]
        exact decide_eq_true (Nat.not_lt.1 hover)
      have hzero : Clock.tick ecu.securityDelayUntil = 0 := by
        by_contra hne
        exact hnot ⟨hne, hreached⟩
      exact ⟨h, htick.trans hzero⟩

theorem lock (h : AccessAgrees access ecu now) (session : UInt8) (deadline : Option ℕ) (count : ℕ) :
    AccessAgrees { access.lock with session := session }
      { ecu.lockSecurity with session := session, s3Deadline := deadline, sessionTimeoutCount := count }
      now := by
  refine ⟨rfl, h.generator, rfl, rfl, rfl, Nat.zero_lt_succ 2, h.salt, ?_⟩
  rcases h.delay with ⟨hzero, hpast⟩ | ⟨htick, hpositive, hsoon, -⟩
  · exact Or.inl ⟨hzero, hpast⟩
  · exact Or.inr ⟨htick, hpositive, hsoon, rfl⟩

theorem keepSessionAlive (h : AccessAgrees access ecu now) (later : ℕ) :
    AccessAgrees access (ecu.keepSessionAlive later) now := by
  unfold VirtualEcu.keepSessionAlive
  split
  · exact ⟨h.session, h.generator, h.pending, h.unlocked, h.attempts, h.attempts_lt, h.salt, h.delay⟩
  · exact h

/-- A key is compared alike, once no delay is recorded. -/
theorem evaluate (h : AccessAgrees access ecu now) (hnone : access.securityDelayUntilMs = 0)
    (hpast : ecu.securityDelayUntil ≤ now) {capacity : ℕ} (hroom : 3 ≤ capacity) (suppress : Bool)
    (seed : UInt32) (k0 k1 k2 k3 : UInt8) :
    let key := word32 k0 k1 k2 k3
    let result := ecu.compareKey seed.toNat [k0, k1, k2, k3] suppress now
    sentBytes (if key = computeKey seed access.securitySalt then
        positive suppress capacity [sidSecurityAccess + 0x40, securitySendKey]
      else Uds.negative capacity sidSecurityAccess access.wrongKey) = result.1 ∧
      AccessAgrees (access.evaluate (Clock.tick now) seed key) result.2 now ∧
      SameOutside ecu result.2 := by
  intro key result
  have hkey : VirtualEcu.fromBytes [k0, k1, k2, k3] = key.toNat := fromBytes_eq k0 k1 k2 k3
  have hexpected : seedToKey seed.toNat ecu.securitySalt = (computeKey seed access.securitySalt).toNat := by
    rw [h.salt]
    exact seedToKey_eq seed access.securitySalt
  have hsame : SameOutside ecu result.2 := by
    unfold result VirtualEcu.compareKey
    dsimp only
    split
    · split <;> exact ⟨rfl, rfl, rfl, rfl, rfl, rfl, rfl⟩
    · exact ⟨rfl, rfl, rfl, rfl, rfl, rfl, rfl⟩
  suffices hboth : sentBytes _ = result.1 ∧ AccessAgrees _ result.2 now from ⟨hboth.1, hboth.2, hsame⟩
  unfold result VirtualEcu.compareKey Access.evaluate
  simp only [hkey, hexpected, ne_eq, UInt32.toNat_inj]
  by_cases hright : key = computeKey seed access.securitySalt
  · rw [if_pos hright, if_neg (not_not.2 hright), if_pos hright]
    refine ⟨positive_sentBytes _ suppress (Nat.le_trans (by decide) hroom), ?_⟩
    exact ⟨h.session, h.generator, rfl, rfl, rfl, Nat.zero_lt_succ 2, h.salt, Or.inl ⟨rfl, hpast⟩⟩
  rw [if_neg hright, if_pos hright, if_neg hright]
  -- the counter is below 3, so adding 1 in a byte does not wrap
  have hlt : access.securityAttempts.toNat < 3 := h.attempts ▸ h.attempts_lt
  have hadd : (access.securityAttempts + 1).toNat = access.securityAttempts.toNat + 1 := by
    rw [UInt8.toNat_add]
    simp only [UInt8.reduceToNat]
    omega
  have hlast : access.securityAttempts + 1 ≥ Uds.securityMaxAttempts ↔
      ecu.securityAttempts + 1 ≥ securityMaxAttempts := by
    rw [ge_iff_le, UInt8.le_iff_toNat_le, hadd, h.attempts]
    rfl
  unfold Access.wrongKey
  by_cases hmax : ecu.securityAttempts + 1 ≥ securityMaxAttempts
  · rw [if_pos (hlast.2 hmax), if_pos hmax, if_pos (hlast.2 hmax)]
    refine ⟨negative_sentBytes hroom .., ?_⟩
    refine ⟨h.session, h.generator, rfl, h.unlocked, rfl, Nat.zero_lt_succ 2, h.salt, Or.inr ?_⟩
    refine ⟨(tick_add now securityDelayMs).symm, Nat.lt_of_lt_of_le (by decide) (Nat.le_add_left ..),
      Nat.le_refl _, rfl⟩
  · rw [if_neg (fun hge => hmax (hlast.1 hge)), if_neg hmax, if_neg (fun hge => hmax (hlast.1 hge))]
    refine ⟨negative_sentBytes hroom .., ?_⟩
    refine ⟨h.session, h.generator, rfl, h.unlocked, ?_, Nat.lt_of_not_le hmax, h.salt,
      Or.inl ⟨hnone, hpast⟩⟩
    rw [hadd, h.attempts]

end AccessAgrees

variable {τ : Type} {variant : UdsEcuVariant} {hooks : UdsEcuHooks τ}

theorem securityAccess_agrees {σ : Type} {server : UdsServer σ} (h : AccessAgrees server.access ecu now)
    (hnow : now < 2 ^ 31) {capacity : ℕ} (hroom : 6 ≤ capacity) (sub : UInt8) (data : List UInt8) :
    let outcome := server.securityAccess (Clock.tick now) (sub :: data) capacity
    let result := ecu.securityAccess (sub :: data) now
    sentBytes outcome.1 = result.1 ∧ AccessAgrees outcome.2.access result.2 now ∧
      SameOutside ecu result.2 := by
  have hthree : 3 ≤ capacity := Nat.le_trans (by decide) hroom
  have hsame : SameOutside ecu ecu := ⟨rfl, rfl, rfl, rfl, rfl, rfl, rfl⟩
  have hsession : server.session = ecu.session := h.session
  simp only [UdsServer.securityAccess, VirtualEcu.securityAccess, UdsServer.securityDelayActive_eq,
    h.delayActive hnow, hsession, subfunctionMask, suppressPositiveResponse]
  by_cases hsub : sub &&& 0x7F ≠ securityRequestSeed ∧ sub &&& 0x7F ≠ securitySendKey
  · rw [if_pos hsub, if_pos hsub]
    exact ⟨negative_sentBytes hthree .., h, hsame⟩
  rw [if_neg hsub, if_neg hsub]
  by_cases hses : ecu.session ≠ sessionExtended ∧ ecu.session ≠ sessionProgramming
  · rw [if_pos hses, if_pos hses]
    exact ⟨negative_sentBytes hthree .., h, hsame⟩
  rw [if_neg hses, if_neg hses]
  by_cases hearly : now < ecu.securityDelayUntil
  · have hactive : server.access.delayActive (Clock.tick now) = true :=
      (h.delayActive hnow).trans (decide_eq_true hearly)
    rw [decide_eq_true hearly, if_pos hearly, server.expireDelay_eq_self _ hactive]
    exact ⟨negative_sentBytes hthree .., h, hsame⟩
  rw [decide_eq_false hearly, if_neg hearly]
  obtain ⟨hagree, hnone⟩ := h.expireDelay hnow hearly
  rw [← UdsServer.expireDelay_access] at hagree hnone
  generalize server.expireDelay (Clock.tick now) = server at hagree hnone ⊢
  have hunlocked : ecu.securityUnlocked = server.securityUnlocked := hagree.unlocked
  have hgenerator : ecu.seedState = generatorState server.seedState := hagree.generator
  have hpending : ecu.pendingSeed = if server.seedPending then some server.pendingSeed.toNat else none :=
    hagree.pending
  dsimp only
  by_cases hrequest : sub &&& 0x7F = securityRequestSeed
  · simp only [hrequest, if_true]
    unfold UdsServer.requestSeed
    rw [hunlocked, hgenerator, nextSeed_eq, toBytes4_eq]
    cases server.securityUnlocked with
    | true => exact ⟨positive_sentBytes _ _ hroom, hagree, hsame⟩
    | false =>
      refine ⟨positive_sentBytes _ _ hroom, ?_, ⟨rfl, rfl, rfl, rfl, rfl, rfl, rfl⟩⟩
      exact ⟨hagree.session, rfl, rfl, rfl, hagree.attempts, hagree.attempts_lt, hagree.salt,
        hagree.delay⟩
  simp only [hrequest, if_false]
  rcases data with _ | ⟨k0, _ | ⟨k1, _ | ⟨k2, _ | ⟨k3, _ | ⟨k4, rest⟩⟩⟩⟩⟩
  case cons.cons.cons.cons.nil =>
    rw [if_neg (by simp), hpending]
    cases server.seedPending with
    | false => exact ⟨negative_sentBytes hthree .., hagree, hsame⟩
    | true =>
      have hkey := hagree.evaluate hnone (Nat.not_lt.1 hearly) hthree (sub &&& 0x80 ≠ 0) server.pendingSeed
        k0 k1 k2 k3
      simp only [Bool.not_true, Bool.false_eq_true, if_false, if_true, UdsServer.evaluateKey_reply,
        UdsServer.evaluateKey_access]
      exact hkey
  all_goals
    rw [if_pos (by simp)]
    exact ⟨negative_sentBytes hthree .., hagree, hsame⟩

/-! ## The timer -/

namespace TimerAgrees

theorem congr {ecu' : VirtualEcu} (h : TimerAgrees timer ecu now) (hsame : SameOutside ecu ecu') :
    TimerAgrees timer ecu' now := by
  refine ⟨?_, ?_, ?_, h.s3, hsame.timeout.trans h.timeout, h.p2, h.p2Star, h.mask,
    hsame.supported.trans h.supported⟩
  · rw [hsame.session]
    exact h.session
  · rw [hsame.session, hsame.deadline]
    exact h.stopped
  · rw [hsame.session, hsame.deadline]
    exact h.running

theorem later {later : ℕ} (h : TimerAgrees timer ecu now) (hle : now ≤ later) :
    TimerAgrees timer ecu later := by
  refine ⟨h.session, h.stopped, ?_, h.s3, h.timeout, h.p2, h.p2Star, h.mask, h.supported⟩
  intro deadline hdeadline
  obtain ⟨hactive, hother, htick, hsoon⟩ := h.running deadline hdeadline
  exact ⟨hactive, hother, htick, Nat.le_trans hsoon (Nat.add_le_add_right hle _)⟩

theorem expired_eq (h : TimerAgrees timer ecu now) (hnow : now < 2 ^ 31) :
    timer.expired (Clock.tick now) = ecu.s3Deadline.any fun deadline => deadline ≤ now := by
  unfold Timer.expired
  cases hdeadline : ecu.s3Deadline with
  | none =>
    rw [(h.stopped hdeadline).1]
    rfl
  | some deadline =>
    obtain ⟨hactive, -, htick, hsoon⟩ := h.running deadline hdeadline
    rw [hactive, htick, reached_tick_eq hnow (by omega), Bool.true_and]
    rfl

theorem tick (h : TimerAgrees timer ecu now) (hnow : now < 2 ^ 31) :
    TimerAgrees (timer.tick (Clock.tick now)) (ecu.expireSession now) now := by
  have hexpired := h.expired_eq hnow
  unfold Timer.tick VirtualEcu.expireSession
  rw [hexpired]
  cases hdeadline : ecu.s3Deadline with
  | none => exact h
  | some deadline =>
    by_cases hpast : deadline ≤ now
    · simp only [Option.any_some, hpast, decide_true, if_true]
      exact ⟨rfl, fun _ => ⟨rfl, rfl⟩, nofun, h.s3, h.timeout, h.p2, h.p2Star, h.mask, h.supported⟩
    · simp only [Option.any_some, hpast, decide_false, Bool.false_eq_true, if_false]
      exact h

/-- Both refresh the timer of a session that is not the default one. -/
theorem refresh (h : TimerAgrees timer ecu now) :
    TimerAgrees (timer.refresh (Clock.tick now)) (ecu.keepSessionAlive now) now := by
  unfold Timer.refresh VirtualEcu.keepSessionAlive
  cases hdeadline : ecu.s3Deadline with
  | none =>
    obtain ⟨hstopped, hdefault⟩ := h.stopped hdeadline
    rw [hstopped, if_neg Bool.false_ne_true, if_neg (not_not.2 hdefault)]
    exact h
  | some deadline =>
    obtain ⟨hactive, hother, -, -⟩ := h.running deadline hdeadline
    rw [hactive, if_pos rfl, if_pos hother]
    refine ⟨h.session, nofun, ?_, h.s3, h.timeout, h.p2, h.p2Star, h.mask, h.supported⟩
    rintro _ ⟨⟩
    refine ⟨rfl, hother, ?_, ?_⟩
    · rw [h.timeout, tick_add]
      change _ + timer.s3ServerMs.toUInt32 = _
      rw [h.s3]
      rfl
    · exact Nat.add_le_add_left (Nat.le_of_eq h.timeout) now

theorem enter (h : TimerAgrees timer ecu now) (session : UInt8) {ecu' : VirtualEcu}
    (hsupported : ecu'.supportedSessions = ecu.supportedSessions)
    (htimeout : ecu'.s3TimeoutMs = ecu.s3TimeoutMs) (hsession : ecu'.session = session)
    (hdeadline : ecu'.s3Deadline =
      if session = sessionDefault then none else some (now + ecu.s3TimeoutMs)) :
    TimerAgrees (timer.enter session (Clock.tick now)) ecu' now := by
  subst hsession
  unfold Timer.enter
  by_cases hdefault : ecu'.session = sessionDefault
  · rw [if_pos hdefault] at hdeadline ⊢
    refine ⟨rfl, fun _ => ⟨rfl, hdefault⟩, ?_, h.s3, htimeout.trans h.timeout, h.p2, h.p2Star, h.mask,
      hsupported.trans h.supported⟩
    rw [hdeadline]
    exact nofun
  · rw [if_neg hdefault] at hdeadline ⊢
    refine ⟨rfl, ?_, ?_, h.s3, htimeout.trans h.timeout, h.p2, h.p2Star, h.mask,
      hsupported.trans h.supported⟩
    · rw [hdeadline]
      exact nofun
    · rw [hdeadline]
      rintro _ ⟨⟩
      refine ⟨rfl, hdefault, ?_, ?_⟩
      · rw [h.timeout, tick_add]
        change _ + timer.s3ServerMs.toUInt32 = _
        rw [h.s3]
        rfl
      · exact Nat.add_le_add_left (Nat.le_of_eq h.timeout) now

end TimerAgrees

/-! ## The tables -/

/-- A byte has a property that holds of the 256 bytes. -/
theorem forall_byte {p : UInt8 → Prop} (h : ∀ bits : BitVec 8, p (UInt8.ofBitVec bits)) (byte : UInt8) :
    p byte := h byte.toBitVec

theorem sessionAllowed_writes (session : UInt8) : sessionAllowed extendedProgrammingMask session = true ↔
    session ∈ [sessionExtended, sessionProgramming] :=
  forall_byte (p := fun session => sessionAllowed extendedProgrammingMask session = true ↔
    session ∈ [sessionExtended, sessionProgramming]) (by decide) session

namespace TableAgrees

variable {server : UdsServer (EcuEnv τ)}

theorem congr {server' : UdsServer (EcuEnv τ)} {ecu' : VirtualEcu}
    (h : TableAgrees variant hooks server ecu) (hwork : server'.work = server.work)
    (hdids : ecu'.dids = ecu.dids) (hrules : ecu'.writableDids = ecu.writableDids) :
    TableAgrees variant hooks server' ecu' := by
  have htable : server'.dids = server.dids := congrArg Work.dids hwork
  have hroutines : server'.routines = server.routines := congrArg Work.routines hwork
  refine ⟨⟨hroutines.trans h.built.routines, ?_⟩, ?_, ?_, hrules.trans h.rules⟩
  · rw [htable]
    exact h.built.table
  · rw [htable, hdids]
    exact h.value
  · rw [htable]
    exact h.short

theorem readDid (h : TableAgrees variant hooks server ecu) {capacity : ℕ}
    (hroom : 4 + didVinCapacity ≤ capacity) {high low : UInt8} (hhealth : word16 high low ≠ didCanHealth)
    (hfault : word16 high low ≠ didFaultControl) :
    sentBytes (server.readDid [high, low] capacity) = ecu.readDid [high, low] ∧
      (server.readDid [high, low] capacity).pending = false := by
  have hthree : 3 ≤ capacity := by omega
  have hvalue := h.value _ hhealth hfault
  have hreadable := h.built.readable (word16 high low)
  unfold UdsServer.readable at hreadable
  unfold UdsServer.readDid UdsServer.readEntries VirtualEcu.readDid
  rw [if_neg (by simp)]
  dsimp only
  rw [← hvalue]
  cases hfind : server.findDid (word16 high low) with
  | none =>
    rw [hfind] at hreadable
    rw [← hreadable]
    exact ⟨negative_sentBytes hthree .., negative_pending ..⟩
  | some found =>
    obtain ⟨index, entry⟩ := found
    have hget := didValue_of_findDid hfind
    rw [hfind, hget, Option.bind_some] at hreadable
    have hallowed : sessionAllowed entry.readSessionsMask server.session = true := by
      by_contra hrefused
      rw [if_neg hrefused] at hreadable
      cases hreadable
    have hshort := h.short _ _ hget
    rw [hget]
    simp only [hallowed, hhealth, Bool.not_true, Bool.false_eq_true, if_false, UdsServer.readEntries,
      Except.map, List.map_cons, List.map_nil, List.sum_cons, List.sum_nil, List.flatMap_cons,
      List.flatMap_nil, List.append_nil]
    rw [if_neg (by omega)]
    exact ⟨rfl, rfl⟩

/-- The rule of the virtual ECU for an identifier with storage. -/
def ruleOf (storageCapacity : ℕ) (requiredSession : UInt8) : DidWriteRule where
  sessions := [sessionExtended, sessionProgramming]
  requiresUnlock := true
  requiredSession := if requiredSession = 0 then none else some requiredSession
  maxLength := some storageCapacity

/-- The rules of the virtual ECU are the write conditions of the table's entries. -/
theorem rule_of_entry {entry : Did (EcuEnv τ)} (h : entry.spec ∈ (didDbInit variant).map (attachedSpec none)) :
    entry.storageSave = none ∧ entry.did ≠ didFaultControl ∧
      ((entry.hasStorage = false ∧ defaultWriteRules entry.did = none) ∨
        (entry.hasStorage = true ∧ entry.writeSessionsMask = extendedProgrammingMask ∧
          entry.writeRequiresUnlock = true ∧ entry.storageCapacity ≤ didVinCapacity ∧
          defaultWriteRules entry.did = some (ruleOf entry.storageCapacity entry.writeRequiredSession))) := by
  have hfields : ∀ base : Did (EcuEnv τ), entry.spec = base → entry.did = base.did ∧
      entry.hasStorage = base.hasStorage ∧ entry.storageCapacity = base.storageCapacity ∧
      entry.writeSessionsMask = base.writeSessionsMask ∧
      entry.writeRequiredSession = base.writeRequiredSession ∧
      entry.writeRequiresUnlock = base.writeRequiresUnlock ∧ entry.storageSave = base.storageSave := by
    rintro base rfl
    exact ⟨rfl, rfl, rfl, rfl, rfl, rfl, rfl⟩
  have hcustomFits : didCustomCapacity ≤ didVinCapacity := by decide
  have hdtcFits : didDtcCapacity ≤ didVinCapacity := by decide
  simp only [didDbInit, List.map_cons, List.map_nil, List.mem_cons, List.not_mem_nil, or_false] at h
  rcases h with h | h | h | h | h | h
  all_goals
    obtain ⟨hdid, hstorage, hcapacity, hmask, hsession, hlock, hsave⟩ := hfields _ h
    rw [hdid, hstorage, hcapacity, hmask, hsession, hlock, hsave]
    refine ⟨rfl, by simp [attachedSpec, writableDid, readOnlyDid, Did.spec, didVin, didHardware, didCustom,
      didDtc, didName, didSoftware, didFaultControl], ?_⟩
  · exact Or.inr ⟨rfl, rfl, rfl, Nat.le_refl _, rfl⟩
  · exact Or.inl ⟨rfl, rfl⟩
  · exact Or.inr ⟨rfl, rfl, rfl, hcustomFits, rfl⟩
  · exact Or.inr ⟨rfl, rfl, rfl, hdtcFits, rfl⟩
  · exact Or.inl ⟨rfl, rfl⟩
  · exact Or.inl ⟨rfl, rfl⟩

/-- An identifier that is not in the table has no rule. -/
theorem no_rule {did : UInt16} (hfault : did ≠ didFaultControl) (h : did ∉ ecuIdentifiers) :
    defaultWriteRules did = none := by
  simp only [ecuIdentifiers, List.mem_cons, List.not_mem_nil, or_false, not_or] at h
  obtain ⟨hvin, -, hcustom, hdtc, -, -⟩ := h
  unfold defaultWriteRules
  rw [if_neg hcustom, if_neg hdtc, if_neg hvin, if_neg hfault]

/-- A write changes the values only, unless it is to the fault control. -/
theorem writeDid_outside (ecu : VirtualEcu) {high low : UInt8} (hfault : word16 high low ≠ didFaultControl)
    (data : List UInt8) (now : ℕ) :
    ∃ dids, (ecu.writeDid (high :: low :: data) now).2 = { ecu with dids := dids } := by
  unfold VirtualEcu.writeDid
  dsimp only
  rw [if_neg hfault]
  repeat' split
  all_goals exact ⟨_, rfl⟩

theorem ruleOf_requiredSession (storageCapacity : ℕ) (required session : UInt8) :
    (ruleOf storageCapacity required).requiredSession.isSome ∧
        some session ≠ (ruleOf storageCapacity required).requiredSession ↔
      required ≠ 0 ∧ session ≠ required := by
  unfold ruleOf
  by_cases hzero : required = 0
  · simp [hzero]
  · simp [hzero]

theorem unknown_of_findDid (h : TableAgrees variant hooks server ecu) {did : UInt16}
    (hfind : server.findDid did = none) : did ∉ ecuIdentifiers := by
  rw [← h.built.identifiers]
  intro hmem
  obtain ⟨entry, hentry, hdid⟩ := List.mem_map.1 hmem
  have hnone := find_eq_findDid server did
  rw [hfind, Option.map_none, List.find?_eq_none] at hnone
  exact hnone entry hentry (decide_eq_true hdid)

/-- An accepted value replaces that of its identifier in both. -/
theorem install (h : TableAgrees variant hooks server ecu) {index : ℕ} {entry : Did (EcuEnv τ)}
    (hget : server.dids[index]? = some entry) {did : UInt16} (hdid : entry.did = did) {data : List UInt8}
    (hfits : data.length ≤ didVinCapacity) :
    TableAgrees variant hooks { server with dids := server.dids.set index { entry with data := data } }
      { ecu with dids := Function.update ecu.dids did (some data) } := by
  subst hdid
  have hnodup : (server.dids.map Did.did).Nodup := by
    rw [h.built.identifiers]
    decide
  have hvalue := didValue_set hnodup data hget
  refine ⟨⟨h.built.routines, ?_⟩, ?_, ?_, h.rules⟩
  · rw [UdsServer.set_data_map (fun _ _ => rfl) data hget]
    exact h.built.table
  · intro did hhealth hcontrol
    change didValue (server.dids.set index { entry with data := data }) did =
      Function.update ecu.dids entry.did (some data) did
    rw [hvalue, Function.update_apply, h.value did hhealth hcontrol]
    exact if_congr eq_comm rfl rfl
  · intro did value hget'
    rw [hvalue] at hget'
    split at hget'
    · cases hget'
      exact hfits
    · exact h.short did value hget'

/-- Writes are answered alike and leave tables with the same values. -/
theorem writeDid (h : TableAgrees variant hooks server ecu) (haccess : AccessAgrees server.access ecu now)
    {capacity : ℕ} (hroom : 3 ≤ capacity) {high low : UInt8} (hfault : word16 high low ≠ didFaultControl)
    (data : List UInt8) :
    let outcome := server.writeDid (high :: low :: data) capacity
    let result := ecu.writeDid (high :: low :: data) now
    sentBytes outcome.1 = result.1 ∧ outcome.1.pending = false ∧
      TableAgrees variant hooks outcome.2 result.2 := by
  have hsession : ecu.session = server.session := haccess.session.symm
  have hunlocked : ecu.securityUnlocked = server.securityUnlocked := haccess.unlocked
  have hrefuse : ∀ nrc, sentBytes (Uds.negative capacity sidWriteDataByIdentifier nrc) =
      VirtualEcu.negative sidWriteDataByIdentifier nrc ∧
      (Uds.negative capacity sidWriteDataByIdentifier nrc).pending = false ∧
      TableAgrees variant hooks server ecu :=
    fun nrc => ⟨negative_sentBytes hroom .., negative_pending .., h⟩
  unfold UdsServer.writeDid VirtualEcu.writeDid
  dsimp only
  rw [h.rules]
  cases hfind : server.findDid (word16 high low) with
  | none =>
    rw [no_rule hfault (h.unknown_of_findDid hfind)]
    exact hrefuse nrcRequestOutOfRange
  | some found =>
    obtain ⟨index, entry⟩ := found
    obtain ⟨hget, hfound⟩ := findIndexed_some hfind
    have hdid : entry.did = word16 high low := beq_iff_eq.1 hfound
    obtain ⟨base, hbase, hspec⟩ := h.built.entry hget
    have hmem : entry.spec ∈ (didDbInit variant).map (attachedSpec none) :=
      List.mem_map.2 ⟨base, List.mem_of_getElem? hbase, hspec.symm⟩
    obtain ⟨hsave, -, ⟨hstorage, hrule⟩ | ⟨hstorage, hmask, hlock, hfits, hrule⟩⟩ := rule_of_entry hmem
    · rw [hdid] at hrule
      rw [hrule]
      simp only [hstorage, Bool.not_false, true_or, if_true]
      exact hrefuse nrcRequestOutOfRange
    have hunsaved : ¬entry.storageSave.isSome = true := by
      rw [hsave]
      exact Bool.false_ne_true
    have hstored : ¬((!entry.hasStorage) = true ∨ entry.writeSessionsMask = 0) := by
      rw [hstorage, hmask]
      decide
    rw [hdid] at hrule
    rw [hrule]
    dsimp only
    rw [if_neg hstored, if_neg hfault, hsession, hunlocked]
    by_cases hallowed : sessionAllowed entry.writeSessionsMask server.session = true
    case neg =>
      rw [hmask] at hallowed
      have hnot : server.session ∉ (ruleOf entry.storageCapacity entry.writeRequiredSession).sessions :=
        fun hin => hallowed ((sessionAllowed_writes _).2 hin)
      rw [hmask, if_pos (by simpa using hallowed), if_pos hnot]
      exact hrefuse nrcSubfunctionNotSupportedInActiveSession
    have hin : ¬server.session ∉ (ruleOf entry.storageCapacity entry.writeRequiredSession).sessions :=
      not_not.2 ((sessionAllowed_writes _).1 (hmask ▸ hallowed))
    rw [if_neg (by simpa using hallowed), if_neg hin]
    by_cases hopen : server.securityUnlocked = true
    case neg =>
      have hlocked : (!server.securityUnlocked) = true := by simpa using hopen
      rw [if_pos ⟨hlock, hlocked⟩, if_pos ⟨rfl, hlocked⟩]
      exact hrefuse nrcSecurityAccessDenied
    have hnotLocked : ∀ required : Bool, ¬(required = true ∧ (!server.securityUnlocked) = true) := by
      simp [hopen]
    rw [if_neg (hnotLocked _), if_neg (hnotLocked _)]
    have hrequired := ruleOf_requiredSession entry.storageCapacity entry.writeRequiredSession server.session
    by_cases hwrong : entry.writeRequiredSession ≠ 0 ∧ server.session ≠ entry.writeRequiredSession
    · rw [if_pos hwrong, if_pos (hrequired.2 hwrong)]
      exact hrefuse nrcConditionsNotCorrect
    rw [if_neg hwrong, if_neg (fun hright => hwrong (hrequired.1 hright))]
    have hlong : (ruleOf entry.storageCapacity entry.writeRequiredSession).maxLength.any
        (fun limit => decide (limit < data.length)) = true ↔ data.length > entry.storageCapacity :=
      decide_eq_true_iff
    by_cases hover : data.length > entry.storageCapacity
    · rw [if_pos hover, if_pos (hlong.2 hover)]
      exact hrefuse nrcRequestOutOfRange
    rw [if_neg hover, if_neg (fun hright => hover (hlong.1 hright)), if_neg hunsaved]
    refine ⟨positive_sentBytes (sidWriteDataByIdentifier + 0x40) false hroom, positive_pending .., ?_⟩
    have hinstalled := h.install hget hdid (Nat.le_trans (Nat.not_lt.1 hover) hfits)
    rw [hsession, hunlocked] at hinstalled
    exact hinstalled

end TableAgrees

end DualCan.Emu
