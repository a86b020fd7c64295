import DualCan.Emu.Keys
import DualCan.Uds.Client
import DualCan.Uds.Reply
import DualCan.Uds.Security
import DualCan.Uds.Timer

/-!
# Unlocking the server

`UdsClient.unlock` of `client.py` against `UdsServer_Process`: a seed drawn by the C server, a key computed by
the Python client, and the comparison by the server, with the ticks between the two requests. It succeeds exactly
when the server is to be unlocked at all and both sides have one salt (`unlock_iff`).
-/

namespace DualCan.Emu

open DualCan.Clock DualCan.Uds

/-! ## `client.py` -/

section Client

variable {ω : Type} (exchange : List UInt8 → UInt8 → ω → Except ClientError (List UInt8) × ω)

/-- `build_security_access`. -/
def buildSecurityAccess (subfunction : ℕ) (data : List UInt8) : List UInt8 :=
  sidSecurityAccess :: subfunction.toUInt8 :: data

/-- `security_access`, over any `_exchange`. -/
def securityAccess (subfunction : ℕ) (data : List UInt8) (w : ω) : Except ClientError (List UInt8) × ω :=
  exchange (buildSecurityAccess subfunction data) sidSecurityAccess w

/-- `request_seed`. -/
def requestSeed (level : ℕ) (w : ω) : Except ClientError (List UInt8) × ω :=
  match securityAccess exchange level [] w with
  | (.ok response, w) => (.ok ((response.drop 1).take 4), w)
  | (.error error, w) => (.error error, w)

/-- `send_key`. -/
def sendKey (key : List UInt8) (level : ℕ) (w : ω) : Except ClientError (List UInt8) × ω :=
  if key.length ≠ 4 then (.error (.raised "security key must be four bytes"), w)
  else securityAccess exchange (level + 1) key w

/-- `unlock`. -/
def unlock (salt : ℕ) (w : ω) : Except ClientError (List UInt8) × ω :=
  match requestSeed exchange securityRequestSeed.toNat w with
  | (.error error, w) => (.error error, w)
  | (.ok response, w) =>
    let seed := VirtualEcu.fromBytes response
    if seed = 0 then (.ok [securitySendKey], w)
    else sendKey exchange (VirtualEcu.toBytes4 (seedToKey seed salt)) securityRequestSeed.toNat w

end Client

/-! ## The other end -/

/-- The server, and for each of the next requests the clock's readings in the ticks before it and in itself. -/
structure UnlockBench (σ : Type) where
  uds : UdsServer σ × σ
  schedule : List (List UInt32 × UInt32)

namespace UnlockBench

variable {σ : Type}

/-- What the client makes of a reply: without a response the call times out. -/
def heard (reply : Reply) (expectedSid : UInt8) : Except ClientError (List UInt8) :=
  if reply.result = .response then parseResponse reply.response expectedSid
  else .error (.timeoutError "timed out waiting for ISO-TP frame")

/-- `_exchange` over a transport that delivers the request and the response. -/
def exchange (capacity : ℕ) (request : List UInt8) (expectedSid : UInt8) (b : UnlockBench σ) :
    Except ClientError (List UInt8) × UnlockBench σ :=
  match b.schedule with
  | [] => (.error (.timeoutError "timed out waiting for ISO-TP frame"), b)
  | (ticks, now) :: schedule =>
    let outcome := (ticks.foldl UdsServer.tick b.uds.1).process b.uds.2 now request capacity
    (heard outcome.1 expectedSid, ⟨outcome.2, schedule⟩)

/-! ## Numbers and bytes -/

theorem fromBytes_toBytes4 {n : ℕ} (h : n < 2 ^ 32) : VirtualEcu.fromBytes (VirtualEcu.toBytes4 n) = n := by
  unfold VirtualEcu.fromBytes VirtualEcu.toBytes4
  simp only [List.foldl_cons, List.foldl_nil, Nat.toUInt8_eq, UInt8.toNat_ofNat', Nat.shiftRight_eq_div_pow]
  omega

theorem fromBytes_seedBytes (seed : UInt32) : VirtualEcu.fromBytes (UdsServer.seedBytes seed) = seed.toNat := by
  rw [← toBytes4_eq, fromBytes_toBytes4 seed.toNat_lt]

theorem word32_seedBytes (key : UInt32) :
    word32 (key >>> 24).toUInt8 (key >>> 16).toUInt8 (key >>> 8).toUInt8 key.toUInt8 = key := by
  rw [← UInt32.toNat_inj, ← fromBytes_eq]
  exact fromBytes_seedBytes key

/-- Only the low 32 bits of the client's salt count. -/
theorem seedToKey_salt (seed : UInt32) (salt : ℕ) :
    seedToKey seed.toNat salt = (computeKey seed (UInt32.ofNat salt)).toNat := by
  rw [← seedToKey_eq]
  unfold seedToKey
  have hlow : (seed.toNat ^^^ salt) &&& 0xFFFFFFFF = (seed.toNat ^^^ (UInt32.ofNat salt).toNat) &&& 0xFFFFFFFF := by
    rw [and_mask, and_mask, Nat.xor_mod_two_pow, Nat.xor_mod_two_pow (b := (UInt32.ofNat salt).toNat)]
    congr 1
    rw [UInt32.toNat_ofNat', Nat.mod_mod]
  rw [hlow]

theorem computeKey_salt_injective (seed : UInt32) : Function.Injective fun salt => computeKey seed salt := by
  intro salt salt' h
  have hswap : ∀ x, computeKey seed x = computeKey x seed := by
    intro x
    unfold computeKey
    rw [UInt32.xor_comm seed x]
  dsimp only at h
  rw [hswap, hswap] at h
  exact computeKey_injective seed h

/-! ## One exchange -/

variable {capacity : ℕ}

theorem heard_negative (hroom : 3 ≤ capacity) (nrc : UInt8) :
    heard (negative capacity sidSecurityAccess nrc) sidSecurityAccess =
      .error (.negativeResponse sidSecurityAccess nrc) := by
  unfold negative
  rw [if_neg (Nat.not_lt.2 hroom)]
  rfl

theorem heard_positive {bytes : List UInt8} (hroom : bytes.length < capacity) :
    heard (positive false capacity ((sidSecurityAccess + 0x40) :: bytes)) sidSecurityAccess = .ok bytes := by
  unfold positive
  rw [if_neg Bool.false_ne_true, List.length_cons, if_neg (Nat.not_lt.2 hroom)]
  rfl

/-- A request of `security_access` is answered from the session and security fields. -/
theorem exchange_security (s : UdsServer σ × σ) (ticks : List UInt32) (now : UInt32)
    (schedule : List (List UInt32 × UInt32)) (sub : UInt8) (data : List UInt8) (capacity : ℕ) :
    let start := (ticks.foldl UdsServer.tick s.1, s.2)
    exchange capacity (sidSecurityAccess :: sub :: data) sidSecurityAccess ⟨s, (ticks, now) :: schedule⟩ =
      (heard ((start.1.tick now).access.answer now (sub &&& suppressPositiveResponse ≠ 0) capacity (sub :: data))
        sidSecurityAccess,
      ⟨UdsServer.step start (.process now (sidSecurityAccess :: sub :: data) capacity), schedule⟩) := by
  intro start
  rw [← UdsServer.respond_security]
  rfl

/-! ## Ticks between two requests -/

theorem tick_default {server : UdsServer σ} (h : server.session = sessionDefault) (t : UInt32) :
    (server.tick t).session = sessionDefault := by
  unfold UdsServer.tick
  split
  · rfl
  · exact h

theorem ticks_default (ticks : List UInt32) {server : UdsServer σ} (h : server.session = sessionDefault) :
    (ticks.foldl UdsServer.tick server).session = sessionDefault := by
  induction ticks generalizing server with
  | nil => exact h
  | cons t ticks ih => exact ih (tick_default h t)

/-- Ticks leave the server alone, or one of them finds the session expired and the server ends in the default
session. -/
theorem ticks_cases (ticks : List UInt32) (server : UdsServer σ) :
    (∀ t ∈ ticks, server.expired t = false) ∧ ticks.foldl UdsServer.tick server = server ∨
      (∃ t ∈ ticks, server.expired t = true) ∧ (ticks.foldl UdsServer.tick server).session = sessionDefault := by
  induction ticks with
  | nil => exact .inl ⟨fun _ h => (by cases h), rfl⟩
  | cons t ticks ih =>
    rw [List.foldl_cons]
    cases ht : server.expired t with
    | true =>
      refine .inr ⟨⟨t, List.mem_cons_self, ht⟩, ticks_default ticks ?_⟩
      have haccess := server.tick_access t
      rw [ht, if_pos rfl] at haccess
      exact congrArg Access.session haccess
    | false =>
      rw [server.tick_eq_self t ht]
      rcases ih with ⟨hall, hsame⟩ | ⟨⟨t', ht', hexpired⟩, hdefault⟩
      · exact .inl ⟨List.forall_mem_cons.2 ⟨ht, hall⟩, hsame⟩
      · exact .inr ⟨⟨t', List.mem_cons_of_mem t ht', hexpired⟩, hdefault⟩

/-! ## The two requests -/

/-- Security access is open: the session allows it and no delay is running. -/
def Admitted (access : Access) (now : UInt32) : Prop :=
  (access.session = sessionExtended ∨ access.session = sessionProgramming) ∧ access.delayActive now = false

instance (access : Access) (now : UInt32) : Decidable (Admitted access now) := inferInstanceAs (Decidable (_ ∧ _))

theorem admits_iff {access : Access} {now : UInt32} {sub : UInt8}
    (hsub : sub &&& subfunctionMask = securityRequestSeed ∨ sub &&& subfunctionMask = securitySendKey) :
    (access.admits sub && !access.delayActive now) = true ↔ Admitted access now := by
  unfold Access.admits Admitted
  simp only [Bool.and_eq_true, Bool.or_eq_true, decide_eq_true_eq, Bool.not_eq_true', hsub, true_and]

theorem requestSeed_masked : securityRequestSeed &&& subfunctionMask = securityRequestSeed := by decide

theorem sendKey_masked : securitySendKey &&& subfunctionMask = securitySendKey := by decide

theorem securityAct_refused {access : Access} {now : UInt32} (h : ¬Admitted access now) {sub : UInt8}
    (hsub : sub &&& subfunctionMask = securityRequestSeed ∨ sub &&& subfunctionMask = securitySendKey)
    (data : List UInt8) : access.securityAct now (sub :: data) = .nothing :=
  if_neg (mt (admits_iff hsub).1 h)

/-- The request for a seed. -/
theorem seed_admitted {access : Access} {now : UInt32} (h : Admitted access now) :
    access.securityAct now [securityRequestSeed] =
      if access.securityUnlocked then .zeroSeed else .newSeed (Uds.nextSeed access.seedState).1 :=
  (if_pos ((admits_iff (.inl requestSeed_masked)).2 h)).trans (if_pos requestSeed_masked)

/-- A key, when a seed is pending. -/
theorem key_admitted {access : Access} {now : UInt32} (h : Admitted access now) (hseed : access.seedPending = true)
    (key : UInt32) : access.securityAct now (securitySendKey :: UdsServer.seedBytes key) =
      .evaluate access.pendingSeed key := by
  have hother : securitySendKey &&& subfunctionMask ≠ securityRequestSeed := by decide
  refine (if_pos ((admits_iff (.inr sendKey_masked)).2 h)).trans ((if_neg hother).trans ?_)
  refine (if_pos hseed).trans ?_
  rw [word32_seedBytes]

theorem serve_key {access : Access} {now : UInt32} (h : Admitted access now) (hseed : access.seedPending = true)
    (key : UInt32) : access.serve now (securitySendKey :: UdsServer.seedBytes key) =
      (access.expireDelay now).perform now (.evaluate access.pendingSeed key) := by
  rw [← key_admitted h hseed]
  exact if_pos ((admits_iff (.inr sendKey_masked)).2 h)

theorem refusal_ne_pending (access : Access) (now : UInt32) (args : List UInt8) :
    access.refusal now args ≠ nrcResponsePending := by
  unfold Access.refusal
  split
  · decide
  · repeat' split
    all_goals decide

theorem wrongKey_ne_pending (access : Access) : access.wrongKey ≠ nrcResponsePending := by
  unfold Access.wrongKey
  split <;> decide

variable (s : UdsServer σ × σ) (now : UInt32) (schedule : List (List UInt32 × UInt32)) (salt : ℕ)

/-- The server after the request for a seed. -/
def seeded (s : UdsServer σ × σ) (now : UInt32) (capacity : ℕ) : UdsServer σ × σ :=
  UdsServer.step s (.process now [sidSecurityAccess, securityRequestSeed] capacity)

theorem seeded_access (capacity : ℕ) : (seeded s now capacity).1.access =
    (s.1.tick now).access.serve now [securityRequestSeed] := by
  unfold seeded
  rw [UdsServer.process_access, if_neg (by decide), if_pos rfl]

theorem serve_admitted {access : Access} (h : Admitted access now) : access.serve now [securityRequestSeed] =
    (access.expireDelay now).perform now
      (if access.securityUnlocked then .zeroSeed else .newSeed (Uds.nextSeed access.seedState).1) := by
  rw [← seed_admitted h]
  exact if_pos ((admits_iff (.inl requestSeed_masked)).2 h)

theorem requestSeed_eq : requestSeed (exchange capacity) securityRequestSeed.toNat ⟨s, ([], now) :: schedule⟩ =
    match heard ((s.1.tick now).access.answer now false capacity [securityRequestSeed]) sidSecurityAccess with
    | .ok response => (.ok ((response.drop 1).take 4), ⟨seeded s now capacity, schedule⟩)
    | .error error => (.error error, ⟨seeded s now capacity, schedule⟩) := by
  have hexchange := exchange_security s [] now schedule securityRequestSeed [] capacity
  unfold requestSeed securityAccess buildSecurityAccess
  rw [show securityRequestSeed.toNat.toUInt8 = securityRequestSeed from rfl, hexchange, List.foldl_nil]
  have hsuppress : decide (securityRequestSeed &&& suppressPositiveResponse ≠ 0) = false := by decide
  rw [hsuppress]
  cases heard ((s.1.tick now).access.answer now false capacity [securityRequestSeed]) sidSecurityAccess with
  | ok response => rfl
  | error error => rfl

variable {s now}

theorem unlock_refused (hroom : 6 ≤ capacity) (h : ¬Admitted (s.1.tick now).access now) :
    unlock (exchange capacity) salt ⟨s, ([], now) :: schedule⟩ =
      (.error (.negativeResponse sidSecurityAccess ((s.1.tick now).access.refusal now [securityRequestSeed])),
        ⟨seeded s now capacity, schedule⟩) := by
  unfold unlock
  rw [requestSeed_eq, Access.answer, securityAct_refused h (.inl requestSeed_masked)]
  dsimp only
  rw [heard_negative (by omega)]

theorem unlock_unlocked (hroom : 6 ≤ capacity) (h : Admitted (s.1.tick now).access now)
    (hunlocked : (s.1.tick now).securityUnlocked = true) :
    unlock (exchange capacity) salt ⟨s, ([], now) :: schedule⟩ =
      (.ok [securitySendKey], ⟨seeded s now capacity, schedule⟩) := by
  have hlen : (securityRequestSeed :: UdsServer.seedBytes 0).length < capacity := by
    simp only [UdsServer.seedBytes, List.length_cons, List.length_nil]
    omega
  have hact := seed_admitted h
  rw [show (s.1.tick now).access.securityUnlocked = true from hunlocked, if_pos rfl] at hact
  unfold unlock
  have hbytes : ((securityRequestSeed :: UdsServer.seedBytes 0).drop 1).take 4 = UdsServer.seedBytes 0 := rfl
  rw [requestSeed_eq, Access.answer, hact]
  dsimp only
  rw [heard_positive hlen]
  dsimp only
  rw [hbytes, fromBytes_seedBytes]
  exact if_pos rfl

theorem unlock_locked (hroom : 6 ≤ capacity) (h : Admitted (s.1.tick now).access now)
    (hlocked : (s.1.tick now).securityUnlocked = false) :
    unlock (exchange capacity) salt ⟨s, ([], now) :: schedule⟩ =
      exchange capacity
        (sidSecurityAccess :: securitySendKey :: UdsServer.seedBytes
          (computeKey (Uds.nextSeed (s.1.tick now).seedState).1 (UInt32.ofNat salt)))
        sidSecurityAccess ⟨seeded s now capacity, schedule⟩ := by
  have hlen : ∀ seed, (securityRequestSeed :: UdsServer.seedBytes seed).length < capacity := by
    intro seed
    simp only [UdsServer.seedBytes, List.length_cons, List.length_nil]
    omega
  have hact := seed_admitted h
  rw [show (s.1.tick now).access.securityUnlocked = false from hlocked, if_neg Bool.false_ne_true] at hact
  unfold unlock
  rw [requestSeed_eq, Access.answer, hact]
  dsimp only
  rw [heard_positive (hlen _)]
  have hstate : (s.1.tick now).access.seedState = (s.1.tick now).seedState := rfl
  rw [hstate]
  generalize hseed : (Uds.nextSeed (s.1.tick now).seedState).1 = seed
  have hnonzero : seed.toNat ≠ 0 := by
    rw [← hseed]
    intro hzero
    exact (nextSeed_reserved (s.1.tick now).seedState).1 (UInt32.toNat_inj.1 hzero)
  have hbytes : ((securityRequestSeed :: UdsServer.seedBytes seed).drop 1).take 4 = UdsServer.seedBytes seed := rfl
  dsimp only
  rw [hbytes, fromBytes_seedBytes, if_neg hnonzero, seedToKey_salt, toBytes4_eq]
  rfl

/-- What the server is left with after the request for a seed: the seed is pending, and no delay is left. -/
structure Seeded (server : UdsServer σ) (access : Access) : Prop where
  admitted : ∀ later, Admitted access later
  pending : access.seedPending = true
  seed : access.pendingSeed = (Uds.nextSeed server.seedState).1
  salt : access.securitySalt = server.securitySalt

theorem expireDelay_delay {access : Access} {now : UInt32} (h : access.delayActive now = false) :
    (access.expireDelay now).securityDelayUntilMs = 0 := by
  unfold Access.delayActive at h
  unfold Access.expireDelay
  by_cases hzero : access.securityDelayUntilMs = 0
  · rw [if_neg (fun hboth => hboth.1 hzero)]
    exact hzero
  · have hreached : reached now access.securityDelayUntilMs = true := by simpa [hzero] using h
    rw [if_pos ⟨hzero, hreached⟩]

theorem seeded_locked (h : Admitted (s.1.tick now).access now) (hlocked : (s.1.tick now).securityUnlocked = false) :
    Seeded (s.1.tick now) (seeded s now capacity).1.access := by
  have hserve := serve_admitted now h
  rw [show (s.1.tick now).access.securityUnlocked = false from hlocked, if_neg Bool.false_ne_true,
    ← seeded_access s now capacity] at hserve
  have hsession := UdsServer.expireDelay_session (s.1.tick now).access now
  have hsalt := UdsServer.expireDelay_securitySalt (s.1.tick now).access now
  have hdelay := expireDelay_delay h.2
  rw [hserve]
  refine ⟨fun later => ⟨?_, ?_⟩, rfl, rfl, hsalt⟩
  · exact h.1.imp hsession.trans hsession.trans
  · simp only [Access.delayActive, Access.perform, hdelay, ne_eq, not_true_eq_false, decide_false, Bool.false_and]

theorem seeded_reply (hroom : 6 ≤ capacity) (h : Admitted (s.1.tick now).access now) :
    (UdsServer.respond s (.process now [sidSecurityAccess, securityRequestSeed] capacity)).1.keepsSession = true := by
  have hlen : ∀ seed, (securityRequestSeed :: UdsServer.seedBytes seed).length + 1 ≤ capacity := fun _ => hroom
  rw [UdsServer.respond_security, Access.answer, seed_admitted h]
  cases (s.1.tick now).access.securityUnlocked with
  | true =>
    rw [if_pos rfl]
    dsimp only
    rw [positive_keepsSession (by decide)]
    exact decide_eq_true (hlen 0)
  | false =>
    rw [if_neg Bool.false_ne_true]
    dsimp only
    rw [positive_keepsSession (by decide)]
    exact decide_eq_true (hlen _)

/-- What the ticks between the requests see of the session's timer. -/
theorem seeded_expired (hroom : 6 ≤ capacity) (h : Admitted (s.1.tick now).access now) (t : UInt32) :
    (seeded s now capacity).1.expired t =
      ((s.1.tick now).s3Active && reached t (now + (s.1.tick now).s3ServerMs.toUInt32)) := by
  have htimer := UdsServer.step_timer now [securityRequestSeed] capacity s sidSecurityAccess
  have hact : (s.1.tick now).timerAct [securityRequestSeed]
      (UdsServer.respond s (.process now [sidSecurityAccess, securityRequestSeed] capacity)).1 sidSecurityAccess =
      .refresh := by
    unfold UdsServer.timerAct
    rw [if_neg (by decide), if_neg (by decide), seeded_reply hroom h]
    rfl
  dsimp only at htimer
  rw [hact, ← UdsServer.tick_timer] at htimer
  change (seeded s now capacity).1.timer.expired t = _
  rw [seeded, htimer]
  have hactive : (s.1.tick now).timer.s3Active = (s.1.tick now).s3Active := rfl
  unfold Timer.perform Timer.refresh Timer.expired
  dsimp only
  rw [hactive]
  cases hs3 : (s.1.tick now).s3Active with
  | false =>
    rw [if_neg Bool.false_ne_true, hactive, hs3]
    rfl
  | true => rfl

/-- The server unlocks for a client with this salt whose key comes at `later`, after the ticks. -/
def Unlockable (s : UdsServer σ × σ) (now : UInt32) (salt : ℕ) (ticks : List UInt32) (later : UInt32) : Prop :=
  Admitted (s.1.tick now).access now ∧
    ((s.1.tick now).securityUnlocked = true ∨
      salt % 2 ^ 32 = (s.1.tick now).securitySalt.toNat ∧
        ∀ t ∈ ticks ++ [later],
          ((s.1.tick now).s3Active && reached t (now + (s.1.tick now).s3ServerMs.toUInt32)) = false)

instance (s : UdsServer σ × σ) (now : UInt32) (salt : ℕ) (ticks : List UInt32) (later : UInt32) :
    Decidable (Unlockable s now salt ticks later) :=
  -- over the list: there are instances that would go through all the numbers of 32 bits
  have : Decidable (∀ t ∈ ticks ++ [later],
      ((s.1.tick now).s3Active && reached t (now + (s.1.tick now).s3ServerMs.toUInt32)) = false) :=
    List.decidableBAll _ _
  inferInstanceAs (Decidable (_ ∧ (_ ∨ _ ∧ _)))

/-- How a call of `unlock` ends that is to return exactly under a condition. -/
def Concludes (granted : Prop) (ended : Except ClientError (List UInt8) × UnlockBench σ) : Prop :=
  ((∃ response, ended.1 = .ok response) ↔ granted) ∧
    (∀ response, ended.1 = .ok response →
      response = [securitySendKey] ∧ ended.2.uds.1.securityUnlocked = true) ∧
    ∀ error, ended.1 = .error error →
      ∃ nrc, error = .negativeResponse sidSecurityAccess nrc ∧ nrc ≠ nrcResponsePending

theorem concludes_ok {granted : Prop} (hgranted : granted) {b : UnlockBench σ}
    (hunlocked : b.uds.1.securityUnlocked = true) : Concludes granted (.ok [securitySendKey], b) :=
  ⟨⟨fun _ => hgranted, fun _ => ⟨_, rfl⟩⟩,
    fun _ hresponse => ⟨(Except.ok.inj hresponse).symm, hunlocked⟩, nofun⟩

theorem concludes_error {granted : Prop} (hnot : ¬granted) {nrc : UInt8} (hnrc : nrc ≠ nrcResponsePending)
    (b : UnlockBench σ) : Concludes granted (.error (.negativeResponse sidSecurityAccess nrc), b) := by
  refine ⟨⟨?_, fun hgranted => absurd hgranted hnot⟩, nofun, fun error herror => ?_⟩
  · rintro ⟨response, hresponse⟩
    cases hresponse
  · obtain rfl := Except.error.inj herror
    exact ⟨nrc, rfl, hnrc⟩

/-- The key, once the seed is pending: it is compared, unless a tick has found the session expired. -/
theorem concludes_key (hroom : 6 ≤ capacity) (ticks : List UInt32) (later : UInt32) {server : UdsServer σ}
    (u : UdsServer σ × σ) (hseeded : Seeded server u.1.access) {granted : Prop}
    (hgranted : granted ↔
      UInt32.ofNat salt = server.securitySalt ∧ ∀ t ∈ ticks ++ [later], u.1.expired t = false) :
    Concludes granted (exchange capacity
      (sidSecurityAccess :: securitySendKey :: UdsServer.seedBytes
        (computeKey (Uds.nextSeed server.seedState).1 (UInt32.ofNat salt)))
      sidSecurityAccess ⟨u, (ticks, later) :: schedule⟩) := by
  rw [exchange_security]
  have hticks : (ticks.foldl UdsServer.tick u.1).tick later = (ticks ++ [later]).foldl UdsServer.tick u.1 := by
    rw [List.foldl_append]
    rfl
  have hsuppress : decide (securitySendKey &&& suppressPositiveResponse ≠ 0) = false := by decide
  have haccess : (UdsServer.step (ticks.foldl UdsServer.tick u.1, u.2) (.process later
      (sidSecurityAccess :: securitySendKey :: UdsServer.seedBytes
        (computeKey (Uds.nextSeed server.seedState).1 (UInt32.ofNat salt))) capacity)).1.access =
      (((ticks ++ [later]).foldl UdsServer.tick u.1).access.serve later (securitySendKey :: UdsServer.seedBytes
        (computeKey (Uds.nextSeed server.seedState).1 (UInt32.ofNat salt)))) := by
    rw [UdsServer.process_access, if_neg (by decide), if_pos rfl, hticks]
  rw [hsuppress, hticks]
  rcases ticks_cases (ticks ++ [later]) u.1 with ⟨hlasts, hsame⟩ | ⟨⟨t, ht, hexpired⟩, hdefault⟩
  · rw [hsame] at haccess ⊢
    have hact := key_admitted (hseeded.admitted later) hseeded.pending
      (computeKey (Uds.nextSeed server.seedState).1 (UInt32.ofNat salt))
    rw [Access.answer, hact, hseeded.seed, hseeded.salt]
    dsimp only
    by_cases hsalt : UInt32.ofNat salt = server.securitySalt
    · have hlen : [securitySendKey].length < capacity := Nat.lt_of_lt_of_le (by decide) hroom
      rw [serve_key (hseeded.admitted later) hseeded.pending, hseeded.seed] at haccess
      rw [if_pos (congrArg _ hsalt), heard_positive hlen]
      refine concludes_ok (hgranted.2 ⟨hsalt, hlasts⟩) ((congrArg Access.securityUnlocked haccess).trans ?_)
      have hkept := UdsServer.expireDelay_securitySalt u.1.access later
      unfold Access.perform Access.evaluate
      dsimp only
      rw [hkept, hseeded.salt, if_pos (congrArg _ hsalt)]
    · rw [if_neg (fun hkey => hsalt (computeKey_salt_injective _ hkey)), heard_negative (by omega)]
      exact concludes_error (fun h => hsalt (hgranted.1 h).1) (wrongKey_ne_pending _) _
  · have hnot : ¬Admitted ((ticks ++ [later]).foldl UdsServer.tick u.1).access later := by
      rintro ⟨hsession | hsession, -⟩
      · exact absurd (hdefault.symm.trans hsession) (by decide)
      · exact absurd (hdefault.symm.trans hsession) (by decide)
    rw [Access.answer, securityAct_refused hnot (.inr sendKey_masked)]
    dsimp only
    rw [heard_negative (by omega)]
    refine concludes_error (fun h => ?_) (refusal_ne_pending _ _ _) _
    have hfalse := (hgranted.1 h).2 t ht
    rw [hexpired] at hfalse
    cases hfalse

/-- **Unlocking**: from every state of the server, `unlock` returns if and only if security access is open, and the
server is unlocked already or both sides have one salt and the session lasts until the key. Then the server is
unlocked; otherwise the client raises a negative response to the security access. -/
theorem unlock_iff (s : UdsServer σ × σ) (now : UInt32) (salt : ℕ) (ticks : List UInt32) (later : UInt32)
    (capacity : ℕ) (hroom : 6 ≤ capacity) :
    let ended := unlock (exchange capacity) salt ⟨s, [([], now), (ticks, later)]⟩
    ((∃ response, ended.1 = .ok response) ↔ Unlockable s now salt ticks later) ∧
      (∀ response, ended.1 = .ok response →
        response = [securitySendKey] ∧ ended.2.uds.1.securityUnlocked = true) ∧
      ∀ error, ended.1 = .error error →
        ∃ nrc, error = .negativeResponse sidSecurityAccess nrc ∧ nrc ≠ nrcResponsePending := by
  intro ended
  change Concludes (Unlockable s now salt ticks later) ended
  by_cases hadmitted : Admitted (s.1.tick now).access now
  · cases hunlocked : (s.1.tick now).securityUnlocked with
    | true =>
      rw [show ended = _ from unlock_unlocked _ salt hroom hadmitted hunlocked]
      refine concludes_ok ⟨hadmitted, .inl hunlocked⟩ ?_
      have haccess := (seeded_access s now capacity).trans (serve_admitted now hadmitted)
      rw [show (s.1.tick now).access.securityUnlocked = true from hunlocked, if_pos rfl] at haccess
      have hkept := UdsServer.expireDelay_securityUnlocked (s.1.tick now).access now
      exact (congrArg Access.securityUnlocked haccess).trans (hkept.trans hunlocked)
    | false =>
      rw [show ended = _ from unlock_locked _ salt hroom hadmitted hunlocked]
      refine concludes_key [] salt hroom ticks later _ (seeded_locked hadmitted hunlocked) ?_
      have hsalt : UInt32.ofNat salt = (s.1.tick now).securitySalt ↔
          salt % 2 ^ 32 = (s.1.tick now).securitySalt.toNat := by
        rw [← UInt32.toNat_inj, UInt32.toNat_ofNat']
      simp only [seeded_expired hroom hadmitted, Unlockable, hadmitted, true_and, hunlocked, Bool.false_eq_true,
        false_or, hsalt]
  · rw [show ended = _ from unlock_refused _ salt hroom hadmitted]
    exact concludes_error (fun h => hadmitted h.1) (refusal_ne_pending _ _ _) _

/-- A client with the default salt, whose key comes 50 ms before the session ends. -/
theorem unlock_iff_defaultSalt :
    ∃ response, (unlock (exchange 300) 0x50324341
      ⟨UdsServer.step (UdsServer.bareServer, ()) (UdsServer.enterSession sessionExtended),
        [([], 0), ([10, 4949], 4950)]⟩).1 = .ok response :=
  (unlock_iff (UdsServer.step (UdsServer.bareServer, ()) (UdsServer.enterSession sessionExtended)) 0 0x50324341
    [10, 4949] 4950 300 (by decide)).1.2 (by decide +kernel)

end UnlockBench

end DualCan.Emu
