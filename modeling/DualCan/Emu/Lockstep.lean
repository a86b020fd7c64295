import DualCan.Emu.Agree

/-!
# The server and the virtual ECU in lockstep

One request keeps the relation and gets the same answer from both, so two runs over the same requests give
the same answers.
-/

namespace DualCan.Emu

open DualCan.Clock DualCan.Uds

variable {τ : Type} {variant : UdsEcuVariant} {hooks : UdsEcuHooks τ}

/-- The states of both at the time `now`. No fault is injected. -/
structure Agrees (variant : UdsEcuVariant) (hooks : UdsEcuHooks τ) (server : UdsServer (EcuEnv τ))
    (ecu : VirtualEcu) (now : ℕ) : Prop where
  access : AccessAgrees server.access ecu now
  timer : TimerAgrees server.timer ecu now
  table : TableAgrees variant hooks server ecu
  fault : ecu.fault = {}

variable {server : UdsServer (EcuEnv τ)} {ecu : VirtualEcu} {now : ℕ}

namespace Agrees

theorem later {later : ℕ} (h : Agrees variant hooks server ecu now) (hle : now ≤ later) :
    Agrees variant hooks server ecu later :=
  ⟨h.access.later hle, h.timer.later hle, h.table, h.fault⟩

theorem keepSessionAlive (h : Agrees variant hooks server ecu now) :
    Agrees variant hooks (server.keepSessionAlive (Clock.tick now)) (ecu.keepSessionAlive now) now := by
  have hframe : ∃ deadline, ecu.keepSessionAlive now = { ecu with s3Deadline := deadline } := by
    unfold VirtualEcu.keepSessionAlive
    split <;> exact ⟨_, rfl⟩
  refine ⟨?_, ?_, ?_, ?_⟩
  · rw [UdsServer.keepSessionAlive_access]
    exact h.access.keepSessionAlive now
  · rw [UdsServer.keepSessionAlive_timer]
    exact h.timer.refresh
  · obtain ⟨deadline, hdeadline⟩ := hframe
    rw [hdeadline]
    exact h.table.congr (UdsServer.keepSessionAlive_work ..) rfl rfl
  · obtain ⟨deadline, hdeadline⟩ := hframe
    rw [hdeadline]
    exact h.fault

/-- A session that has expired is left by both. -/
theorem tick (h : Agrees variant hooks server ecu now) (hnow : now < 2 ^ 31) :
    Agrees variant hooks (server.tick (Clock.tick now)) (ecu.expireSession now) now := by
  have htimer := h.timer.tick hnow
  rw [← UdsServer.tick_timer] at htimer
  have hexpired : server.expired (Clock.tick now) = ecu.s3Deadline.any fun deadline => deadline ≤ now :=
    h.timer.expired_eq hnow
  have haccess := UdsServer.tick_access server (Clock.tick now)
  have hwork := UdsServer.tick_work server (Clock.tick now)
  rw [hexpired] at haccess
  unfold VirtualEcu.expireSession at htimer ⊢
  cases hdeadline : ecu.s3Deadline with
  | none =>
    rw [hdeadline] at haccess htimer
    exact ⟨haccess ▸ h.access, htimer, h.table.congr hwork rfl rfl, h.fault⟩
  | some deadline =>
    rw [hdeadline] at haccess htimer
    by_cases hpast : deadline ≤ now
    · simp only [Option.any_some, hpast, decide_true, if_true] at haccess htimer ⊢
      refine ⟨?_, htimer, h.table.congr hwork rfl rfl, h.fault⟩
      rw [haccess]
      exact h.access.lock sessionDefault none (ecu.sessionTimeoutCount + 1)
    · simp only [Option.any_some, hpast, decide_false, Bool.false_eq_true, if_false] at haccess htimer ⊢
      exact ⟨haccess ▸ h.access, htimer, h.table.congr hwork rfl rfl, h.fault⟩

/-- Both keep the session alive for the same responses. -/
theorem finish (h : Agrees variant hooks server ecu now) {reply : Reply} {response : Option (List UInt8)}
    (hreply : sentBytes reply = response) (hdone : reply.pending = false) (env : EcuEnv τ) :
    let outcome := UdsServer.finish (Clock.tick now) (reply, server, env)
    let result := VirtualEcu.finish now (response, ecu)
    sentBytes outcome.1 = result.1 ∧ Agrees variant hooks outcome.2.1 result.2 now := by
  unfold UdsServer.finish VirtualEcu.finish
  rw [keepsSession_eq hdone, hreply]
  dsimp only
  split
  · exact ⟨hreply, h.keepSessionAlive⟩
  · exact ⟨hreply, h⟩

/-! ## The services -/

theorem session_refused (session : UInt8) : (session < sessionDefault ∨ session > sessionExtended ∨
    (!sessionAllowed defaultSessionMask session) = true) ↔ session ∉ [0x01, 0x02, 0x03] :=
  forall_byte (p := fun session => (session < sessionDefault ∨ session > sessionExtended ∨
    (!sessionAllowed defaultSessionMask session) = true) ↔ session ∉ [0x01, 0x02, 0x03]) (by decide) session

/-- Both enter a session in the same way. -/
theorem enter (h : Agrees variant hooks server ecu now) (session : UInt8) :
    let ecu' := if session ≠ ecu.session then ecu.lockSecurity else ecu
    Agrees variant hooks (server.setSession session (Clock.tick now)) { ecu' with
      session := session
      s3Deadline := if session = sessionDefault then none else some (now + ecu'.s3TimeoutMs) } now := by
  intro ecu'
  have hsession : server.session = ecu.session := h.access.session
  have haccess := UdsServer.setSession_access server (Clock.tick now) session
  rw [hsession] at haccess
  have hframe : ∃ unlocked seed attempts, ecu' =
      { ecu with securityUnlocked := unlocked, pendingSeed := seed, securityAttempts := attempts } := by
    unfold ecu'
    split <;> exact ⟨_, _, _, rfl⟩
  refine ⟨?_, ?_, ?_, ?_⟩
  · rw [haccess]
    unfold ecu'
    by_cases hchange : session ≠ ecu.session
    · rw [if_pos hchange, if_pos hchange]
      exact h.access.lock session _ ecu.sessionTimeoutCount
    · obtain rfl := not_not.1 hchange
      rw [if_neg hchange, if_neg hchange]
      exact ⟨h.access.session, h.access.generator, h.access.pending, h.access.unlocked, h.access.attempts,
        h.access.attempts_lt, h.access.salt, h.access.delay⟩
  · rw [UdsServer.setSession_timer]
    obtain ⟨unlocked, seed, attempts, hecu⟩ := hframe
    rw [hecu]
    exact h.timer.enter session rfl rfl rfl rfl
  · obtain ⟨unlocked, seed, attempts, hecu⟩ := hframe
    rw [hecu]
    exact h.table.congr (UdsServer.setSession_work ..) rfl rfl
  · obtain ⟨unlocked, seed, attempts, hecu⟩ := hframe
    rw [hecu]
    exact h.fault

theorem sessionControl (h : Agrees variant hooks server ecu now) {capacity : ℕ} (hroom : 6 ≤ capacity)
    (sub : UInt8) :
    let outcome := server.sessionControl (Clock.tick now) [sub] capacity
    let result := ecu.sessionControl [sub] now
    sentBytes outcome.1 = result.1 ∧ Agrees variant hooks outcome.2 result.2 now := by
  have hmask : server.supportedSessionsMask = defaultSessionMask := h.timer.mask
  have hp2 : server.p2ServerMs = defaultP2ServerMs := h.timer.p2
  have hp2Star : server.p2StarServerMs = defaultP2StarServerMs := h.timer.p2Star
  have hrefused := session_refused (sub &&& 0x7F)
  unfold UdsServer.sessionControl VirtualEcu.sessionControl
  simp only [hmask, hp2, hp2Star, h.timer.supported, subfunctionMask, suppressPositiveResponse]
  by_cases hbad : sub &&& 0x7F ∉ [0x01, 0x02, 0x03]
  · rw [if_pos (hrefused.2 hbad), if_pos hbad]
    exact ⟨negative_sentBytes (Nat.le_trans (by decide) hroom) .., h⟩
  · rw [if_neg (fun hright => hbad (hrefused.1 hright)), if_neg hbad]
    have henter := h.enter (sub &&& 0x7F)
    have hlength : [sub &&& 0x7F, high16 defaultP2ServerMs, low16 defaultP2ServerMs,
        high16 (defaultP2StarServerMs / 10), low16 (defaultP2StarServerMs / 10)].length + 1 ≤ capacity := hroom
    have hreply := positive_sentBytes (sidDiagnosticSessionControl + 0x40) (sub &&& 0x80 ≠ 0) hlength
    dsimp only at henter ⊢
    by_cases hsilent : sub &&& 0x80 ≠ 0
    · rw [if_pos hsilent]
      exact ⟨hreply.trans (if_pos (decide_eq_true hsilent)), henter⟩
    · rw [if_neg hsilent]
      exact ⟨hreply.trans (if_neg (by simpa using hsilent)), henter⟩

theorem testerPresent (h : Agrees variant hooks server ecu now) {capacity : ℕ} (hroom : 3 ≤ capacity)
    (sub : UInt8) :
    let outcome := server.testerPresent (Clock.tick now) [sub] capacity
    let result := VirtualEcu.finish now (ecu.testerPresent [sub] now)
    sentBytes outcome.1 = result.1 ∧ Agrees variant hooks outcome.2 result.2 now := by
  unfold UdsServer.testerPresent VirtualEcu.testerPresent
  dsimp only
  by_cases hbad : sub &&& subfunctionMask ≠ 0
  · have hsame : sub &&& 0x7F ≠ 0 := hbad
    rw [if_pos hbad, if_pos hsame]
    exact ⟨negative_sentBytes hroom .., h⟩
  have hsame : ¬sub &&& 0x7F ≠ 0 := hbad
  rw [if_neg hbad, if_neg hsame]
  have hlength : ([0x00] : List UInt8).length + 1 ≤ capacity := Nat.le_trans (Nat.le_succ 2) hroom
  have hreply := positive_sentBytes (sidTesterPresent + 0x40) (sub &&& 0x80 ≠ 0) hlength
  dsimp only
  by_cases hsilent : sub &&& 0x80 ≠ 0
  · rw [if_pos hsilent]
    exact ⟨hreply.trans (if_pos (decide_eq_true hsilent)), h.keepSessionAlive⟩
  · rw [if_neg hsilent]
    -- the virtual ECU refreshes the timer a second time, at the same time
    have htwice : (ecu.keepSessionAlive now).keepSessionAlive now = ecu.keepSessionAlive now := by
      by_cases hdefault : ecu.session ≠ sessionDefault
      · simp [VirtualEcu.keepSessionAlive, hdefault]
      · simp [VirtualEcu.keepSessionAlive, hdefault]
    refine ⟨hreply.trans (if_neg (by simpa using hsilent)), ?_⟩
    change Agrees variant hooks _ ((ecu.keepSessionAlive now).keepSessionAlive now) now
    rw [htwice]
    exact h.keepSessionAlive

theorem securityAccess (h : Agrees variant hooks server ecu now) (hnow : now < 2 ^ 31) {capacity : ℕ}
    (hroom : 6 ≤ capacity) (sub : UInt8) (data : List UInt8) (env : EcuEnv τ) :
    let reply := server.securityAccess (Clock.tick now) (sub :: data) capacity
    let outcome := UdsServer.finish (Clock.tick now) (reply.1, reply.2, env)
    let result := VirtualEcu.finish now (ecu.securityAccess (sub :: data) now)
    sentBytes outcome.1 = result.1 ∧ Agrees variant hooks outcome.2.1 result.2 now := by
  intro reply
  obtain ⟨hreply, haccess, hsame⟩ := securityAccess_agrees h.access hnow hroom sub data
  have hdone : reply.1.pending = false := by
    unfold reply
    rw [UdsServer.securityAccess_reply]
    unfold Access.answer
    split
    · exact negative_pending ..
    · exact positive_pending ..
    · exact positive_pending ..
    · split
      · exact positive_pending ..
      · exact negative_pending ..
  have htimer : reply.2.timer = server.timer := UdsServer.securityAccess_timer ..
  have hnext : Agrees variant hooks reply.2 (ecu.securityAccess (sub :: data) now).2 now :=
    ⟨haccess, htimer ▸ h.timer.congr hsame,
      h.table.congr (UdsServer.securityAccess_work ..) hsame.dids hsame.rules, hsame.fault.trans h.fault⟩
  exact hnext.finish hreply hdone env

theorem readDid (h : Agrees variant hooks server ecu now) {capacity : ℕ}
    (hroom : 4 + didVinCapacity ≤ capacity) {high low : UInt8} (hhealth : word16 high low ≠ didCanHealth)
    (hfault : word16 high low ≠ didFaultControl) (env : EcuEnv τ) :
    let outcome := UdsServer.finish (Clock.tick now) (server.readDid [high, low] capacity, server, env)
    let result := VirtualEcu.finish now (ecu.readDid [high, low], ecu)
    sentBytes outcome.1 = result.1 ∧ Agrees variant hooks outcome.2.1 result.2 now := by
  obtain ⟨hreply, hdone⟩ := h.table.readDid hroom hhealth hfault
  exact h.finish hreply hdone env

theorem writeDid (h : Agrees variant hooks server ecu now) {capacity : ℕ} (hroom : 3 ≤ capacity)
    {high low : UInt8} (hfault : word16 high low ≠ didFaultControl) (data : List UInt8) (env : EcuEnv τ) :
    let reply := server.writeDid (high :: low :: data) capacity
    let outcome := UdsServer.finish (Clock.tick now) (reply.1, reply.2, env)
    let result := VirtualEcu.finish now (ecu.writeDid (high :: low :: data) now)
    sentBytes outcome.1 = result.1 ∧ Agrees variant hooks outcome.2.1 result.2 now := by
  intro reply
  obtain ⟨hreply, hdone, htable⟩ := h.table.writeDid h.access hroom hfault data
  obtain ⟨dids, hframe⟩ := TableAgrees.writeDid_outside ecu hfault data now
  have haccess : reply.2.access = server.access := UdsServer.writeDid_access ..
  have htimer : reply.2.timer = server.timer := UdsServer.writeDid_timer ..
  have hnext : Agrees variant hooks reply.2 (ecu.writeDid (high :: low :: data) now).2 now := by
    refine ⟨?_, ?_, htable, ?_⟩
    · rw [hframe, haccess]
      exact ⟨h.access.session, h.access.generator, h.access.pending, h.access.unlocked, h.access.attempts,
        h.access.attempts_lt, h.access.salt, h.access.delay⟩
    · rw [hframe, htimer]
      exact ⟨h.timer.session, h.timer.stopped, h.timer.running, h.timer.s3, h.timer.timeout, h.timer.p2,
        h.timer.p2Star, h.timer.mask, h.timer.supported⟩
    · rw [hframe]
      exact h.fault
  exact hnext.finish hreply hdone env

end Agrees

/-! ## Requests -/

/-- The requests that both implement alike: session control and tester present of length 2, security access
with a sub-function, reads of one identifier, writes; none of the health or fault control identifiers. -/
inductive Covered : List UInt8 → Prop
  | sessionControl (sub : UInt8) : Covered [sidDiagnosticSessionControl, sub]
  | testerPresent (sub : UInt8) : Covered [sidTesterPresent, sub]
  | securityAccess (sub : UInt8) (data : List UInt8) : Covered (sidSecurityAccess :: sub :: data)
  | readDid (high low : UInt8) (hhealth : word16 high low ≠ didCanHealth)
      (hfault : word16 high low ≠ didFaultControl) : Covered [sidReadDataByIdentifier, high, low]
  | writeDid (high low : UInt8) (data : List UInt8) (hhealth : word16 high low ≠ didCanHealth)
      (hfault : word16 high low ≠ didFaultControl) :
      Covered (sidWriteDataByIdentifier :: high :: low :: data)

/-- Without faults a request goes to its service. -/
theorem handle_eq (h : ecu.fault = {}) (service : UInt8) (args : List UInt8) :
    ecu.handle (service :: args) now =
      if service = sidDiagnosticSessionControl then (ecu.expireSession now).sessionControl args now
      else (ecu.expireSession now).serve service args now := by
  have hfault : (ecu.expireSession now).fault = {} := by
    unfold VirtualEcu.expireSession
    split
    · exact h
    · split <;> exact h
  unfold VirtualEcu.handle
  simp only [hfault, Nat.not_lt_zero, or_self, if_false, ne_eq, not_true_eq_false]

/-- A request keeps the relation and is answered alike. -/
theorem Agrees.request (h : Agrees variant hooks server ecu now) (hnow : now < 2 ^ 31) {capacity : ℕ}
    (hroom : 4 + didVinCapacity ≤ capacity) {request : List UInt8} (hcover : Covered request)
    (env : EcuEnv τ) :
    let outcome := server.process env (Clock.tick now) request capacity
    let result := ecu.handle request now
    sentBytes outcome.1 = result.1 ∧ Agrees variant hooks outcome.2.1 result.2 now := by
  have hvin : didVinCapacity = 17 := rfl
  have htick := h.tick hnow
  cases hcover with
  | sessionControl sub =>
    rw [handle_eq h.fault]
    exact htick.sessionControl (by omega) sub
  | testerPresent sub =>
    rw [handle_eq h.fault]
    exact htick.testerPresent (by omega) sub
  | securityAccess sub data =>
    rw [handle_eq h.fault]
    exact htick.securityAccess hnow (by omega) sub data env
  | readDid high low hhealth hfault =>
    rw [handle_eq h.fault]
    exact htick.readDid hroom hhealth hfault env
  | writeDid high low data hhealth hfault =>
    rw [handle_eq h.fault]
    exact htick.writeDid (by omega) hfault data env

/-! ## Runs -/

/-- A request with the time, in milliseconds, at which it is handled. -/
structure TimedRequest where
  time : ℕ
  bytes : List UInt8

/-- What the server sends for each request. -/
def serverReplies (capacity : ℕ) (s : UdsServer (EcuEnv τ) × EcuEnv τ) :
    List TimedRequest → List (Option (List UInt8))
  | [] => []
  | request :: rest =>
    let outcome := s.1.process s.2 (Clock.tick request.time) request.bytes capacity
    sentBytes outcome.1 :: serverReplies capacity outcome.2 rest

/-- What the virtual ECU sends for each request. -/
def emuReplies (ecu : VirtualEcu) : List TimedRequest → List (Option (List UInt8))
  | [] => []
  | request :: rest =>
    let outcome := ecu.handle request.bytes request.time
    outcome.1 :: emuReplies outcome.2 rest

/-- From related states on, the requests of a run are answered alike. -/
theorem Agrees.replies {s : UdsServer (EcuEnv τ) × EcuEnv τ} (h : Agrees variant hooks s.1 ecu now)
    {capacity : ℕ} (hroom : 4 + didVinCapacity ≤ capacity) {requests : List TimedRequest}
    (hlater : ∀ request ∈ requests, now ≤ request.time)
    (hordered : requests.Pairwise fun first second => first.time ≤ second.time)
    (hcover : ∀ request ∈ requests, request.time < 2 ^ 31 ∧ Covered request.bytes) :
    serverReplies capacity s requests = emuReplies ecu requests := by
  induction requests generalizing s ecu now with
  | nil => rfl
  | cons request rest ih =>
    obtain ⟨hnow, hcovered⟩ := hcover request List.mem_cons_self
    obtain ⟨hnext, hrest⟩ := List.pairwise_cons.1 hordered
    have hthen := h.later (hlater request List.mem_cons_self)
    obtain ⟨hreply, hagree⟩ := hthen.request hnow hroom hcovered s.2
    have htail := ih hagree hnext hrest fun other hother => hcover other (List.mem_cons_of_mem _ hother)
    unfold serverReplies emuReplies
    dsimp only
    rw [hreply, htail]

/-- `UdsEcu_Init`. -/
def ecuInit (variant : UdsEcuVariant) : Option (UdsServer (EcuEnv Unit) × EcuEnv Unit) :=
  initWithHooks variant none ⟨none, none⟩ ()

theorem didValue_init (variant : UdsEcuVariant) {did : UInt16} (hhealth : did ≠ didCanHealth)
    (hfault : did ≠ didFaultControl) :
    didValue (resetDids variant none () : List (Did (EcuEnv Unit))) did =
      (VirtualEcu.init (profile variant)).dids did := by
  have hvin : vinByEcu (profile variant) = some variant.vin := by cases variant <;> rfl
  have hhardware : hardwareVersionByEcu (profile variant) = some variant.hardware := by
    cases variant <;> rfl
  have hname : ascii (profile variant) = variant.name := by cases variant <;> rfl
  unfold VirtualEcu.init defaultDids
  simp only [if_neg hhealth, if_neg hfault, hvin, hhardware, hname, Option.getD_some]
  unfold resetDids attachStorage didDbInit
  simp only [didValue_cons, writableDid, readOnlyDid, eq_comm (b := did)]
  rfl

/-- The two start in related states. -/
theorem Agrees.init {s : UdsServer (EcuEnv Unit) × EcuEnv Unit} (h : ecuInit variant = some s) (now : ℕ) :
    Agrees variant ⟨none, none⟩ s.1 (VirtualEcu.init (profile variant)) now := by
  have hbuilt := Built.init h
  unfold ecuInit at h
  have hdids : s.1.dids = resetDids variant none () := by
    obtain ⟨server, hinit, rfl⟩ := Option.map_eq_some_iff.1 h
    exact (UdsServer.init_some hinit).1
  have htable : TableAgrees variant ⟨none, none⟩ s.1 (VirtualEcu.init (profile variant)) := by
    refine ⟨hbuilt, ?_, ?_, rfl⟩
    · intro did hhealth hfault
      rw [hdids]
      exact didValue_init variant hhealth hfault
    · intro did value hvalue
      rw [hdids] at hvalue
      obtain ⟨entry, hfind, rfl⟩ := Option.map_eq_some_iff.1 hvalue
      have hmem := List.mem_of_find?_eq_some hfind
      have hshort : ∀ base ∈ (resetDids variant none () : List (Did (EcuEnv Unit))),
          base.data.length ≤ didVinCapacity := by
        cases variant <;> decide
      exact hshort entry hmem
  refine ⟨?_, ?_, htable, rfl⟩
  all_goals
    obtain ⟨server, hinit, rfl⟩ := Option.map_eq_some_iff.1 h
    unfold UdsServer.init at hinit
    split at hinit
    · cases hinit
    split at hinit
    · cases hinit
    split at hinit
    · cases hinit
    split at hinit
    · cases hinit
    cases hinit
  · exact ⟨rfl, rfl, rfl, rfl, rfl, Nat.zero_lt_succ 2, rfl, Or.inl ⟨rfl, Nat.zero_le now⟩⟩
  · exact ⟨rfl, fun _ => ⟨rfl, rfl⟩, nofun, rfl, rfl, rfl, rfl, rfl, rfl⟩

/-- **The server and the virtual ECU agree**: over every sequence of the covered requests at ordered times
below 2^31 ms, and with room for the longest response, both send the same bytes, or both none, each time. -/
theorem replies_agree {s : UdsServer (EcuEnv Unit) × EcuEnv Unit} (hinit : ecuInit variant = some s)
    {capacity : ℕ} (hroom : 4 + didVinCapacity ≤ capacity) {requests : List TimedRequest}
    (hordered : requests.Pairwise fun first second => first.time ≤ second.time)
    (hcover : ∀ request ∈ requests, request.time < 2 ^ 31 ∧ Covered request.bytes) :
    serverReplies capacity s requests = emuReplies (VirtualEcu.init (profile variant)) requests :=
  (Agrees.init hinit 0).replies hroom (fun _ _ => Nat.zero_le _) hordered hcover

/-- An unlock in the programming session, a new VIN, and its read after the session has ended. -/
def unlockAndWrite : List TimedRequest :=
  [⟨0, [sidDiagnosticSessionControl, sessionProgramming]⟩,
    ⟨10, [sidSecurityAccess, securityRequestSeed]⟩,
    ⟨20, [sidSecurityAccess, securitySendKey, 0xE1, 0x74, 0xF5, 0xDA]⟩,
    ⟨30, [sidWriteDataByIdentifier, 0xF1, 0x90, 0x41, 0x42]⟩,
    ⟨5030, [sidReadDataByIdentifier, 0xF1, 0x90]⟩]

def plainServer : UdsServer (EcuEnv Unit) × EcuEnv Unit := (ecuInit .f407).get rfl

theorem replies_agree_unlockAndWrite :
    serverReplies 64 plainServer unlockAndWrite = emuReplies (VirtualEcu.init "ecu1") unlockAndWrite ∧
      emuReplies (VirtualEcu.init "ecu1") unlockAndWrite =
        [some [0x50, 0x02, 0x00, 0x32, 0x01, 0xF4], some [0x67, 0x01, 0x87, 0x98, 0x5A, 0xA5],
          some [0x67, 0x02], some [0x6E, 0xF1, 0x90], some [0x62, 0xF1, 0x90, 0x41, 0x42]] := by
  constructor
  · refine replies_agree (rfl : ecuInit .f407 = some plainServer) (by decide) (by decide) ?_
    unfold unlockAndWrite
    simp only [List.forall_mem_cons, List.not_mem_nil, false_implies, implies_true, and_true]
    refine ⟨⟨by decide, ?_⟩, ⟨by decide, ?_⟩, ⟨by decide, ?_⟩, ⟨by decide, ?_⟩, ⟨by decide, ?_⟩⟩
    · exact .sessionControl _
    · exact .securityAccess _ _
    · exact .securityAccess _ _
    · exact .writeDid _ _ _ (by decide) (by decide)
    · exact .readDid _ _ (by decide) (by decide)
  · decide +kernel

end DualCan.Emu
