import DualCan.App.ServiceIsotp
import DualCan.Uds.Provenance
import DualCan.Uds.Response
import DualCan.Uds.Transact

/-!
# The tester's calls and the ECU's server

`UdsClient._exchange` at one end of the transport and `APP_ServiceIsotp` with the UDS server at the other:
requests and responses are on their way for any time and may be lost, the server defers responses, calls time
out and are tried again. The client takes the next response for the one it waits for, whoever asked for it, so
a call can end with the response to another. It never does if every call begins on a quiet line
(`results_belong`), and without timeouts the line is quiet whenever a call has ended (`prompt_results`).
-/

namespace DualCan.App

open DualCan.Run DualCan.Uds

/-! ## Responses that end an exchange -/

/-- A reply that is sent as a response is not the one that announces another. -/
structure Ends (reply : Reply) : Prop where
  final : reply.result = .response → ∀ client : UdsClient, client.isPending reply.response = false

theorem isPending_announced (client : UdsClient) (service : UInt8) :
    client.isPending [sidNegativeResponse, service, nrcResponsePending] = client.handleResponsePending := by
  simp [UdsClient.isPending]

@[simp] theorem ends_noResponse (response : List UInt8) : Ends ⟨.noResponse, response⟩ := ⟨nofun⟩

@[simp] theorem ends_bufferTooSmall (response : List UInt8) : Ends ⟨.bufferTooSmall, response⟩ := ⟨nofun⟩

theorem ends_negative {nrc : UInt8} (h : nrc ≠ nrcResponsePending) (capacity : ℕ) (service : UInt8) :
    Ends (negative capacity service nrc) := by
  unfold negative
  split
  · simp
  · refine ⟨fun _ client => ?_⟩
    simp [UdsClient.isPending, h]

theorem ends_positive {first : UInt8} (h : first ≠ sidNegativeResponse) (suppress : Bool) (capacity : ℕ)
    (bytes : List UInt8) : Ends (positive suppress capacity (first :: bytes)) := by
  unfold positive
  split
  · simp
  split
  · simp
  · refine ⟨fun _ client => ?_⟩
    simp [UdsClient.isPending, h]

theorem responsePending_not_response (capacity : ℕ) (service : UInt8) :
    (responsePending capacity service).result ≠ .response := by
  unfold responsePending negative
  by_cases hroom : capacity < 3
  · simp [hroom]
  · simp [hroom]

@[simp] theorem ends_responsePending (capacity : ℕ) (service : UInt8) : Ends (responsePending capacity service) :=
  ⟨fun h => absurd h (responsePending_not_response capacity service)⟩

@[simp] theorem ends_written (capacity : ℕ) (high low : UInt8) :
    Ends (positive false capacity [sidWriteDataByIdentifier + 0x40, high, low]) :=
  ends_positive (by decide) ..

@[simp] theorem ends_routinePositive (subfunction : UInt8) (routineId : UInt16) (result : List UInt8)
    (suppress : Bool) (capacity : ℕ) :
    Ends (UdsServer.routinePositive subfunction routineId result suppress capacity) :=
  ends_positive (by decide) ..

section Services

variable {σ : Type} (server : UdsServer σ) (env : σ) (now : UInt32) (args data : List UInt8)
  (capacity index : ℕ)

theorem ends_sessionControl : Ends (server.sessionControl now args capacity).1 := by
  unfold UdsServer.sessionControl
  split
  · dsimp only
    split
    · exact ends_negative (by decide) ..
    · exact ends_positive (by decide) ..
  · exact ends_negative (by decide) ..

theorem readEntries_nrc {nrc : UInt8} (h : server.readEntries args = .error nrc) : nrc ≠ nrcResponsePending := by
  induction args using UdsServer.readEntries.induct server with
  | case1 high low rest hfind =>
    simp only [UdsServer.readEntries, hfind, Except.error.injEq] at h
    subst h
    decide
  | case2 high low rest found entry hfind hsession =>
    simp only [UdsServer.readEntries, hfind, hsession, if_true, Except.error.injEq] at h
    subst h
    decide
  | case3 high low rest found entry hfind hsession ih =>
    simp only [UdsServer.readEntries, hfind, if_neg hsession] at h
    cases hrest : server.readEntries rest with
    | error nrc' =>
      rw [hrest] at h
      exact ih (hrest.trans h)
    | ok entries =>
      rw [hrest] at h
      cases h
  | case4 args hshort =>
    rw [UdsServer.readEntries] at h
    · cases h
    · exact hshort

theorem ends_readDid : Ends (server.readDid args capacity) := by
  unfold UdsServer.readDid
  split
  · exact ends_negative (by decide) ..
  split
  · next nrc hnrc => exact ends_negative (readEntries_nrc server args hnrc) ..
  split
  · simp
  · refine ⟨fun _ client => ?_⟩
    simp [UdsClient.isPending, sidReadDataByIdentifier, sidNegativeResponse]

theorem ends_securityAccess : Ends (server.securityAccess now args capacity).1 := by
  unfold UdsServer.securityAccess
  split
  · exact ends_negative (by decide) ..
  dsimp only
  split
  · exact ends_negative (by decide) ..
  split
  · exact ends_negative (by decide) ..
  split
  · exact ends_negative (by decide) ..
  split
  · unfold UdsServer.requestSeed
    split
    · exact ends_positive (by decide) ..
    · exact ends_positive (by decide) ..
  split
  · split
    · exact ends_negative (by decide) ..
    · unfold UdsServer.evaluateKey
      dsimp only
      split
      · split <;> exact ends_negative (by decide) ..
      · exact ends_positive (by decide) ..
  · exact ends_negative (by decide) ..

theorem ends_writeDid : Ends (server.writeDid args capacity).1 := by
  rcases server.writeDid_cases args capacity with
    ⟨-, nrc, hnrc, hreject⟩ | ⟨index, entry, data, -, ⟨-, harm⟩ | ⟨-, high, low, hdone⟩⟩
  · rw [hreject]
    exact ends_negative hnrc ..
  · rw [harm]
    exact ends_responsePending ..
  · rw [hdone]
    exact ends_written ..

theorem ends_routineControl : Ends (server.routineControl env args capacity).1 := by
  unfold UdsServer.routineControl UdsServer.runRoutine
  dsimp only [UdsServer.callRoutine]
  repeat' split
  all_goals first
    | exact ends_negative (by decide) ..
    | simp

theorem ends_testerPresent : Ends (server.testerPresent now args capacity).1 := by
  unfold UdsServer.testerPresent
  split
  · split
    · exact ends_negative (by decide) ..
    · exact ends_positive (by decide) ..
  · exact ends_negative (by decide) ..

theorem ends_pollPending : Ends (server.pollPending env capacity).1 := by
  unfold UdsServer.pollPending
  split
  · unfold UdsServer.pollWrite
    repeat' split
    all_goals first
      | exact ends_negative (by decide) ..
      | exact ends_written ..
  split
  · unfold UdsServer.pollRoutine
    dsimp only [UdsServer.callRoutine]
    repeat' split
    all_goals simp
  · simp

theorem ends_dispatch (service : UInt8) : Ends (server.dispatch env now service args capacity).1 := by
  unfold UdsServer.dispatch
  split
  · exact ends_sessionControl ..
  split
  · rw [UdsServer.finish_reply]
    exact ends_readDid ..
  split
  · rw [UdsServer.finish_reply]
    exact ends_securityAccess ..
  split
  · rw [UdsServer.finish_reply]
    exact ends_writeDid ..
  split
  · rw [UdsServer.finish_reply]
    exact ends_routineControl ..
  split
  · exact ends_testerPresent ..
  · exact ends_negative (by decide) ..

end Services

/-- A final response to a service, as the client tells them apart. -/
def FinalFor (service : UInt8) (response : List UInt8) : Prop :=
  (∃ nrc, nrc ≠ nrcResponsePending ∧ response = [sidNegativeResponse, service, nrc]) ∨
    service.toNat < 0xC0 ∧ service + 0x40 ≠ sidNegativeResponse ∧ response.head? = some (service + 0x40)

theorem finalFor_of_isFor {reply : Reply} {service : UInt8} (hfor : reply.IsFor service) (hends : Ends reply)
    (hsent : reply.result = .response) (hsome : reply.response ≠ []) (hlow : service.toNat < 0xC0) :
    FinalFor service reply.response := by
  rcases hfor with hnone | ⟨nrc, hnegative⟩ | hpositive
  · exact absurd hnone hsome
  · refine .inl ⟨nrc, ?_, hnegative⟩
    rintro rfl
    have hpending := hends.final hsent {}
    rw [hnegative, isPending_announced] at hpending
    cases hpending
  · exact .inr ⟨hlow, hpositive⟩

theorem finalFor_process {σ : Type} (server : UdsServer σ) (env : σ) (now : UInt32) (service : UInt8)
    (args : List UInt8) (capacity : ℕ)
    (hsent : (server.process env now (service :: args) capacity).1.result = .response)
    (hsome : (server.process env now (service :: args) capacity).1.response ≠ []) :
    FinalFor service (server.process env now (service :: args) capacity).1.response := by
  have hfor := (server.tick now).dispatch_isFor env now args capacity service
  have hends := ends_dispatch (server.tick now) env now args capacity service
  by_cases hlow : service.toNat < 0xC0
  · exact finalFor_of_isFor hfor hends hsent hsome hlow
  · -- no service of the server is so high
    have hunknown : ∀ known : UInt8, known.toNat < 0xC0 → service ≠ known := by
      rintro known hknown rfl
      exact hlow hknown
    have hreply : (server.process env now (service :: args) capacity).1 =
        negative capacity service nrcServiceNotSupported := by
      simp only [UdsServer.process, UdsServer.dispatch, hunknown sidDiagnosticSessionControl (by decide),
        hunknown sidReadDataByIdentifier (by decide), hunknown sidSecurityAccess (by decide),
        hunknown sidWriteDataByIdentifier (by decide), hunknown sidRoutineControl (by decide),
        hunknown sidTesterPresent (by decide), if_false]
    rw [hreply] at hsome ⊢
    rcases UdsServer.negative_response_cases capacity service nrcServiceNotSupported with hnone | hbytes
    · exact absurd hnone hsome
    · exact .inl ⟨_, by decide, hbytes⟩

/-! ## Pending operations -/

section Waiting

variable {σ : Type}

/-- Nothing is pending. -/
def Idle (server : UdsServer σ) : Prop :=
  server.pendingDidWrite = false ∧ server.pendingRoutineResponse = false

/-- Of a write and a routine at most one is pending. -/
def OnePending (server : UdsServer σ) : Prop :=
  server.pendingDidWrite = false ∨ server.pendingRoutineResponse = false

variable {server next : UdsServer σ} {env : σ} {now : UInt32} {args : List UInt8} {capacity : ℕ} {service : UInt8}

theorem Idle.onePending (h : Idle server) : OnePending server := .inl h.1

theorem Idle.of_work (h : Idle server) (hwork : next.work = server.work) : Idle next :=
  ⟨(congrArg Work.pendingDidWrite hwork).trans h.1, (congrArg Work.pendingRoutineResponse hwork).trans h.2⟩

theorem OnePending.of_work (h : OnePending server) (hwork : next.work = server.work) : OnePending next :=
  h.imp (congrArg Work.pendingDidWrite hwork).trans (congrArg Work.pendingRoutineResponse hwork).trans

/-- A write arms the pending write, or leaves what is pending. -/
theorem writeDid_waiting (server : UdsServer σ) (args : List UInt8) (capacity : ℕ) :
    (server.writeDid args capacity).2.pendingRoutineResponse = server.pendingRoutineResponse ∧
      ((server.writeDid args capacity).2.pendingDidWrite = server.pendingDidWrite ∨
        (server.writeDid args capacity).1.result ≠ .response) := by
  rcases server.writeDid_cases args capacity with
    ⟨-, nrc, -, hreject⟩ | ⟨index, entry, data, -, ⟨-, harm⟩ | ⟨-, high, low, hdone⟩⟩
  · rw [hreject]
    exact ⟨rfl, .inl rfl⟩
  · rw [harm]
    exact ⟨rfl, .inr (responsePending_not_response capacity sidWriteDataByIdentifier)⟩
  · rw [hdone]
    exact ⟨rfl, .inl rfl⟩

/-- A routine request arms the pending routine, or leaves none pending if there was none. -/
theorem routineControl_waiting (h : server.pendingRoutineResponse = false) (env : σ) (args : List UInt8)
    (capacity : ℕ) :
    (server.routineControl env args capacity).2.1.pendingRoutineResponse = false ∨
      (server.routineControl env args capacity).1.result ≠ .response := by
  have hdrop : ∀ index, server.dropPendingRoutine index = server := by
    intro index
    unfold UdsServer.dropPendingRoutine
    rw [h, if_neg (by simp)]
  rcases server.routineControl_cases env args capacity with
    ⟨-, reply, next, -, hreject, hnext⟩ | ⟨index, routine, sub, data, haccept, hrun⟩
  · have hsame : next = server := by
      rcases hnext with hsame | ⟨_, _, _, _, index, _, -, -, hdropped⟩
      · exact hsame
      · exact hdropped.trans (hdrop index)
    rw [hreject, hsame]
    exact .inl h
  obtain ⟨-, -, -, -, -, -, hsub⟩ := UdsServer.acceptedRoutine_some haccept
  rw [hrun, hdrop]
  rcases server.runRoutine_cases env data capacity index routine (sub &&& subfunctionMask)
      (sub &&& suppressPositiveResponse ≠ 0) hsub with
    ⟨-, reply, -, hstep⟩ | ⟨-, ⟨-, hstep⟩ | ⟨-, hstep⟩⟩
  · rw [hstep]
    exact .inl h
  · rw [hstep]
    exact .inr (responsePending_not_response capacity sidRoutineControl)
  · rw [hstep]
    exact .inl h

/-- **One request** to a server with nothing pending: it leaves something pending only without a response. -/
theorem process_waiting (h : Idle server) (env : σ) (now : UInt32) (request : List UInt8) (capacity : ℕ) :
    OnePending (server.process env now request capacity).2.1 ∧
      (Idle (server.process env now request capacity).2.1 ∨
        (server.process env now request capacity).1.result ≠ .response) := by
  have htick : Idle (server.tick now) := h.of_work (server.tick_work now)
  cases request with
  | nil => exact ⟨htick.onePending, .inl htick⟩
  | cons service args =>
    by_cases h2E : service = sidWriteDataByIdentifier
    · subst h2E
      obtain ⟨hreply, hwork, -⟩ := UdsServer.respond_write now args capacity (server, env)
      obtain ⟨hroutine, hwrite⟩ := writeDid_waiting (server.tick now) args capacity
      have hroutine' := (congrArg Work.pendingRoutineResponse hwork).trans (hroutine.trans htick.2)
      refine ⟨.inr hroutine', hwrite.imp (fun hsame => ⟨?_, hroutine'⟩) fun hne => ?_⟩
      · exact (congrArg Work.pendingDidWrite hwork).trans (hsame.trans htick.1)
      · exact (congrArg Reply.result hreply).trans_ne hne
    by_cases h31 : service = sidRoutineControl
    · subst h31
      obtain ⟨hreply, hwork, -⟩ := UdsServer.respond_routine now args capacity (server, env)
      have hwrite := (congrArg Work.pendingDidWrite hwork).trans
        ((congrArg Prod.fst ((server.tick now).routineControl_pendingDid env args capacity)).trans htick.1)
      have hroutine := routineControl_waiting htick.2 env args capacity
      refine ⟨.inl hwrite, hroutine.imp (fun hidle => ⟨hwrite, ?_⟩) fun hne => ?_⟩
      · exact (congrArg Work.pendingRoutineResponse hwork).trans hidle
      · exact (congrArg Reply.result hreply).trans_ne hne
    · have hwork := (UdsServer.step_work_of_other now args capacity (server, env) h2E h31).1
      have hidle := h.of_work hwork
      exact ⟨hidle.onePending, .inl hidle⟩

/-- Another service's request leaves the pending routine alone. -/
theorem process_pendingRoutine (server : UdsServer σ) (env : σ) (now : UInt32) (args : List UInt8) (capacity : ℕ)
    (h : service ≠ sidRoutineControl) :
    (server.process env now (service :: args) capacity).2.1.pendingRoutineResponse =
      server.pendingRoutineResponse := by
  by_cases h2E : service = sidWriteDataByIdentifier
  · subst h2E
    have hwork := (UdsServer.respond_write now args capacity (server, env)).2.1
    have htick := congrArg Work.pendingRoutineResponse (server.tick_work now)
    exact (congrArg Work.pendingRoutineResponse hwork).trans
      ((writeDid_waiting (server.tick now) args capacity).1.trans htick)
  · have hwork := (UdsServer.step_work_of_other now args capacity (server, env) h2E h).1
    exact congrArg Work.pendingRoutineResponse hwork

/-- **One poll**: nothing is pending, or it answers the pending write, or it answers the pending routine or
lets it wait on. -/
theorem pollPending_cases (server : UdsServer σ) (env : σ) (capacity : ℕ) :
    (Idle server ∧ server.pollPending env capacity = (⟨.noResponse, []⟩, server, env)) ∨
    (server.pendingDidWrite = true ∧
      (server.pollPending env capacity).2.1.pendingRoutineResponse = server.pendingRoutineResponse ∧
      (server.pollPending env capacity).1.IsFor sidWriteDataByIdentifier) ∨
    (server.pendingDidWrite = false ∧ server.pendingRoutineResponse = true ∧
      ((server.pollPending env capacity).2.1.pendingRoutineResponse = false ∨
        (server.pollPending env capacity).1.result = .noResponse) ∧
      (server.pollPending env capacity).1.IsFor sidRoutineControl) := by
  unfold UdsServer.pollPending
  cases hwrite : server.pendingDidWrite with
  | true =>
    refine .inr (.inl ⟨rfl, ?_⟩)
    rw [if_pos rfl]
    rcases server.pollWrite_cases env capacity with
      hfail | ⟨entry, save, -, -, -, ⟨-, hfail⟩ | ⟨-, hdone⟩⟩
    · rw [hfail]
      exact ⟨rfl, UdsServer.negative_isFor ..⟩
    · rw [hfail]
      exact ⟨rfl, UdsServer.negative_isFor ..⟩
    · rw [hdone]
      exact ⟨rfl, UdsServer.written_isFor ..⟩
  | false =>
    rw [if_neg Bool.false_ne_true]
    cases hroutine : server.pendingRoutineResponse with
    | false =>
      rw [if_neg Bool.false_ne_true]
      exact .inl ⟨⟨hwrite, hroutine⟩, rfl⟩
    | true =>
      refine .inr (.inr ⟨rfl, rfl, ?_⟩)
      rw [if_pos rfl]
      unfold UdsServer.pollRoutine
      split
      · exact ⟨.inr rfl, UdsServer.noResponse_isFor ..⟩
      dsimp only [UdsServer.callRoutine]
      split
      · exact ⟨.inr rfl, UdsServer.noResponse_isFor ..⟩
      · exact ⟨.inl rfl, UdsServer.routinePositive_isFor ..⟩

end Waiting

/-! ## The conversation -/

/-- A call at one end, the server at the other, and what is on its way between them. Beside them, the request
that the server has processed last, and every request with its final response since the call began. -/
structure Conversation (σ : Type) where
  call : ReadCall
  requests : List (List UInt8)
  uds : UdsServer σ × σ
  responses : List (List UInt8)
  working : List UInt8
  answered : List (List UInt8 × List UInt8)

/-- A call begins, or goes on as the transport lets it; a message is lost; or the ECU's main loop does one of
its parts. -/
inductive Turn where
  | call (service : UInt8) (args : List UInt8)
  | sent
  | receive
  | timeoutError (message : String)
  | raised (message : String)
  | loseRequest
  | loseResponse
  | process (now : UInt32) (capacity : ℕ)
  | pollPending (capacity : ℕ)
  | tick (now : UInt32)
  | lockSecurity

/-- The call has returned or raised. -/
def hasEnded : CallPc → Bool
  | .ended _ => true
  | _ => false

/-- `_exchange` once `_transact` has ended: what the call returns or raises. -/
def exchange (call : ReadCall) (expectedSid : UInt8) : Option (Except ClientError (List UInt8)) :=
  match call.pc, call.lastExchange with
  | .ended (.error (.timeoutError message)), _ => some (.error (.timeoutError message))
  | .ended (.error (.raised message)), _ => some (.error (.raised message))
  | .ended _, some info => some (parseResponse info.response expectedSid)
  | _, _ => none

namespace Conversation

variable {σ : Type} (client : UdsClient)

/-- The first call, before its first `send`. -/
def opened (uds : UdsServer σ × σ) (service : UInt8) (args : List UInt8) : Conversation σ where
  call := ⟨service :: args, .sending 0, none, []⟩
  requests := []
  uds := uds
  responses := []
  working := []
  answered := []

/-- The response that a reply puts on its way, if `sends` says so. -/
def outgoing (sends : Reply → Bool) (reply : Reply) : List (List UInt8) :=
  if sends reply && 0 < reply.response.length then [reply.response] else []

/-- What the server made of a request, its own or a pending one. -/
def reply (c : Conversation σ) (sends : Reply → Bool) (request : List UInt8)
    (outcome : Reply × UdsServer σ × σ) : Conversation σ :=
  { c with
    uds := outcome.2
    responses := c.responses ++ outgoing sends outcome.1
    working := request
    answered := c.answered ++ (outgoing sendsDeferred outcome.1).map fun response => (request, response) }

def step (c : Conversation σ) : Turn → Conversation σ
  | .call service args =>
    match c.call.pc with
    | .ended _ =>
      { c with call := ⟨service :: args, .sending 0, c.call.lastExchange, []⟩, answered := [] }
    | _ => c
  | .sent =>
    match c.call.pc with
    | .sending _ =>
      { c with call := client.step c.call .sent, requests := c.requests ++ [c.call.request] }
    | _ => c
  | .receive =>
    match c.call.pc, c.responses with
    | .receiving .., response :: rest =>
      { c with call := client.step c.call (.received response), responses := rest }
    | _, _ => c
  | .timeoutError message => { c with call := client.step c.call (.timeoutError message) }
  | .raised message => { c with call := client.step c.call (.raised message) }
  | .loseRequest => { c with requests := c.requests.tail }
  | .loseResponse => { c with responses := c.responses.tail }
  | .process now capacity =>
    match c.requests with
    | [] => c
    | request :: rest =>
      reply { c with requests := rest } sendsImmediate request (c.uds.1.process c.uds.2 now request capacity)
  | .pollPending capacity => c.reply sendsDeferred c.working (c.uds.1.pollPending c.uds.2 capacity)
  | .tick now => { c with uds := (c.uds.1.tick now, c.uds.2) }
  | .lockSecurity => { c with uds := (c.uds.1.lockSecurityState, c.uds.2) }

/-- Nothing is on its way, and the server owes no response. -/
structure Quiet (c : Conversation σ) : Prop where
  requests : c.requests = []
  responses : c.responses = []
  idle : Idle c.uds.1

instance (c : Conversation σ) : Decidable c.Quiet :=
  decidable_of_iff (c.requests = [] ∧ c.responses = [] ∧ c.uds.1.pendingDidWrite = false ∧
      c.uds.1.pendingRoutineResponse = false)
    ⟨fun h => ⟨h.1, h.2.1, h.2.2⟩, fun h => ⟨h.requests, h.responses, h.idle⟩⟩

/-- A call begins on a quiet line. -/
def Considerate (c : Conversation σ) : Turn → Prop
  | .call .. => hasEnded c.call.pc = true → c.Quiet
  | _ => True

instance (c : Conversation σ) (t : Turn) : Decidable (Considerate c t) := by
  cases t <;> unfold Considerate <;> infer_instance

/-- Nothing times out or fails. -/
def Prompt : Turn → Prop
  | .timeoutError _ => False
  | .raised _ => False
  | _ => True

/-- A call's result and the server's final responses to its request: data come from a positive one, a negative
one is raised as it is, and no response is unexpected. -/
def Own (service : UInt8) (args : List UInt8) (answered : List (List UInt8 × List UInt8)) :
    Except ClientError (List UInt8) → Prop
  | .ok data => (service :: args, (service + 0x40) :: data) ∈ answered
  | .error (.negativeResponse named nrc) =>
    named = service ∧ nrc ≠ nrcResponsePending ∧
      (service :: args, [sidNegativeResponse, service, nrc]) ∈ answered
  | .error (.unexpectedResponse _) => False
  | .error _ => True

variable {client} {c : Conversation σ} {service : UInt8} {args : List UInt8}

/-! ### Results that belong to the call -/

theorem own_of_final {answered : List (List UInt8 × List UInt8)} {response : List UInt8}
    (hfinal : FinalFor service response) (hmem : (service :: args, response) ∈ answered) :
    Own service args answered (parseResponse response service) := by
  rcases hfinal with ⟨nrc, hnrc, rfl⟩ | ⟨hlow, hne, hhead⟩
  · exact ⟨rfl, hnrc, hmem⟩
  · cases response with
    | nil => cases hhead
    | cons first data =>
      obtain rfl := Option.some.inj hhead
      have hfirst : (service + 0x40).toNat = service.toNat + 0x40 := by
        rw [UInt8.toNat_add]
        exact Nat.mod_eq_of_lt (Nat.add_lt_add_right hlow 0x40)
      have hknown : ¬((service + 0x40).toNat ≠ service.toNat ∧ (service + 0x40).toNat ≠ service.toNat + 0x40) :=
        fun h => h.2 hfirst
      unfold parseResponse
      dsimp only
      rw [if_neg hne, if_neg hknown]
      exact hmem

theorem parseResponse_ne {response : List UInt8} {sid : UInt8} {error : ClientError}
    (h : parseResponse response sid = .error error) :
    (∀ message, error ≠ .timeoutError message) ∧ ∀ message, error ≠ .raised message := by
  unfold parseResponse at h
  split at h
  · obtain rfl := Except.error.inj h
    exact ⟨nofun, nofun⟩
  split at h
  · obtain rfl := Except.error.inj h
    exact ⟨nofun, nofun⟩
  split at h
  · obtain rfl := Except.error.inj h
    exact ⟨nofun, nofun⟩
  · cases h

/-- How a call has ended: it raised what the transport raised, or `lastExchange` is its exchange. -/
def EndedBy (call : ReadCall) (answered : List (List UInt8 × List UInt8)) (result : Except ClientError (List UInt8)) :
    Prop :=
  (∃ message, result = .error (.timeoutError message)) ∨ (∃ message, result = .error (.raised message)) ∨
    ∃ info, call.lastExchange = some info ∧ (call.request, info.response) ∈ answered ∧
      result = parseResponse info.response sidReadDataByIdentifier

/-- **Everything under way concerns the current call**: the requests are copies of its own, the responses are
announcements or final responses to it, and what the server works on is it. -/
structure Underway (client : UdsClient) (service : UInt8) (args : List UInt8) (c : Conversation σ) : Prop where
  request : c.call.request = service :: args
  requests : ∀ r ∈ c.requests, r = service :: args
  write : c.uds.1.pendingDidWrite = true → c.working = service :: args ∧ service = sidWriteDataByIdentifier
  routine : c.uds.1.pendingRoutineResponse = true → c.working = service :: args ∧ service = sidRoutineControl
  responses : ∀ r ∈ c.responses, client.isPending r = true ∨ (service :: args, r) ∈ c.answered
  answered : ∀ p ∈ c.answered, p.1 = service :: args ∧ FinalFor service p.2
  ended : ∀ result, c.call.pc = .ended result → EndedBy c.call c.answered result

/-- The end of a call is an end of `_exchange` that belongs to it. -/
theorem Underway.own (h : Underway client service args c) {result : Except ClientError (List UInt8)}
    (hresult : exchange c.call service = some result) : Own service args c.answered result := by
  unfold exchange at hresult
  cases hpc : c.call.pc with
  | sending attempt =>
    rw [hpc] at hresult
    cases hresult
  | receiving attempt pending =>
    rw [hpc] at hresult
    cases hresult
  | ended outcome =>
    rw [hpc] at hresult
    rcases h.ended outcome hpc with ⟨message, rfl⟩ | ⟨message, rfl⟩ | ⟨info, hlast, hmem, rfl⟩
    · obtain rfl := Option.some.inj hresult
      trivial
    · obtain rfl := Option.some.inj hresult
      trivial
    · have hparsed : result = parseResponse info.response service := by
        cases hparse : parseResponse info.response sidReadDataByIdentifier with
        | ok data =>
          rw [hparse, hlast] at hresult
          exact (Option.some.inj hresult).symm
        | error error =>
          obtain ⟨htimeout, hraised⟩ := parseResponse_ne hparse
          rw [hparse, hlast] at hresult
          cases error with
          | timeoutError message => exact absurd rfl (htimeout message)
          | raised message => exact absurd rfl (hraised message)
          | negativeResponse named nrc => exact (Option.some.inj hresult).symm
          | unexpectedResponse message => exact (Option.some.inj hresult).symm
          | overflowError message => exact (Option.some.inj hresult).symm
      rw [h.request] at hmem
      rw [hparsed]
      exact own_of_final (h.answered _ hmem).2 hmem

/-- A call that the client has not ended by a response. -/
theorem Underway.withCall (h : Underway client service args c) {call : ReadCall}
    (hrequest : call.request = c.call.request) (hlast : call.lastExchange = c.call.lastExchange)
    (hended : ∀ result, call.pc = .ended result → c.call.pc = .ended result ∨
      (∃ message, result = .error (.timeoutError message)) ∨ ∃ message, result = .error (.raised message)) :
    Underway client service args { c with call := call } := by
  refine ⟨hrequest.trans h.request, h.requests, h.write, h.routine, h.responses, h.answered, ?_⟩
  intro result hresult
  rcases hended result hresult with hold | htimeout | hraised
  · rcases h.ended result hold with htimeout | hraised | ⟨info, hinfo, hmem, hparse⟩
    · exact .inl htimeout
    · exact .inr (.inl hraised)
    · exact .inr (.inr ⟨info, hlast.trans hinfo, hrequest ▸ hmem, hparse⟩)
  · exact .inl htimeout
  · exact .inr (.inl hraised)

theorem nextAttempt_ended {attempt : ℕ} {message : String} {result : Except ClientError (List UInt8)}
    (h : client.nextAttempt attempt message = .ended result) : result = .error (.timeoutError message) := by
  unfold UdsClient.nextAttempt at h
  split at h
  · cases h
  · exact (CallPc.ended.inj h).symm

theorem Underway.timeoutError (h : Underway client service args c) (message : String) :
    Underway client service args { c with call := client.step c.call (.timeoutError message) } := by
  unfold UdsClient.step
  cases hpc : c.call.pc with
  | ended result => exact h
  | sending attempt =>
    exact h.withCall rfl rfl fun result hresult => .inr (.inl ⟨message, nextAttempt_ended hresult⟩)
  | receiving attempt pending =>
    exact h.withCall rfl rfl fun result hresult => .inr (.inl ⟨message, nextAttempt_ended hresult⟩)

theorem Underway.raised (h : Underway client service args c) (message : String) :
    Underway client service args { c with call := client.step c.call (.raised message) } := by
  unfold UdsClient.step
  cases hpc : c.call.pc with
  | ended result => exact h
  | sending attempt =>
    exact h.withCall rfl rfl fun result hresult => .inr (.inr ⟨message, (CallPc.ended.inj hresult).symm⟩)
  | receiving attempt pending =>
    exact h.withCall rfl rfl fun result hresult => .inr (.inr ⟨message, (CallPc.ended.inj hresult).symm⟩)

theorem Underway.sent (h : Underway client service args c) : Underway client service args (c.step client .sent) := by
  unfold Conversation.step
  cases hpc : c.call.pc with
  | ended result => exact h
  | receiving attempt pending => exact h
  | sending attempt =>
    have hcall : Underway client service args { c with call := client.step c.call .sent } := by
      refine h.withCall ?_ ?_ ?_ <;> unfold UdsClient.step <;> rw [hpc]
      exact nofun
    refine ⟨hcall.request, fun r hr => ?_, hcall.write, hcall.routine, hcall.responses, hcall.answered, hcall.ended⟩
    rcases List.mem_append.1 hr with hold | hnew
    · exact h.requests r hold
    · exact (List.mem_singleton.1 hnew).trans h.request

/-- The response that is received keeps the call waiting, or it is a final one to its request. -/
theorem Underway.receive (h : Underway client service args c) :
    Underway client service args (c.step client .receive) := by
  unfold Conversation.step
  cases hpc : c.call.pc with
  | ended result => exact h
  | sending attempt => exact h
  | receiving attempt pending =>
    cases hresponses : c.responses with
    | nil => exact h
    | cons response rest =>
      have hrest : ∀ r ∈ rest, client.isPending r = true ∨ (service :: args, r) ∈ c.answered :=
        fun r hr => h.responses r (hresponses ▸ List.mem_cons_of_mem response hr)
      have hfirst := h.responses response (hresponses ▸ List.mem_cons_self)
      dsimp only
      unfold UdsClient.step
      simp only [hpc]
      unfold UdsClient.onResponse
      dsimp only
      by_cases hpending : client.isPending response = true
      · rw [if_pos hpending]
        exact ⟨h.request, h.requests, h.write, h.routine, hrest, h.answered, nofun⟩
      · rw [if_neg hpending]
        refine ⟨h.request, h.requests, h.write, h.routine, hrest, h.answered, fun result hresult => ?_⟩
        have hmem := hfirst.resolve_left hpending
        rw [← h.request] at hmem
        exact .inr (.inr ⟨_, rfl, hmem, (CallPc.ended.inj hresult).symm⟩)

theorem underway_opened {uds : UdsServer σ × σ} (hidle : Idle uds.1) (service : UInt8) (args : List UInt8) :
    Underway client service args (opened uds service args) where
  request := rfl
  requests := fun r hr => by cases hr
  write := fun hwrite => absurd (hwrite.symm.trans hidle.1) Bool.noConfusion
  routine := fun hroutine => absurd (hroutine.symm.trans hidle.2) Bool.noConfusion
  responses := fun r hr => by cases hr
  answered := fun p hp => by cases hp
  ended := nofun

theorem Underway.begin (hquiet : c.Quiet) (lastExchange : Option ExchangeInfo) :
    Underway client service args
      { c with call := ⟨service :: args, .sending 0, lastExchange, []⟩, answered := [] } where
  request := rfl
  requests := fun r hr => by simp [hquiet.requests] at hr
  write := fun hwrite => by simp [hquiet.idle.1] at hwrite
  routine := fun hroutine => by simp [hquiet.idle.2] at hroutine
  responses := fun r hr => by simp [hquiet.responses] at hr
  answered := fun p hp => by cases hp
  ended := nofun

theorem mem_outgoing {sends : Reply → Bool} {reply : Reply} {r : List UInt8} :
    r ∈ outgoing sends reply ↔ sends reply = true ∧ reply.response ≠ [] ∧ r = reply.response := by
  unfold outgoing
  split
  · next h =>
    simp only [Bool.and_eq_true, decide_eq_true_eq, List.length_pos_iff] at h
    simp [h]
  · next h =>
    simp only [Bool.and_eq_true, decide_eq_true_eq, List.length_pos_iff] at h
    constructor
    · intro hr
      cases hr
    · rintro ⟨hsends, hsome, -⟩
      exact absurd ⟨hsends, hsome⟩ h

theorem sendsDeferred_iff (reply : Reply) : sendsDeferred reply = true ↔ reply.result = .response :=
  decide_eq_true_iff

/-- A reply of the server to the call's request. -/
theorem Underway.reply (h : Underway client service args c) {requests : List (List UInt8)}
    {sends : Reply → Bool} {request : List UInt8} {outcome : Reply × UdsServer σ × σ}
    (hrequests : ∀ r ∈ requests, r = service :: args)
    (hsent : ∀ r ∈ outgoing sends outcome.1, client.isPending r = true ∨ r ∈ outgoing sendsDeferred outcome.1)
    (hfinal : ∀ r ∈ outgoing sendsDeferred outcome.1, request = service :: args ∧ FinalFor service r)
    (hwrite : outcome.2.1.pendingDidWrite = true → request = service :: args ∧ service = sidWriteDataByIdentifier)
    (hroutine : outcome.2.1.pendingRoutineResponse = true →
      request = service :: args ∧ service = sidRoutineControl) :
    Underway client service args (Conversation.reply { c with requests := requests } sends request outcome) := by
  have hkept : ∀ p ∈ c.answered,
      p ∈ c.answered ++ (outgoing sendsDeferred outcome.1).map fun response => (request, response) :=
    fun p hp => List.mem_append_left _ hp
  refine ⟨h.request, hrequests, hwrite, hroutine, fun r hr => ?_, fun p hp => ?_, fun result hresult => ?_⟩
  · rcases List.mem_append.1 hr with hold | hnew
    · exact (h.responses r hold).imp_right (hkept _)
    · refine (hsent r hnew).imp_right fun hmem => List.mem_append_right _ ?_
      exact List.mem_map.2 ⟨r, hmem, by rw [(hfinal r hmem).1]⟩
  · rcases List.mem_append.1 hp with hold | hnew
    · exact h.answered p hold
    · obtain ⟨r, hmem, rfl⟩ := List.mem_map.1 hnew
      exact hfinal r hmem
  · rcases h.ended result hresult with htimeout | hraised | ⟨info, hinfo, hmem, hparse⟩
    · exact .inl htimeout
    · exact .inr (.inl hraised)
    · exact .inr (.inr ⟨info, hinfo, hkept _ hmem, hparse⟩)

theorem Underway.process (hclient : client.handleResponsePending = true) (h : Underway client service args c)
    (now : UInt32) (capacity : ℕ) : Underway client service args (c.step client (.process now capacity)) := by
  unfold Conversation.step
  cases hrequests : c.requests with
  | nil => exact h
  | cons request rest =>
    obtain rfl : request = service :: args := h.requests request (hrequests ▸ List.mem_cons_self)
    refine h.reply (fun r hr => h.requests r (hrequests ▸ List.mem_cons_of_mem _ hr)) ?_ ?_ ?_ ?_
    · intro r hr
      obtain ⟨hsends, hsome, rfl⟩ := mem_outgoing.1 hr
      rcases (Bool.or_eq_true_iff ..).1 hsends with hresponse | hpending
      · exact .inr (mem_outgoing.2 ⟨hresponse, hsome, rfl⟩)
      · obtain ⟨service', args', hrequest, hreply⟩ := UdsServer.process_pending hpending
        obtain ⟨rfl, rfl⟩ := List.cons.inj hrequest
        rw [hreply, isPending_announced]
        exact .inl hclient
    · intro r hr
      obtain ⟨hsends, hsome, rfl⟩ := mem_outgoing.1 hr
      exact ⟨rfl, finalFor_process _ _ _ _ _ _ ((sendsDeferred_iff _).1 hsends) hsome⟩
    · intro hwrite
      refine ⟨rfl, ?_⟩
      by_contra hne
      have hsame : (c.uds.1.process c.uds.2 now (service :: args) capacity).2.1.pendingDid = c.uds.1.pendingDid :=
        UdsServer.step_pendingDid_of_other c.uds hne
      exact hne (h.write ((congrArg Prod.fst hsame).symm.trans hwrite)).2
    · intro hroutine
      refine ⟨rfl, ?_⟩
      by_contra hne
      have hsame := process_pendingRoutine c.uds.1 c.uds.2 now args capacity hne
      exact hne (h.routine (hsame.symm.trans hroutine)).2

theorem Underway.pollPending (h : Underway client service args c) (capacity : ℕ) :
    Underway client service args (c.step client (.pollPending capacity)) := by
  have hends := ends_pollPending c.uds.1 c.uds.2 capacity
  have hcases := pollPending_cases c.uds.1 c.uds.2 capacity
  refine h.reply h.requests (fun r hr => .inr hr) ?_ ?_ ?_
  · intro r hr
    obtain ⟨hsends, hsome, rfl⟩ := mem_outgoing.1 hr
    have hresponse := (sendsDeferred_iff _).1 hsends
    rcases hcases with ⟨-, hnone⟩ | ⟨hwrite, -, hfor⟩ | ⟨-, hroutine, -, hfor⟩
    · rw [hnone] at hresponse
      cases hresponse
    · obtain ⟨hworking, rfl⟩ := h.write hwrite
      exact ⟨hworking, finalFor_of_isFor hfor hends hresponse hsome (by decide)⟩
    · obtain ⟨hworking, rfl⟩ := h.routine hroutine
      exact ⟨hworking, finalFor_of_isFor hfor hends hresponse hsome (by decide)⟩
  · intro hwrite
    rw [UdsServer.pollPending_pendingDidWrite] at hwrite
    cases hwrite
  · intro hafter
    rcases hcases with ⟨hidle, hnone⟩ | ⟨-, hsame, -⟩ | ⟨-, hroutine, -⟩
    · rw [hnone, hidle.2] at hafter
      cases hafter
    · exact h.routine (hsame.symm.trans hafter)
    · exact h.routine hroutine

/-- **One step** keeps what is under way about the current call, if the next call begins on a quiet line. -/
theorem Underway.step (hclient : client.handleResponsePending = true) (h : Underway client service args c) (t : Turn)
    (ht : Considerate c t) : ∃ service args, Underway client service args (c.step client t) := by
  cases t with
  | call service' args' =>
    unfold Conversation.step
    cases hpc : c.call.pc with
    | ended result =>
      have hended : hasEnded c.call.pc = true := by rw [hpc, hasEnded]
      exact ⟨service', args', .begin (ht hended) _⟩
    | sending attempt => exact ⟨service, args, h⟩
    | receiving attempt pending => exact ⟨service, args, h⟩
  | sent => exact ⟨service, args, h.sent⟩
  | receive => exact ⟨service, args, h.receive⟩
  | timeoutError message => exact ⟨service, args, h.timeoutError message⟩
  | raised message => exact ⟨service, args, h.raised message⟩
  | loseRequest =>
    exact ⟨service, args, h.request, fun r hr => h.requests r (List.mem_of_mem_tail hr), h.write, h.routine,
      h.responses, h.answered, h.ended⟩
  | loseResponse =>
    exact ⟨service, args, h.request, h.requests, h.write, h.routine,
      fun r hr => h.responses r (List.mem_of_mem_tail hr), h.answered, h.ended⟩
  | process now capacity => exact ⟨service, args, h.process hclient now capacity⟩
  | pollPending capacity => exact ⟨service, args, h.pollPending capacity⟩
  | tick now =>
    have hwork := c.uds.1.tick_work now
    refine ⟨service, args, h.request, h.requests, fun hwrite => h.write ?_, fun hroutine => h.routine ?_, h.responses,
      h.answered, h.ended⟩
    · exact (congrArg Work.pendingDidWrite hwork).symm.trans hwrite
    · exact (congrArg Work.pendingRoutineResponse hwork).symm.trans hroutine
  | lockSecurity =>
    exact ⟨service, args, h.request, h.requests, h.write, h.routine, h.responses, h.answered, h.ended⟩

/-- **Every result belongs to its call**: if each call begins on a quiet line, then in every run, whatever is
lost, late, deferred or tried again, a call that ends has data from a positive response of the server to this very
request, raises a negative response of it, or what the transport raised; it never meets an unexpected one. -/
theorem results_belong (client : UdsClient) (hclient : client.handleResponsePending = true) {uds : UdsServer σ × σ}
    (hidle : Idle uds.1) (first : UInt8) (firstArgs : List UInt8) (turns : List Turn)
    (hquiet : AllSteps (step client) (opened uds first firstArgs) Considerate turns)
    {service : UInt8} {args : List UInt8} {result : Except ClientError (List UInt8)}
    (hrequest : (after (step client) (opened uds first firstArgs) turns).call.request = service :: args)
    (hresult : exchange (after (step client) (opened uds first firstArgs) turns).call service = some result) :
    Own service args (after (step client) (opened uds first firstArgs) turns).answered result := by
  obtain ⟨service', args', hunder⟩ := after_invariant_of
    (I := fun c : Conversation σ => ∃ service args, Underway client service args c)
    ⟨first, firstArgs, underway_opened hidle first firstArgs⟩
    (fun c t ⟨_, _, h⟩ ht => h.step hclient t ht) turns hquiet
  obtain ⟨rfl, rfl⟩ := List.cons.inj (hunder.request.symm.trans hrequest)
  exact hunder.own hresult

/-- A write whose first request is lost and whose response is deferred, and a read after it. -/
def lostWriteThenRead : List Turn :=
  [.sent, .loseRequest, .timeoutError "timed out waiting for ISO-TP frame", .sent, .process 0 300, .receive,
    .pollPending 300, .receive, .call sidReadDataByIdentifier [0x01, 0x00], .sent, .tick 5, .process 5 300, .receive]

theorem results_belong_lostWriteThenRead :
    Own sidReadDataByIdentifier [0x01, 0x00]
      (after (step {}) (opened (UdsServer.storedServer, ()) sidWriteDataByIdentifier [0x01, 0x00, 0xAA])
        lostWriteThenRead).answered (.ok [0x01, 0x00, 0xAA]) :=
  results_belong {} rfl ⟨rfl, rfl⟩ sidWriteDataByIdentifier [0x01, 0x00, 0xAA] lostWriteThenRead (by decide +kernel)
    (by rfl) (by rfl)

/-! ### Calls without timeouts -/

/-- Where the line stands when nothing times out: the request is on its way, or its response may still come, or
its final response is on its way; before and after a call the line is quiet. -/
inductive Phase (client : UdsClient) (c : Conversation σ) : Prop where
  | resting (pc : ∀ attempt pending, c.call.pc ≠ .receiving attempt pending) (quiet : c.Quiet)
  | asked (pc : ∃ attempt pending, c.call.pc = .receiving attempt pending) (requests : c.requests = [c.call.request])
      (responses : c.responses = []) (idle : Idle c.uds.1)
  | waiting (pc : ∃ attempt pending, c.call.pc = .receiving attempt pending) (requests : c.requests = [])
      (responses : ∀ r ∈ c.responses, client.isPending r = true) (one : OnePending c.uds.1)
  | answered (pc : ∃ attempt pending, c.call.pc = .receiving attempt pending) (requests : c.requests = [])
      (announced : List (List UInt8)) (response : List UInt8) (responses : c.responses = announced ++ [response])
      (pending : ∀ r ∈ announced, client.isPending r = true) (idle : Idle c.uds.1)

namespace Phase

theorem quiet_of_ended (h : Phase client c) (hended : hasEnded c.call.pc = true) : c.Quiet := by
  cases h with
  | resting _ quiet => exact quiet
  | asked pc _ _ _ =>
    obtain ⟨attempt, pending, hpc⟩ := pc
    rw [hpc] at hended
    cases hended
  | waiting pc _ _ _ =>
    obtain ⟨attempt, pending, hpc⟩ := pc
    rw [hpc] at hended
    cases hended
  | answered pc _ _ _ _ _ _ =>
    obtain ⟨attempt, pending, hpc⟩ := pc
    rw [hpc] at hended
    cases hended

theorem call (h : Phase client c) (service : UInt8) (args : List UInt8) :
    Phase client (c.step client (.call service args)) := by
  unfold Conversation.step
  cases hpc : c.call.pc with
  | ended result =>
    have hquiet := h.quiet_of_ended (by rw [hpc, hasEnded])
    exact .resting nofun ⟨hquiet.requests, hquiet.responses, hquiet.idle⟩
  | sending attempt => exact h
  | receiving attempt pending => exact h

theorem sent (h : Phase client c) : Phase client (c.step client .sent) := by
  unfold Conversation.step
  cases hpc : c.call.pc with
  | ended result => exact h
  | receiving attempt pending => exact h
  | sending attempt =>
    cases h with
    | resting _ quiet =>
      dsimp only
      rw [UdsClient.step_sent hpc]
      refine .asked ⟨attempt, 0, rfl⟩ ?_ quiet.responses quiet.idle
      rw [quiet.requests, List.nil_append]
    | asked pc _ _ _ | waiting pc _ _ _ | answered pc _ _ _ _ _ _ =>
      obtain ⟨attempt', pending, hreceiving⟩ := pc
      rw [hpc] at hreceiving
      cases hreceiving

/-- An announcement keeps the call waiting; the final response ends it. -/
theorem receive (h : Phase client c) : Phase client (c.step client .receive) := by
  unfold Conversation.step
  cases hpc : c.call.pc with
  | ended result => exact h
  | sending attempt => exact h
  | receiving attempt pending =>
    cases hresponses : c.responses with
    | nil => exact h
    | cons first rest =>
      dsimp only
      rw [UdsClient.step_received hpc]
      unfold UdsClient.onResponse
      cases h with
      | resting pc _ => exact absurd hpc (pc attempt pending)
      | asked _ _ responses _ =>
        rw [responses] at hresponses
        cases hresponses
      | waiting _ requests responses one =>
        rw [hresponses] at responses
        dsimp only
        rw [if_pos (responses first List.mem_cons_self)]
        exact .waiting ⟨attempt, pending + 1, rfl⟩ requests
          (fun r hr => responses r (List.mem_cons_of_mem first hr)) one
      | answered _ requests announced response responses hpending idle =>
        rw [responses] at hresponses
        cases announced with
        | nil =>
          obtain ⟨rfl, rfl⟩ := List.cons.inj hresponses
          by_cases hfirst : client.isPending response = true
          · dsimp only
            rw [if_pos hfirst]
            exact .waiting ⟨attempt, pending + 1, rfl⟩ requests (fun r hr => by cases hr) idle.onePending
          · dsimp only
            rw [if_neg hfirst]
            exact .resting nofun ⟨requests, rfl, idle⟩
        | cons first' announced =>
          obtain ⟨rfl, rfl⟩ := List.cons.inj hresponses
          dsimp only
          rw [if_pos (hpending first' List.mem_cons_self)]
          exact .answered ⟨attempt, pending + 1, rfl⟩ requests announced response rfl
            (fun r hr => hpending r (List.mem_cons_of_mem first' hr)) idle

theorem loseRequest (h : Phase client c) : Phase client (c.step client .loseRequest) := by
  cases h with
  | resting pc quiet => exact .resting pc ⟨by simp [Conversation.step, quiet.requests], quiet.responses, quiet.idle⟩
  | asked pc requests responses idle =>
    exact .waiting pc (by simp [Conversation.step, requests]) (by simp [Conversation.step, responses]) idle.onePending
  | waiting pc requests responses one => exact .waiting pc (by simp [Conversation.step, requests]) responses one
  | answered pc requests announced response responses pending idle =>
    exact .answered pc (by simp [Conversation.step, requests]) announced response responses pending idle

theorem loseResponse (h : Phase client c) : Phase client (c.step client .loseResponse) := by
  cases h with
  | resting pc quiet => exact .resting pc ⟨quiet.requests, by simp [Conversation.step, quiet.responses], quiet.idle⟩
  | asked pc requests responses idle =>
    exact .asked pc requests (by simp [Conversation.step, responses]) idle
  | waiting pc requests responses one =>
    exact .waiting pc requests (fun r hr => responses r (List.mem_of_mem_tail hr)) one
  | answered pc requests announced response responses pending idle =>
    cases announced with
    | nil => exact .waiting pc requests (by simp [Conversation.step, responses]) idle.onePending
    | cons first announced =>
      exact .answered pc requests announced response (by simp [Conversation.step, responses])
        (fun r hr => pending r (List.mem_cons_of_mem first hr)) idle

theorem outgoing_cases (sends : Reply → Bool) (reply : Reply) :
    outgoing sends reply = [] ∨ sends reply = true ∧ outgoing sends reply = [reply.response] := by
  unfold outgoing
  split
  · next h => exact .inr ⟨((Bool.and_eq_true_iff ..).1 h).1, rfl⟩
  · exact .inl rfl

theorem process (hclient : client.handleResponsePending = true) (h : Phase client c) (now : UInt32) (capacity : ℕ) :
    Phase client (c.step client (.process now capacity)) := by
  cases h with
  | resting pc quiet =>
    have hsame : c.step client (.process now capacity) = c := by simp [Conversation.step, quiet.requests]
    rw [hsame]
    exact .resting pc quiet
  | waiting pc requests responses one =>
    have hsame : c.step client (.process now capacity) = c := by simp [Conversation.step, requests]
    rw [hsame]
    exact .waiting pc requests responses one
  | answered pc requests announced response responses pending idle =>
    have hsame : c.step client (.process now capacity) = c := by simp [Conversation.step, requests]
    rw [hsame]
    exact .answered pc requests announced response responses pending idle
  | asked pc requests responses idle =>
    unfold Conversation.step
    rw [requests]
    obtain ⟨hone, hidle⟩ := process_waiting idle c.uds.2 now c.call.request capacity
    have hpending : ∀ r ∈ outgoing sendsImmediate (c.uds.1.process c.uds.2 now c.call.request capacity).1,
        (c.uds.1.process c.uds.2 now c.call.request capacity).1.result ≠ .response → client.isPending r = true := by
      intro r hr hne
      obtain ⟨hsends, -, rfl⟩ := mem_outgoing.1 hr
      rcases (Bool.or_eq_true_iff ..).1 hsends with hresponse | hlater
      · exact absurd (of_decide_eq_true hresponse) hne
      · obtain ⟨service, args, -, hreply⟩ := UdsServer.process_pending hlater
        rw [hreply, isPending_announced]
        exact hclient
    rcases outgoing_cases sendsImmediate (c.uds.1.process c.uds.2 now c.call.request capacity).1 with
      hnone | ⟨-, hsome⟩
    · refine .waiting pc rfl (fun r hr => ?_) hone
      simp [Conversation.reply, hnone, responses] at hr
    · rcases hidle with hidle | hne
      · refine .answered pc rfl [] (c.uds.1.process c.uds.2 now c.call.request capacity).1.response ?_
          (fun r hr => by cases hr) hidle
        simp only [Conversation.reply, hsome, responses]
      · refine .waiting pc rfl (fun r hr => ?_) hone
        simp only [Conversation.reply, responses, List.nil_append] at hr
        exact hpending r hr hne

/-- A poll of an idle server does nothing. -/
theorem pollPending_idle (h : Idle c.uds.1) (capacity : ℕ) : c.step client (.pollPending capacity) = c := by
  have hpoll : c.uds.1.pollPending c.uds.2 capacity = (⟨.noResponse, []⟩, c.uds) := by
    unfold UdsServer.pollPending
    rw [if_neg (by simp [h.1]), if_neg (by simp [h.2])]
  simp [Conversation.step, hpoll, Conversation.reply, outgoing]

theorem pollPending (h : Phase client c) (capacity : ℕ) : Phase client (c.step client (.pollPending capacity)) := by
  cases h with
  | resting pc quiet =>
    rw [pollPending_idle quiet.idle]
    exact .resting pc quiet
  | asked pc requests responses idle =>
    rw [pollPending_idle idle]
    exact .asked pc requests responses idle
  | answered pc requests announced response responses pending idle =>
    rw [pollPending_idle idle]
    exact .answered pc requests announced response responses pending idle
  | waiting pc requests responses one =>
    have hwrite := c.uds.1.pollPending_pendingDidWrite c.uds.2 capacity
    have hidle : sendsDeferred (c.uds.1.pollPending c.uds.2 capacity).1 = true →
        Idle (c.uds.1.pollPending c.uds.2 capacity).2.1 := by
      intro hsends
      rw [sendsDeferred_iff] at hsends
      refine ⟨hwrite, ?_⟩
      rcases pollPending_cases c.uds.1 c.uds.2 capacity with
        ⟨-, hnone⟩ | ⟨hold, hsame, -⟩ | ⟨-, -, hdone | hnone, -⟩
      · rw [hnone] at hsends
        cases hsends
      · rw [hsame]
        refine one.resolve_left fun hnot => ?_
        rw [hold] at hnot
        cases hnot
      · exact hdone
      · rw [hnone] at hsends
        cases hsends
    rcases outgoing_cases sendsDeferred (c.uds.1.pollPending c.uds.2 capacity).1 with hnone | ⟨hsends, hsome⟩
    · refine .waiting pc requests (fun r hr => ?_) (.inl hwrite)
      rw [Conversation.step, Conversation.reply, hnone, List.append_nil] at hr
      exact responses r hr
    · refine .answered pc requests c.responses (c.uds.1.pollPending c.uds.2 capacity).1.response ?_ responses
        (hidle hsends)
      rw [Conversation.step, Conversation.reply, hsome]

/-- What changes the server without touching its pending operations. -/
theorem withServer (h : Phase client c) (uds : UdsServer σ × σ) (hwork : uds.1.work = c.uds.1.work) :
    Phase client { c with uds := uds } := by
  cases h with
  | resting pc quiet => exact .resting pc ⟨quiet.requests, quiet.responses, quiet.idle.of_work hwork⟩
  | asked pc requests responses idle => exact .asked pc requests responses (idle.of_work hwork)
  | waiting pc requests responses one => exact .waiting pc requests responses (one.of_work hwork)
  | answered pc requests announced response responses pending idle =>
    exact .answered pc requests announced response responses pending (idle.of_work hwork)

theorem step (hclient : client.handleResponsePending = true) (h : Phase client c) (t : Turn) (ht : Prompt t) :
    Phase client (c.step client t) := by
  cases t with
  | call service args => exact h.call service args
  | sent => exact h.sent
  | receive => exact h.receive
  | timeoutError message => exact absurd ht id
  | raised message => exact absurd ht id
  | loseRequest => exact h.loseRequest
  | loseResponse => exact h.loseResponse
  | process now capacity => exact h.process hclient now capacity
  | pollPending capacity => exact h.pollPending capacity
  | tick now => exact h.withServer (c.uds.1.tick now, c.uds.2) (c.uds.1.tick_work now)
  | lockSecurity => exact h.withServer (c.uds.1.lockSecurityState, c.uds.2) rfl

end Phase

/-- **Without timeouts** the line is quiet whenever a call has ended, so that every result belongs to its call. -/
theorem prompt_results (client : UdsClient) (hclient : client.handleResponsePending = true) {uds : UdsServer σ × σ}
    (hidle : Idle uds.1) (first : UInt8) (firstArgs : List UInt8) (turns : List Turn)
    (hprompt : ∀ t ∈ turns, Prompt t) :
    let c := after (step client) (opened uds first firstArgs) turns
    (hasEnded c.call.pc = true → c.Quiet) ∧
      ∀ service args result, c.call.request = service :: args → exchange c.call service = some result →
        Own service args c.answered result := by
  have hboth : ∀ c : Conversation σ, ∀ t, (Phase client c ∧ ∃ service args, Underway client service args c) →
      Prompt t →
        Phase client (c.step client t) ∧ ∃ service args, Underway client service args (c.step client t) := by
    rintro c t ⟨hphase, service, args, hunder⟩ ht
    refine ⟨hphase.step hclient t ht, hunder.step hclient t ?_⟩
    cases t with
    | call _ _ => exact hphase.quiet_of_ended
    | _ => trivial
  have hsteps : AllSteps (step client) (opened uds first firstArgs) (fun _ t => Prompt t) turns := by
    intro a t b hturns
    exact hprompt t (hturns ▸ List.mem_append_right a List.mem_cons_self)
  obtain ⟨hphase, service', args', hunder⟩ := after_invariant_of
    (I := fun c : Conversation σ => Phase client c ∧ ∃ service args, Underway client service args c)
    ⟨.resting (fun _ _ h => by cases h) ⟨rfl, rfl, hidle⟩, first, firstArgs,
      underway_opened hidle first firstArgs⟩ hboth turns hsteps
  refine ⟨hphase.quiet_of_ended, fun service args result hrequest hresult => ?_⟩
  obtain ⟨rfl, rfl⟩ := List.cons.inj (hunder.request.symm.trans hrequest)
  exact hunder.own hresult

/-- A write whose response is deferred. -/
def deferredWrite : List Turn := [.sent, .process 0 300, .receive, .tick 1, .pollPending 300, .receive]

theorem prompt_results_deferredWrite :
    let c := after (step {}) (opened (UdsServer.storedServer, ()) sidWriteDataByIdentifier [0x01, 0x00, 0xAA])
      deferredWrite
    c.Quiet ∧ Own sidWriteDataByIdentifier [0x01, 0x00, 0xAA] c.answered (.ok [0x01, 0x00]) :=
  have h := prompt_results {} rfl ⟨rfl, rfl⟩ sidWriteDataByIdentifier [0x01, 0x00, 0xAA] deferredWrite
    (by simp [deferredWrite, Prompt])
  ⟨h.1 rfl, h.2 _ _ _ rfl rfl⟩

end Conversation

end DualCan.App
