import DualCan.Run.Past
import DualCan.Uds.Server

/-!
# The tester's client

`UdsClient.read_data_by_identifier` of `uds/client.py` with `_exchange`, `_transact` and `_transact_once`, as
a machine that is driven by what its transport does: every call of `send` or `receive` ends in one event, and
the transport may answer with anything at any time. `answers_match_iff` says when the result belongs to the
request. Time and the identifiers of the exchange's record are left out.
-/

namespace DualCan.Uds

open DualCan.Run

/-! ## `encoding.py` -/

/-- What a call raises. -/
inductive ClientError where
  | negativeResponse (service nrc : UInt8)
  | unexpectedResponse (message : String)
  | timeoutError (message : String)
  | overflowError (message : String)
  | raised (message : String)

/-- `did.to_bytes(2, "big")`, for an identifier that has two bytes. -/
def didBytes (did : Int) : List UInt8 := [(did.toNat / 256).toUInt8, did.toNat.toUInt8]

/-- `build_read_data_by_identifier`. -/
def buildReadDataByIdentifier (did : Int) : Except ClientError (List UInt8) :=
  if did < 0 then .error (.overflowError "can't convert negative int to unsigned")
  else if did > 0xFFFF then .error (.overflowError "int too big to convert")
  else .ok (sidReadDataByIdentifier :: didBytes did)

/-- A byte as two upper-case hexadecimal digits. -/
def hexByte (byte : UInt8) : String :=
  String.ofList [(Nat.digitChar (byte.toNat / 16)).toUpper, (Nat.digitChar (byte.toNat % 16)).toUpper]

/-- `parse_response`. -/
def parseResponse (response : List UInt8) (expectedSid : UInt8) : Except ClientError (List UInt8) :=
  match response with
  | [] => .error (.unexpectedResponse "empty UDS response")
  | first :: rest =>
    if first = sidNegativeResponse then .error (.negativeResponse (rest.headD 0) (rest.tail.headD 0))
    else if first.toNat ≠ expectedSid.toNat ∧ first.toNat ≠ expectedSid.toNat + 0x40 then
      .error (.unexpectedResponse s!"expected SID 0x{hexByte expectedSid}, got 0x{hexByte first}")
    else .ok rest

/-! ## `client.py` -/

/-- The arguments of the constructor that a call reads. -/
structure UdsClient where
  retries : ℕ := 1
  handleResponsePending : Bool := true

/-- How a call of `send` or `receive` ends. -/
inductive TransportEvent where
  | sent
  | received (response : List UInt8)
  | timeoutError (message : String)
  | raised (message : String)

/-- Where the call stands. -/
inductive CallPc where
  | sending (attempt : ℕ)
  | receiving (attempt pendingResponses : ℕ)
  | ended (result : Except ClientError (List UInt8))

/-- `ExchangeInfo`, without the times and the identifiers. -/
structure ExchangeInfo where
  request : List UInt8
  response : List UInt8
  retries : ℕ
  pendingResponses : ℕ

/-- A call of `read_data_by_identifier`; `received` lists the responses it has received so far. -/
structure ReadCall where
  request : List UInt8
  pc : CallPc
  lastExchange : Option ExchangeInfo
  received : List (List UInt8)

namespace UdsClient

variable (client : UdsClient)

/-- A negative response with NRC 0x78, of whichever service. -/
def isPending (response : List UInt8) : Bool :=
  client.handleResponsePending && response.length ≥ 3 && response[0]? = some sidNegativeResponse &&
    response[2]? = some nrcResponsePending

/-- `read_data_by_identifier` up to its first call of `send`. -/
def readDataByIdentifier (did : Int) (lastExchange : Option ExchangeInfo) : ReadCall :=
  match buildReadDataByIdentifier did with
  | .error error => { request := [], pc := .ended (.error error), lastExchange := lastExchange, received := [] }
  | .ok request => { request := request, pc := .sending 0, lastExchange := lastExchange, received := [] }

/-- The `except TimeoutError` clause of `_transact`. -/
def nextAttempt (attempt : ℕ) (message : String) : CallPc :=
  if attempt < client.retries then .sending (attempt + 1) else .ended (.error (.timeoutError message))

/-- `_transact_once` with a response. -/
def onResponse (call : ReadCall) (attempt pendingResponses : ℕ) (response : List UInt8) : ReadCall :=
  let call := { call with received := call.received ++ [response] }
  if client.isPending response then { call with pc := .receiving attempt (pendingResponses + 1) }
  else
    { call with
      lastExchange := some
        { request := call.request, response := response, retries := attempt,
          pendingResponses := pendingResponses }
      pc := .ended (parseResponse response sidReadDataByIdentifier) }

def step (call : ReadCall) (e : TransportEvent) : ReadCall :=
  match call.pc, e with
  | .sending attempt, .sent => { call with pc := .receiving attempt 0 }
  | .sending attempt, .timeoutError message => { call with pc := client.nextAttempt attempt message }
  | .sending _, .raised message => { call with pc := .ended (.error (.raised message)) }
  | .receiving attempt pendingResponses, .received response =>
    client.onResponse call attempt pendingResponses response
  | .receiving attempt _, .timeoutError message => { call with pc := client.nextAttempt attempt message }
  | .receiving .., .raised message => { call with pc := .ended (.error (.raised message)) }
  | _, _ => call

/-! ## Results that belong to the request -/

/-- What a result has to do with the responses received: data are the bytes after the 0x62 of one that names
the identifier, and a negative response is one that names the service. -/
def Belongs (did : Int) (received : List (List UInt8)) : Except ClientError (List UInt8) → Prop
  | .ok data => (∃ value, data = didBytes did ++ value) ∧ (0x62 :: data) ∈ received
  | .error (.negativeResponse service nrc) =>
    service = sidReadDataByIdentifier ∧
      ∃ rest, (sidNegativeResponse :: service :: rest) ∈ received ∧ nrc = rest.headD 0
  | .error _ => True

/-- The call is still running, or its result belongs to the request. -/
def Holds (did : Int) (call : ReadCall) : Prop :=
  ∀ result, call.pc = .ended result → Belongs did call.received result

/-- A response that answers a read of the identifier, or that the client does not accept as one. -/
def Names (did : Int) : List UInt8 → Prop
  | [] => True
  | first :: rest =>
    (first = 0x62 → ∃ value, rest = didBytes did ++ value) ∧ first ≠ sidReadDataByIdentifier ∧
      (first = sidNegativeResponse → rest.head? = some sidReadDataByIdentifier)

/-- The response that ends the call, if the event is one, names the service and the identifier. -/
def Matches (did : Int) (call : ReadCall) : TransportEvent → Prop
  | .received response => ∀ attempt pendingResponses, call.pc = .receiving attempt pendingResponses →
      client.isPending response = false → Names did response
  | _ => True

/-- A response that makes the client wait on. -/
def isPendingEvent : TransportEvent → Bool
  | .received response => client.isPending response
  | _ => false

/-- The operations that a call has left when no pending response comes. -/
def operationsLeft : CallPc → ℕ
  | .sending attempt => 2 * (client.retries - attempt) + 2
  | .receiving attempt _ => 2 * (client.retries - attempt) + 1
  | .ended _ => 0

variable {client} {did : Int} {call : ReadCall} {received : List (List UInt8)} {response : List UInt8}

theorem head_of_isPending (h : client.isPending response = true) :
    response.head? = some sidNegativeResponse := by
  unfold isPending at h
  simp only [Bool.and_eq_true, decide_eq_true_eq] at h
  rw [List.head?_eq_getElem?]
  exact h.1.2

/-- What the call makes of the response that ends it. -/
theorem belongs_iff (hpending : ∀ r ∈ received, client.isPending r = true) :
    Belongs did (received ++ [response]) (parseResponse response sidReadDataByIdentifier) ↔
      Names did response := by
  cases response with
  | nil => exact Iff.rfl
  | cons first rest =>
    unfold parseResponse
    dsimp only
    by_cases hnegative : first = sidNegativeResponse
    · rw [if_pos hnegative]
      subst hnegative
      constructor
      · rintro ⟨hservice, -⟩
        refine ⟨nofun, nofun, fun _ => ?_⟩
        cases rest with
        | nil => cases hservice
        | cons service rest => exact congrArg some hservice
      · rintro ⟨-, -, hnames⟩
        cases rest with
        | nil => cases hnames rfl
        | cons service rest =>
          obtain rfl := Option.some.inj (hnames rfl)
          exact ⟨rfl, rest, List.mem_append_right _ (List.mem_singleton_self _), rfl⟩
    · rw [if_neg hnegative]
      by_cases hother : first.toNat ≠ sidReadDataByIdentifier.toNat ∧
          first.toNat ≠ sidReadDataByIdentifier.toNat + 0x40
      · rw [if_pos hother]
        refine ⟨fun _ => ⟨?_, ?_, fun h => absurd h hnegative⟩, fun _ => trivial⟩
        · rintro rfl
          exact absurd rfl hother.2
        · rintro rfl
          exact absurd rfl hother.1
      · rw [if_neg hother]
        by_cases hecho : first = sidReadDataByIdentifier
        · -- the request's own identifier is taken for that of a response
          subst hecho
          constructor
          · rintro ⟨-, hmem⟩
            rcases List.mem_append.1 hmem with hold | hnew
            · exact absurd (Option.some.inj (head_of_isPending (hpending _ hold))) (by decide)
            · exact absurd (List.cons.inj (List.mem_singleton.1 hnew)).1 (by decide)
          · rintro ⟨-, hno, -⟩
            exact absurd rfl hno
        · have hpositive : first = 0x62 := by
            refine UInt8.toNat_inj.1 ?_
            have hne : first.toNat ≠ sidReadDataByIdentifier.toNat := fun h => hecho (UInt8.toNat_inj.1 h)
            exact not_not.1 fun h => hother ⟨hne, h⟩
          subst hpositive
          constructor
          · rintro ⟨hvalue, -⟩
            exact ⟨fun _ => hvalue, hecho, nofun⟩
          · rintro ⟨hvalue, -, -⟩
            exact ⟨hvalue rfl, List.mem_append_right _ (List.mem_singleton_self _)⟩

/-- A call that is still running has received pending responses only. -/
def Waits (client : UdsClient) (call : ReadCall) : Prop :=
  (∀ result, call.pc ≠ .ended result) → ∀ r ∈ call.received, client.isPending r = true

theorem step_ended {result : Except ClientError (List UInt8)} (h : call.pc = .ended result)
    (e : TransportEvent) : client.step call e = call := by
  unfold UdsClient.step
  rw [h]

theorem holds_of_running (h : ∀ result, call.pc ≠ .ended result) : Holds did call :=
  fun result hresult => absurd hresult (h result)

theorem holds_of_raised {message : String} (h : call.pc = .ended (.error (.raised message))) :
    Holds did call := by
  intro result hresult
  rw [h] at hresult
  obtain rfl := CallPc.ended.inj hresult
  trivial

theorem holds_nextAttempt {attempt : ℕ} {message : String} (h : call.pc = client.nextAttempt attempt message) :
    Holds did call := by
  unfold nextAttempt at h
  intro result hresult
  rw [h] at hresult
  split at hresult
  · cases hresult
  · obtain rfl := CallPc.ended.inj hresult
    trivial

/-- The response that comes while the call waits for one. -/
theorem holds_onResponse_iff (hpending : ∀ r ∈ call.received, client.isPending r = true)
    (attempt pendingResponses : ℕ) :
    Holds did (client.onResponse call attempt pendingResponses response) ↔
      (client.isPending response = false → Names did response) := by
  unfold onResponse
  dsimp only
  cases hp : client.isPending response with
  | true => exact ⟨fun _ => nofun, fun _ => holds_of_running nofun⟩
  | false =>
    rw [if_neg Bool.false_ne_true, ← belongs_iff hpending]
    refine ⟨fun h _ => h _ rfl, fun h result hresult => ?_⟩
    obtain rfl := CallPc.ended.inj hresult
    exact h rfl

/-- **One event**: the result still belongs to the request if and only if the event matches it. -/
theorem holds_step_iff (hwaits : client.Waits call) (e : TransportEvent) :
    Holds did (client.step call e) ↔ Holds did call ∧ client.Matches did call e := by
  cases hpc : call.pc with
  | ended result =>
    have hmatch : client.Matches did call e := by
      cases e with
      | received response =>
        intro attempt pendingResponses hreceiving
        rw [hpc] at hreceiving
        cases hreceiving
      | _ => trivial
    rw [step_ended hpc]
    exact ⟨fun h => ⟨h, hmatch⟩, fun h => h.1⟩
  | sending attempt =>
    have hrunning : Holds did call := holds_of_running (by rw [hpc]; nofun)
    have hmatch : client.Matches did call e := by
      cases e with
      | received response =>
        intro attempt' pendingResponses hreceiving
        rw [hpc] at hreceiving
        cases hreceiving
      | _ => trivial
    refine ⟨fun _ => ⟨hrunning, hmatch⟩, fun _ => ?_⟩
    unfold step
    rw [hpc]
    cases e with
    | sent => exact holds_of_running nofun
    | received response => exact hrunning
    | timeoutError message => exact holds_nextAttempt rfl
    | raised message => exact holds_of_raised rfl
  | receiving attempt pendingResponses =>
    have hnot : ∀ result, call.pc ≠ .ended result := by
      rw [hpc]
      nofun
    have hrunning : Holds did call := holds_of_running hnot
    unfold step
    rw [hpc]
    cases e with
    | sent => exact ⟨fun _ => ⟨hrunning, trivial⟩, fun _ => hrunning⟩
    | received response =>
      dsimp only
      rw [holds_onResponse_iff (hwaits hnot)]
      refine ⟨fun h => ⟨hrunning, fun _ _ _ => h⟩, fun h => h.2 attempt pendingResponses hpc⟩
    | timeoutError message => exact ⟨fun _ => ⟨hrunning, trivial⟩, fun _ => holds_nextAttempt rfl⟩
    | raised message => exact ⟨fun _ => ⟨hrunning, trivial⟩, fun _ => holds_of_raised rfl⟩

theorem Waits.step (h : client.Waits call) (e : TransportEvent) : client.Waits (client.step call e) := by
  intro hnot r hr
  unfold UdsClient.step at hnot hr
  cases hpc : call.pc with
  | ended result =>
    rw [hpc] at hnot
    exact absurd hpc (hnot result)
  | sending attempt =>
    have hold := h (by rw [hpc]; nofun)
    rw [hpc] at hr
    cases e with
    | sent => exact hold r hr
    | received response => exact hold r hr
    | timeoutError message => exact hold r hr
    | raised message => exact hold r hr
  | receiving attempt pendingResponses =>
    have hold := h (by rw [hpc]; nofun)
    rw [hpc] at hnot hr
    cases e with
    | sent => exact hold r hr
    | received response =>
      dsimp only at hnot hr
      unfold onResponse at hnot hr
      dsimp only at hnot hr
      cases hp : client.isPending response with
      | true =>
        rw [hp, if_pos rfl] at hr
        rcases List.mem_append.1 hr with hearlier | hlast
        · exact hold r hearlier
        · rw [List.mem_singleton.1 hlast]
          exact hp
      | false =>
        rw [hp, if_neg Bool.false_ne_true] at hnot
        exact absurd rfl (hnot _)
    | timeoutError message => exact hold r hr
    | raised message => exact hold r hr

theorem waits_start (did : Int) (lastExchange : Option ExchangeInfo) :
    client.Waits (readDataByIdentifier did lastExchange) := by
  intro _ r hr
  unfold readDataByIdentifier at hr
  split at hr
  · cases hr
  · cases hr

theorem holds_start (did : Int) (lastExchange : Option ExchangeInfo) :
    Holds did (readDataByIdentifier did lastExchange) := by
  unfold readDataByIdentifier
  split
  · next error herror =>
    intro result hresult
    obtain rfl := CallPc.ended.inj hresult
    unfold buildReadDataByIdentifier at herror
    split at herror
    · obtain rfl := Except.error.inj herror
      trivial
    · split at herror
      · obtain rfl := Except.error.inj herror
        trivial
      · cases herror
  · exact holds_of_running nofun

/-! ## The end of a call -/

/-- The event is the end of the operation that a running call has begun. -/
def Due (call : ReadCall) (e : TransportEvent) : Prop :=
  match call.pc, e with
  | .sending _, .received _ => False
  | .receiving .., .sent => False
  | _, _ => True

theorem nextAttempt_left {attempt : ℕ} (message : String) :
    client.operationsLeft (client.nextAttempt attempt message) ≤ 2 * (client.retries - attempt) := by
  unfold nextAttempt
  split
  · dsimp only [operationsLeft]
    omega
  · exact Nat.zero_le _

/-- An event takes an operation away, a pending response does not. -/
theorem step_left (client : UdsClient) (e : TransportEvent) (hdue : Due call e)
    (hrunning : ∀ result, call.pc ≠ .ended result) :
    client.operationsLeft (client.step call e).pc + 1 ≤
      client.operationsLeft call.pc + if client.isPendingEvent e then 1 else 0 := by
  unfold Due at hdue
  unfold UdsClient.step
  cases hpc : call.pc with
  | ended result => exact absurd hpc (hrunning result)
  | sending attempt =>
    rw [hpc] at hdue
    cases e with
    | sent => exact Nat.le_refl _
    | received response => exact hdue.elim
    | timeoutError message => exact Nat.succ_le_succ (Nat.le_succ_of_le (nextAttempt_left message))
    | raised message => exact Nat.succ_le_succ (Nat.zero_le _)
  | receiving attempt pendingResponses =>
    rw [hpc] at hdue
    cases e with
    | sent => exact hdue.elim
    | received response =>
      unfold isPendingEvent onResponse
      dsimp only
      split
      · exact Nat.le_refl _
      · exact Nat.succ_le_succ (Nat.zero_le _)
    | timeoutError message => exact Nat.succ_le_succ (nextAttempt_left message)
    | raised message => exact Nat.succ_le_succ (Nat.zero_le _)

theorem start_left (did : Int) (lastExchange : Option ExchangeInfo) :
    client.operationsLeft (readDataByIdentifier did lastExchange).pc ≤ 2 * (client.retries + 1) := by
  unfold readDataByIdentifier
  split
  · exact Nat.zero_le _
  · dsimp only [operationsLeft]
    omega

/-- A run of a call is at most as long as its operations and the pending responses it gets. -/
theorem left_or_ended (did : Int) (lastExchange : Option ExchangeInfo) (es : List TransportEvent)
    (hdue : AllSteps client.step (readDataByIdentifier did lastExchange) Due es) :
    (∃ result, (after client.step (readDataByIdentifier did lastExchange) es).pc = .ended result) ∨
      client.operationsLeft (after client.step (readDataByIdentifier did lastExchange) es).pc + es.length ≤
        2 * (client.retries + 1) + es.countP client.isPendingEvent := by
  induction es using List.reverseRecOn with
  | nil => exact Or.inr (start_left did lastExchange)
  | append_singleton es e ih =>
    rw [allSteps_snoc] at hdue
    rw [after_snoc]
    by_cases hended : ∃ result,
        (after client.step (readDataByIdentifier did lastExchange) es).pc = .ended result
    · obtain ⟨result, hresult⟩ := hended
      rw [step_ended hresult]
      exact Or.inl ⟨result, hresult⟩
    · have hleft := step_left client e hdue.2 fun result hresult => hended ⟨result, hresult⟩
      have hbefore := (ih hdue.1).resolve_left hended
      rw [List.length_append, List.countP_append, List.countP_singleton, List.length_singleton]
      exact Or.inr (by omega)

theorem ended_of_length (did : Int) (lastExchange : Option ExchangeInfo) (es : List TransportEvent)
    (hdue : AllSteps client.step (readDataByIdentifier did lastExchange) Due es)
    (hlen : 2 * (client.retries + 1) + es.countP client.isPendingEvent ≤ es.length) :
    ∃ result, (after client.step (readDataByIdentifier did lastExchange) es).pc = .ended result := by
  rcases left_or_ended did lastExchange es hdue with hended | hleft
  · exact hended
  · cases hpc : (after client.step (readDataByIdentifier did lastExchange) es).pc with
    | ended result => exact ⟨result, rfl⟩
    | sending attempt =>
      rw [hpc] at hleft
      dsimp only [operationsLeft] at hleft
      omega
    | receiving attempt pendingResponses =>
      rw [hpc] at hleft
      dsimp only [operationsLeft] at hleft
      omega

/-- **Matching of requests and responses**: whatever the transport does, the call is still running or its
result belongs to the request if and only if every event of the run matches it; and a call ends after two
operations for each attempt, pending responses not counted. -/
theorem answers_match_iff (client : UdsClient) (did : Int) (lastExchange : Option ExchangeInfo)
    (es : List TransportEvent) :
    (Holds did (after client.step (readDataByIdentifier did lastExchange) es) ↔
      AllSteps client.step (readDataByIdentifier did lastExchange) (client.Matches did) es) ∧
    (AllSteps client.step (readDataByIdentifier did lastExchange) Due es →
      2 * (client.retries + 1) + es.countP client.isPendingEvent ≤ es.length →
      ∃ result, (after client.step (readDataByIdentifier did lastExchange) es).pc = .ended result) := by
  refine ⟨?_, ended_of_length did lastExchange es⟩
  have hwaits : ∀ fs, client.Waits (after client.step (readDataByIdentifier did lastExchange) fs) :=
    after_invariant (I := client.Waits) (waits_start did lastExchange) fun _ e h => h.step e
  induction es using List.reverseRecOn with
  | nil => exact ⟨fun _ => allSteps_nil, fun _ => holds_start did lastExchange⟩
  | append_singleton es e ih =>
    rw [after_snoc, allSteps_snoc]
    exact (holds_step_iff (hwaits es) e).trans (and_congr_left fun _ => ih)

/-- A first attempt that times out, a pending response and the positive one. -/
def retriedRead : List TransportEvent :=
  [.sent, .timeoutError "timed out waiting for ISO-TP frame", .sent, .received [0x7F, 0x22, 0x78],
    .received [0x62, 0xF1, 0x87, 0x01]]

theorem answers_match_retriedRead :
    ∃ result, (after (step {}) (readDataByIdentifier 0xF187 none) retriedRead).pc = .ended result :=
  (answers_match_iff {} 0xF187 none retriedRead).2
    (allSteps_cons.2 ⟨trivial, allSteps_cons.2 ⟨trivial, allSteps_cons.2 ⟨trivial,
      allSteps_cons.2 ⟨trivial, allSteps_cons.2 ⟨trivial, allSteps_nil⟩⟩⟩⟩⟩)
    (by decide)

/-- A read of 0xF187 that gets `response`. -/
def readWith (response : List UInt8) : ReadCall :=
  after (step {}) (readDataByIdentifier 0xF187 none) [.sent, .received response]

/-- The late response to a read of 0xF190, a negative response to another service, and an echo of the
request itself: each of them ends a read of 0xF187 with a result that does not belong to it. -/
theorem foreign_response_accepted :
    ¬Holds 0xF187 (readWith [0x62, 0xF1, 0x90, 0x50, 0x32]) ∧ ¬Holds 0xF187 (readWith [0x7F, 0x3E, 0x11]) ∧
      ¬Holds 0xF187 (readWith [0x22, 0xF1, 0x87]) := by
  refine ⟨fun h => ?_, fun h => ?_, fun h => ?_⟩
  · obtain ⟨⟨value, hvalue⟩, -⟩ := h _ rfl
    exact absurd (List.cons.inj (List.cons.inj hvalue).2).1 (by decide)
  · obtain ⟨hservice, -⟩ := h _ rfl
    exact absurd hservice (by decide)
  · obtain ⟨-, hreceived⟩ := h _ rfl
    exact absurd (List.cons.inj (List.mem_singleton.1 hreceived)).1 (by decide)

end UdsClient

end DualCan.Uds
