import DualCan.Uds.Client
import Mathlib.Data.Nat.Find

/-!
# The client's retries

`_transact` and `_transact_once` of `uds/client.py` as the two loops they are, over a script of what the
transport does. The loop that waits while responses are pending has no bound of its own, so it takes fuel;
`transact_enough` says when there is enough. `transact_simulates` takes the loops back to the machine of one
event at a time. The delay between attempts and the times of the record are left out.
-/

namespace DualCan.Uds

open DualCan.Run

/-! ## The source -/

/-- How the calls of `send` and of `receive` end, each kind counted for itself; an error is the text of a
`TimeoutError`. -/
structure Script where
  sends : ℕ → Except String Unit
  receives : ℕ → Except String (List UInt8)

/-- The timeout that `receive` is called with: `self.timeout` or that of `p2_star_ms`. -/
inductive ReceiveTimeout where
  | initial
  | p2Star
  deriving DecidableEq, Repr

inductive TransportCall where
  | send (request : List UInt8)
  | receive (timeout : ReceiveTimeout)
  deriving DecidableEq, Repr

/-- The calls made so far with the events they ended in. -/
structure Progress where
  sent : ℕ
  received : ℕ
  calls : List TransportCall
  events : List TransportEvent

namespace Progress

def start : Progress := ⟨0, 0, [], []⟩

def sendEvent : Except String Unit → TransportEvent
  | .ok _ => .sent
  | .error message => .timeoutError message

def receiveEvent : Except String (List UInt8) → TransportEvent
  | .ok response => .received response
  | .error message => .timeoutError message

/-- `transport.send`. -/
def send (script : Script) (request : List UInt8) (progress : Progress) : Progress :=
  { progress with
    sent := progress.sent + 1
    calls := progress.calls ++ [.send request]
    events := progress.events ++ [sendEvent (script.sends progress.sent)] }

/-- `transport.receive`. -/
def receive (script : Script) (timeout : ReceiveTimeout) (progress : Progress) : Progress :=
  { progress with
    received := progress.received + 1
    calls := progress.calls ++ [.receive timeout]
    events := progress.events ++ [receiveEvent (script.receives progress.received)] }

end Progress

namespace UdsClient

variable (client : UdsClient) (script : Script) (request : List UInt8)

/-- The loop of `_transact_once`, for at most `fuel` calls of `receive`. -/
def receiveLoop (attempt : ℕ) : (fuel pendingResponses : ℕ) → ReceiveTimeout → Progress →
    Option (Except String ExchangeInfo × Progress)
  | 0, _, _, _ => none
  | fuel + 1, pendingResponses, timeout, progress =>
    let next := progress.receive script timeout
    match script.receives progress.received with
    | .error message => some (.error message, next)
    | .ok response =>
      if client.isPending response then receiveLoop attempt fuel (pendingResponses + 1) .p2Star next
      else
        some (.ok
          { request := request, response := response, retries := attempt,
            pendingResponses := pendingResponses }, next)

/-- `_transact_once`. -/
def transactOnce (attempt fuel : ℕ) (progress : Progress) : Option (Except String ExchangeInfo × Progress) :=
  let next := progress.send script request
  match script.sends progress.sent with
  | .error message => some (.error message, next)
  | .ok () => client.receiveLoop script request attempt fuel 0 .initial next

/-- The loop of `_transact` from `attempt` on, with `left` attempts to go. -/
def attemptLoop (fuel : ℕ) : (left attempt : ℕ) → (lastError : Option String) → Progress →
    Option (Except String ExchangeInfo × Progress)
  | 0, _, lastError, progress => some (.error (lastError.getD "no response"), progress)
  | left + 1, attempt, _, progress =>
    match client.transactOnce script request attempt fuel progress with
    | none => none
    | some (.ok info, next) => some (.ok info, next)
    | some (.error message, next) => attemptLoop fuel left (attempt + 1) (some message) next

/-- `_transact`. -/
def transact (fuel : ℕ) : Option (Except String ExchangeInfo × Progress) :=
  client.attemptLoop script request fuel (client.retries + 1) 0 none .start

/-! ## What it is for -/

/-- From call `received` on, `pending` calls of `receive` yield pending responses. -/
def Pends (received pending : ℕ) : Prop :=
  ∀ j < pending, ∃ response, script.receives (received + j) = .ok response ∧ client.isPending response = true

/-- The call of `receive` yields no pending response. -/
def Stops (received : ℕ) : Prop :=
  ∀ response, script.receives received = .ok response → client.isPending response = false

/-- An attempt that begins with call `received` of `receive` times out, with call `received'` the next. -/
inductive TimesOut (attempt received : ℕ) : (received' : ℕ) → Prop
  | sending {message : String} (hsend : script.sends attempt = .error message) :
      TimesOut attempt received received
  | receiving {pending : ℕ} {message : String} (hsend : script.sends attempt = .ok ())
      (hpends : client.Pends script received pending)
      (hreceive : script.receives (received + pending) = .error message) :
      TimesOut attempt received (received + pending + 1)

/-- An attempt gets `response` after `pending` pending ones, and no timeout before it. -/
structure Responds (attempt received pending : ℕ) (response : List UInt8) : Prop where
  sends : script.sends attempt = .ok ()
  pends : client.Pends script received pending
  receives : script.receives (received + pending) = .ok response
  final : client.isPending response = false

/-- The first attempts time out, one after the other. -/
inductive FirstTimeOut : (attempts received : ℕ) → Prop
  | none : FirstTimeOut 0 0
  | next {attempts received received' : ℕ} (hfirst : FirstTimeOut attempts received)
      (hout : client.TimesOut script attempts received received') : FirstTimeOut (attempts + 1) received'

/-- The calls of one attempt: `send` alone, or with `receive` once more than responses are pending. -/
def attemptCalls : Option ℕ → List TransportCall
  | none => [.send request]
  | some pending => .send request :: .receive .initial :: List.replicate pending (.receive .p2Star)

/-- The result and the calls of `_transact`. -/
structure Transacts (result : Except String ExchangeInfo) (calls : List TransportCall) : Prop where
  returns : ∀ info, result = .ok info ↔ ∃ attempt received pending response, attempt ≤ client.retries ∧
    client.FirstTimeOut script attempt received ∧
    client.Responds script attempt received pending response ∧
    info = { request := request, response := response, retries := attempt, pendingResponses := pending }
  raises : (∃ message, result = .error message) ↔
    ∃ received, client.FirstTimeOut script (client.retries + 1) received
  sends : calls.count (.send request) ≤ client.retries + 1
  attempts : ∃ shapes : List (Option ℕ), calls = shapes.flatMap (attemptCalls request) ∧
    (∀ info, result = .ok info →
      shapes.length = info.retries + 1 ∧ shapes.getLast? = some (some info.pendingResponses)) ∧
    ∀ message, result = .error message → shapes.length = client.retries + 1

/-- From some fuel on, the result is the same. -/
def Settles {α : Type} (run : ℕ → Option α) (result : α) : Prop :=
  ∃ fuel₀, ∀ fuel, fuel₀ ≤ fuel → run fuel = some result

variable {client script request} {attempt received received' pending attempts : ℕ} {response : List UInt8}
  {progress : Progress}

theorem Settles.unique {α : Type} {run : ℕ → Option α} {a b : α} (ha : Settles run a) (hb : Settles run b) :
    a = b := by
  obtain ⟨m, hm⟩ := ha
  obtain ⟨n, hn⟩ := hb
  exact Option.some.inj ((hm _ (Nat.le_max_left m n)).symm.trans (hn _ (Nat.le_max_right m n)))

/-! ## One attempt -/

theorem Pends.tail (h : client.Pends script received (pending + 1)) :
    client.Pends script (received + 1) pending := by
  intro j hj
  obtain ⟨response, hreceive, hpending⟩ := h (j + 1) (Nat.succ_lt_succ hj)
  refine ⟨response, ?_, hpending⟩
  rw [← hreceive]
  congr 1
  omega

/-- The waiting loop, up to the call that stops it: an induction on the pending responses that come before. -/
theorem receiveLoop_eq (request : List UInt8) (attempt : ℕ) :
    ∀ (pending pendingResponses : ℕ) (timeout : ReceiveTimeout) (progress : Progress),
      client.Pends script progress.received pending →
      client.Stops script (progress.received + pending) →
      ∃ next : Progress,
        (∀ fuel, pending < fuel →
          client.receiveLoop script request attempt fuel pendingResponses timeout progress = some
            ((script.receives (progress.received + pending)).map fun response =>
              { request := request, response := response, retries := attempt,
                pendingResponses := pendingResponses + pending }, next)) ∧
        next.sent = progress.sent ∧ next.received = progress.received + pending + 1 ∧
        next.calls = progress.calls ++ .receive timeout :: List.replicate pending (.receive .p2Star) := by
  intro pending
  induction pending with
  | zero =>
    intro pendingResponses timeout progress _ hstop
    refine ⟨progress.receive script timeout, fun fuel hfuel => ?_, rfl, rfl, rfl⟩
    obtain ⟨fuel, rfl⟩ := Nat.exists_eq_succ_of_ne_zero (Nat.ne_of_gt hfuel)
    unfold receiveLoop
    rw [Nat.add_zero] at hstop ⊢
    cases hreceive : script.receives progress.received with
    | error message => rfl
    | ok response =>
      dsimp only
      rw [hstop response hreceive, if_neg Bool.false_ne_true]
      rfl
  | succ pending ih =>
    intro pendingResponses timeout progress hpends hstop
    obtain ⟨response, hreceive, hpending⟩ := hpends 0 (Nat.succ_pos pending)
    have hshift : progress.received + (pending + 1) = (progress.receive script timeout).received + pending := by
      show _ = progress.received + 1 + pending
      omega
    rw [hshift] at hstop ⊢
    obtain ⟨next, hrun, hsent, hreceived, hcalls⟩ :=
      ih (pendingResponses + 1) .p2Star (progress.receive script timeout) hpends.tail hstop
    refine ⟨next, fun fuel hfuel => ?_, hsent, hreceived, ?_⟩
    · obtain ⟨fuel, rfl⟩ := Nat.exists_eq_succ_of_ne_zero (Nat.ne_of_gt (Nat.zero_lt_of_lt hfuel))
      rw [Nat.add_zero] at hreceive
      unfold receiveLoop
      rw [hreceive]
      dsimp only
      rw [hpending, if_pos rfl, hrun fuel (Nat.lt_of_succ_lt_succ hfuel), Nat.add_right_comm, Nat.add_assoc]
    · rw [hcalls, List.replicate_succ]
      exact List.append_assoc ..

/-- An attempt that times out. -/
theorem transactOnce_timesOut (request : List UInt8) (h : client.TimesOut script attempt received received')
    (hsent : progress.sent = attempt) (hreceived : progress.received = received) :
    ∃ message next shape,
      Settles (fun fuel => client.transactOnce script request attempt fuel progress) (.error message, next) ∧
        next.sent = attempt + 1 ∧ next.received = received' ∧
        next.calls = progress.calls ++ attemptCalls request shape := by
  subst hsent hreceived
  cases h with
  | @sending message hsend =>
    refine ⟨message, progress.send script request, none, ⟨0, fun fuel _ => ?_⟩, rfl, rfl, rfl⟩
    simp only [transactOnce, hsend]
  | @receiving pending message hsend hpends hreceive =>
    have hstop : client.Stops script (progress.received + pending) := by
      intro response hresponse
      rw [hreceive] at hresponse
      cases hresponse
    obtain ⟨next, hrun, hsent, hreceived, hcalls⟩ :=
      receiveLoop_eq request progress.sent pending 0 .initial (progress.send script request) hpends hstop
    refine ⟨message, next, some pending, ⟨pending + 1, fun fuel hfuel => ?_⟩, hsent, hreceived, ?_⟩
    · have hloop := hrun fuel hfuel
      rw [show (progress.send script request).received = progress.received from rfl, hreceive] at hloop
      simp only [transactOnce, hsend]
      exact hloop
    · rw [hcalls]
      exact List.append_assoc ..

/-- An attempt that gets a response. -/
theorem transactOnce_responds (request : List UInt8)
    (h : client.Responds script attempt received pending response) (hsent : progress.sent = attempt)
    (hreceived : progress.received = received) :
    ∃ next,
      Settles (fun fuel => client.transactOnce script request attempt fuel progress)
        (.ok { request := request, response := response, retries := attempt, pendingResponses := pending },
          next) ∧
        next.calls = progress.calls ++ attemptCalls request (some pending) := by
  subst hsent hreceived
  have hstop : client.Stops script (progress.received + pending) := by
    intro other hother
    rw [h.receives] at hother
    rw [← Except.ok.inj hother]
    exact h.final
  obtain ⟨next, hrun, -, -, hcalls⟩ :=
    receiveLoop_eq request progress.sent pending 0 .initial (progress.send script request) h.pends hstop
  refine ⟨next, ⟨pending + 1, fun fuel hfuel => ?_⟩, ?_⟩
  · have hloop := hrun fuel hfuel
    rw [show (progress.send script request).received = progress.received from rfl, h.receives] at hloop
    simp only [transactOnce, h.sends]
    rw [hloop, Nat.zero_add]
    rfl
  · rw [hcalls]
    exact List.append_assoc ..

/-- With finitely many pending responses in a row, an attempt times out or gets a response. -/
theorem attempt_ends (hfinite : ∀ n, ∃ m, n ≤ m ∧ client.Stops script m) (attempt received : ℕ) :
    (∃ received', client.TimesOut script attempt received received') ∨
      ∃ pending response, client.Responds script attempt received pending response := by
  classical
  cases hsend : script.sends attempt with
  | error message => exact Or.inl ⟨received, .sending hsend⟩
  | ok _ =>
    have hstops : ∃ pending, client.Stops script (received + pending) := by
      obtain ⟨m, hm, hstop⟩ := hfinite received
      exact ⟨m - received, by rwa [Nat.add_sub_cancel' hm]⟩
    have hpends : client.Pends script received (Nat.find hstops) := by
      intro j hj
      have hnot := Nat.find_min hstops hj
      unfold Stops at hnot
      simp only [not_forall] at hnot
      obtain ⟨response, hreceive, hpending⟩ := hnot
      exact ⟨response, hreceive, by simpa using hpending⟩
    cases hreceive : script.receives (received + Nat.find hstops) with
    | error message => exact Or.inl ⟨_, .receiving hsend hpends hreceive⟩
    | ok response => exact Or.inr ⟨_, response, hsend, hpends, hreceive, Nat.find_spec hstops response hreceive⟩

/-! ## All attempts -/

theorem attemptLoop_error {fuel left : ℕ} {lastError : Option String} {message : String} {next : Progress}
    (h : client.transactOnce script request attempt fuel progress = some (.error message, next)) :
    client.attemptLoop script request fuel (left + 1) attempt lastError progress =
      client.attemptLoop script request fuel left (attempt + 1) (some message) next := by
  rw [attemptLoop, h]

theorem attemptLoop_ok {fuel left : ℕ} {lastError : Option String} {info : ExchangeInfo} {next : Progress}
    (h : client.transactOnce script request attempt fuel progress = some (.ok info, next)) :
    client.attemptLoop script request fuel (left + 1) attempt lastError progress = some (.ok info, next) := by
  rw [attemptLoop, h]

/-- The attempts that time out one after the other leave the rest to the ones that follow. -/
theorem transact_firstTimeOut (request : List UInt8) (h : client.FirstTimeOut script attempts received)
    (hle : attempts ≤ client.retries + 1) :
    ∃ (lastError : Option String) (progress : Progress) (shapes : List (Option ℕ)),
      (∃ fuel₀, ∀ fuel, fuel₀ ≤ fuel → client.transact script request fuel =
        client.attemptLoop script request fuel (client.retries + 1 - attempts) attempts lastError progress) ∧
      progress.sent = attempts ∧ progress.received = received ∧
      progress.calls = shapes.flatMap (attemptCalls request) ∧ shapes.length = attempts := by
  induction h with
  | none => exact ⟨none, .start, [], ⟨0, fun _ _ => rfl⟩, rfl, rfl, rfl, rfl⟩
  | @next attempts received received' _ hout ih =>
    obtain ⟨lastError, progress, shapes, ⟨m, hm⟩, hsent, hreceived, hcalls, hlen⟩ := ih (Nat.le_of_succ_le hle)
    obtain ⟨message, next, shape, ⟨n, hn⟩, hsent', hreceived', hcalls'⟩ :=
      transactOnce_timesOut request hout hsent hreceived
    refine ⟨some message, next, shapes ++ [shape], ⟨max m n, fun fuel hfuel => ?_⟩, hsent', hreceived', ?_, ?_⟩
    · have hleft : client.retries + 1 - attempts = (client.retries + 1 - (attempts + 1)) + 1 := by omega
      rw [hm fuel (Nat.le_trans (Nat.le_max_left m n) hfuel), hleft]
      exact attemptLoop_error (hn fuel (Nat.le_trans (Nat.le_max_right m n) hfuel))
    · rw [hcalls', hcalls, List.flatMap_append, List.flatMap_singleton]
    · rw [List.length_append, hlen, List.length_singleton]

/-- The first attempt that gets a response ends the call. -/
theorem transact_responds (request : List UInt8) (hle : attempt ≤ client.retries)
    (hfirst : client.FirstTimeOut script attempt received)
    (hresponds : client.Responds script attempt received pending response) :
    ∃ (progress : Progress) (shapes : List (Option ℕ)),
      Settles (client.transact script request)
        (.ok { request := request, response := response, retries := attempt, pendingResponses := pending },
          progress) ∧
        progress.calls = shapes.flatMap (attemptCalls request) ∧ shapes.length = attempt + 1 ∧
        shapes.getLast? = some (some pending) := by
  obtain ⟨lastError, progress, shapes, ⟨m, hm⟩, hsent, hreceived, hcalls, hlen⟩ :=
    transact_firstTimeOut request hfirst (Nat.le_succ_of_le hle)
  obtain ⟨next, ⟨n, hn⟩, hcalls'⟩ := transactOnce_responds request hresponds hsent hreceived
  refine ⟨next, shapes ++ [some pending], ⟨max m n, fun fuel hfuel => ?_⟩, ?_, ?_, List.getLast?_concat⟩
  · have hleft : client.retries + 1 - attempt = (client.retries - attempt) + 1 := by omega
    rw [hm fuel (Nat.le_trans (Nat.le_max_left m n) hfuel), hleft]
    exact attemptLoop_ok (hn fuel (Nat.le_trans (Nat.le_max_right m n) hfuel))
  · rw [hcalls', hcalls, List.flatMap_append, List.flatMap_singleton]
  · rw [List.length_append, hlen, List.length_singleton]

/-- With no attempt left, the call raises. -/
theorem transact_timesOut (request : List UInt8)
    (hfirst : client.FirstTimeOut script (client.retries + 1) received) :
    ∃ (message : String) (progress : Progress) (shapes : List (Option ℕ)),
      Settles (client.transact script request) (.error message, progress) ∧
        progress.calls = shapes.flatMap (attemptCalls request) ∧ shapes.length = client.retries + 1 := by
  obtain ⟨lastError, progress, shapes, ⟨m, hm⟩, -, -, hcalls, hlen⟩ :=
    transact_firstTimeOut request hfirst (Nat.le_refl _)
  refine ⟨lastError.getD "no response", progress, shapes, ⟨m, fun fuel hfuel => ?_⟩, hcalls, hlen⟩
  rw [hm fuel hfuel, Nat.sub_self]
  rfl

/-- Every attempt before a number of them times out, or one of them is the first to get a response. -/
theorem firstTimeOut_or_responds (hfinite : ∀ n, ∃ m, n ≤ m ∧ client.Stops script m) (attempts : ℕ) :
    (∃ received, client.FirstTimeOut script attempts received) ∨
      ∃ attempt received pending response, attempt < attempts ∧ client.FirstTimeOut script attempt received ∧
        client.Responds script attempt received pending response := by
  induction attempts with
  | zero => exact Or.inl ⟨0, .none⟩
  | succ attempts ih =>
    rcases ih with ⟨received, hfirst⟩ | ⟨attempt, received, pending, response, hlt, hfirst, hresponds⟩
    · rcases attempt_ends hfinite attempts received with ⟨received', hout⟩ | ⟨pending, response, hresponds⟩
      · exact Or.inl ⟨received', .next hfirst hout⟩
      · exact Or.inr ⟨attempts, received, pending, response, Nat.lt_succ_self _, hfirst, hresponds⟩
    · exact Or.inr ⟨attempt, received, pending, response, Nat.lt_succ_of_lt hlt, hfirst, hresponds⟩

/-- Every attempt makes one call of `send`. -/
theorem count_send (request : List UInt8) (shapes : List (Option ℕ)) :
    (shapes.flatMap (attemptCalls request)).count (.send request) = shapes.length := by
  induction shapes with
  | nil => rfl
  | cons shape shapes ih =>
    rw [List.flatMap_cons, List.count_append, ih, List.length_cons, Nat.add_comm]
    congr 1
    cases shape with
    | none => exact List.count_singleton_self
    | some pending => simp [attemptCalls, List.count_replicate]

/-! ## The machine of one event at a time -/

/-- What the machine has made of an attempt that ended in `result`. -/
def AttemptEnded (client : UdsClient) (request : List UInt8) (attempt : ℕ) (call : ReadCall) :
    Except String ExchangeInfo → Prop
  | .ok info =>
    call.lastExchange = some info ∧ call.pc = .ended (parseResponse info.response sidReadDataByIdentifier)
  | .error message => call.request = request ∧ call.pc = client.nextAttempt attempt message

/-- What the machine has made of a call that ended in `result`. -/
def CallEnded (call : ReadCall) : Except String ExchangeInfo → Prop
  | .ok info =>
    call.lastExchange = some info ∧ call.pc = .ended (parseResponse info.response sidReadDataByIdentifier)
  | .error message => call.pc = .ended (.error (.timeoutError message))

variable {call : ReadCall} {result : Except String ExchangeInfo} {next : Progress}

theorem step_sent (hpc : call.pc = .sending attempt) :
    client.step call .sent = { call with pc := .receiving attempt 0 } := by
  unfold UdsClient.step
  rw [hpc]

theorem step_received {pendingResponses : ℕ} (hpc : call.pc = .receiving attempt pendingResponses) :
    client.step call (.received response) = client.onResponse call attempt pendingResponses response := by
  unfold UdsClient.step
  rw [hpc]

theorem step_send_timeoutError {message : String} (hpc : call.pc = .sending attempt) :
    client.step call (.timeoutError message) = { call with pc := client.nextAttempt attempt message } := by
  unfold UdsClient.step
  rw [hpc]

theorem step_receive_timeoutError {pendingResponses : ℕ} {message : String}
    (hpc : call.pc = .receiving attempt pendingResponses) :
    client.step call (.timeoutError message) = { call with pc := client.nextAttempt attempt message } := by
  unfold UdsClient.step
  rw [hpc]

theorem receiveLoop_simulates (fuel : ℕ) :
    ∀ (pendingResponses : ℕ) (timeout : ReceiveTimeout) (progress : Progress),
      (after client.step call progress.events).request = request →
      (after client.step call progress.events).pc = .receiving attempt pendingResponses →
      client.receiveLoop script request attempt fuel pendingResponses timeout progress = some (result, next) →
      client.AttemptEnded request attempt (after client.step call next.events) result := by
  induction fuel with
  | zero =>
    intro pendingResponses timeout progress _ _ h
    cases h
  | succ fuel ih =>
    intro pendingResponses timeout progress hrequest hpc h
    have hevents : after client.step call (progress.receive script timeout).events =
        client.step (after client.step call progress.events)
          (Progress.receiveEvent (script.receives progress.received)) := after_snoc ..
    unfold receiveLoop at h
    cases hreceive : script.receives progress.received with
    | error message =>
      rw [hreceive] at h hevents
      obtain ⟨rfl, rfl⟩ := Prod.mk.inj (Option.some.inj h)
      rw [hevents, Progress.receiveEvent, step_receive_timeoutError hpc]
      exact ⟨hrequest, rfl⟩
    | ok response =>
      rw [hreceive] at h hevents
      have hstep : after client.step call (progress.receive script timeout).events =
          client.onResponse (after client.step call progress.events) attempt pendingResponses response :=
        hevents.trans (step_received hpc)
      unfold onResponse at hstep
      cases hpending : client.isPending response with
      | true =>
        simp only [hpending, if_true] at h hstep
        refine ih _ _ _ ?_ ?_ h
        · rw [hstep]
          exact hrequest
        · rw [hstep]
      | false =>
        simp only [hpending, Bool.false_eq_true, if_false] at h hstep
        obtain ⟨rfl, rfl⟩ := Prod.mk.inj (Option.some.inj h)
        rw [hstep]
        exact ⟨by rw [hrequest], rfl⟩

theorem transactOnce_simulates {fuel : ℕ} (hrequest : (after client.step call progress.events).request = request)
    (hpc : (after client.step call progress.events).pc = .sending attempt)
    (h : client.transactOnce script request attempt fuel progress = some (result, next)) :
    client.AttemptEnded request attempt (after client.step call next.events) result := by
  have hevents : after client.step call (progress.send script request).events =
      client.step (after client.step call progress.events)
        (Progress.sendEvent (script.sends progress.sent)) := after_snoc ..
  unfold transactOnce at h
  cases hsend : script.sends progress.sent with
  | error message =>
    rw [hsend] at h hevents
    obtain ⟨rfl, rfl⟩ := Prod.mk.inj (Option.some.inj h)
    rw [hevents, Progress.sendEvent, step_send_timeoutError hpc]
    exact ⟨hrequest, rfl⟩
  | ok _ =>
    rw [hsend] at h hevents
    rw [Progress.sendEvent, step_sent hpc] at hevents
    refine receiveLoop_simulates fuel _ _ _ ?_ ?_ h
    · rw [hevents]
      exact hrequest
    · rw [hevents]

theorem attemptLoop_simulates (fuel left : ℕ) :
    ∀ (attempt : ℕ) (lastError : Option String) (progress : Progress),
      left + attempt = client.retries + 1 →
      (after client.step call progress.events).request = request →
      (after client.step call progress.events).pc =
        (if left = 0 then .ended (.error (.timeoutError (lastError.getD "no response"))) else .sending attempt) →
      client.attemptLoop script request fuel left attempt lastError progress = some (result, next) →
      CallEnded (after client.step call next.events) result := by
  induction left with
  | zero =>
    intro attempt lastError progress _ _ hpc h
    obtain ⟨rfl, rfl⟩ := Prod.mk.inj (Option.some.inj h)
    exact hpc
  | succ left ih =>
    intro attempt lastError progress hleft hrequest hpc h
    rw [if_neg (Nat.succ_ne_zero left)] at hpc
    cases honce : client.transactOnce script request attempt fuel progress with
    | none =>
      unfold attemptLoop at h
      rw [honce] at h
      cases h
    | some outcome =>
      obtain ⟨ended, after'⟩ := outcome
      have hended := transactOnce_simulates hrequest hpc honce
      cases ended with
      | ok info =>
        rw [attemptLoop_ok honce] at h
        obtain ⟨rfl, rfl⟩ := Prod.mk.inj (Option.some.inj h)
        exact hended
      | error message =>
        rw [attemptLoop_error honce] at h
        refine ih _ _ _ (by omega) hended.1 ?_ h
        rw [hended.2]
        unfold nextAttempt
        by_cases hmore : attempt < client.retries
        · rw [if_pos hmore, if_neg (by omega)]
        · rw [if_neg hmore, if_pos (by omega)]
          rfl

/-- The loops are the machine: driven by the events of the loops' calls, it ends as they do. -/
theorem transact_simulates {fuel : ℕ} (lastExchange : Option ExchangeInfo)
    (h : client.transact script request fuel = some (result, progress)) :
    CallEnded (after client.step ⟨request, .sending 0, lastExchange, []⟩ progress.events) result := by
  refine attemptLoop_simulates fuel (client.retries + 1) 0 none .start rfl ?_ ?_ h
  · rfl
  · rfl

/-- **Retries and pending responses**: with finitely many pending responses in a row, `_transact` returns the
response of the first attempt that gets one before a timeout, and raises if and only if no attempt does; it
sends once in every attempt. -/
theorem transact_enough (client : UdsClient) (script : Script) (request : List UInt8)
    (hfinite : ∀ n, ∃ m, n ≤ m ∧ client.Stops script m) :
    ∃ result progress, Settles (client.transact script request) (result, progress) ∧
      client.Transacts script request result progress.calls := by
  rcases firstTimeOut_or_responds hfinite (client.retries + 1) with
    ⟨received, hall⟩ | ⟨attempt, received, pending, response, hlt, hfirst, hresponds⟩
  · obtain ⟨message, progress, shapes, hsettles, hcalls, hlen⟩ := transact_timesOut request hall
    refine ⟨.error message, progress, hsettles, ?_, ?_, ?_, shapes, hcalls, fun info hinfo => ?_, fun _ _ => hlen⟩
    · intro info
      constructor
      · intro hinfo
        cases hinfo
      · rintro ⟨attempt, received, pending, response, hle, hfirst, hresponds, -⟩
        obtain ⟨progress', -, hother, -⟩ := transact_responds request hle hfirst hresponds
        have hsame := congrArg Prod.fst (hsettles.unique hother)
        cases hsame
    · exact iff_of_true ⟨message, rfl⟩ ⟨received, hall⟩
    · rw [hcalls, count_send, hlen]
    · cases hinfo
  · obtain ⟨progress, shapes, hsettles, hcalls, hlen, hlast⟩ :=
      transact_responds request (Nat.le_of_lt_succ hlt) hfirst hresponds
    refine ⟨_, progress, hsettles, ?_, ?_, ?_, shapes, hcalls, fun info hinfo => ?_, fun message hmessage => ?_⟩
    · intro info
      constructor
      · intro hinfo
        exact ⟨attempt, received, pending, response, Nat.le_of_lt_succ hlt, hfirst, hresponds,
          (Except.ok.inj hinfo).symm⟩
      · rintro ⟨attempt', received', pending', response', hle', hfirst', hresponds', rfl⟩
        obtain ⟨progress', -, hother, -⟩ := transact_responds request hle' hfirst' hresponds'
        exact congrArg Prod.fst (hsettles.unique hother)
    · constructor
      · rintro ⟨message, hmessage⟩
        cases hmessage
      · rintro ⟨received', hall⟩
        obtain ⟨message, progress', -, hother, -⟩ := transact_timesOut request hall
        have hsame := congrArg Prod.fst (hsettles.unique hother)
        cases hsame
    · rw [hcalls, count_send, hlen]
      exact hlt
    · rw [← Except.ok.inj hinfo]
      exact ⟨hlen, hlast⟩
    · cases hmessage

/-- A first attempt that times out, then a pending response and the positive one. -/
def retriedScript : Script where
  sends _ := .ok ()
  receives
    | 1 => .ok [0x7F, 0x22, 0x78]
    | 2 => .ok [0x62, 0xF1, 0x87, 0x01]
    | _ => .error "timed out waiting for ISO-TP frame"

theorem transact_retriedScript :
    ∃ result progress, Settles (transact {} retriedScript [0x22, 0xF1, 0x87]) (result, progress) ∧
      Transacts {} retriedScript [0x22, 0xF1, 0x87] result progress.calls := by
  refine transact_enough {} retriedScript [0x22, 0xF1, 0x87] fun n => ⟨n + 3, Nat.le_add_right n 3, ?_⟩
  intro response hresponse
  cases hresponse

/-- It returns in the second attempt, after two calls of `send`. -/
example : (transact {} retriedScript [0x22, 0xF1, 0x87] 2).map
    (fun ended => (ended.1.toOption.map fun info => (info.retries, info.pendingResponses), ended.2.calls)) =
    some (some (1, 1), [.send [0x22, 0xF1, 0x87], .receive .initial, .send [0x22, 0xF1, 0x87], .receive .initial,
      .receive .p2Star]) := rfl

end UdsClient

end DualCan.Uds
