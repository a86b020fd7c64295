import DualCan.Run.Dialogue
import DualCan.Run.Latency
import DualCan.Run.Timed

/-!
# The peer tester of the stability builds

`peer_tester.c` with `APP_ServicePeerTester` and the response branch of `APP_OnCanRx` of `main.c`: every
100 ms one board reads an identifier from the other one, in one frame each way, and keeps statistics. A
`PeerBench` runs it against a peer that answers a request at most once, over a bus that keeps the order of
the frames. A `Dialogue` beside the program writes down what became of each request; it looks at nothing but
the counters. The statistics are those of the dialogue (`Faithful`), and the rules of a dialogue say which
answer a request was closed with.
-/

namespace DualCan.App

open DualCan.Clock DualCan.Run

/-- `PeerTesterStats_t`. -/
structure PeerTesterStats where
  intervalMs : UInt32
  responseTimeoutMs : UInt32
  requestsSent : UInt32
  responsesOk : UInt32
  timeouts : UInt32
  txFailures : UInt32
  invalidResponses : UInt32
  lastRttMs : UInt32
  minRttMs : UInt32
  maxRttMs : UInt32
  rttTotalMs : UInt32
  deriving DecidableEq, Repr

namespace PeerTester

/-- `PEER_TEST_DID`. -/
def testDid : UInt16 := 0xF19A

/-- `PeerTester_Init`. -/
def init (intervalMs responseTimeoutMs : UInt32) : PeerTesterStats where
  intervalMs := intervalMs
  responseTimeoutMs := responseTimeoutMs
  requestsSent := 0
  responsesOk := 0
  timeouts := 0
  txFailures := 0
  invalidResponses := 0
  lastRttMs := 0
  minRttMs := 0xFFFFFFFF
  maxRttMs := 0
  rttTotalMs := 0

/-- `PeerTester_BuildRequest`. -/
def buildRequest : Vector UInt8 8 :=
  #v[0x03, 0x22, (testDid >>> 8).toUInt8, testDid.toUInt8, 0xCC, 0xCC, 0xCC, 0xCC]

/-- `PeerTester_RecordRequest`. -/
def recordRequest (stats : PeerTesterStats) : PeerTesterStats :=
  { stats with requestsSent := stats.requestsSent + 1 }

/-- `PeerTester_RecordTxFailure`. -/
def recordTxFailure (stats : PeerTesterStats) : PeerTesterStats :=
  { stats with txFailures := stats.txFailures + 1 }

/-- `PeerTester_RecordTimeout`. -/
def recordTimeout (stats : PeerTesterStats) : PeerTesterStats :=
  { stats with timeouts := stats.timeouts + 1 }

/-- `PeerTester_RecordLatency`. -/
def recordLatency (stats : PeerTesterStats) (elapsedMs : UInt32) : PeerTesterStats :=
  { stats with
    lastRttMs := elapsedMs
    rttTotalMs := stats.rttTotalMs + elapsedMs
    minRttMs := if elapsedMs < stats.minRttMs then elapsedMs else stats.minRttMs
    maxRttMs := if elapsedMs > stats.maxRttMs then elapsedMs else stats.maxRttMs }

/-- The frame is a positive response to the request. -/
def isResponse (data : Vector UInt8 8) : Bool :=
  data[0]! = 0x07 && data[1]! = 0x62 && data[2]! = (testDid >>> 8).toUInt8 &&
    data[3]! = testDid.toUInt8

/-- `PeerTester_AcceptResponse`. -/
def acceptResponse (stats : PeerTesterStats) (receivedId : UInt32) (data : Vector UInt8 8)
    (dataLength : UInt32) (expectedResponseId : UInt32) : Bool × PeerTesterStats :=
  if receivedId = expectedResponseId ∧ dataLength = 8 ∧ isResponse data = true then
    (true, { stats with responsesOk := stats.responsesOk + 1 })
  else (false, { stats with invalidResponses := stats.invalidResponses + 1 })

end PeerTester

/-! ## The program -/

/-- `APP_PEER_INTERVAL_MS`. -/
def peerIntervalMs : UInt32 := 100

/-- `APP_PEER_RESPONSE_MS`. -/
def peerResponseMs : UInt32 := 50

/-- `g_peer_tester`, `g_peer_request_pending`, `g_peer_request_started_ms` and the static variables of
`APP_ServicePeerTester`. -/
structure PeerApp where
  stats : PeerTesterStats
  pending : Bool
  startedMs : UInt32
  nextRequest : UInt32
  initialized : Bool

namespace PeerApp

def init : PeerApp where
  stats := PeerTester.init peerIntervalMs peerResponseMs
  pending := false
  startedMs := 0
  nextRequest := 0
  initialized := false

/-- The first call starts the period. -/
def initialise (app : PeerApp) (now : UInt32) : PeerApp :=
  if !app.initialized then { app with nextRequest := now, initialized := true } else app

/-- The open request is given up when its time is over. -/
def expire (app : PeerApp) (now : UInt32) : PeerApp :=
  if app.pending && now - app.startedMs ≥ peerResponseMs then
    { app with stats := PeerTester.recordTimeout app.stats, pending := false }
  else app

/-- A request; `sent` is whether `CanDriver_SendStd` took it. -/
def request (app : PeerApp) (now : UInt32) (sent : Bool) : PeerApp :=
  let app := { app with startedMs := now }
  let app :=
    if sent then { app with stats := PeerTester.recordRequest app.stats, pending := true }
    else { app with stats := PeerTester.recordTxFailure app.stats }
  let nextRequest := app.nextRequest + peerIntervalMs
  { app with nextRequest := if reached now nextRequest then now + peerIntervalMs else nextRequest }

/-- `APP_ServicePeerTester`. -/
def service (app : PeerApp) (now : UInt32) (sent : Bool) : PeerApp :=
  let app := (app.initialise now).expire now
  if app.pending || !reached now app.nextRequest then app else app.request now sent

/-- The response branch of `APP_OnCanRx`. -/
def onCanRx (app : PeerApp) (responseId : UInt32) (now id : UInt32) (data : Vector UInt8 8)
    (len : UInt32) : PeerApp :=
  if id = responseId ∧ len = 8 then
    if app.pending then
      match PeerTester.acceptResponse app.stats id data len responseId with
      | (true, stats) =>
        { app with stats := PeerTester.recordLatency stats (now - app.startedMs), pending := false }
      | (false, stats) => { app with stats := stats }
    else app
  else app

end PeerApp

/-! ## The bench -/

/-- The program, the real time, and what an observer of its counters has written down: the dialogue, the
first call and the requests the driver refused. -/
structure PeerBench where
  now : ℕ
  lastService : ℕ
  app : PeerApp
  dialogue : Dialogue
  first : Option ℕ
  refused : ℕ

namespace PeerBench

/-- `answer` brings the next answer of the peer, whatever its bytes; `other` is a frame on another
identifier or of another length. -/
inductive Event where
  | advance (ms : ℕ)
  | service (sent : Bool)
  | answer (data : Vector UInt8 8)
  | lose (i : ℕ)
  | other (id : UInt32) (data : Vector UInt8 8) (len : UInt32)

/-- The dialogue after a call that may have given a request up and sent the next one. -/
def noteService (before after : PeerTesterStats) (now : ℕ) (d : Dialogue) : Dialogue :=
  let d := if after.timeouts ≠ before.timeouts then d.expire now else d
  if after.requestsSent ≠ before.requestsSent then d.send now else d

/-- The dialogue after an answer. -/
def noteAnswer (before after : PeerTesterStats) (now : ℕ) (d : Dialogue) : Dialogue :=
  if after.responsesOk ≠ before.responsesOk then d.arrive now else d.discard

def step (responseId : UInt32) (b : PeerBench) : Event → PeerBench
  | .advance ms => { b with now := b.now + ms }
  | .service sent =>
    let app := b.app.service (tick b.now) sent
    { b with
      lastService := b.now
      app := app
      dialogue := noteService b.app.stats app.stats b.now b.dialogue
      first := some (b.first.getD b.now)
      refused := if app.stats.txFailures ≠ b.app.stats.txFailures then b.refused + 1 else b.refused }
  | .answer data =>
    if b.dialogue.line = [] then b
    else
      let app := b.app.onCanRx responseId (tick b.now) responseId data 8
      { b with app := app, dialogue := noteAnswer b.app.stats app.stats b.now b.dialogue }
  | .lose i => { b with dialogue := b.dialogue.lose i }
  | .other id data len =>
    if id = responseId ∧ len = 8 then b
    else { b with app := b.app.onCanRx responseId (tick b.now) id data len }

/-- The board starts. -/
def start (now : ℕ) : PeerBench where
  now := now
  lastService := now
  app := .init
  dialogue := .idle
  first := none
  refused := 0

end PeerBench

/-! ## The statistics are those of the dialogue -/

/-- The round-trip registers. -/
def PeerTesterStats.latency (stats : PeerTesterStats) : Latency :=
  ⟨stats.lastRttMs, stats.minRttMs, stats.maxRttMs, stats.rttTotalMs⟩

/-- The round-trip times of the answered requests. -/
def rtts (ledger : List Entry) : List UInt32 :=
  (ledger.filter fun e => e.answer.isSome).map fun e => UInt32.ofNat (e.closed - e.opened)

theorem rtts_answered (ledger : List Entry) (o c j : ℕ) :
    rtts (ledger ++ [⟨o, c, some j⟩]) = rtts ledger ++ [UInt32.ofNat (c - o)] := by
  simp [rtts]

/-- The program agrees with what became of its requests. -/
structure Faithful (now : ℕ) (app : PeerApp) (d : Dialogue) (refused : ℕ) : Prop where
  lawful : d.Lawful now
  pending : app.pending = d.pending.isSome
  started : ∀ t, d.pending = some t → app.startedMs = tick t
  requests : app.stats.requestsSent = UInt32.ofNat d.sent
  responses : app.stats.responsesOk = UInt32.ofNat (Dialogue.answered d.ledger)
  timeouts : app.stats.timeouts = UInt32.ofNat (Dialogue.givenUp d.ledger)
  failures : app.stats.txFailures = UInt32.ofNat refused
  latency : app.stats.latency.Summarises (rtts d.ledger)

namespace Faithful

variable {now t refused : ℕ} {app : PeerApp} {d : Dialogue} {id : UInt32}

theorem later (h : Faithful now app d refused) (ht : now ≤ t) : Faithful t app d refused :=
  ⟨h.lawful.later ht, h.pending, h.started, h.requests, h.responses, h.timeouts, h.failures, h.latency⟩

theorem initialise (h : Faithful now app d refused) (reading : UInt32) :
    Faithful now (app.initialise reading) d refused := by
  unfold PeerApp.initialise
  split
  · exact ⟨h.lawful, h.pending, h.started, h.requests, h.responses, h.timeouts, h.failures, h.latency⟩
  · exact h

/-- A program with an open request knows when it was sent. -/
theorem opened (h : Faithful now app d refused) (hpending : app.pending = true) :
    ∃ o, d.pending = some o ∧ o ≤ now ∧ tick now - app.startedMs = UInt32.ofNat (now - o) := by
  rw [h.pending] at hpending
  obtain ⟨o, ho⟩ := Option.isSome_iff_exists.1 hpending
  obtain ⟨hle, -⟩ := h.lawful.opened o ho
  exact ⟨o, ho, hle, by rw [h.started o ho, tick_sub_tick hle]⟩

theorem giveUp (h : Faithful now app d refused) (hpending : app.pending = true) :
    Faithful now { app with stats := PeerTester.recordTimeout app.stats, pending := false } (d.expire now)
      refused := by
  obtain ⟨o, ho, -, -⟩ := h.opened hpending
  have hclosed : d.expire now = { d with pending := none, ledger := d.ledger ++ [⟨o, now, none⟩] } := by
    simp only [Dialogue.expire, Dialogue.close, ho]
  have hlawful := h.lawful.expire
  rw [hclosed] at hlawful ⊢
  refine ⟨hlawful, rfl, nofun, h.requests, ?_, ?_, h.failures, ?_⟩
  · simp [PeerTester.recordTimeout, Dialogue.answered, h.responses]
  · simp only [PeerTester.recordTimeout, h.timeouts, Dialogue.givenUp, List.countP_append,
      List.countP_singleton]
    exact (ofNat_succ _).symm
  · simpa [rtts, PeerTester.recordTimeout, PeerTesterStats.latency] using h.latency

/-- A call's first half: the open request is given up, or nothing changes. -/
theorem expire (h : Faithful now app d refused) (reading : UInt32) :
    Faithful now (app.expire reading)
      (if (app.expire reading).stats.timeouts ≠ app.stats.timeouts then d.expire now else d) refused := by
  unfold PeerApp.expire
  by_cases hdue : (app.pending && decide (reading - app.startedMs ≥ peerResponseMs)) = true
  · rw [if_pos hdue]
    rw [Bool.and_eq_true] at hdue
    rw [if_pos (by exact succ_ne _)]
    exact h.giveUp hdue.1
  · rw [if_neg hdue, if_neg (fun hne => hne rfl)]
    exact h

/-- What a request counts. -/
theorem request_counts (app : PeerApp) (reading : UInt32) (sent : Bool) :
    (app.request reading sent).stats.timeouts = app.stats.timeouts ∧
      (app.request reading sent).stats.requestsSent =
        (if sent then app.stats.requestsSent + 1 else app.stats.requestsSent) ∧
      (app.request reading sent).stats.txFailures =
        if sent then app.stats.txFailures else app.stats.txFailures + 1 := by
  cases sent <;> exact ⟨rfl, rfl, rfl⟩

/-- A call's second half: a request is sent or refused. -/
theorem request (h : Faithful now app d refused) (hfree : app.pending = false) (sent : Bool) :
    Faithful now (app.request (tick now) sent) (if sent then d.send now else d)
      (if sent then refused else refused + 1) := by
  have hnone : d.pending = none := by
    have hsync := h.pending
    rw [hfree] at hsync
    simpa using hsync.symm
  cases sent with
  | true =>
    refine ⟨h.lawful.send hnone, rfl, ?_, ?_, h.responses, h.timeouts, h.failures, h.latency⟩
    · intro o ho
      obtain rfl : now = o := Option.some.inj ho
      rfl
    · exact (congrArg (· + 1) h.requests).trans (ofNat_succ _).symm
  | false =>
    refine ⟨h.lawful, h.pending, ?_, h.requests, h.responses, h.timeouts, ?_, h.latency⟩
    · intro o ho
      rw [show d.pending = some o from ho] at hnone
      cases hnone
    · exact (congrArg (· + 1) h.failures).trans (ofNat_succ _).symm

/-- **One call** of the service. -/
theorem service (h : Faithful now app d refused) (sent : Bool) :
    Faithful now (app.service (tick now) sent)
      (PeerBench.noteService app.stats (app.service (tick now) sent).stats now d)
      (if (app.service (tick now) sent).stats.txFailures ≠ app.stats.txFailures then refused + 1
        else refused) := by
  have hfirst := (h.initialise (tick now)).expire (tick now)
  have hstats : (app.initialise (tick now)).stats = app.stats := by
    unfold PeerApp.initialise
    split <;> rfl
  have hsame : ((app.initialise (tick now)).expire (tick now)).stats.requestsSent = app.stats.requestsSent ∧
      ((app.initialise (tick now)).expire (tick now)).stats.txFailures = app.stats.txFailures := by
    rw [← hstats]
    unfold PeerApp.expire
    split <;> exact ⟨rfl, rfl⟩
  rw [hstats] at hfirst
  unfold PeerBench.noteService PeerApp.service
  generalize (app.initialise (tick now)).expire (tick now) = opened at hfirst hsame ⊢
  dsimp only
  by_cases hwaits : (opened.pending || !reached (tick now) opened.nextRequest) = true
  · simp only [if_pos hwaits, hsame.1, hsame.2, ne_eq, not_true_eq_false, if_false]
    exact hfirst
  · have hfree : opened.pending = false := by
      simp only [Bool.or_eq_true, not_or, Bool.not_eq_true] at hwaits
      exact hwaits.1
    have hnext := hfirst.request hfree sent
    obtain ⟨htimeouts, hrequests, hfailures⟩ := request_counts opened (tick now) sent
    simp only [if_neg hwaits, htimeouts, hrequests, hfailures, hsame.1, hsame.2]
    cases sent with
    | true =>
      simp only [if_true, ne_eq, succ_ne, not_false_eq_true, not_true_eq_false, if_false] at hnext ⊢
      exact hnext
    | false =>
      simp only [if_true, ne_eq, succ_ne, not_false_eq_true, not_true_eq_false, if_false,
        Bool.false_eq_true] at hnext ⊢
      exact hnext

/-- **One answer.** -/
theorem answer (h : Faithful now app d refused) (hline : d.line ≠ []) (responseId : UInt32)
    (data : Vector UInt8 8) :
    Faithful now (app.onCanRx responseId (tick now) responseId data 8)
      (PeerBench.noteAnswer app.stats (app.onCanRx responseId (tick now) responseId data 8).stats now d)
      refused := by
  have hignored : Faithful now app d.discard refused :=
    ⟨h.lawful.discard, h.pending, h.started, h.requests, h.responses, h.timeouts, h.failures, h.latency⟩
  unfold PeerBench.noteAnswer PeerApp.onCanRx
  rw [if_pos ⟨rfl, rfl⟩]
  by_cases hpending : app.pending = true
  · rw [if_pos hpending]
    unfold PeerTester.acceptResponse
    by_cases haccept : PeerTester.isResponse data = true
    · rw [if_pos ⟨rfl, rfl, haccept⟩]
      obtain ⟨o, ho, hle, hrtt⟩ := h.opened hpending
      obtain ⟨j, line, hj⟩ := List.exists_cons_of_ne_nil hline
      have harrive : d.arrive now =
          { d with line := line, pending := none, ledger := d.ledger ++ [⟨o, now, some j⟩] } := by
        simp only [Dialogue.arrive, hj, Dialogue.close, ho]
      have hlawful := h.lawful.arrive
      rw [if_pos (by exact succ_ne _)]
      rw [harrive] at hlawful ⊢
      refine ⟨hlawful, rfl, nofun, h.requests, ?_, ?_, h.failures, ?_⟩
      · simp only [PeerTester.recordLatency, h.responses, Dialogue.answered, List.countP_append,
          List.countP_singleton]
        exact (ofNat_succ _).symm
      · simpa [PeerTester.recordLatency, Dialogue.givenUp] using h.timeouts
      · have hrecord := h.latency.record (tick now - app.startedMs)
        rw [rtts_answered, ← hrtt]
        exact hrecord
    · rw [if_neg (fun hall => haccept hall.2.2), if_neg (fun hne => hne rfl)]
      exact ⟨hignored.lawful, h.pending, h.started, h.requests, h.responses, h.timeouts, h.failures, h.latency⟩
  · rw [if_neg hpending, if_neg (fun hne => hne rfl)]
    exact hignored

theorem lose (h : Faithful now app d refused) (i : ℕ) : Faithful now app (d.lose i) refused :=
  ⟨h.lawful.lose i, h.pending, h.started, h.requests, h.responses, h.timeouts, h.failures, h.latency⟩

end Faithful

/-! ## The pace -/

namespace PeerBench

variable {responseId : UInt32} {b : PeerBench} {gap : ℕ}

/-- The requests sent and refused. -/
def attempts (b : PeerBench) : ℕ := b.dialogue.sent + b.refused

/-- The program at the decision whether to send a request. -/
def opened (b : PeerBench) : PeerApp := (b.app.initialise (tick b.now)).expire (tick b.now)

/-- The call sends no request. -/
def Waits (b : PeerBench) : Prop := (b.opened.pending || !reached (tick b.now) b.opened.nextRequest) = true

theorem expire_sent (d : Dialogue) (now : ℕ) : (d.expire now).sent = d.sent := by
  unfold Dialogue.expire Dialogue.close
  split <;> rfl

theorem opened_counts (b : PeerBench) :
    b.opened.stats.requestsSent = b.app.stats.requestsSent ∧
      b.opened.stats.txFailures = b.app.stats.txFailures ∧
      b.opened.nextRequest = (if b.app.initialized then b.app.nextRequest else tick b.now) ∧
      b.opened.initialized = true := by
  unfold opened PeerApp.expire PeerApp.initialise
  cases hi : b.app.initialized with
  | true =>
    simp only [Bool.not_true, Bool.false_eq_true, if_false, if_true]
    split <;> simp [PeerTester.recordTimeout, hi]
  | false =>
    simp only [Bool.not_false, if_true, Bool.false_eq_true, if_false]
    split <;> simp [PeerTester.recordTimeout]

theorem service_waits (responseId : UInt32) (hwaits : b.Waits) (sent : Bool) :
    (b.step responseId (.service sent)).app = b.opened ∧
      (b.step responseId (.service sent)).attempts = b.attempts := by
  obtain ⟨hrequests, hfailures, -⟩ := b.opened_counts
  have happ : b.app.service (tick b.now) sent = b.opened := if_pos hwaits
  refine ⟨happ, ?_⟩
  simp only [step, attempts, happ, noteService, hrequests, hfailures, ne_eq, not_true_eq_false, if_false]
  split
  · rw [expire_sent]
  · rfl

theorem service_requests (responseId : UInt32) (hdue : ¬b.Waits) (sent : Bool) :
    (b.step responseId (.service sent)).app = b.opened.request (tick b.now) sent ∧
      (b.step responseId (.service sent)).attempts = b.attempts + 1 := by
  obtain ⟨hrequests, hfailures, -⟩ := b.opened_counts
  have happ : b.app.service (tick b.now) sent = b.opened.request (tick b.now) sent := if_neg hdue
  obtain ⟨-, hcount, hrefused⟩ := Faithful.request_counts b.opened (tick b.now) sent
  refine ⟨happ, ?_⟩
  simp only [step, attempts, happ, noteService, hcount, hrefused, hrequests, hfailures]
  cases sent with
  | true =>
    simp only [if_true, ne_eq, succ_ne, not_false_eq_true, not_true_eq_false, if_false, Dialogue.send]
    split
    · rw [expire_sent]
      omega
    · omega
  | false =>
    simp only [if_true, ne_eq, succ_ne, not_false_eq_true, not_true_eq_false, if_false, Bool.false_eq_true]
    split
    · rw [expire_sent]
      omega
    · omega

/-- The time of the next request lies one interval behind the first call for each request so far, and at
most one interval ahead. -/
structure Paced (b : PeerBench) : Prop where
  before : b.first = none → b.app.initialized = false ∧ b.attempts = 0
  since : ∀ f, b.first = some f → b.app.initialized = true ∧ ∃ next, b.app.nextRequest = tick next ∧
    f + 100 * b.attempts ≤ next ∧ next ≤ b.now + 100

theorem Paced.congr {b' : PeerBench} (h : b.Paced) (hfirst : b'.first = b.first)
    (hinitialized : b'.app.initialized = b.app.initialized) (hnext : b'.app.nextRequest = b.app.nextRequest)
    (hattempts : b'.attempts = b.attempts) (hnow : b.now ≤ b'.now) : b'.Paced := by
  refine ⟨fun h0 => ?_, fun f hf => ?_⟩
  · rw [hinitialized, hattempts]
    exact h.before (hfirst.symm.trans h0)
  · obtain ⟨hi, next, hn, hfrom, hto⟩ := h.since f (hfirst.symm.trans hf)
    rw [hinitialized, hattempts]
    exact ⟨hi, next, hnext.trans hn, hfrom, by omega⟩

/-- The pace at the decision whether to send. -/
theorem Paced.opened (h : b.Paced) :
    ∃ next, b.opened.nextRequest = tick next ∧ b.first.getD b.now + 100 * b.attempts ≤ next ∧
      next ≤ b.now + 100 := by
  obtain ⟨-, -, hnext, -⟩ := b.opened_counts
  cases hf : b.first with
  | none =>
    obtain ⟨hi, hzero⟩ := h.before hf
    rw [hi, if_neg Bool.false_ne_true] at hnext
    refine ⟨b.now, hnext, ?_, Nat.le_add_right _ _⟩
    rw [hzero]
    exact Nat.le_refl _
  | some f =>
    obtain ⟨hi, next, hn, hfrom, hto⟩ := h.since f hf
    rw [hi, if_pos rfl, hn] at hnext
    exact ⟨next, hnext, hfrom, hto⟩

theorem Paced.service (h : b.Paced) (sent : Bool) : (b.step responseId (.service sent)).Paced := by
  obtain ⟨next, hnext, hfrom, hto⟩ := h.opened
  obtain ⟨-, -, -, hopened⟩ := b.opened_counts
  refine ⟨nofun, fun f hf => ?_⟩
  obtain rfl : b.first.getD b.now = f := Option.some.inj hf
  by_cases hwaits : b.Waits
  · obtain ⟨happ, hattempts⟩ := service_waits responseId hwaits sent
    rw [happ, hattempts]
    exact ⟨hopened, next, hnext, hfrom, hto⟩
  · obtain ⟨happ, hattempts⟩ := service_requests responseId hwaits sent
    have hdue : reached (tick b.now) (tick next) = true := by
      unfold Waits at hwaits
      rw [hnext] at hwaits
      simp only [Bool.or_eq_true, not_or, Bool.not_eq_true, Bool.not_eq_false'] at hwaits
      exact hwaits.2
    have hle : next ≤ b.now := by
      by_contra hlt
      rw [not_reached_tick_of_lt (by omega) (by omega)] at hdue
      cases hdue
    rw [happ, hattempts]
    refine ⟨?_, ?_⟩
    · cases sent <;> exact hopened
    · have hafter : tick next + peerIntervalMs = tick (next + 100) := (tick_add next 100).symm
      have hrestart : tick b.now + peerIntervalMs = tick (b.now + 100) := (tick_add b.now 100).symm
      have hvalue : (b.opened.request (tick b.now) sent).nextRequest =
          if reached (tick b.now) (tick (next + 100)) then tick (b.now + 100) else tick (next + 100) := by
        rw [← hafter, ← hrestart, ← hnext]
        cases sent <;> rfl
      rw [hvalue]
      by_cases hlate : reached (tick b.now) (tick (next + 100)) = true
      · rw [if_pos hlate]
        exact ⟨b.now + 100, rfl, by omega, Nat.le_refl _⟩
      · rw [if_neg hlate]
        exact ⟨next + 100, rfl, by omega, by simp only [step]; omega⟩

theorem onCanRx_keeps (app : PeerApp) (responseId reading id : UInt32) (data : Vector UInt8 8) (len : UInt32) :
    (app.onCanRx responseId reading id data len).initialized = app.initialized ∧
      (app.onCanRx responseId reading id data len).nextRequest = app.nextRequest := by
  unfold PeerApp.onCanRx
  split
  · split
    · split <;> exact ⟨rfl, rfl⟩
    · exact ⟨rfl, rfl⟩
  · exact ⟨rfl, rfl⟩

theorem noteAnswer_sent (before after : PeerTesterStats) (now : ℕ) (d : Dialogue) :
    (noteAnswer before after now d).sent = d.sent := by
  unfold noteAnswer Dialogue.arrive Dialogue.close
  split
  · split
    · rfl
    · split <;> rfl
  · rfl

theorem Paced.step (h : b.Paced) (e : Event) : (b.step responseId e).Paced := by
  cases e with
  | advance ms => exact h.congr rfl rfl rfl rfl (Nat.le_add_right _ _)
  | service sent => exact h.service sent
  | lose i => exact h.congr rfl rfl rfl rfl (Nat.le_refl _)
  | answer data =>
    simp only [PeerBench.step]
    split
    · exact h
    · obtain ⟨hi, hn⟩ := onCanRx_keeps b.app responseId (tick b.now) responseId data 8
      refine h.congr rfl hi hn ?_ (Nat.le_refl _)
      simp only [attempts, noteAnswer_sent]
  | other id data len =>
    simp only [PeerBench.step]
    split
    · exact h
    · obtain ⟨hi, hn⟩ := onCanRx_keeps b.app responseId (tick b.now) id data len
      exact h.congr rfl hi hn rfl (Nat.le_refl _)

/-! ## Whole runs -/

theorem faithful_step (h : Faithful b.now b.app b.dialogue b.refused) (e : Event) :
    Faithful (b.step responseId e).now (b.step responseId e).app (b.step responseId e).dialogue
      (b.step responseId e).refused := by
  cases e with
  | advance ms => exact h.later (Nat.le_add_right _ _)
  | service sent => exact h.service sent
  | lose i => exact h.lose i
  | answer data =>
    simp only [step]
    split
    · exact h
    · next hline => exact h.answer hline responseId data
  | other id data len =>
    simp only [step]
    split
    · exact h
    · next hother =>
      have happ : b.app.onCanRx responseId (tick b.now) id data len = b.app := if_neg hother
      rw [happ]
      exact h

theorem paced_start (now : ℕ) : (start now).Paced :=
  ⟨fun _ => ⟨rfl, rfl⟩, fun f hf => absurd hf (by simp [start])⟩

theorem faithful_start (now : ℕ) : Faithful now PeerApp.init Dialogue.idle 0 :=
  ⟨Dialogue.lawful_idle now, rfl, nofun, rfl, rfl, rfl, rfl, Latency.summarises_empty⟩

theorem faithful_after (responseId : UInt32) (now : ℕ) (es : List Event) :
    Faithful (after (step responseId) (start now) es).now (after (step responseId) (start now) es).app
      (after (step responseId) (start now) es).dialogue (after (step responseId) (start now) es).refused :=
  after_invariant (I := fun b => Faithful b.now b.app b.dialogue b.refused) (s := start now)
    (faithful_start now) (fun _ e h => faithful_step h e) es

/-- **The statistics tell what happened.** After every run the counters are the numbers of requests sent,
answered, given up and refused (modulo 2³²), the round-trip registers summarise the round trips of the
answered ones, a request is pending exactly when one is open, and there was one attempt at most in every
100 ms since the first call. -/
theorem statistics_faithful (responseId : UInt32) (now : ℕ) (es : List Event) :
    let b := after (step responseId) (start now) es
    Faithful b.now b.app b.dialogue b.refused ∧
      ∀ f, b.first = some f → 100 * (b.dialogue.sent + b.refused) ≤ b.now - f + 100 := by
  have hpaced : (after (step responseId) (start now) es).Paced :=
    after_invariant (paced_start now) (fun _ e h => h.step e) es
  refine ⟨faithful_after responseId now es, fun f hf => ?_⟩
  obtain ⟨-, next, -, hfrom, hto⟩ := hpaced.since f hf
  unfold attempts at hfrom
  omega

/-! ## How long a request stays open -/

/-- The service is called at least every `gap` ms. -/
def Serviced (gap : ℕ) (b : PeerBench) : Event → Prop
  | .advance ms => b.now + ms ≤ b.lastService + gap
  | _ => True

instance (gap : ℕ) (b : PeerBench) (e : Event) : Decidable (Serviced gap b e) := by
  cases e <;> unfold Serviced <;> infer_instance

/-- At the last call the open request was less than 50 ms old; a closed one was open for less than 50 ms and
one gap, and not given up before its 50 ms were over. -/
structure Windowed (gap : ℕ) (b : PeerBench) : Prop where
  serviced : b.lastService ≤ b.now ∧ b.now ≤ b.lastService + gap
  young : ∀ t, b.dialogue.pending = some t → b.lastService < t + 50
  closed : ∀ e ∈ b.dialogue.ledger, e.closed < e.opened + 50 + gap
  patient : ∀ e ∈ b.dialogue.ledger, e.answer = none → e.opened + 50 ≤ e.closed

theorem mem_close {d : Dialogue} {now : ℕ} {answer : Option ℕ} {e : Entry}
    (he : e ∈ (d.close now answer).ledger) :
    e ∈ d.ledger ∨ ∃ o, d.pending = some o ∧ e = ⟨o, now, answer⟩ := by
  unfold Dialogue.close at he
  split at he
  · exact Or.inl he
  · next o ho =>
    rcases List.mem_append.1 he with he | he
    · exact Or.inl he
    · exact Or.inr ⟨o, ho, List.mem_singleton.1 he⟩

/-- The observer sees a request given up exactly when its 50 ms are over. -/
theorem timeouts_service (h : Faithful b.now b.app b.dialogue b.refused) (sent : Bool)
    (hnear : ∀ t, b.dialogue.pending = some t → b.now < t + 2 ^ 32) :
    (b.app.service (tick b.now) sent).stats.timeouts ≠ b.app.stats.timeouts ↔
      ∃ t, b.dialogue.pending = some t ∧ t + 50 ≤ b.now := by
  have hstats : (b.app.service (tick b.now) sent).stats.timeouts = b.opened.stats.timeouts := by
    unfold PeerApp.service
    dsimp only
    split
    · rfl
    · exact (Faithful.request_counts _ _ _).1
  have hinit : (b.app.initialise (tick b.now)).stats = b.app.stats ∧
      (b.app.initialise (tick b.now)).pending = b.app.pending ∧
        (b.app.initialise (tick b.now)).startedMs = b.app.startedMs := by
    unfold PeerApp.initialise
    split <;> exact ⟨rfl, rfl, rfl⟩
  have hopened : b.opened.stats.timeouts =
      if (b.app.pending && decide (tick b.now - b.app.startedMs ≥ peerResponseMs)) = true then
        b.app.stats.timeouts + 1 else b.app.stats.timeouts := by
    unfold opened PeerApp.expire
    rw [hinit.2.1, hinit.2.2, hinit.1]
    split
    · rfl
    · exact congrArg PeerTesterStats.timeouts hinit.1
  rw [hstats, hopened]
  have hdue : (b.app.pending && decide (tick b.now - b.app.startedMs ≥ peerResponseMs)) = true ↔
      ∃ t, b.dialogue.pending = some t ∧ t + 50 ≤ b.now := by
    rw [Bool.and_eq_true, decide_eq_true_eq]
    constructor
    · rintro ⟨hpending, hage⟩
      obtain ⟨o, ho, hle, hrtt⟩ := h.opened hpending
      rw [hrtt, ge_iff_le, UInt32.le_iff_toNat_le, UInt32.toNat_ofNat'] at hage
      have hfifty : peerResponseMs.toNat = 50 := rfl
      exact ⟨o, ho, by omega⟩
    · rintro ⟨o, ho, hold⟩
      have hpending : b.app.pending = true := by
        rw [h.pending, ho]
        rfl
      obtain ⟨o', ho', hle, hrtt⟩ := h.opened hpending
      obtain rfl : o = o' := Option.some.inj (ho.symm.trans ho')
      have hlt := hnear o ho
      have hfifty : peerResponseMs.toNat = 50 := rfl
      refine ⟨hpending, ?_⟩
      rw [hrtt, ge_iff_le, UInt32.le_iff_toNat_le, UInt32.toNat_ofNat', Nat.mod_eq_of_lt (by omega)]
      omega
  rw [← hdue]
  split
  · next hyes => exact iff_of_true (succ_ne _) hyes
  · next hno => exact iff_of_false (fun hne => hne rfl) hno

theorem Windowed.service (h : b.Windowed gap) (hf : Faithful b.now b.app b.dialogue b.refused)
    (hgap : gap + 50 < 2 ^ 32) (sent : Bool) : (b.step responseId (.service sent)).Windowed gap := by
  obtain ⟨hfrom, hto⟩ := h.serviced
  have hexpired := timeouts_service hf sent fun t ht => by
    have hyoung := h.young t ht
    omega
  -- the dialogue after its first half
  generalize hd : (if (b.app.service (tick b.now) sent).stats.timeouts ≠ b.app.stats.timeouts then
    b.dialogue.expire b.now else b.dialogue) = d
  have hfirst : (∀ t, d.pending = some t → b.now < t + 50) ∧
      (∀ e ∈ d.ledger, e.closed < e.opened + 50 + gap) ∧
        ∀ e ∈ d.ledger, e.answer = none → e.opened + 50 ≤ e.closed := by
    rw [← hd]
    split
    · next hyes =>
      obtain ⟨o, ho, hold⟩ := hexpired.1 hyes
      have hyoung := h.young o ho
      refine ⟨fun t ht => ?_, fun e he => ?_, fun e he hnone => ?_⟩
      · simp only [Dialogue.expire, Dialogue.close, ho] at ht
        cases ht
      · rcases mem_close he with he | ⟨o', ho', rfl⟩
        · exact h.closed e he
        · obtain rfl : o = o' := Option.some.inj (ho.symm.trans ho')
          simp only
          omega
      · rcases mem_close he with he | ⟨o', ho', rfl⟩
        · exact h.patient e he hnone
        · obtain rfl : o = o' := Option.some.inj (ho.symm.trans ho')
          exact hold
    · next hno =>
      refine ⟨fun t ht => ?_, h.closed, h.patient⟩
      by_contra hold
      exact hno (hexpired.2 ⟨t, ht, by omega⟩)
  have hdialogue : (b.step responseId (.service sent)).dialogue =
      if (b.app.service (tick b.now) sent).stats.requestsSent ≠ b.app.stats.requestsSent then d.send b.now
      else d := by
    rw [← hd]
    rfl
  refine ⟨⟨Nat.le_refl _, Nat.le_add_right _ _⟩, fun t ht => ?_, fun e he => ?_, fun e he => ?_⟩
  · rw [hdialogue] at ht
    split at ht
    · obtain rfl : b.now = t := Option.some.inj ht
      exact Nat.lt_add_of_pos_right (by decide)
    · exact hfirst.1 t ht
  · rw [hdialogue] at he
    split at he <;> exact hfirst.2.1 e he
  · rw [hdialogue] at he
    split at he <;> exact hfirst.2.2 e he

theorem Windowed.step (h : b.Windowed gap) (hf : Faithful b.now b.app b.dialogue b.refused)
    (hgap : gap + 50 < 2 ^ 32) {e : Event} (he : Serviced gap b e) : (b.step responseId e).Windowed gap := by
  obtain ⟨hfrom, hto⟩ := h.serviced
  cases e with
  | advance ms => exact ⟨⟨Nat.le_trans hfrom (Nat.le_add_right _ _), he⟩, h.young, h.closed, h.patient⟩
  | service sent => exact h.service hf hgap sent
  | lose i => exact ⟨h.serviced, h.young, h.closed, h.patient⟩
  | answer data =>
    simp only [PeerBench.step, noteAnswer, Dialogue.arrive, Dialogue.discard]
    split
    · exact h
    · split
      · split
        · exact ⟨h.serviced, h.young, h.closed, h.patient⟩
        · next j line hline =>
          refine ⟨h.serviced, fun t ht => ?_, fun e he => ?_, fun e he hnone => ?_⟩
          · unfold Dialogue.close at ht
            split at ht
            · exact h.young t ht
            · cases ht
          · rcases mem_close he with he | ⟨o, ho, rfl⟩
            · exact h.closed e he
            · have hyoung := h.young o ho
              simp only
              omega
          · rcases mem_close he with he | ⟨o, ho, rfl⟩
            · exact h.patient e he hnone
            · cases hnone
      · exact ⟨h.serviced, h.young, h.closed, h.patient⟩
  | other id data len =>
    simp only [PeerBench.step]
    split
    · exact h
    · exact ⟨h.serviced, h.young, h.closed, h.patient⟩

theorem windowed_start (now gap : ℕ) : (start now).Windowed gap := by
  refine ⟨⟨Nat.le_refl _, Nat.le_add_right _ _⟩, ?_, ?_, ?_⟩ <;> simp [start, Dialogue.idle]

/-- **Which answer, and how late.** While the service is called at least every `gap` ms, a request is closed
by the answer to a request not later than itself, and earlier by at most as many as were given up before it;
it is open for less than 50 ms and one gap, is not given up before its 50 ms are over, and the largest
round trip is below the same bound. -/
theorem answers_in_time (responseId : UInt32) (now gap : ℕ) (es : List Event) (hgap : gap + 50 < 2 ^ 32)
    (hserviced : AllSteps (step responseId) (start now) (Serviced gap) es) :
    let b := after (step responseId) (start now) es
    (∀ k e, b.dialogue.ledger[k]? = some e →
      (∀ j, e.answer = some j → j ≤ k ∧ k ≤ j + Dialogue.givenUp (b.dialogue.ledger.take k)) ∧
        (e.answer = none → e.opened + 50 ≤ e.closed) ∧ e.closed < e.opened + 50 + gap) ∧
      b.app.stats.maxRttMs.toNat < 50 + gap := by
  have hwindowed := after_invariant_of
    (I := fun b => b.Windowed gap ∧ Faithful b.now b.app b.dialogue b.refused)
    (s := start now) ⟨windowed_start now gap, faithful_start now⟩
    (fun _ e h he => ⟨h.1.step h.2 hgap he, faithful_step h.2 e⟩) es hserviced
  obtain ⟨hw, hf⟩ := hwindowed
  refine ⟨fun k e he => ⟨fun j hj => hf.lawful.matched k e j he hj, ?_, ?_⟩, ?_⟩
  · exact hw.patient e (List.mem_of_getElem? he)
  · exact hw.closed e (List.mem_of_getElem? he)
  · generalize after (step responseId) (start now) es = b at hw hf
    by_cases hnone : rtts b.dialogue.ledger = []
    · have hempty : b.app.stats.maxRttMs = 0 := congrArg Latency.max (hf.latency.fresh hnone)
      rw [hempty]
      exact Nat.lt_of_lt_of_le (by decide) (Nat.le_add_right 50 gap)
    · obtain ⟨e, he, hmax⟩ := List.mem_map.1 (hf.latency.max_mem hnone)
      have hclosed := hw.closed e (List.mem_filter.1 he).1
      have hvalue : b.app.stats.maxRttMs = UInt32.ofNat (e.closed - e.opened) := hmax.symm
      rw [hvalue, UInt32.toNat_ofNat']
      exact Nat.lt_of_le_of_lt (Nat.mod_le _ _) (by omega)

/-- Two requests: the first one is answered late, while the second one is open. -/
def lateRun : List Event :=
  [.service true, .advance 60, .service true, .advance 40, .service true, .advance 5,
    .answer #v[0x07, 0x62, 0xF1, 0x9A, 0x65, 0x63, 0x75, 0x32]]

theorem answers_in_time_lateRun :
    (∀ k e, (after (step 0x7E9) (start 0) lateRun).dialogue.ledger[k]? = some e →
      (∀ j, e.answer = some j →
        j ≤ k ∧ k ≤ j + Dialogue.givenUp ((after (step 0x7E9) (start 0) lateRun).dialogue.ledger.take k)) ∧
        (e.answer = none → e.opened + 50 ≤ e.closed) ∧ e.closed < e.opened + 50 + 60) ∧
      (after (step 0x7E9) (start 0) lateRun).app.stats.maxRttMs.toNat < 50 + 60 :=
  answers_in_time 0x7E9 0 60 lateRun (by decide) (by decide)

example : (after (step 0x7E9) (start 0) lateRun).dialogue.ledger = [⟨0, 60, none⟩, ⟨100, 105, some 0⟩] := by
  decide

end PeerBench

end DualCan.App
