import DualCan.Isotp.Rx
import DualCan.Isotp.TxRefine
import DualCan.Uds.Reply

/-!
# The main loop's ISO-TP service

`APP_ServiceIsotp` of `main.c` with its bench options off, and the calls around it in the main loop. One
buffer holds the immediate response, the response pending and the final response, and `g_isotp_serving`
keeps the server from writing it while the sender reads it. The loop is taken in its smallest parts, each
of which calls one endpoint or the server.
-/

namespace DualCan.App

open DualCan.Isotp DualCan.Run DualCan.Uds

/-! ## The loop -/

def appIsotpTxBufferSize : ℕ := 300
def appIsotpRxBufferSize : ℕ := 300

/-- What `APP_ServiceIsotp` works on. Both endpoints call one CAN driver; a channel is what one of them sees
of it, so the two together stand for any behaviour of the driver. -/
structure MainLoop (σ : Type) where
  tx : IsotpTx
  txDriver : Channel
  rx : IsotpRx
  rxDriver : Channel
  uds : UdsServer σ × σ
  txBuffer : List UInt8
  serving : Bool

/-- A response that `IsotpTx_Start` accepted, the frames the driver had taken before, and whether the sender
has given it up since. -/
structure Transfer where
  payload : List UInt8
  base : List Frame
  aborted : Bool

/-- What a part of the loop did: the result of an endpoint's operation, the reply if the server was called
with the response buffer, and the transfer that was started. -/
structure Effect where
  result : IsotpResult
  reply : Option Reply
  started : Option Transfer

/-- The replies to a request that `APP_ServiceIsotp` starts. -/
def sendsImmediate (reply : Reply) : Bool :=
  reply.result = .response || reply.result = .responsePending

/-- The deferred replies that it starts. -/
def sendsDeferred (reply : Reply) : Bool := reply.result = .response

/-- The parts of the main loop. A server call leaves `rest` in the response buffer after its response. -/
inductive LoopStep (σ : Type) where
  | receive (now : UInt32) (frame : Frame)
  | udsTick (now : UInt32)
  | others (uds : UdsServer σ × σ)
  | pollTx (now : UInt32)
  | pollRx (now : UInt32)
  | serve (now startNow : UInt32) (rest : List UInt8)
  | pollPending (startNow : UInt32) (rest : List UInt8)
  | release

namespace MainLoop

variable {σ : Type}

/-- The main loop's state after the initialisation in `main`. -/
def boot (txDriver rxDriver : Channel) (uds : UdsServer σ × σ) : MainLoop σ :=
  let config := IsotpConfig.init (some (List.replicate appIsotpRxBufferSize 0))
  { tx := IsotpTx.init config
    txDriver := txDriver
    rx := (IsotpRx.init config false).1
    rxDriver := rxDriver
    uds := uds
    txBuffer := List.replicate appIsotpTxBufferSize 0
    serving := false }

/-- `IsotpTx_Start` on the response buffer; the endpoint serves a response if it is accepted. -/
def startResponse (s : MainLoop σ) (now : UInt32) (length : ℕ) : Option Transfer × MainLoop σ :=
  let payload := s.txBuffer.take length
  match s.tx.start s.txDriver now payload with
  | (.ok, tx, txDriver) =>
    (some ⟨payload, s.txDriver.sent, false⟩, { s with tx := tx, txDriver := txDriver, serving := true })
  | (_, tx, txDriver) => (none, { s with tx := tx, txDriver := txDriver })

/-- The server's reply, written to the response buffer and started if it is to be `sent`. -/
def respond (s : MainLoop σ) (startNow : UInt32) (rest : List UInt8) (sent : Reply → Bool)
    (outcome : Reply × UdsServer σ × σ) : Effect × MainLoop σ :=
  let (reply, uds) := outcome
  let s := { s with uds := uds, txBuffer := reply.response ++ rest }
  if sent reply && 0 < reply.response.length then
    let (started, s) := s.startResponse startNow reply.response.length
    (⟨.ok, some reply, started⟩, s)
  else (⟨.ok, some reply, none⟩, s)

/-- The request of `APP_ServiceIsotp`. -/
def serve (s : MainLoop σ) (now startNow : UInt32) (rest : List UInt8) : Effect × MainLoop σ :=
  if s.rx.messageReady && !s.serving then
    match s.rx.read appIsotpRxBufferSize with
    | (.ok, request, rx) =>
      let s := { s with rx := rx }
      s.respond startNow rest sendsImmediate
        (s.uds.1.process s.uds.2 now request appIsotpTxBufferSize)
    | (result, _, rx) => (⟨result, none, none⟩, { s with rx := rx })
  else (⟨.ok, none, none⟩, s)

/-- The deferred response of `APP_ServiceIsotp`. -/
def pollPending (s : MainLoop σ) (startNow : UInt32) (rest : List UInt8) : Effect × MainLoop σ :=
  if !s.serving then
    s.respond startNow rest sendsDeferred
      (s.uds.1.pollPending s.uds.2 appIsotpTxBufferSize)
  else (⟨.ok, none, none⟩, s)

/-- The end of `APP_ServiceIsotp`. -/
def release (s : MainLoop σ) : MainLoop σ :=
  if s.serving && !s.tx.isBusy then { s with serving := false } else s

def run (s : MainLoop σ) : LoopStep σ → Effect × MainLoop σ
  | .receive now frame =>
    let (result, tx, rx, rxDriver) := routeFrame s.tx s.rx s.rxDriver now frame
    (⟨result, none, none⟩, { s with tx := tx, rx := rx, rxDriver := rxDriver })
  | .udsTick now => (⟨.ok, none, none⟩, { s with uds := (s.uds.1.tick now, s.uds.2) })
  | .others uds => (⟨.ok, none, none⟩, { s with uds := uds })
  | .pollTx now =>
    let (result, tx, txDriver) := s.tx.poll s.txDriver now
    (⟨result, none, none⟩, { s with tx := tx, txDriver := txDriver })
  | .pollRx now =>
    let (result, rx, rxDriver) := s.rx.poll s.rxDriver now
    (⟨result, none, none⟩, { s with rx := rx, rxDriver := rxDriver })
  | .serve now startNow rest => s.serve now startNow rest
  | .pollPending startNow rest => s.pollPending startNow rest
  | .release => (⟨.ok, none, none⟩, s.release)

end MainLoop

/-- What happens in the main loop, in any order: a received frame is dispatched, the server ticks, the rest
of the loop leaves other values in what the server reports, or `APP_ServiceIsotp` runs. -/
inductive LoopEvent (σ : Type) where
  | receive (now : UInt32) (frame : Frame)
  | udsTick (now : UInt32)
  | others (uds : UdsServer σ × σ)
  | serviceIsotp (now txNow rxNow serveNow pendingNow : UInt32) (serveRest pendingRest : List UInt8)

/-- The parts of an event, in the order of the source. -/
def LoopEvent.steps {σ : Type} : LoopEvent σ → List (LoopStep σ)
  | .receive now frame => [.receive now frame]
  | .udsTick now => [.udsTick now]
  | .others uds => [.others uds]
  | .serviceIsotp now txNow rxNow serveNow pendingNow serveRest pendingRest =>
    [.pollTx txNow, .pollRx rxNow, .serve now serveNow serveRest, .pollPending pendingNow pendingRest,
      .release]

/-! ## The transfers of a run -/

/-- Every frame of the response has been handed to the driver, or its transfer was aborted. -/
def Transfer.Ended (sent : List Frame) (transfer : Transfer) : Prop :=
  transfer.base ++ segments defaultPadding transfer.payload <+: sent ∨ transfer.aborted = true

/-- The newest transfer is given up. -/
def abortNewest : List Transfer → List Transfer
  | [] => []
  | transfer :: older => { transfer with aborted := true } :: older

/-- The main loop with the transfers it has started, newest first. -/
structure Watched (σ : Type) where
  loop : MainLoop σ
  transfers : List Transfer

namespace Watched

variable {σ : Type}

def boot (txDriver rxDriver : Channel) (uds : UdsServer σ × σ) : Watched σ :=
  ⟨MainLoop.boot txDriver rxDriver uds, []⟩

/-- The transfers after a part of the loop: one more, or the newest given up when the sender has become idle
with an error. -/
def observe (transfers : List Transfer) (effect : Effect) (before next : IsotpTx) : List Transfer :=
  match effect.started with
  | some transfer => transfer :: transfers
  | none =>
    if before.isBusy && !next.isBusy && effect.result ≠ .ok then abortNewest transfers else transfers

def step (w : Watched σ) (e : LoopStep σ) : Watched σ :=
  ⟨(w.loop.run e).2, observe w.transfers (w.loop.run e).1 w.loop.tx (w.loop.run e).2.tx⟩

/-- The response buffer belongs to the sender while it is busy, and to the server otherwise. -/
structure Owned (w : Watched σ) (e : LoopStep σ) : Prop where
  /-- A busy sender is being served. -/
  serving : w.loop.tx.isBusy = true → w.loop.serving = true
  /-- The response that a busy sender reads is in the buffer. -/
  data : w.loop.tx.isBusy = true → w.loop.tx.txData <+: w.loop.txBuffer
  /-- The buffer is not modified under a busy sender. -/
  unmodified : w.loop.tx.isBusy = true → (w.step e).loop.txBuffer = w.loop.txBuffer
  /-- No request is processed, and no deferred one either, while a transfer is in progress. -/
  noRequest : w.loop.tx.isBusy = true → (w.loop.run e).1.reply = none
  /-- A response is started only when every earlier one has ended. -/
  inTurn : ∀ transfer, (w.loop.run e).1.started = some transfer →
    ∀ earlier ∈ w.transfers, earlier.Ended w.loop.txDriver.sent
  /-- A response pending is always started. -/
  pending : ∀ reply, (w.loop.run e).1.reply = some reply → reply.pending = true →
    (w.loop.run e).1.started = some ⟨reply.response, w.loop.txDriver.sent, false⟩

/-! ## The invariant -/

/-- Where the newest transfer stands; the older ones ended before it began. -/
inductive Carried (tx : IsotpTx) (driver : Channel) : List Transfer → Prop where
  | idle {transfers : List Transfer} (idle : tx.txOngoing = false)
      (ended : ∀ earlier ∈ transfers, earlier.Ended driver.sent) : Carried tx driver transfers
  | sending {transfer : Transfer} {older : List Transfer} (k : ℕ) (ongoing : tx.txOngoing = true)
      (scheduled : IsotpTx.Scheduled defaultPadding transfer.payload transfer.base k tx driver)
      (ended : ∀ earlier ∈ older, earlier.Ended transfer.base) : Carried tx driver (transfer :: older)

/-- What every part of the loop keeps. -/
structure Sound (w : Watched σ) : Prop where
  nAs : w.loop.tx.nAsMs ≠ 0
  padding : w.loop.tx.padding = defaultPadding
  serving : w.loop.tx.isBusy = true → w.loop.serving = true
  data : w.loop.tx.isBusy = true → w.loop.tx.txData <+: w.loop.txBuffer
  carried : Carried w.loop.tx w.loop.txDriver w.transfers

theorem sound_boot (txDriver rxDriver : Channel) (uds : UdsServer σ × σ) :
    Sound (boot txDriver rxDriver uds) where
  nAs := by
    show orDefault defaultNAsMs defaultNAsMs ≠ 0
    exact orDefault_ne_zero (by decide)
  padding := rfl
  serving := nofun
  data := nofun
  carried := .idle rfl nofun

theorem Carried.of_idle {tx : IsotpTx} {driver : Channel} {transfers : List Transfer}
    (h : Carried tx driver transfers) (hidle : tx.isBusy = false) :
    ∀ earlier ∈ transfers, earlier.Ended driver.sent := by
  cases h with
  | idle _ ended => exact ended
  | sending k ongoing => exact absurd ongoing (ne_true_of_eq_false hidle)

/-- What an operation leaves of the newest transfer, once an error that ends it is noted. -/
theorem carried_of_outcome {tx : IsotpTx} {driver : Channel} {result : IsotpResult}
    (transfer : Transfer) {older : List Transfer}
    (h : IsotpTx.Outcome defaultPadding transfer.payload transfer.base result tx driver)
    (hended : ∀ earlier ∈ older, earlier.Ended transfer.base) :
    Carried tx driver
      (if !tx.isBusy && result ≠ .ok then abortNewest (transfer :: older) else transfer :: older) := by
  have holder : ∀ {frames : List Frame}, driver.sent = transfer.base ++ frames →
      ∀ earlier ∈ older, earlier.Ended driver.sent := by
    intro frames hsent earlier hmem
    refine (hended earlier hmem).imp_left fun hall => ?_
    rw [hsent]
    exact hall.trans (List.prefix_append ..)
  cases h with
  | sending k ongoing scheduled =>
    rw [show tx.isBusy = true from ongoing]
    exact .sending k ongoing scheduled hended
  | done ok idle sent =>
    rw [ok, if_neg (by simp)]
    refine .idle idle ?_
    rintro earlier (_ | ⟨_, hmem⟩)
    · exact Or.inl (sent ▸ List.prefix_rfl)
    · exact holder sent earlier hmem
  | failed k err idle sent =>
    rw [show tx.isBusy = false from idle, if_pos (by simpa using err)]
    refine .idle idle ?_
    rintro earlier (_ | ⟨_, hmem⟩)
    · exact Or.inr rfl
    · exact holder sent earlier hmem

/-- A part of the loop that leaves the sender alone, and under a busy sender the flag and the buffer. -/
theorem Sound.of_tx {s s' : MainLoop σ} {transfers : List Transfer} (h : Sound ⟨s, transfers⟩)
    (htx : s'.tx = s.tx) (hdriver : s'.txDriver = s.txDriver)
    (hserving : s.tx.isBusy = true → s'.serving = s.serving)
    (hbuffer : s.tx.isBusy = true → s'.txBuffer = s.txBuffer) : Sound ⟨s', transfers⟩ where
  nAs := htx ▸ h.nAs
  padding := htx ▸ h.padding
  serving hbusy := by
    rw [htx] at hbusy
    exact (hserving hbusy).trans (h.serving hbusy)
  data hbusy := by
    rw [htx] at hbusy ⊢
    rw [hbuffer hbusy]
    exact h.data hbusy
  carried := by
    rw [htx, hdriver]
    exact h.carried

/-- An operation of the sender on a transfer in progress. -/
theorem Sound.operate {w : Watched σ} (h : Sound w) {result : IsotpResult} {tx : IsotpTx} {driver : Channel}
    (hconfig : tx.config = w.loop.tx.config)
    (hidle : w.loop.tx.txOngoing = false → tx = w.loop.tx ∧ driver = w.loop.txDriver)
    (hout : ∀ {payload base k}, IsotpTx.Scheduled defaultPadding payload base k w.loop.tx w.loop.txDriver →
      w.loop.tx.txOngoing = true → IsotpTx.Outcome defaultPadding payload base result tx driver) :
    Sound ⟨{ w.loop with tx := tx, txDriver := driver },
      observe w.transfers ⟨result, none, none⟩ w.loop.tx tx⟩ := by
  obtain ⟨loop, transfers⟩ := w
  simp only [IsotpTx.config, Prod.mk.injEq] at hconfig
  have hcarried := h.carried
  cases hcarried with
  | idle idle ended =>
    obtain ⟨rfl, rfl⟩ := hidle idle
    rw [observe, show loop.tx.isBusy = false from idle]
    exact h
  | @sending transfer older k ongoing scheduled ended =>
    have houtcome := hout scheduled ongoing
    refine ⟨?_, hconfig.2.2.2.trans h.padding, fun _ => h.serving ongoing, fun hbusy => ?_, ?_⟩
    · rw [show tx.nAsMs = loop.tx.nAsMs from hconfig.1]
      exact h.nAs
    · have hdata : tx.txData = loop.tx.txData := by
        cases houtcome with
        | sending _ _ scheduled' => rw [scheduled'.data, scheduled.data]
        | done _ idle => exact absurd hbusy (ne_true_of_eq_false idle)
        | failed _ _ idle => exact absurd hbusy (ne_true_of_eq_false idle)
      rw [hdata]
      exact h.data ongoing
    · rw [observe, show loop.tx.isBusy = true from ongoing]
      simpa only [Bool.true_and] using carried_of_outcome transfer houtcome ended

/-! ## Starting a response -/

theorem startResponse_cases (s : MainLoop σ) (now : UInt32) (length : ℕ) :
    s.startResponse now length = (none, s) ∨
      ∃ tx driver, s.tx.start s.txDriver now (s.txBuffer.take length) = (.ok, tx, driver) ∧
        s.startResponse now length = (some ⟨s.txBuffer.take length, s.txDriver.sent, false⟩,
          { s with tx := tx, txDriver := driver, serving := true }) := by
  unfold MainLoop.startResponse
  dsimp only
  rcases hstart : s.tx.start s.txDriver now (s.txBuffer.take length) with ⟨result, tx, driver⟩
  by_cases hok : result = .ok
  · subst hok
    exact Or.inr ⟨tx, driver, rfl, rfl⟩
  · have hsame := IsotpTx.start_refused (by rw [hstart]; exact hok)
    rw [hstart] at hsame
    obtain ⟨rfl, rfl⟩ := Prod.mk.inj hsame
    refine Or.inl ?_
    split
    · next heq => exact absurd (Prod.mk.inj heq).1 hok
    · next heq =>
      obtain ⟨-, rfl, rfl⟩ := by simpa using heq
      rfl

/-- Starting a response when the sender is idle. -/
theorem Sound.startResponse {s : MainLoop σ} {transfers : List Transfer} (h : Sound ⟨s, transfers⟩)
    (hidle : s.tx.isBusy = false) (now : UInt32) (length : ℕ) :
    Sound ⟨(s.startResponse now length).2, (s.startResponse now length).1.toList ++ transfers⟩ := by
  rcases startResponse_cases s now length with hnone | ⟨tx, driver, hstart, hsome⟩
  · rw [hnone]
    exact h
  rw [hsome]
  have hconfig := IsotpTx.start_config s.tx s.txDriver now (s.txBuffer.take length)
  rw [hstart] at hconfig
  simp only [IsotpTx.config, Prod.mk.injEq] at hconfig
  obtain ⟨-, -, hout⟩ := IsotpTx.start_outcome h.padding h.nAs hstart
  refine ⟨?_, hconfig.2.2.2.trans h.padding, fun _ => rfl, fun hbusy => ?_, ?_⟩
  · rw [show tx.nAsMs = s.tx.nAsMs from hconfig.1]
    exact h.nAs
  · cases hout with
    | sending k ongoing scheduled => exact scheduled.data ▸ List.take_prefix ..
    | done _ idle => exact absurd hbusy (ne_true_of_eq_false idle)
    | failed _ _ idle => exact absurd hbusy (ne_true_of_eq_false idle)
  · have hcarried := carried_of_outcome ⟨s.txBuffer.take length, s.txDriver.sent, false⟩ hout
      (h.carried.of_idle hidle)
    simpa using hcarried

/-- Answering when the sender is idle. -/
theorem Sound.respond {s : MainLoop σ} {transfers : List Transfer} (h : Sound ⟨s, transfers⟩)
    (hidle : s.tx.isBusy = false) (startNow : UInt32) (rest : List UInt8) (sent : Reply → Bool)
    (outcome : Reply × UdsServer σ × σ) :
    Sound ⟨(s.respond startNow rest sent outcome).2,
      (s.respond startNow rest sent outcome).1.started.toList ++ transfers⟩ := by
  obtain ⟨reply, uds⟩ := outcome
  have hwritten : Sound ⟨{ s with uds := uds, txBuffer := reply.response ++ rest }, transfers⟩ :=
    h.of_tx rfl rfl (fun _ => rfl) fun hbusy => by rw [hidle] at hbusy; cases hbusy
  unfold MainLoop.respond
  dsimp only
  split
  · exact hwritten.startResponse hidle startNow _
  · exact hwritten

theorem observe_of_idle (transfers : List Transfer) (effect : Effect) {before next : IsotpTx}
    (hidle : before.isBusy = false) :
    observe transfers effect before next = effect.started.toList ++ transfers := by
  unfold observe
  rw [hidle]
  cases effect.started <;> rfl

/-! ## One part of the loop -/

theorem Sound.idle_of_not_serving {w : Watched σ} (h : Sound w) (hserving : w.loop.serving = false) :
    w.loop.tx.isBusy = false := by
  cases hbusy : w.loop.tx.isBusy with
  | false => rfl
  | true => exact absurd (h.serving hbusy) (ne_true_of_eq_false hserving)

/-- The server answers a request only when no response is being served. -/
theorem serve_cases (s : MainLoop σ) (now startNow : UInt32) (rest : List UInt8) :
    (∃ result rx, s.serve now startNow rest = (⟨result, none, none⟩, { s with rx := rx })) ∨
      (s.serving = false ∧ ∃ rx request, s.serve now startNow rest =
        MainLoop.respond { s with rx := rx } startNow rest sendsImmediate
          (s.uds.1.process s.uds.2 now request appIsotpTxBufferSize)) := by
  unfold MainLoop.serve
  split
  · next hready =>
    simp only [Bool.and_eq_true, Bool.not_eq_true'] at hready
    split
    · exact Or.inr ⟨hready.2, _, _, rfl⟩
    · exact Or.inl ⟨_, _, rfl⟩
  · exact Or.inl ⟨.ok, s.rx, rfl⟩

theorem pollPending_cases (s : MainLoop σ) (startNow : UInt32) (rest : List UInt8) :
    s.pollPending startNow rest = (⟨.ok, none, none⟩, s) ∨
      (s.serving = false ∧ s.pollPending startNow rest =
        s.respond startNow rest sendsDeferred (s.uds.1.pollPending s.uds.2 appIsotpTxBufferSize)) := by
  unfold MainLoop.pollPending
  split
  · next hfree => exact Or.inr ⟨by simpa using hfree, rfl⟩
  · exact Or.inl rfl

/-- A received frame reaches the sender only as an answer to a transfer in progress. -/
theorem routeFrame_cases {tx tx' : IsotpTx} {rx rx' : IsotpRx} {c c' : Channel} {now : UInt32} {frame : Frame}
    {result : IsotpResult} (h : routeFrame tx rx c now frame = (result, tx', rx', c')) :
    tx' = tx ∨ tx.onFrame now frame = (result, tx') ∧ rx' = rx ∧ c' = c := by
  unfold routeFrame at h
  split at h
  · split at h
    · cases h
      exact Or.inl rfl
    · cases h
      exact Or.inr ⟨rfl, rfl, rfl⟩
  · cases h
    exact Or.inl rfl

/-- A part of the loop that starts nothing and leaves the sender alone is no abort. -/
theorem Sound.observe_same {s s' : MainLoop σ} {transfers : List Transfer} (h : Sound ⟨s', transfers⟩)
    (htx : s'.tx = s.tx) (result : IsotpResult) :
    Sound ⟨s', observe transfers ⟨result, none, none⟩ s.tx s'.tx⟩ := by
  rw [htx, observe]
  cases s.tx.isBusy <;> exact h

theorem Sound.receive {w : Watched σ} (h : Sound w) (now : UInt32) (frame : Frame) :
    Sound (w.step (.receive now frame)) := by
  rcases hroute : routeFrame w.loop.tx w.loop.rx w.loop.rxDriver now frame with ⟨result, tx, rx, rxDriver⟩
  have hstep : w.step (.receive now frame) = ⟨{ w.loop with tx := tx, rx := rx, rxDriver := rxDriver },
      observe w.transfers ⟨result, none, none⟩ w.loop.tx tx⟩ := by
    simp only [Watched.step, MainLoop.run, hroute]
  rw [hstep]
  rcases routeFrame_cases hroute with rfl | ⟨hframe, rfl, rfl⟩
  · refine Sound.observe_same ?_ rfl result
    exact h.of_tx rfl rfl (fun _ => rfl) fun _ => rfl
  · have hconfig := IsotpTx.onFrame_config w.loop.tx now frame
    rw [hframe] at hconfig
    refine h.operate hconfig (fun hidle => ⟨?_, rfl⟩) fun hs ho => IsotpTx.onFrame_outcome hs ho hframe
    rw [IsotpTx.onFrame, hidle] at hframe
    exact (Prod.mk.inj hframe).2.symm

theorem Sound.serve {w : Watched σ} (h : Sound w) (now startNow : UInt32) (rest : List UInt8) :
    Sound (w.step (.serve now startNow rest)) := by
  show Sound ⟨(w.loop.serve now startNow rest).2, observe w.transfers (w.loop.serve now startNow rest).1
    w.loop.tx (w.loop.serve now startNow rest).2.tx⟩
  rcases serve_cases w.loop now startNow rest with ⟨result, rx, hskip⟩ | ⟨hserving, rx, request, hcall⟩
  · rw [hskip]
    refine Sound.observe_same ?_ rfl result
    exact h.of_tx rfl rfl (fun _ => rfl) fun _ => rfl
  · have hidle := h.idle_of_not_serving hserving
    rw [observe_of_idle _ _ hidle, hcall]
    refine Sound.respond ?_ ?_ ..
    · exact h.of_tx rfl rfl (fun _ => rfl) fun _ => rfl
    · exact hidle

theorem Sound.pollPending {w : Watched σ} (h : Sound w) (startNow : UInt32) (rest : List UInt8) :
    Sound (w.step (.pollPending startNow rest)) := by
  show Sound ⟨(w.loop.pollPending startNow rest).2, observe w.transfers (w.loop.pollPending startNow rest).1
    w.loop.tx (w.loop.pollPending startNow rest).2.tx⟩
  rcases pollPending_cases w.loop startNow rest with hskip | ⟨hserving, hcall⟩
  · rw [hskip]
    exact h.observe_same rfl .ok
  · have hidle := h.idle_of_not_serving hserving
    rw [observe_of_idle _ _ hidle, hcall]
    exact h.respond hidle ..

theorem Sound.release {s : MainLoop σ} {transfers : List Transfer} (h : Sound ⟨s, transfers⟩) :
    Sound ⟨s.release, transfers⟩ := by
  unfold MainLoop.release
  split
  · next hfree =>
    simp only [Bool.and_eq_true, Bool.not_eq_true'] at hfree
    -- the flag only falls once the sender is idle
    exact h.of_tx rfl rfl (fun hbusy => absurd hbusy (ne_true_of_eq_false hfree.2)) fun _ => rfl
  · exact h

theorem Sound.step {w : Watched σ} (h : Sound w) (e : LoopStep σ) : Sound (w.step e) := by
  cases e with
  | receive now frame => exact h.receive now frame
  | udsTick now =>
    refine Sound.observe_same ?_ rfl .ok
    exact h.of_tx rfl rfl (fun _ => rfl) fun _ => rfl
  | others uds =>
    refine Sound.observe_same ?_ rfl .ok
    exact h.of_tx rfl rfl (fun _ => rfl) fun _ => rfl
  | pollRx now =>
    refine Sound.observe_same ?_ rfl _
    exact h.of_tx rfl rfl (fun _ => rfl) fun _ => rfl
  | pollTx now =>
    refine h.operate (IsotpTx.poll_config ..) ?_ fun hs ho => IsotpTx.poll_outcome hs ho rfl
    intro hidle
    have hpoll : w.loop.tx.poll w.loop.txDriver now = (.ok, w.loop.tx, w.loop.txDriver) := by
      rw [IsotpTx.poll, hidle]
      rfl
    exact Prod.mk.inj (congrArg Prod.snd hpoll)
  | serve now startNow rest => exact h.serve now startNow rest
  | pollPending startNow rest => exact h.pollPending startNow rest
  | release =>
    refine Sound.observe_same h.release ?_ .ok
    unfold MainLoop.release
    split <;> rfl

/-! ## Ownership -/

/-- While the sender is busy no part of the loop calls the server with the response buffer. -/
theorem Sound.run_of_busy {w : Watched σ} (h : Sound w) (hbusy : w.loop.tx.isBusy = true) (e : LoopStep σ) :
    (w.loop.run e).1.reply = none ∧ (w.loop.run e).1.started = none ∧
      (w.loop.run e).2.txBuffer = w.loop.txBuffer := by
  have hserving : w.loop.serving ≠ false := ne_false_of_eq_true (h.serving hbusy)
  cases e with
  | serve now startNow rest =>
    show (w.loop.serve now startNow rest).1.reply = none ∧ (w.loop.serve now startNow rest).1.started = none ∧
      (w.loop.serve now startNow rest).2.txBuffer = w.loop.txBuffer
    rcases serve_cases w.loop now startNow rest with ⟨result, rx, hskip⟩ | ⟨hfree, -⟩
    · rw [hskip]
      exact ⟨rfl, rfl, rfl⟩
    · exact absurd hfree hserving
  | pollPending startNow rest =>
    show (w.loop.pollPending startNow rest).1.reply = none ∧
      (w.loop.pollPending startNow rest).1.started = none ∧
      (w.loop.pollPending startNow rest).2.txBuffer = w.loop.txBuffer
    rcases pollPending_cases w.loop startNow rest with hskip | ⟨hfree, -⟩
    · rw [hskip]
      exact ⟨rfl, rfl, rfl⟩
    · exact absurd hfree hserving
  | release =>
    refine ⟨rfl, rfl, ?_⟩
    show w.loop.release.txBuffer = w.loop.txBuffer
    unfold MainLoop.release
    split <;> rfl
  | _ => exact ⟨rfl, rfl, rfl⟩

theorem Sound.idle_of_run {w : Watched σ} (h : Sound w) {e : LoopStep σ}
    (hcall : (w.loop.run e).1.reply ≠ none ∨ (w.loop.run e).1.started ≠ none) : w.loop.tx.isBusy = false := by
  cases hbusy : w.loop.tx.isBusy with
  | false => rfl
  | true =>
    obtain ⟨hreply, hstarted, -⟩ := h.run_of_busy hbusy e
    exact absurd hcall (by simp [hreply, hstarted])

theorem respond_reply (s : MainLoop σ) (startNow : UInt32) (rest : List UInt8) (sent : Reply → Bool)
    (outcome : Reply × UdsServer σ × σ) :
    (s.respond startNow rest sent outcome).1.reply = some outcome.1 := by
  unfold MainLoop.respond
  dsimp only
  split <;> rfl

/-- An idle sender accepts every response of a message's length that is to be sent. -/
theorem respond_started {s : MainLoop σ} (hidle : s.tx.isBusy = false) (startNow : UInt32) (rest : List UInt8)
    {sent : Reply → Bool} {outcome : Reply × UdsServer σ × σ} (hsent : sent outcome.1 = true)
    (h1 : 0 < outcome.1.response.length) (h2 : outcome.1.response.length ≤ maxTotalLength) :
    (s.respond startNow rest sent outcome).1.started =
      some ⟨outcome.1.response, s.txDriver.sent, false⟩ := by
  have hok : (s.tx.start s.txDriver startNow outcome.1.response).1 = .ok := IsotpTx.start_ok hidle h1 h2
  unfold MainLoop.respond MainLoop.startResponse
  simp only [hsent, h1, decide_true, Bool.and_self, if_true, List.take_left']
  rcases hstart : s.tx.start s.txDriver startNow outcome.1.response with ⟨result, tx, driver⟩
  obtain rfl : result = .ok := by rw [hstart] at hok; exact hok
  rfl

/-- NRC 0x78 is started as soon as the server has answered with it. -/
theorem Sound.pending_started {w : Watched σ} (h : Sound w) {e : LoopStep σ} {reply : Reply}
    (hreply : (w.loop.run e).1.reply = some reply) (hpending : reply.pending = true) :
    (w.loop.run e).1.started = some ⟨reply.response, w.loop.txDriver.sent, false⟩ := by
  have hidle := h.idle_of_run (Or.inl (by rw [hreply]; exact Option.some_ne_none reply))
  cases e with
  | serve now startNow rest =>
    change (w.loop.serve now startNow rest).1.reply = some reply at hreply
    show (w.loop.serve now startNow rest).1.started = _
    rcases serve_cases w.loop now startNow rest with ⟨result, rx, hskip⟩ | ⟨-, rx, request, hcall⟩
    · rw [hskip] at hreply
      cases hreply
    rw [hcall, respond_reply] at hreply
    obtain rfl := Option.some.inj hreply
    obtain ⟨service, args, -, hform⟩ := UdsServer.process_pending hpending
    rw [hcall]
    refine respond_started ?_ startNow rest ?_ ?_ ?_
    · exact hidle
    · rw [hform]
      rfl
    · rw [hform]
      exact Nat.succ_pos _
    · rw [hform]
      exact (by decide : 3 ≤ maxTotalLength)
  | pollPending startNow rest =>
    change (w.loop.pollPending startNow rest).1.reply = some reply at hreply
    rcases pollPending_cases w.loop startNow rest with hskip | ⟨-, hcall⟩
    · rw [hskip] at hreply
      cases hreply
    rw [hcall, respond_reply] at hreply
    obtain rfl := Option.some.inj hreply
    rw [UdsServer.pollPending_pending] at hpending
    cases hpending
  | _ => cases hreply

theorem Sound.owned {w : Watched σ} (h : Sound w) (e : LoopStep σ) : Owned w e where
  serving := h.serving
  data := h.data
  unmodified hbusy := (h.run_of_busy hbusy e).2.2
  noRequest hbusy := (h.run_of_busy hbusy e).1
  inTurn _ hstarted :=
    h.carried.of_idle (h.idle_of_run (Or.inr (by rw [hstarted]; exact Option.some_ne_none _)))
  pending _ hreply hpending := h.pending_started hreply hpending

/-- **The response buffer has one owner.** Whatever frames arrive, whatever the driver answers and whatever the
ticks are, in every part of the main loop the buffer belongs to the sender while it is busy; and a busy sender
is being served whenever `APP_ServiceIsotp` returns. -/
theorem response_buffer_owned (txDriver rxDriver : Channel) (uds : UdsServer σ × σ)
    (events : List (LoopEvent σ)) :
    AllSteps step (boot txDriver rxDriver uds) Owned (events.flatMap LoopEvent.steps) ∧
      ((after step (boot txDriver rxDriver uds) (events.flatMap LoopEvent.steps)).loop.tx.isBusy = true →
        (after step (boot txDriver rxDriver uds) (events.flatMap LoopEvent.steps)).loop.serving = true) := by
  have hboot := sound_boot txDriver rxDriver uds
  refine ⟨?_, ?_⟩
  · exact allSteps_of_invariant hboot (fun _ e h => h.step e) (fun _ e h => h.owned e) _
  · exact (after_invariant hboot (fun _ e h => h.step e) _).serving

end Watched

end DualCan.App
