import DualCan.Can.Background
import DualCan.Run.Dialogue
import DualCan.Run.Latency
import DualCan.Run.Slots
import DualCan.Run.Timed

/-!
# The stress master

`stress_master.c` with `APP_RunStressMaster`, `APP_StressServiceBackground` and the response branch of
`APP_OnCanRx` of `main.c`: a given number of requests, one at a time and one every 20 ms, with a numbered
background frame every 228 µs, all timed with the cycle counter. The two nested loops are a program counter
(`StressPc`); every reading of the counter is a step of its own, and time passes between steps.

A `StressBench` runs the program against a peer that answers a request at most once. The responses that come
after their request was given up are counted as good ones too, so the counts of a finished test add up to
more than its requests (`stress_accounts`); the background numbers tell the period each frame was sent in
(`background_slots`).
-/

namespace DualCan.App

open DualCan.Clock DualCan.Run

/-- `StressMasterState_t`. -/
inductive StressMasterState where
  | ready
  | running
  | done
  deriving DecidableEq, Repr

/-- `StressMasterStats_t`. -/
structure StressMasterStats where
  state : StressMasterState
  requestsTarget : UInt32
  requestsSent : UInt32
  responsesOk : UInt32
  timeouts : UInt32
  invalidResponses : UInt32
  backgroundSent : UInt32
  backgroundMissed : UInt32
  lastRttCycles : UInt32
  minRttCycles : UInt32
  maxRttCycles : UInt32
  rttTotalCycles : UInt32
  runtimeCycles : UInt32
  lastResponseLength : UInt16
  lastResponse : Vector UInt8 8
  deriving DecidableEq, Repr

namespace StressMaster

/-- `STRESS_REQUEST_DID`. -/
def requestDid : UInt16 := 0xF19A

/-- `StressMaster_Init`. -/
def init (requestsTarget : UInt32) : StressMasterStats where
  state := .ready
  requestsTarget := requestsTarget
  requestsSent := 0
  responsesOk := 0
  timeouts := 0
  invalidResponses := 0
  backgroundSent := 0
  backgroundMissed := 0
  lastRttCycles := 0
  minRttCycles := 0xFFFFFFFF
  maxRttCycles := 0
  rttTotalCycles := 0
  runtimeCycles := 0
  lastResponseLength := 0
  lastResponse := Vector.replicate 8 0

/-- `StressMaster_BuildRequest`. -/
def buildRequest : Vector UInt8 8 := #v[0x03, 0x22, 0xF1, 0x9A, 0, 0, 0, 0]

/-- `StressMaster_BuildBackground`, the bytes of `LoadGenerator_BuildFrame`. -/
def buildBackground (sequence : UInt32) : Vector UInt8 8 := Can.buildFrame sequence

/-- `StressMaster_RecordRequest`. -/
def recordRequest (stats : StressMasterStats) : StressMasterStats :=
  { stats with state := .running, requestsSent := stats.requestsSent + 1 }

/-- `StressMaster_AcceptResponse`. -/
def acceptResponse (stats : StressMasterStats) (receivedId : UInt32) (data : Vector UInt8 8)
    (dataLength : UInt8) (expectedResponseId : UInt32) : Bool × StressMasterStats :=
  if receivedId ≠ expectedResponseId ∨ dataLength ≠ 8 ∨ data[0]! &&& 0xF0 ≠ 0 ∨ data[0]! &&& 0x0F ≠ 7 ∨
      data[1]! ≠ 0x62 ∨ data[2]! ≠ (requestDid >>> 8).toUInt8 ∨ data[3]! ≠ requestDid.toUInt8 then
    (false, stats)
  else
    (true, { stats with responsesOk := stats.responsesOk + 1, lastResponseLength := 8, lastResponse := data })

/-- A frame is refused and changes nothing, or it is counted and kept. -/
theorem acceptResponse_cases (stats : StressMasterStats) (receivedId : UInt32) (data : Vector UInt8 8)
    (dataLength : UInt8) (expectedResponseId : UInt32) :
    acceptResponse stats receivedId data dataLength expectedResponseId = (false, stats) ∨
      acceptResponse stats receivedId data dataLength expectedResponseId =
        (true,
          { stats with responsesOk := stats.responsesOk + 1, lastResponseLength := 8, lastResponse := data }) := by
  unfold acceptResponse
  split
  · exact .inl rfl
  · exact .inr rfl

/-- `StressMaster_RecordLatency`. -/
def recordLatency (stats : StressMasterStats) (cycles : UInt32) : StressMasterStats :=
  { stats with
    lastRttCycles := cycles
    rttTotalCycles := stats.rttTotalCycles + cycles
    minRttCycles := if cycles < stats.minRttCycles then cycles else stats.minRttCycles
    maxRttCycles := if cycles > stats.maxRttCycles then cycles else stats.maxRttCycles }

/-- `StressMaster_RecordTimeout`. -/
def recordTimeout (stats : StressMasterStats) : StressMasterStats :=
  { stats with timeouts := stats.timeouts + 1 }

/-- `StressMaster_Finish`. -/
def finish (stats : StressMasterStats) : StressMasterStats := { stats with state := .done }

end StressMaster

/-! ## The program -/

/-- Where `APP_RunStressMaster` stands: at the test of a loop, in its body, at the reception of frames in a
body, or at one of the statements between the loops. -/
inductive StressPc where
  | check
  | pace
  | paceBody
  | paceRx
  | request
  | wait
  | waitBody
  | waitRx
  | record
  | reschedule
  | restart
  | finished
  deriving DecidableEq, Repr

/-- The local variables of `APP_RunStressMaster`, with `g_stress_master` and `g_stress_response_seen`. -/
structure StressApp where
  pc : StressPc
  stats : StressMasterStats
  seen : Bool
  requestDue : UInt32
  requestStarted : UInt32
  responseDeadline : UInt32
  background : Slots
  testStarted : UInt32

/-- `SystemCoreClock / 1000000` and the identifier of the responses, of one board. -/
structure StressBuild where
  cyclesPerUs : UInt32
  responseId : UInt32

namespace StressBuild

/-- `APP_STRESS_INTERVAL_US` in cycles. -/
def requestPeriod (build : StressBuild) : UInt32 := 20000 * build.cyclesPerUs

/-- `APP_STRESS_RESPONSE_US` in cycles. -/
def responseTimeout (build : StressBuild) : UInt32 := 50000 * build.cyclesPerUs

/-- `APP_STRESS_BG_PERIOD_US` in cycles. -/
def backgroundPeriod (build : StressBuild) : UInt32 := 228 * build.cyclesPerUs

end StressBuild

namespace StressApp

/-- The program before its first loop, at the reading `now`. -/
def init (requestsTarget now : UInt32) : StressApp where
  pc := .check
  stats := StressMaster.init requestsTarget
  seen := false
  requestDue := now
  requestStarted := 0
  responseDeadline := 0
  background := ⟨now, 0⟩
  testStarted := now

/-- `APP_StressServiceBackground`, with the frame it gives the driver; `sent` is the driver's answer. -/
def serviceBackground (build : StressBuild) (app : StressApp) (now : UInt32) (sent : Bool) :
    Option (Vector UInt8 8) × StressApp :=
  if before now app.background.next then (none, app)
  else
    let skipped := app.background.skipped build.backgroundPeriod now
    let background := app.background.catchUp build.backgroundPeriod now
    let missed := app.stats.backgroundMissed + skipped
    (some (StressMaster.buildBackground background.number),
      { app with
        background := background.use build.backgroundPeriod
        stats := { app.stats with
          backgroundMissed := if sent then missed else missed + 1
          backgroundSent := if sent then app.stats.backgroundSent + 1 else app.stats.backgroundSent } })

/-- One step, at the reading `now`; `sent` is the driver's answer if the step sends a frame. The driver's
answer to a request is not looked at. -/
def run (build : StressBuild) (app : StressApp) (now : UInt32) (sent : Bool) : StressApp :=
  match app.pc with
  | .check =>
    if app.stats.requestsSent < app.stats.requestsTarget then { app with pc := .pace }
    else
      { app with
        pc := .finished
        stats := StressMaster.finish { app.stats with runtimeCycles := now - app.testStarted } }
  | .pace => { app with pc := if before now app.requestDue then .paceBody else .request }
  | .paceBody => { (app.serviceBackground build now sent).2 with pc := .paceRx }
  | .paceRx => { app with pc := .pace }
  | .request =>
    { app with
      pc := .wait
      seen := false
      requestStarted := now
      stats := StressMaster.recordRequest app.stats
      responseDeadline := now + build.responseTimeout
      requestDue := app.requestDue + build.requestPeriod }
  | .wait => { app with pc := if !app.seen && before now app.responseDeadline then .waitBody else .record }
  | .waitBody => { (app.serviceBackground build now sent).2 with pc := .waitRx }
  | .waitRx => { app with pc := .wait }
  | .record =>
    { app with
      pc := .reschedule
      stats :=
        if app.seen then StressMaster.recordLatency app.stats (now - app.requestStarted)
        else StressMaster.recordTimeout app.stats }
  | .reschedule => { app with pc := if before now app.requestDue then .check else .restart }
  | .restart => { app with pc := .check, requestDue := now }
  | .finished => app

/-- The program receives frames. -/
def receiving : StressPc → Bool
  | .paceRx | .waitRx | .finished => true
  | _ => false

/-- A request has been sent and is not recorded yet. -/
def opened : StressPc → Bool
  | .wait | .waitBody | .waitRx | .record => true
  | _ => false

/-- `APP_OnCanRx` of a stress build. -/
def onCanRx (build : StressBuild) (app : StressApp) (id : UInt32) (data : Vector UInt8 8) (len : UInt8) :
    StressApp :=
  if !app.seen then
    match StressMaster.acceptResponse app.stats id data len build.responseId with
    | (true, stats) => { app with stats := stats, seen := true }
    | (false, stats) => { app with stats := stats }
  else app

end StressApp

/-! ## The bench -/

/-- The program, the real time in cycles, and what an observer has written down: the time of the last
request, the dialogue, the responses counted while no request was open, the round trips recorded, the time
the background was last serviced, and its frames. -/
structure StressBench where
  now : ℕ
  app : StressApp
  requestAt : ℕ
  dialogue : Dialogue
  late : ℕ
  rtts : List ℕ
  servedAt : ℕ
  frames : List Can.TimedFrame

namespace StressBench

/-- `run` is a step of the program, `answer` the next answer of the peer and `other` a frame on another
identifier, both at a point where the program receives. -/
inductive Event where
  | advance (cycles : ℕ)
  | run (sent : Bool)
  | answer (data : Vector UInt8 8)
  | lose (i : ℕ)
  | other (id : UInt32) (data : Vector UInt8 8) (len : UInt8)

/-- A step of the program, observed. A request the driver refuses never gets onto the line. -/
def runStep (build : StressBuild) (b : StressBench) (sent : Bool) : StressBench :=
  let app := b.app.run build (tick b.now) sent
  match b.app.pc with
  | .request =>
    { b with
      app := app
      requestAt := b.now
      dialogue :=
        if sent then b.dialogue.send b.now else (b.dialogue.send b.now).lose b.dialogue.line.length }
  | .record =>
    if app.stats.timeouts ≠ b.app.stats.timeouts then
      { b with app := app, dialogue := b.dialogue.expire b.now }
    else { b with app := app, rtts := b.rtts ++ [b.now - b.requestAt] }
  | .paceBody | .waitBody =>
    { b with
      app := app
      servedAt := b.now
      frames := b.frames ++
        ((b.app.serviceBackground build (tick b.now) sent).1.map fun data => ⟨b.now, data, sent⟩).toList }
  | _ => { b with app := app }

def step (build : StressBuild) (b : StressBench) : Event → StressBench
  | .advance cycles => { b with now := b.now + cycles }
  | .run sent => b.runStep build sent
  | .answer data =>
    if StressApp.receiving b.app.pc = false ∨ b.dialogue.line = [] then b
    else
      let app := b.app.onCanRx build build.responseId data 8
      if app.stats.responsesOk ≠ b.app.stats.responsesOk then
        { b with
          app := app
          dialogue := b.dialogue.arrive b.now
          late := if b.dialogue.pending = none then b.late + 1 else b.late }
      else { b with app := app, dialogue := b.dialogue.discard }
  | .lose i => { b with dialogue := b.dialogue.lose i }
  | .other id data len =>
    if StressApp.receiving b.app.pc = false ∨ id = build.responseId then b
    else { b with app := b.app.onCanRx build id data len }

/-- The test starts. -/
def start (requestsTarget : UInt32) (now : ℕ) : StressBench where
  now := now
  app := .init requestsTarget (tick now)
  requestAt := now
  dialogue := .idle
  late := 0
  rtts := []
  servedAt := now
  frames := []

/-! ## Accounts -/

end StressBench

/-- The round-trip registers. -/
def StressMasterStats.latency (stats : StressMasterStats) : Latency :=
  ⟨stats.lastRttCycles, stats.minRttCycles, stats.maxRttCycles, stats.rttTotalCycles⟩

/-- Everything of the statistics that the requests have a part in. -/
def StressMasterStats.requests (stats : StressMasterStats) :
    StressMasterState × UInt32 × UInt32 × UInt32 × UInt32 × Latency :=
  (stats.state, stats.requestsTarget, stats.requestsSent, stats.responsesOk, stats.timeouts, stats.latency)

namespace StressBench

variable {build : StressBuild} {target : UInt32} {b : StressBench}

/-- Before a request there is one left to send. -/
def ahead : StressPc → Bool
  | .pace | .paceBody | .paceRx | .request => true
  | _ => false

/-- The program agrees with what became of its requests. -/
structure Kept (target : UInt32) (b : StressBench) : Prop where
  lawful : b.dialogue.Lawful b.now
  pending : b.dialogue.pending =
    if StressApp.opened b.app.pc && !b.app.seen then some b.requestAt else none
  started : StressApp.opened b.app.pc = true →
    b.app.requestStarted = tick b.requestAt ∧ b.requestAt ≤ b.now
  goal : b.app.stats.requestsTarget = target
  requests : b.app.stats.requestsSent = UInt32.ofNat b.dialogue.sent
  within : b.dialogue.sent + (if ahead b.app.pc then 1 else 0) ≤ target.toNat
  responses : b.app.stats.responsesOk = UInt32.ofNat (Dialogue.answered b.dialogue.ledger + b.late)
  timeouts : b.app.stats.timeouts = UInt32.ofNat (Dialogue.givenUp b.dialogue.ledger)
  late : b.late + (if !StressApp.opened b.app.pc && !b.app.seen && 0 < b.dialogue.sent then 1 else 0) ≤
    Dialogue.givenUp b.dialogue.ledger
  latency : b.app.stats.latency.Summarises (b.rtts.map UInt32.ofNat)
  recorded : b.rtts.length + (if StressApp.opened b.app.pc && b.app.seen then 1 else 0) =
    Dialogue.answered b.dialogue.ledger
  finished : b.app.pc = .finished → b.app.stats.state = .done ∧ b.dialogue.sent = target.toNat

theorem serviceBackground_keeps (build : StressBuild) (app : StressApp) (now : UInt32) (sent : Bool) :
    (app.serviceBackground build now sent).2.stats.requests = app.stats.requests ∧
      (app.serviceBackground build now sent).2.seen = app.seen ∧
      (app.serviceBackground build now sent).2.requestDue = app.requestDue ∧
      (app.serviceBackground build now sent).2.requestStarted = app.requestStarted ∧
      (app.serviceBackground build now sent).2.responseDeadline = app.responseDeadline := by
  unfold StressApp.serviceBackground
  split <;> exact ⟨rfl, rfl, rfl, rfl, rfl⟩

theorem onCanRx_keeps (build : StressBuild) (app : StressApp) (id : UInt32) (data : Vector UInt8 8) (len : UInt8) :
    (app.onCanRx build id data len).pc = app.pc ∧
      (app.onCanRx build id data len).requestDue = app.requestDue ∧
      (app.onCanRx build id data len).responseDeadline = app.responseDeadline := by
  unfold StressApp.onCanRx
  split
  · split <;> exact ⟨rfl, rfl, rfl⟩
  · exact ⟨rfl, rfl, rfl⟩

/-- A step inside the phase of a request, that leaves the counts alone. -/
theorem Kept.congr {b' : StressBench} (h : Kept target b) (hnow : b.now ≤ b'.now)
    (hdialogue : b'.dialogue = b.dialogue) (hrequestAt : b'.requestAt = b.requestAt) (hlate : b'.late = b.late)
    (hrtts : b'.rtts = b.rtts) (hstats : b'.app.stats.requests = b.app.stats.requests)
    (hseen : b'.app.seen = b.app.seen) (hstarted : b'.app.requestStarted = b.app.requestStarted)
    (hopened : StressApp.opened b'.app.pc = StressApp.opened b.app.pc)
    (hahead : ahead b'.app.pc = true → ahead b.app.pc = true)
    (hfinished : b'.app.pc = .finished → b.app.pc = .finished) : Kept target b' := by
  simp only [StressMasterStats.requests, Prod.mk.injEq] at hstats
  obtain ⟨hstate, htarget, hrequests, hresponses, htimeouts, hlatency⟩ := hstats
  have hwithin := h.within
  refine ⟨hdialogue ▸ h.lawful.later hnow, ?_, ?_, htarget.trans h.goal, ?_, ?_, ?_, ?_, ?_, ?_, ?_, ?_⟩
  · rw [hdialogue, hopened, hseen, hrequestAt]
    exact h.pending
  · rw [hopened, hstarted, hrequestAt]
    exact fun ho => ⟨(h.started ho).1, Nat.le_trans (h.started ho).2 hnow⟩
  · rw [hrequests, hdialogue]
    exact h.requests
  · rw [hdialogue]
    split
    · next hyes =>
      rw [if_pos (hahead hyes)] at hwithin
      exact hwithin
    · omega
  · rw [hresponses, hdialogue, hlate]
    exact h.responses
  · rw [htimeouts, hdialogue]
    exact h.timeouts
  · rw [hopened, hseen, hdialogue, hlate]
    exact h.late
  · rw [hlatency, hrtts]
    exact h.latency
  · rw [hopened, hseen, hrtts, hdialogue]
    exact h.recorded
  · rw [hstate, hdialogue]
    exact fun hf => h.finished (hfinished hf)

namespace Kept

variable (h : Kept target b)

include h

theorem sent_toNat : b.app.stats.requestsSent.toNat = b.dialogue.sent := by
  have hwithin := h.within
  have hlt := target.toNat_lt
  rw [h.requests, UInt32.toNat_ofNat']
  exact Nat.mod_eq_of_lt (by omega)

theorem check (hpc : b.app.pc = .check) (sent : Bool) : Kept target (b.runStep build sent) := by
  have hlt_iff : b.app.stats.requestsSent < b.app.stats.requestsTarget ↔
      b.dialogue.sent < target.toNat := by
    rw [UInt32.lt_iff_toNat_lt, h.sent_toNat, h.goal]
  have hwithin := h.within
  have hpending := h.pending
  have hlate := h.late
  have hrecorded := h.recorded
  rw [hpc] at hwithin hpending hlate hrecorded
  unfold runStep StressApp.run
  simp only [hpc]
  by_cases hmore : b.app.stats.requestsSent < b.app.stats.requestsTarget
  · simp only [if_pos hmore]
    exact ⟨h.lawful, hpending, nofun, h.goal, h.requests, hlt_iff.1 hmore, h.responses, h.timeouts, hlate,
      h.latency, hrecorded, nofun⟩
  · simp only [if_neg hmore]
    refine ⟨h.lawful, hpending, nofun, h.goal, h.requests, hwithin, h.responses, h.timeouts, hlate, h.latency,
      hrecorded, fun _ => ⟨rfl, ?_⟩⟩
    have hge := mt hlt_iff.2 hmore
    simp only [ahead, Bool.false_eq_true, if_false] at hwithin
    exact Nat.le_antisymm hwithin (Nat.le_of_not_lt hge)

theorem request (hpc : b.app.pc = .request) (sent : Bool) : Kept target (b.runStep build sent) := by
  have hwithin := h.within
  have hpending := h.pending
  have hlate := h.late
  have hrecorded := h.recorded
  rw [hpc] at hwithin hpending hlate hrecorded
  have hlawful : (if sent then b.dialogue.send b.now
      else (b.dialogue.send b.now).lose b.dialogue.line.length).Lawful b.now := by
    cases sent with
    | true => exact h.lawful.send hpending
    | false => exact (h.lawful.send hpending).lose _
  have hsame : (if sent then b.dialogue.send b.now
      else (b.dialogue.send b.now).lose b.dialogue.line.length).ledger = b.dialogue.ledger ∧
      (if sent then b.dialogue.send b.now
        else (b.dialogue.send b.now).lose b.dialogue.line.length).sent = b.dialogue.sent + 1 ∧
      (if sent then b.dialogue.send b.now
        else (b.dialogue.send b.now).lose b.dialogue.line.length).pending = some b.now := by
    cases sent <;> exact ⟨rfl, rfl, rfl⟩
  unfold runStep StressApp.run
  simp only [hpc]
  generalize (if sent then b.dialogue.send b.now
    else (b.dialogue.send b.now).lose b.dialogue.line.length) = d at hlawful hsame ⊢
  obtain ⟨hledger, hsent, hopen⟩ := hsame
  refine ⟨hlawful, hopen, fun _ => ⟨rfl, Nat.le_refl _⟩, h.goal, ?_, ?_, ?_, ?_, ?_, h.latency, ?_, nofun⟩
  · simp only [hsent]
    exact (congrArg (· + 1) h.requests).trans (ofNat_succ _).symm
  · simp only [hsent]
    exact hwithin
  · simp only [hledger]
    exact h.responses
  · simp only [hledger]
    exact h.timeouts
  · simp only [hledger]
    exact Nat.le_trans (Nat.le_add_right _ _) hlate
  · simp only [hledger]
    exact hrecorded

theorem record (hpc : b.app.pc = .record) (sent : Bool) : Kept target (b.runStep build sent) := by
  have hwithin := h.within
  have hpending := h.pending
  have hlate := h.late
  have hrecorded := h.recorded
  obtain ⟨hstarted, hle⟩ := h.started (by rw [hpc]; rfl)
  rw [hpc] at hwithin hpending hlate hrecorded
  unfold runStep StressApp.run
  simp only [hpc]
  cases hseen : b.app.seen with
  | true =>
    rw [hseen] at hpending hlate hrecorded
    have hsame : ¬(StressMaster.recordLatency b.app.stats (tick b.now - b.app.requestStarted)).timeouts ≠
        b.app.stats.timeouts := fun hne => hne rfl
    simp only [if_true, if_neg hsame]
    refine ⟨h.lawful, hpending, ?_, h.goal, h.requests, hwithin, h.responses, h.timeouts, hlate, ?_, ?_, ?_⟩
    · intro hopened
      cases hopened
    · rw [List.map_append]
      have hrecord := h.latency.record (tick b.now - b.app.requestStarted)
      rw [hstarted, tick_sub_tick hle] at hrecord ⊢
      exact hrecord
    · simp only [List.length_append, List.length_singleton]
      exact hrecorded
    · intro hfinished
      cases hfinished
  | false =>
    rw [hseen] at hpending hlate hrecorded
    have hchanged : (StressMaster.recordTimeout b.app.stats).timeouts ≠ b.app.stats.timeouts := succ_ne _
    simp only [Bool.false_eq_true, if_false, if_pos hchanged]
    have hexpire : b.dialogue.expire b.now =
        { b.dialogue with pending := none, ledger := b.dialogue.ledger ++ [⟨b.requestAt, b.now, none⟩] } := by
      have hopen : b.dialogue.pending = some b.requestAt := hpending
      simp only [Dialogue.expire, Dialogue.close, hopen]
    have hlawful := h.lawful.expire
    have hanswered : Dialogue.answered (b.dialogue.ledger ++ [⟨b.requestAt, b.now, none⟩]) =
        Dialogue.answered b.dialogue.ledger := by simp [Dialogue.answered]
    have hgiven : Dialogue.givenUp (b.dialogue.ledger ++ [⟨b.requestAt, b.now, none⟩]) =
        Dialogue.givenUp b.dialogue.ledger + 1 := by simp [Dialogue.givenUp]
    rw [hexpire] at hlawful ⊢
    refine ⟨hlawful, rfl, ?_, h.goal, h.requests, hwithin, ?_, ?_, ?_, h.latency, ?_, ?_⟩
    · intro hopened
      cases hopened
    · simp only [hanswered]
      exact h.responses
    · simp only [hgiven]
      exact (congrArg (· + 1) h.timeouts).trans (ofNat_succ _).symm
    · simp only [hgiven]
      simp only [StressApp.opened, Bool.not_false, Bool.not_true, Bool.false_and, Bool.false_eq_true, if_false]
        at hlate
      split <;> omega
    · simp only [hanswered]
      exact hrecorded
    · intro hfinished
      cases hfinished

/-- **One step of the program.** -/
theorem runStep (sent : Bool) : Kept target (b.runStep build sent) := by
  cases hpc : b.app.pc with
  | check => exact h.check hpc sent
  | request => exact h.request hpc sent
  | record => exact h.record hpc sent
  | finished =>
    have hrun : b.runStep build sent = b := by
      simp only [StressBench.runStep, StressApp.run, hpc]
    rw [hrun]
    exact h
  | paceBody =>
    obtain ⟨hstats, hseen, -, hstarted, -⟩ := serviceBackground_keeps build b.app (tick b.now) sent
    unfold StressBench.runStep StressApp.run
    simp only [hpc]
    refine h.congr (Nat.le_refl _) rfl rfl rfl rfl hstats hseen hstarted ?_ ?_ nofun <;> rw [hpc]
    · rfl
    · exact id
  | waitBody =>
    obtain ⟨hstats, hseen, -, hstarted, -⟩ := serviceBackground_keeps build b.app (tick b.now) sent
    unfold StressBench.runStep StressApp.run
    simp only [hpc]
    refine h.congr (Nat.le_refl _) rfl rfl rfl rfl hstats hseen hstarted ?_ ?_ nofun <;> rw [hpc]
    · rfl
    · exact id
  | pace =>
    unfold StressBench.runStep StressApp.run
    simp only [hpc]
    split <;> (refine h.congr (Nat.le_refl _) rfl rfl rfl rfl rfl rfl rfl ?_ ?_ nofun <;> rw [hpc]) <;>
      first | rfl | exact id
  | paceRx =>
    unfold StressBench.runStep StressApp.run
    simp only [hpc]
    refine h.congr (Nat.le_refl _) rfl rfl rfl rfl rfl rfl rfl ?_ ?_ nofun <;> rw [hpc]
    · rfl
    · exact id
  | wait =>
    unfold StressBench.runStep StressApp.run
    simp only [hpc]
    split <;> (refine h.congr (Nat.le_refl _) rfl rfl rfl rfl rfl rfl rfl ?_ ?_ nofun <;> rw [hpc]) <;>
      first | rfl | exact id
  | waitRx =>
    unfold StressBench.runStep StressApp.run
    simp only [hpc]
    refine h.congr (Nat.le_refl _) rfl rfl rfl rfl rfl rfl rfl ?_ ?_ nofun <;> rw [hpc]
    · rfl
    · exact id
  | reschedule =>
    unfold StressBench.runStep StressApp.run
    simp only [hpc]
    split <;> (refine h.congr (Nat.le_refl _) rfl rfl rfl rfl rfl rfl rfl ?_ ?_ nofun <;> rw [hpc]) <;>
      first | rfl | exact id
  | restart =>
    unfold StressBench.runStep StressApp.run
    simp only [hpc]
    refine h.congr (Nat.le_refl _) rfl rfl rfl rfl rfl rfl rfl ?_ ?_ nofun <;> rw [hpc]
    · rfl
    · exact id

/-- A response that is not accepted. -/
theorem unchanged {app : StressApp} (happ : app = b.app) {d : Dialogue} (hd : d.Lawful b.now)
    (hsent : d.sent = b.dialogue.sent) (hpending : d.pending = b.dialogue.pending)
    (hledger : d.ledger = b.dialogue.ledger) : Kept target { b with app := app, dialogue := d } := by
  subst happ
  refine ⟨hd, hpending.trans h.pending, h.started, h.goal, ?_, ?_, ?_, ?_, ?_, h.latency, ?_, ?_⟩ <;>
    simp only [hsent, hledger]
  · exact h.requests
  · exact h.within
  · exact h.responses
  · exact h.timeouts
  · exact h.late
  · exact h.recorded
  · exact h.finished

/-- An accepted response: it closes the open request, or comes late. -/
theorem accepted (hline : b.dialogue.line ≠ []) (hseen : b.app.seen = false) (data : Vector UInt8 8) :
    Kept target
      { b with
        app := { b.app with
          seen := true
          stats := { b.app.stats with
            responsesOk := b.app.stats.responsesOk + 1, lastResponseLength := 8, lastResponse := data } }
        dialogue := b.dialogue.arrive b.now
        late := if b.dialogue.pending = none then b.late + 1 else b.late } := by
  have hpending := h.pending
  have hlate := h.late
  have hrecorded := h.recorded
  obtain ⟨j, line, hj⟩ := List.exists_cons_of_ne_nil hline
  have hlawful := h.lawful.arrive
  rw [hseen] at hpending hlate hrecorded
  cases hopened : StressApp.opened b.app.pc with
  | true =>
    rw [hopened] at hpending hlate hrecorded
    have hopen : b.dialogue.pending = some b.requestAt := hpending
    have harrive : b.dialogue.arrive b.now =
        { b.dialogue with
          line := line, pending := none, ledger := b.dialogue.ledger ++ [⟨b.requestAt, b.now, some j⟩] } := by
      simp only [Dialogue.arrive, hj, Dialogue.close, hopen]
    have hanswered : Dialogue.answered (b.dialogue.ledger ++ [⟨b.requestAt, b.now, some j⟩]) =
        Dialogue.answered b.dialogue.ledger + 1 := by simp [Dialogue.answered]
    have hgiven : Dialogue.givenUp (b.dialogue.ledger ++ [⟨b.requestAt, b.now, some j⟩]) =
        Dialogue.givenUp b.dialogue.ledger := by simp [Dialogue.givenUp]
    have hsome : ¬b.dialogue.pending = none := by simp [hopen]
    rw [harrive] at hlawful ⊢
    simp only [if_neg hsome]
    refine ⟨hlawful, ?_, h.started, h.goal, h.requests, h.within, ?_, ?_, ?_, h.latency, ?_, h.finished⟩
    · simp [hopened]
    · simp only [hanswered, h.responses, ← ofNat_succ]
      rw [Nat.add_right_comm]
    · simp only [hgiven]
      exact h.timeouts
    · simp only [hgiven, hopened]
      exact hlate
    · simp only [hanswered, hopened]
      exact congrArg (· + 1) hrecorded
  | false =>
    rw [hopened] at hpending hlate hrecorded
    have hnone : b.dialogue.pending = none := hpending
    have hpos : 0 < b.dialogue.sent :=
      Nat.lt_of_le_of_lt (Nat.zero_le j) (h.lawful.asked j (hj ▸ List.mem_cons_self))
    have harrive : b.dialogue.arrive b.now = { b.dialogue with line := line } := by
      simp only [Dialogue.arrive, hj, Dialogue.close, hnone]
    rw [harrive] at hlawful ⊢
    simp only [if_pos hnone]
    refine ⟨hlawful, ?_, h.started, h.goal, h.requests, h.within, ?_, h.timeouts, ?_, h.latency, ?_,
      h.finished⟩
    · simp [hopened, hnone]
    · simp only [h.responses, ← ofNat_succ]
      rw [Nat.add_assoc]
    · simp only [hopened, Bool.not_false, Bool.not_true, Bool.true_and, Bool.and_false, Bool.false_and,
        decide_true, hpos, if_true, Bool.false_eq_true, if_false] at hlate ⊢
      exact hlate
    · simp only [hopened]
      exact hrecorded

theorem answer (data : Vector UInt8 8) : Kept target (b.step build (.answer data)) := by
  simp only [StressBench.step]
  by_cases hidle : StressApp.receiving b.app.pc = false ∨ b.dialogue.line = []
  · rw [if_pos hidle]
    exact h
  · rw [if_neg hidle]
    simp only [not_or, Bool.not_eq_false] at hidle
    have hline := hidle.2
    unfold StressApp.onCanRx
    cases hseen : b.app.seen with
    | true =>
      simp only [Bool.not_true, Bool.false_eq_true, if_false, ne_eq, not_true_eq_false]
      exact h.unchanged rfl h.lawful.discard rfl rfl rfl
    | false =>
      simp only [Bool.not_false, if_true]
      obtain hno | hyes := StressMaster.acceptResponse_cases b.app.stats build.responseId data 8 build.responseId
      · simp only [hno, ne_eq, not_true_eq_false, if_false]
        refine h.unchanged ?_ h.lawful.discard rfl rfl rfl
        rw [← hseen]
      · simp only [hyes, ne_eq, succ_ne, not_false_eq_true, if_true]
        exact h.accepted hline hseen data

/-- **One event.** -/
theorem step (e : Event) : Kept target (b.step build e) := by
  cases e with
  | advance cycles =>
    exact h.congr (Nat.le_add_right _ _) rfl rfl rfl rfl rfl rfl rfl rfl id id
  | run sent => exact h.runStep sent
  | answer data => exact h.answer data
  | lose i => exact h.unchanged rfl (h.lawful.lose i) rfl rfl rfl
  | other id data len =>
    simp only [StressBench.step]
    split
    · exact h
    · next hother =>
      simp only [not_or] at hother
      have happ : b.app.onCanRx build id data len = b.app := by
        unfold StressApp.onCanRx StressMaster.acceptResponse
        rw [if_pos (Or.inl hother.2)]
        split <;> rfl
      rw [happ]
      exact h

end Kept

theorem kept_start (target : UInt32) (now : ℕ) : Kept target (start target now) := by
  refine ⟨Dialogue.lawful_idle now, rfl, nofun, rfl, rfl, Nat.zero_le _, rfl, rfl, Nat.le_refl _,
    Latency.summarises_empty, rfl, nofun⟩

/-- What the statistics say of the requests. -/
structure Accounts (target : UInt32) (b : StressBench) : Prop where
  requests : b.app.stats.requestsSent.toNat = b.dialogue.sent
  within : b.dialogue.sent ≤ target.toNat
  timeouts : b.app.stats.timeouts.toNat = Dialogue.givenUp b.dialogue.ledger
  responses : b.app.stats.responsesOk.toNat = Dialogue.answered b.dialogue.ledger + b.late
  late : b.late ≤ Dialogue.givenUp b.dialogue.ledger
  latency : b.app.stats.latency.Summarises (b.rtts.map UInt32.ofNat)
  matched : ∀ k e j, b.dialogue.ledger[k]? = some e → e.answer = some j →
    j ≤ k ∧ k ≤ j + Dialogue.givenUp (b.dialogue.ledger.take k)
  finished : b.app.pc = .finished → b.app.stats.state = .done ∧ b.dialogue.sent = target.toNat ∧
    b.rtts.length + b.app.stats.timeouts.toNat = target.toNat

theorem Kept.accounts (h : Kept target b) : Accounts target b := by
  have hwithin := h.within
  have hlate := h.late
  have hlt := target.toNat_lt
  have hsum := Dialogue.answered_add_givenUp b.dialogue.ledger
  have hsent := h.lawful.sent
  have htimeouts : b.app.stats.timeouts.toNat = Dialogue.givenUp b.dialogue.ledger := by
    rw [h.timeouts, UInt32.toNat_ofNat']
    exact Nat.mod_eq_of_lt (by omega)
  refine ⟨h.sent_toNat, by omega, htimeouts, ?_, by omega, h.latency, h.lawful.matched, fun hpc => ?_⟩
  · rw [h.responses, UInt32.toNat_ofNat']
    exact Nat.mod_eq_of_lt (by omega)
  · obtain ⟨hdone, hall⟩ := h.finished hpc
    have hpending := h.pending
    have hrecorded := h.recorded
    rw [hpc] at hpending hrecorded
    rw [show b.dialogue.pending = none from hpending] at hsent
    simp only [StressApp.opened, Bool.false_and, Bool.false_eq_true, if_false, Nat.add_zero,
      Option.isSome_none] at hrecorded hsent
    exact ⟨hdone, hall, by omega⟩

/-- **The accounts of a stress test.** After every run, finished or not: the requests sent are those handed to
the driver, refused or not, and at most the target; the timeouts are those given up; the good responses are
the answered requests and the late responses, of which there is at most one for each timeout; the round-trip
registers summarise the round trips recorded, and in a finished test these and the timeouts make up the
target. -/
theorem stress_accounts (build : StressBuild) (target : UInt32) (now : ℕ) (es : List Event) :
    Accounts target (after (step build) (start target now) es) :=
  (after_invariant (kept_start target now) (fun _ e h => h.step e) es).accounts

/-- The F407's build: 168 cycles a microsecond, and the responses of the F103. -/
def f407Build : StressBuild := ⟨168, 0x7E9⟩

/-- One request, given up after 50 ms, and its response after that. -/
def lateRun : List Event :=
  [.run true, .run true, .run true, .run true, .run true, .run true, .advance 8400000, .run true, .run true,
    .run true, .run true, .run true, .answer #v[0x07, 0x62, 0xF1, 0x9A, 0, 0, 0, 0]]

/-- The one request of the test is counted twice. -/
example : ((after (step f407Build) (start 1 0) lateRun).app.pc,
    (after (step f407Build) (start 1 0) lateRun).app.stats.requestsSent,
    (after (step f407Build) (start 1 0) lateRun).app.stats.timeouts,
    (after (step f407Build) (start 1 0) lateRun).app.stats.responsesOk) = (.finished, 1, 1, 1) := by
  decide +kernel

end StressBench

/-! ## Pace -/

namespace StressBuild

/-- A core clock from 1 MHz up to 1 GHz. -/
def Clocked (build : StressBuild) : Prop := 0 < build.cyclesPerUs.toNat ∧ build.cyclesPerUs.toNat ≤ 1000

theorem toNat_mul {us cycles : UInt32} (hus : us.toNat ≤ 50000) (hcycles : cycles.toNat ≤ 1000) :
    (us * cycles).toNat = us.toNat * cycles.toNat := by
  have hle := Nat.mul_le_mul hus hcycles
  rw [UInt32.toNat_mul]
  exact Nat.mod_eq_of_lt (by omega)

variable {build : StressBuild} (h : build.Clocked)

include h

theorem requestPeriod_lt : build.requestPeriod.toNat < 2 ^ 30 := by
  obtain ⟨-, hmax⟩ := h
  rw [requestPeriod, toNat_mul (by simp only [UInt32.reduceToNat]; omega) hmax]
  simp only [UInt32.reduceToNat]
  omega

theorem responseTimeout_lt : build.responseTimeout.toNat < 2 ^ 30 := by
  obtain ⟨-, hmax⟩ := h
  rw [responseTimeout, toNat_mul (by simp only [UInt32.reduceToNat]; omega) hmax]
  simp only [UInt32.reduceToNat]
  omega

theorem backgroundPeriod_bounds : 0 < build.backgroundPeriod.toNat ∧ build.backgroundPeriod.toNat < 2 ^ 30 := by
  obtain ⟨hmin, hmax⟩ := h
  rw [backgroundPeriod, toNat_mul (by simp only [UInt32.reduceToNat]; omega) hmax]
  simp only [UInt32.reduceToNat]
  omega

end StressBuild

theorem tick_add_toNat (t : ℕ) (d : UInt32) : tick t + d = tick (t + d.toNat) := by
  rw [tick_add, UInt32.ofNat_toNat]

namespace StressBench

variable {build : StressBuild} {target : UInt32} {begun due : ℕ} {b : StressBench}

/-- The next request is due at `due`: a period for each request after the start at the earliest, and at most
a period from now. A request is given up only when its time has run out. -/
structure Paced (build : StressBuild) (begun due : ℕ) (b : StressBench) : Prop where
  requestDue : b.app.requestDue = tick due
  earliest : begun + build.requestPeriod.toNat * b.dialogue.sent ≤ due
  near : due ≤ b.now + build.requestPeriod.toNat
  passed : b.app.pc = .request ∨ b.app.pc = .restart → due ≤ b.now
  deadline : StressApp.opened b.app.pc = true →
    b.app.responseDeadline = tick (b.requestAt + build.responseTimeout.toNat)
  expired : b.app.pc = .record → b.app.seen = false → b.requestAt + build.responseTimeout.toNat ≤ b.now
  givenUp : ∀ e ∈ b.dialogue.ledger, e.answer = none → e.opened + build.responseTimeout.toNat ≤ e.closed

namespace Paced

variable (h : Paced build begun due b)

include h

/-- A step that leaves the deadlines alone. -/
theorem congr {b' : StressBench} (hnow : b.now ≤ b'.now) (hdue : b'.app.requestDue = b.app.requestDue)
    (hdeadline : b'.app.responseDeadline = b.app.responseDeadline) (hrequestAt : b'.requestAt = b.requestAt)
    (hsent : b'.dialogue.sent = b.dialogue.sent)
    (hopened : StressApp.opened b'.app.pc = true → StressApp.opened b.app.pc = true)
    (hpassed : b'.app.pc = .request ∨ b'.app.pc = .restart → due ≤ b'.now)
    (hexpired : b'.app.pc = .record → b'.app.seen = false →
      b.requestAt + build.responseTimeout.toNat ≤ b'.now)
    (hledger : ∀ e ∈ b'.dialogue.ledger, e ∈ b.dialogue.ledger ∨
      (e.answer = none → e.opened + build.responseTimeout.toNat ≤ e.closed)) :
    Paced build begun due b' := by
  refine ⟨hdue.trans h.requestDue, ?_, ?_, hpassed, ?_, ?_, ?_⟩
  · rw [hsent]
    exact h.earliest
  · exact Nat.le_trans h.near (Nat.add_le_add_right hnow _)
  · intro ho
    rw [hdeadline, hrequestAt]
    exact h.deadline (hopened ho)
  · rw [hrequestAt]
    exact hexpired
  · intro e he hnone
    rcases hledger e he with hold | hnew
    · exact h.givenUp e hold hnone
    · exact hnew hnone

/-- The deadline of the next request reads as passed only when it is. -/
theorem due_le (hclock : build.Clocked) (hread : before (tick b.now) b.app.requestDue = false) :
    due ≤ b.now := by
  rw [h.requestDue] at hread
  have hnear := h.near
  have hlt := StressBuild.requestPeriod_lt hclock
  exact le_of_not_before (by omega) hread

/-- The response deadline reads as passed only when it is. -/
theorem deadline_le (hkept : Kept target b) (hclock : build.Clocked)
    (hopened : StressApp.opened b.app.pc = true)
    (hread : before (tick b.now) b.app.responseDeadline = false) :
    b.requestAt + build.responseTimeout.toNat ≤ b.now := by
  rw [h.deadline hopened] at hread
  have hle := (hkept.started hopened).2
  have hlt := StressBuild.responseTimeout_lt hclock
  exact le_of_not_before (by omega) hread

theorem record (hkept : Kept target b) (hpc : b.app.pc = .record) (sent : Bool) :
    Paced build begun due (b.runStep build sent) := by
  have hexpired := h.expired hpc
  have hpending := hkept.pending
  rw [hpc] at hpending
  unfold runStep StressApp.run
  simp only [hpc]
  cases hseen : b.app.seen with
  | true =>
    have hsame : ¬(StressMaster.recordLatency b.app.stats (tick b.now - b.app.requestStarted)).timeouts ≠
        b.app.stats.timeouts := fun hne => hne rfl
    simp only [if_true, if_neg hsame]
    exact h.congr (Nat.le_refl _) rfl rfl rfl rfl nofun nofun nofun fun e he => .inl he
  | false =>
    rw [hseen] at hpending
    have hopen : b.dialogue.pending = some b.requestAt := hpending
    have hchanged : (StressMaster.recordTimeout b.app.stats).timeouts ≠ b.app.stats.timeouts := succ_ne _
    simp only [Bool.false_eq_true, if_false, if_pos hchanged, Dialogue.expire, Dialogue.close, hopen]
    refine h.congr (Nat.le_refl _) rfl rfl rfl rfl nofun nofun nofun fun e he => ?_
    rcases List.mem_append.1 he with he | he
    · exact .inl he
    · obtain rfl := List.mem_singleton.1 he
      exact .inr fun _ => hexpired hseen

theorem request (hpc : b.app.pc = .request) (sent : Bool) :
    Paced build begun (due + build.requestPeriod.toNat) (b.runStep build sent) := by
  have hpassed := h.passed (.inl hpc)
  have hearliest := h.earliest
  have hsame : (if sent then b.dialogue.send b.now
      else (b.dialogue.send b.now).lose b.dialogue.line.length).ledger = b.dialogue.ledger ∧
      (if sent then b.dialogue.send b.now
        else (b.dialogue.send b.now).lose b.dialogue.line.length).sent = b.dialogue.sent + 1 := by
    cases sent <;> exact ⟨rfl, rfl⟩
  unfold runStep StressApp.run
  simp only [hpc]
  generalize (if sent then b.dialogue.send b.now
    else (b.dialogue.send b.now).lose b.dialogue.line.length) = d at hsame ⊢
  obtain ⟨hledger, hsent⟩ := hsame
  refine ⟨?_, ?_, Nat.add_le_add_right hpassed _, nofun, fun _ => tick_add_toNat _ _, nofun, ?_⟩
  · rw [h.requestDue]
    exact tick_add_toNat _ _
  · simp only [hsent, Nat.mul_succ]
    omega
  · rw [hledger]
    exact h.givenUp

theorem restart (hpc : b.app.pc = .restart) (sent : Bool) :
    Paced build begun b.now (b.runStep build sent) := by
  have hpassed := h.passed (.inr hpc)
  unfold runStep StressApp.run
  simp only [hpc]
  exact ⟨rfl, Nat.le_trans h.earliest hpassed, Nat.le_add_right _ _, nofun, nofun, nofun, h.givenUp⟩

/-- **One step of the program.** -/
theorem runStep (hkept : Kept target b) (hclock : build.Clocked) (sent : Bool) :
    ∃ due, Paced build begun due (b.runStep build sent) := by
  cases hpc : b.app.pc with
  | request => exact ⟨_, h.request hpc sent⟩
  | record => exact ⟨_, h.record hkept hpc sent⟩
  | restart => exact ⟨_, h.restart hpc sent⟩
  | check =>
    refine ⟨due, ?_⟩
    unfold StressBench.runStep StressApp.run
    simp only [hpc]
    split <;> exact h.congr (Nat.le_refl _) rfl rfl rfl rfl nofun nofun nofun fun e he => .inl he
  | pace =>
    refine ⟨due, ?_⟩
    unfold StressBench.runStep StressApp.run
    simp only [hpc]
    cases hread : before (tick b.now) b.app.requestDue with
    | true => exact h.congr (Nat.le_refl _) rfl rfl rfl rfl nofun nofun nofun fun e he => .inl he
    | false =>
      exact h.congr (Nat.le_refl _) rfl rfl rfl rfl nofun (fun _ => h.due_le hclock hread) nofun
        fun e he => .inl he
  | wait =>
    have hopened : StressApp.opened b.app.pc = true := by rw [hpc]; rfl
    refine ⟨due, ?_⟩
    unfold StressBench.runStep StressApp.run
    simp only [hpc]
    by_cases hwait : (!b.app.seen && before (tick b.now) b.app.responseDeadline) = true
    · simp only [if_pos hwait]
      exact h.congr (Nat.le_refl _) rfl rfl rfl rfl (fun _ => hopened) nofun nofun fun e he => .inl he
    · simp only [if_neg hwait]
      refine h.congr (Nat.le_refl _) rfl rfl rfl rfl (fun _ => hopened) nofun (fun _ hseen => ?_)
        fun e he => .inl he
      have hunseen : b.app.seen = false := hseen
      rw [hunseen, Bool.not_false, Bool.true_and, Bool.not_eq_true] at hwait
      exact h.deadline_le hkept hclock hopened hwait
  | reschedule =>
    refine ⟨due, ?_⟩
    unfold StressBench.runStep StressApp.run
    simp only [hpc]
    cases hread : before (tick b.now) b.app.requestDue with
    | true => exact h.congr (Nat.le_refl _) rfl rfl rfl rfl nofun nofun nofun fun e he => .inl he
    | false =>
      exact h.congr (Nat.le_refl _) rfl rfl rfl rfl nofun (fun _ => h.due_le hclock hread) nofun
        fun e he => .inl he
  | paceBody =>
    obtain ⟨-, -, hdue, -, hdeadline⟩ := serviceBackground_keeps build b.app (tick b.now) sent
    refine ⟨due, ?_⟩
    unfold StressBench.runStep StressApp.run
    simp only [hpc]
    exact h.congr (Nat.le_refl _) hdue hdeadline rfl rfl nofun nofun nofun fun e he => .inl he
  | waitBody =>
    obtain ⟨-, -, hdue, -, hdeadline⟩ := serviceBackground_keeps build b.app (tick b.now) sent
    refine ⟨due, ?_⟩
    unfold StressBench.runStep StressApp.run
    simp only [hpc]
    exact h.congr (Nat.le_refl _) hdue hdeadline rfl rfl (fun _ => by rw [hpc]; rfl) nofun nofun
      fun e he => .inl he
  | paceRx =>
    refine ⟨due, ?_⟩
    unfold StressBench.runStep StressApp.run
    simp only [hpc]
    exact h.congr (Nat.le_refl _) rfl rfl rfl rfl nofun nofun nofun fun e he => .inl he
  | waitRx =>
    refine ⟨due, ?_⟩
    unfold StressBench.runStep StressApp.run
    simp only [hpc]
    exact h.congr (Nat.le_refl _) rfl rfl rfl rfl (fun _ => by rw [hpc]; rfl) nofun nofun fun e he => .inl he
  | finished =>
    refine ⟨due, ?_⟩
    unfold StressBench.runStep StressApp.run
    simp only [hpc]
    exact h

/-- **One event.** -/
theorem step (hkept : Kept target b) (hclock : build.Clocked) (e : Event) :
    ∃ due, Paced build begun due (b.step build e) := by
  cases e with
  | advance cycles =>
    have hle : b.now ≤ b.now + cycles := Nat.le_add_right _ _
    exact ⟨due, h.congr hle rfl rfl rfl rfl id (fun hpc => Nat.le_trans (h.passed hpc) hle)
      (fun hpc hseen => Nat.le_trans (h.expired hpc hseen) hle) fun e he => .inl he⟩
  | run sent => exact h.runStep hkept hclock sent
  | lose i => exact ⟨due, h.congr (Nat.le_refl _) rfl rfl rfl rfl id h.passed h.expired fun e he => .inl he⟩
  | answer data =>
    refine ⟨due, ?_⟩
    simp only [StressBench.step]
    by_cases hidle : StressApp.receiving b.app.pc = false ∨ b.dialogue.line = []
    · rw [if_pos hidle]
      exact h
    · rw [if_neg hidle]
      simp only [not_or, Bool.not_eq_false] at hidle
      have hrecord : b.app.pc ≠ .record := fun hpc => by
        rw [hpc] at hidle
        exact absurd hidle.1 Bool.false_ne_true
      obtain ⟨hpc, hdue, hdeadline⟩ := onCanRx_keeps build b.app build.responseId data 8
      split
      · refine h.congr (Nat.le_refl _) hdue hdeadline rfl b.dialogue.arrive_sent (by simp only [hpc]; exact id)
          (by simp only [hpc]; exact h.passed) (fun hr => absurd (hpc.symm.trans hr) hrecord) ?_
        intro e he
        rcases b.dialogue.mem_arrive he with hold | hsome
        · exact .inl hold
        · exact .inr fun hnone => absurd hnone hsome
      · exact h.congr (Nat.le_refl _) hdue hdeadline rfl rfl (by simp only [hpc]; exact id)
          (by simp only [hpc]; exact h.passed) (fun hr => absurd (hpc.symm.trans hr) hrecord)
          fun e he => .inl he
  | other id data len =>
    refine ⟨due, ?_⟩
    simp only [StressBench.step]
    split
    · exact h
    · next hother =>
      simp only [not_or, Bool.not_eq_false] at hother
      have hrecord : b.app.pc ≠ .record := fun hpc => by
        rw [hpc] at hother
        exact absurd hother.1 Bool.false_ne_true
      obtain ⟨hpc, hdue, hdeadline⟩ := onCanRx_keeps build b.app id data len
      exact h.congr (Nat.le_refl _) hdue hdeadline rfl rfl (by simp only [hpc]; exact fun ho => ho)
        (by simp only [hpc]; exact h.passed) (fun hr => absurd (hpc.symm.trans hr) hrecord) fun e he => .inl he

end Paced

theorem paced_start (build : StressBuild) (target : UInt32) (now : ℕ) :
    Paced build now now (start target now) :=
  ⟨rfl, Nat.le_refl _, Nat.le_add_right _ _, nofun, nofun, nofun, nofun⟩

/-- **The pace of a stress test.** After every run there are no more requests than one for each period begun,
and every request given up has had its time. -/
theorem stress_paced {build : StressBuild} (hclock : build.Clocked) (target : UInt32) (now : ℕ)
    (es : List Event) :
    let b := after (step build) (start target now) es
    now + build.requestPeriod.toNat * b.app.stats.requestsSent.toNat ≤ b.now + build.requestPeriod.toNat ∧
      ∀ e ∈ b.dialogue.ledger, e.answer = none → e.opened + build.responseTimeout.toNat ≤ e.closed := by
  have hboth : Kept target (after (step build) (start target now) es) ∧
      ∃ due, Paced build now due (after (step build) (start target now) es) :=
    after_invariant (I := fun b => Kept target b ∧ ∃ due, Paced build now due b)
      ⟨kept_start target now, now, paced_start build target now⟩
      (fun _ e ⟨hkept, _, hpaced⟩ => ⟨hkept.step e, hpaced.step hkept hclock e⟩) es
  obtain ⟨hkept, due, hpaced⟩ := hboth
  refine ⟨?_, hpaced.givenUp⟩
  rw [hkept.sent_toNat]
  exact Nat.le_trans hpaced.earliest hpaced.near

theorem f407Build_clocked : f407Build.Clocked := ⟨by decide, by decide⟩

theorem stress_paced_lateRun :
    let b := after (step f407Build) (start 1 0) lateRun
    0 + f407Build.requestPeriod.toNat * b.app.stats.requestsSent.toNat ≤
        b.now + f407Build.requestPeriod.toNat ∧
      ∀ e ∈ b.dialogue.ledger, e.answer = none → e.opened + f407Build.responseTimeout.toNat ≤ e.closed :=
  stress_paced f407Build_clocked 1 0 lateRun

/-! ## The background -/

/-- Everything the background has a part in. -/
def backgroundPart (b : StressBench) : Slots × UInt32 × UInt32 × ℕ × List Can.TimedFrame :=
  (b.app.background, b.app.stats.backgroundSent, b.app.stats.backgroundMissed, b.servedAt, b.frames)

/-- The event services the background. -/
def Services (b : StressBench) : Event → Prop
  | .run _ => b.app.pc = .paceBody ∨ b.app.pc = .waitBody
  | _ => False

/-- The background is serviced less than half a turn of the counter after its last service. -/
def Prompt (b : StressBench) (e : Event) : Prop := b.Services e → b.now < b.servedAt + 2 ^ 31

/-- What the observer writes down of a service. -/
def serve (build : StressBuild) (b : StressBench) (sent : Bool) :
    Slots × UInt32 × UInt32 × ℕ × List Can.TimedFrame :=
  let served := b.app.serviceBackground build (tick b.now) sent
  (served.2.background, served.2.stats.backgroundSent, served.2.stats.backgroundMissed, b.now,
    b.frames ++ (served.1.map fun data => ⟨b.now, data, sent⟩).toList)

theorem onCanRx_background (build : StressBuild) (app : StressApp) (id : UInt32) (data : Vector UInt8 8)
    (len : UInt8) :
    (app.onCanRx build id data len).background = app.background ∧
      (app.onCanRx build id data len).stats.backgroundSent = app.stats.backgroundSent ∧
      (app.onCanRx build id data len).stats.backgroundMissed = app.stats.backgroundMissed := by
  unfold StressApp.onCanRx
  split
  · obtain hno | hyes := StressMaster.acceptResponse_cases app.stats id data len build.responseId
    · simp only [hno, and_self]
    · simp only [hyes, and_self]
  · exact ⟨rfl, rfl, rfl⟩

/-- A step services the background or does not touch it. -/
theorem step_background (build : StressBuild) (b : StressBench) (e : Event) :
    (∃ sent, b.Services e ∧ (b.step build e).backgroundPart = b.serve build sent ∧
      (b.step build e).now = b.now) ∨
    ((b.step build e).backgroundPart = b.backgroundPart ∧ b.now ≤ (b.step build e).now) := by
  cases e with
  | advance cycles => exact .inr ⟨rfl, Nat.le_add_right _ _⟩
  | lose i => exact .inr ⟨rfl, Nat.le_refl _⟩
  | answer data =>
    refine .inr ?_
    obtain ⟨hslots, hsent, hmissed⟩ := onCanRx_background build b.app build.responseId data 8
    simp only [step]
    split_ifs <;> simp only [backgroundPart, hslots, hsent, hmissed, le_refl, and_self]
  | other id data len =>
    refine .inr ?_
    obtain ⟨hslots, hsent, hmissed⟩ := onCanRx_background build b.app id data len
    simp only [step]
    split_ifs <;> simp only [backgroundPart, hslots, hsent, hmissed, le_refl, and_self]
  | run sent =>
    cases hpc : b.app.pc with
    | paceBody =>
      refine .inl ⟨sent, .inl hpc, ?_, ?_⟩ <;>
        simp only [step, StressBench.runStep, StressApp.run, hpc, backgroundPart, serve]
    | waitBody =>
      refine .inl ⟨sent, .inr hpc, ?_, ?_⟩ <;>
        simp only [step, StressBench.runStep, StressApp.run, hpc, backgroundPart, serve]
    | check | pace | wait | reschedule =>
      refine .inr ?_
      simp only [step, StressBench.runStep, StressApp.run, hpc]
      split <;> exact ⟨rfl, Nat.le_refl _⟩
    | record =>
      refine .inr ?_
      simp only [step, StressBench.runStep, StressApp.run, hpc]
      split_ifs <;> simp only [backgroundPart, StressMaster.recordLatency, StressMaster.recordTimeout, le_refl,
        and_self]
    | request | paceRx | waitRx | restart | finished =>
      refine .inr ?_
      simp only [step, StressBench.runStep, StressApp.run, hpc, backgroundPart, StressMaster.recordRequest, le_refl,
        and_self]

/-- The background stands before the `n`-th period. -/
structure Numbered (build : StressBuild) (begun n : ℕ) (b : StressBench) : Prop where
  onSchedule : Slots.OnSchedule begun build.backgroundPeriod n b.app.background
  used : Slots.Used begun build.backgroundPeriod n (Can.uses b.frames)
  spanned : n = Slots.spanned begun build.backgroundPeriod (Can.uses b.frames)
  served : b.servedAt ≤ begun + n * build.backgroundPeriod.toNat
  near : begun + n * build.backgroundPeriod.toNat ≤ b.servedAt + build.backgroundPeriod.toNat
  past : b.servedAt ≤ b.now
  sent : b.app.stats.backgroundSent = UInt32.ofNat (b.frames.countP (·.taken))
  accounted : b.app.stats.backgroundSent + b.app.stats.backgroundMissed = UInt32.ofNat n

namespace Numbered

variable {n : ℕ} (h : Numbered build begun n b)

include h

theorem congr {b' : StressBench} (hpart : b'.backgroundPart = b.backgroundPart) (hnow : b.now ≤ b'.now) :
    Numbered build begun n b' := by
  simp only [backgroundPart, Prod.mk.injEq] at hpart
  obtain ⟨hslots, hsent, hmissed, hserved, hframes⟩ := hpart
  refine ⟨hslots ▸ h.onSchedule, hframes ▸ h.used, hframes ▸ h.spanned, hserved ▸ h.served, hserved ▸ h.near,
    hserved ▸ Nat.le_trans h.past hnow, ?_, ?_⟩
  · rw [hsent, hframes]
    exact h.sent
  · rw [hsent, hmissed]
    exact h.accounted

/-- **A service**: before its time it does nothing, and in time it uses the period of the reading. -/
theorem serve (hclock : build.Clocked) (hprompt : b.now < b.servedAt + 2 ^ 31) {b' : StressBench} {sent : Bool}
    (hpart : b'.backgroundPart = b.serve build sent) (hnow : b'.now = b.now) :
    ∃ n, Numbered build begun n b' := by
  obtain ⟨hpos, hlt⟩ := StressBuild.backgroundPeriod_bounds hclock
  have hserved := h.served
  have hnear := h.near
  have hpast := h.past
  have hread := h.onSchedule.before_next (t := b.now) (by omega) (by omega)
  unfold StressBench.serve StressApp.serviceBackground at hpart
  rw [hread] at hpart
  by_cases hdue : b.now < begun + n * build.backgroundPeriod.toNat
  · simp only [hdue, decide_true, if_true, Option.map_none, Option.toList_none, List.append_nil, backgroundPart,
      Prod.mk.injEq] at hpart
    obtain ⟨hslots, hsent, hmissed, hat, hframes⟩ := hpart
    refine ⟨n, hslots ▸ h.onSchedule, hframes ▸ h.used, hframes ▸ h.spanned, ?_, ?_, ?_, ?_, ?_⟩
    · omega
    · omega
    · omega
    · rw [hsent, hframes]
      exact h.sent
    · rw [hsent, hmissed]
      exact h.accounted
  · obtain ⟨k, hskipped, hon, hfrom, hto⟩ := h.onSchedule.catchUp hpos (by omega) (t := b.now) (by omega)
    simp only [hdue, decide_false, Bool.false_eq_true, if_false, Option.map_some, Option.toList_some,
      backgroundPart, Prod.mk.injEq] at hpart
    obtain ⟨hslots, hsent, hmissed, hat, hframes⟩ := hpart
    have huses : Can.uses b'.frames = Can.uses b.frames ++
        [(b.now, (b.app.background.catchUp build.backgroundPeriod (tick b.now)).number)] := by
      rw [hframes]
      exact Can.uses_snoc _ _ _ _
    have haccounted := h.accounted
    refine ⟨n + k + 1, hslots ▸ hon.use, ?_, ?_, ?_, ?_, ?_, ?_, ?_⟩
    · rw [huses]
      exact (h.used.later k).use hon hpos hfrom hto
    · rw [huses, Slots.spanned_snoc, Slots.slotOf_eq hpos hfrom hto]
    · omega
    · rw [Nat.succ_mul]
      omega
    · omega
    · rw [hsent, hframes, List.countP_append, List.countP_singleton, h.sent]
      cases sent
      · rfl
      · exact (ofNat_succ _).symm
    · rw [hsent, hmissed, hskipped]
      rw [ofNat_succ, UInt32.ofNat_add, ← haccounted]
      cases sent <;> simp only [Bool.false_eq_true, if_true, if_false] <;> ac_rfl

end Numbered

theorem numbered_start (build : StressBuild) (target : UInt32) (now : ℕ) :
    Numbered build now 0 (start target now) := by
  refine ⟨⟨?_, rfl⟩, Slots.used_nil, rfl, ?_, ?_, Nat.le_refl _, rfl, rfl⟩
  · simp [start, StressApp.init]
  · simp [start]
  · simp [start]

/-- What the background says of itself. -/
structure BackgroundAccounts (build : StressBuild) (begun : ℕ) (b : StressBench) : Prop where
  inTime : Slots.InTime begun build.backgroundPeriod (Can.uses b.frames)
  sent : b.app.stats.backgroundSent = UInt32.ofNat (b.frames.countP (·.taken))
  accounted : b.app.stats.backgroundSent + b.app.stats.backgroundMissed =
    UInt32.ofNat (Slots.spanned begun build.backgroundPeriod (Can.uses b.frames))

/-- **The background of a stress test.** In every run whose services are less than half a turn of the counter
apart, the number in a frame is the period of 228 µs it was built in, no two frames are built in one period,
and up to the last frame every period is counted as sent or as missed. -/
theorem background_slots {build : StressBuild} (hclock : build.Clocked) (target : UInt32) (now : ℕ)
    {es : List Event} (hprompt : AllSteps (step build) (start target now) Prompt es) :
    BackgroundAccounts build now (after (step build) (start target now) es) := by
  have hnumbered : ∃ n, Numbered build now n (after (step build) (start target now) es) := by
    refine after_invariant_of (I := fun b => ∃ n, Numbered build now n b) ⟨0, numbered_start build target now⟩
      ?_ es hprompt
    rintro b e ⟨n, h⟩ hservice
    obtain ⟨sent, hserves, hpart, hnow⟩ | ⟨hpart, hnow⟩ := step_background build b e
    · exact h.serve hclock (hservice hserves) hpart hnow
    · exact ⟨n, h.congr hpart hnow⟩
  obtain ⟨n, h⟩ := hnumbered
  refine ⟨h.used.toInTime, h.sent, ?_⟩
  rw [h.accounted, ← h.spanned]

/-- The second service of `twiceRun` comes two periods and a half after the first. -/
def twiceRun : List Event :=
  [.run true, .run true, .run true, .run true, .run true, .run true, .advance 95760, .run true, .run false]

instance (b : StressBench) (e : Event) : Decidable (b.Services e) :=
  match e with
  | .run _ => inferInstanceAs (Decidable (_ ∨ _))
  | .advance _ | .answer _ | .lose _ | .other .. => inferInstanceAs (Decidable False)

instance (b : StressBench) (e : Event) : Decidable (Prompt b e) := inferInstanceAs (Decidable (_ → _))

theorem background_slots_twiceRun :
    (after (step f407Build) (start 1 0) twiceRun).frames.map (fun f => (f.time, Can.sequenceOf f.data, f.taken)) =
        [(0, 0, true), (95760, 2, false)] ∧
      BackgroundAccounts f407Build 0 (after (step f407Build) (start 1 0) twiceRun) :=
  ⟨by decide +kernel, background_slots f407Build_clocked 1 0 (by decide +kernel)⟩

end StressBench

end DualCan.App
