import DualCan.Isotp.Receiver
import DualCan.Isotp.TxFresh

/-!
# ISO-TP: nothing leaks from one transfer into the next

A receiver without a reception, an unread message or a Flow Control frame to send reads none of what earlier
receptions left in `IsotpRx_t`: a First Frame sets the counters, every deadline is set when its wait begins, and
only the bytes a message has stored are read from the buffer. `Common` and `Alike` say which fields two receivers
must share in which state; no call tells alike receivers apart.
-/

namespace DualCan.Isotp

open DualCan.Clock DualCan.Run

/-- The part of a store that lies before its end, in two buffers that agree before its start. -/
theorem take_storeAt_congr {buffer buffer' : List UInt8} (bytes : List UInt8) {off : ℕ}
    (h : buffer'.take off = buffer.take off) (hlen : off ≤ buffer.length) (hlen' : off ≤ buffer'.length) :
    (storeAt buffer' off bytes).take (off + bytes.length) =
      (storeAt buffer off bytes).take (off + bytes.length) := by
  rw [take_storeAt bytes hlen, take_storeAt bytes hlen', h]

theorem le_length_storeAt {buffer : List UInt8} (bytes : List UInt8) {off : ℕ} (h : off ≤ buffer.length) :
    buffer.length ≤ (storeAt buffer off bytes).length := by
  simp only [storeAt, List.length_append, List.length_take, List.length_drop]
  omega

namespace IsotpRx

/-- What `IsotpRx_Init` fixes: the budgets, the bytes of a Flow Control frame and the size of the buffer. -/
abbrev Config := UInt16 × UInt16 × UInt8 × UInt8 × UInt8 × Bool × ℕ

def config (rx : IsotpRx) : Config :=
  (rx.nArMs, rx.nCrMs, rx.padding, rx.blockSize, rx.stminMs, rx.hasBuffer, rx.bufferSize)

/-- The counters of a reception. -/
def counters (rx : IsotpRx) : ℕ × ℕ × UInt8 × UInt8 :=
  (rx.declaredLength, rx.received, rx.expectedSn, rx.cfInBlock)

/-! ## Alike receivers -/

/-- What two receivers that no call tells apart share, but for their Flow Control frames: the configuration `k`,
the flags, the counters and the bytes stored of a reception in progress, and the unread message. -/
structure Common (k : Config) (rx rx' : IsotpRx) : Prop where
  config : rx.config = k ∧ rx'.config = k
  size : rx.bufferSize ≤ rx.buffer.length ∧ rx.bufferSize ≤ rx'.buffer.length
  exclusive : ¬(rx.rxInProgress = true ∧ rx.messageReady = true)
  progress : rx'.rxInProgress = rx.rxInProgress
  waiting : rx'.fcWaitingEnqueue = rx.fcWaitingEnqueue
  ready : rx'.messageReady = rx.messageReady
  reception : rx.rxInProgress = true → rx'.counters = rx.counters ∧ rx.received ≤ rx.declaredLength ∧
    rx.declaredLength ≤ rx.bufferSize ∧ rx'.buffer.take rx.received = rx.buffer.take rx.received
  message : rx.messageReady = true → rx'.messageLength = rx.messageLength ∧ rx'.message = rx.message

/-- Two receivers that differ only in what is not read. -/
structure Alike (k : Config) (rx rx' : IsotpRx) : Prop extends Common k rx rx' where
  enqueue : rx.fcWaitingEnqueue = true → rx'.fcFrame = rx.fcFrame ∧ rx'.fcDeadlineMs = rx.fcDeadlineMs
  pending : rx.fcWaitingEnqueue = false → rx.rxInProgress = true → rx'.fcPending = rx.fcPending ∧
    (rx.fcPending = true → rx'.fcDeadlineMs = rx.fcDeadlineMs) ∧
    (rx.fcPending = false → rx'.rxDeadlineMs = rx.rxDeadlineMs)

/-- What a call does to alike receivers over one channel: the same result, the same channel, alike receivers. -/
def Matches (k : Config) (out out' : IsotpResult × IsotpRx × Channel) : Prop :=
  out'.1 = out.1 ∧ Alike k out.2.1 out'.2.1 ∧ out'.2.2 = out.2.2

variable {k : Config} {rx rx' : IsotpRx} {c : Channel} {now : UInt32}

theorem Common.same (h : Common k rx rx') : rx'.nArMs = rx.nArMs ∧ rx'.nCrMs = rx.nCrMs ∧
    rx'.padding = rx.padding ∧ rx'.blockSize = rx.blockSize ∧ rx'.stminMs = rx.stminMs ∧
    rx'.hasBuffer = rx.hasBuffer ∧ rx'.bufferSize = rx.bufferSize := by
  have hsame := h.config.2.trans h.config.1.symm
  simpa only [IsotpRx.config, Prod.mk.injEq] using hsame

/-- Receivers with nothing to do share their configuration, and need no more. -/
theorem Alike.of_inactive (hconfig : rx.config = k ∧ rx'.config = k)
    (hsize : rx.bufferSize ≤ rx.buffer.length ∧ rx.bufferSize ≤ rx'.buffer.length)
    (h : rx.rxInProgress = false ∧ rx.fcWaitingEnqueue = false ∧ rx.messageReady = false)
    (h' : rx'.rxInProgress = false ∧ rx'.fcWaitingEnqueue = false ∧ rx'.messageReady = false) :
    Alike k rx rx' where
  config := hconfig
  size := hsize
  exclusive := fun hboth => absurd hboth.1 (Bool.eq_false_iff.1 h.1)
  progress := h'.1.trans h.1.symm
  waiting := h'.2.1.trans h.2.1.symm
  ready := h'.2.2.trans h.2.2.symm
  reception := fun hp => absurd hp (Bool.eq_false_iff.1 h.1)
  message := fun hr => absurd hr (Bool.eq_false_iff.1 h.2.2)
  enqueue := fun hw => absurd hw (Bool.eq_false_iff.1 h.2.1)
  pending := fun _ hp => absurd hp (Bool.eq_false_iff.1 h.1)

/-- A reception given up. -/
theorem Common.ended (h : Common k rx rx') (hw : rx.fcWaitingEnqueue = false) (timedOut timedOut' : Bool) :
    Alike k { rx with rxInProgress := false, rxTimedOut := timedOut }
      { rx' with rxInProgress := false, rxTimedOut := timedOut' } where
  config := h.config
  size := h.size
  exclusive := fun hboth => by cases hboth.1
  progress := rfl
  waiting := h.waiting
  ready := h.ready
  reception := fun hp => by cases hp
  message := h.message
  enqueue := fun hw' => absurd hw' (Bool.eq_false_iff.1 hw)
  pending := fun _ hp => by cases hp

/-! ## Flow Control -/

/-- A Flow Control frame that waits for a mailbox in both. -/
theorem Common.service (h : Common k rx rx') (hw : rx.fcWaitingEnqueue = true)
    (hframe : rx'.fcFrame = rx.fcFrame) (hdeadline : rx'.fcDeadlineMs = rx.fcDeadlineMs) (c : Channel)
    (now : UInt32) : Matches k (serviceFcEnqueue rx c now) (serviceFcEnqueue rx' c now) := by
  obtain ⟨hnAr, hnCr, -⟩ := h.same
  have hw' : rx'.fcWaitingEnqueue = true := h.waiting.trans hw
  have hsend : c.send rx'.fcFrame = c.send rx.fcFrame := by rw [hframe]
  have hreached : reached now rx'.fcDeadlineMs = reached now rx.fcDeadlineMs := by rw [hdeadline]
  unfold serviceFcEnqueue
  rw [if_neg (by simp [hw]), if_neg (by simp [hw']), hsend, hreached]
  split
  · next c₁ hsend =>
    generalize c₁.txPending = answer
    obtain ⟨pending, c₂⟩ := answer
    refine ⟨rfl, ⟨⟨h.config, h.size, h.exclusive, h.progress, rfl, h.ready, h.reception, h.message⟩, ?_, ?_⟩,
      rfl⟩
    · exact fun hw => by cases hw
    · refine fun _ _ => ⟨rfl, fun _ => ?_, fun hpending => ?_⟩
      · dsimp only
        rw [hnAr]
      · have hpending : pending = false := hpending
        dsimp only
        rw [hpending, hnCr]
        rfl
  · next c₁ hsend =>
    split
    · have hquiet : Common k { rx with fcWaitingEnqueue := false } { rx' with fcWaitingEnqueue := false } :=
        ⟨h.config, h.size, h.exclusive, h.progress, rfl, h.ready, h.reception, h.message⟩
      exact ⟨rfl, hquiet.ended rfl true true, rfl⟩
    · refine ⟨rfl, ⟨h, fun _ => ⟨hframe, hdeadline⟩, fun hw'' => ?_⟩, rfl⟩
      rw [hw] at hw''
      cases hw''

theorem Common.sendFc (h : Common k rx rx') (c : Channel) (now : UInt32) (status : UInt8) :
    Alike k (sendFc rx c now status).1 (sendFc rx' c now status).1 ∧
      (sendFc rx' c now status).2 = (sendFc rx c now status).2 := by
  obtain ⟨hnAr, -, hpadding, hblock, hstmin, -⟩ := h.same
  have hcommon : Common k
      { rx with
        fcFrame := rx.fcFrameOf status
        fcWaitingEnqueue := true
        fcDeadlineMs := now + rx.nArMs.toUInt32 }
      { rx' with
        fcFrame := rx'.fcFrameOf status
        fcWaitingEnqueue := true
        fcDeadlineMs := now + rx'.nArMs.toUInt32 } :=
    ⟨h.config, h.size, h.exclusive, h.progress, rfl, h.ready, h.reception, h.message⟩
  have hframe : rx'.fcFrameOf status = rx.fcFrameOf status := by
    rw [fcFrameOf, fcFrameOf, hpadding, hblock, hstmin]
  have hdeadline : now + rx'.nArMs.toUInt32 = now + rx.nArMs.toUInt32 := by rw [hnAr]
  exact (hcommon.service rfl hframe hdeadline c now).2

/-! ## Received frames -/

theorem Alike.reset (h : Alike k rx rx') : Alike k rx.reset rx'.reset :=
  .of_inactive h.config h.size ⟨rfl, rfl, rfl⟩ ⟨rfl, rfl, rfl⟩

theorem Alike.onSingleFrame (h : Alike k rx rx') (frame : Frame) :
    (onSingleFrame rx' frame).1 = (onSingleFrame rx frame).1 ∧
      Alike k (onSingleFrame rx frame).2 (onSingleFrame rx' frame).2 := by
  obtain ⟨-, -, -, -, -, hbuffer, -⟩ := h.same
  unfold IsotpRx.onSingleFrame
  dsimp only
  by_cases h0 : frame.low.toNat = 0
  · rw [if_pos h0, if_pos h0]
    exact ⟨rfl, h⟩
  rw [if_neg h0, if_neg h0]
  by_cases hp : rx.rxInProgress = true
  · rw [if_pos hp, if_pos (h.progress.trans hp)]
    exact ⟨rfl, h⟩
  have hp' : ¬rx'.rxInProgress = true := by rwa [h.progress]
  rw [if_neg hp, if_neg hp']
  by_cases hr : rx.messageReady = true
  · rw [if_pos hr, if_pos (h.ready.trans hr)]
    exact ⟨rfl, h⟩
  have hr' : ¬rx'.messageReady = true := by rwa [h.ready]
  rw [if_neg hr, if_neg hr']
  by_cases hlen : frame.low.toNat > sfPayloadMax
  · rw [if_pos hlen, if_pos hlen]
    exact ⟨rfl, h⟩
  rw [if_neg hlen, if_neg hlen]
  by_cases hb : (!rx.hasBuffer) = true
  · rw [if_pos hb, if_pos (by rw [hbuffer]; exact hb)]
    exact ⟨rfl, h⟩
  have hb' : ¬(!rx'.hasBuffer) = true := by rwa [hbuffer]
  rw [if_neg hb, if_neg hb']
  have hbytes : (frame.payload 1 frame.low.toNat).length = frame.low.toNat := by
    have hlen : ¬frame.low.toNat > 7 := hlen
    exact Frame.length_payload (by omega)
  have hstored := take_storeAt_congr (frame.payload 1 frame.low.toNat)
    (show rx'.buffer.take 0 = rx.buffer.take 0 from rfl) (Nat.zero_le _) (Nat.zero_le _)
  rw [hbytes, Nat.zero_add] at hstored
  refine ⟨rfl, ⟨h.config, ?_, ?_, h.progress, h.waiting, rfl, ?_, fun _ => ⟨rfl, hstored⟩⟩, h.enqueue, ?_⟩
  · exact ⟨Nat.le_trans h.size.1 (le_length_storeAt _ (Nat.zero_le _)),
      Nat.le_trans h.size.2 (le_length_storeAt _ (Nat.zero_le _))⟩
  · exact fun hboth => absurd hboth.1 hp
  · exact fun hp' => absurd hp' hp
  · exact fun _ hp' => absurd hp' hp

/-- Two receptions opened by one First Frame: nothing of the receptions before is left in what is read. -/
theorem Common.opened (h : Common k rx rx') (hr : rx.messageReady = false) {frame : Frame}
    (hmin : ffPayloadMax ≤ declaredOf frame) (hmax : declaredOf frame ≤ rx.bufferSize) :
    Common k (rx.openReception (declaredOf frame) frame) (rx'.openReception (declaredOf frame) frame) := by
  have hchunk : min ffPayloadMax (declaredOf frame) = ffPayloadMax := Nat.min_eq_left hmin
  have hstored := take_storeAt_congr (frame.payload 2 ffPayloadMax)
    (show rx'.buffer.take 0 = rx.buffer.take 0 from rfl) (Nat.zero_le _) (Nat.zero_le _)
  rw [Frame.length_payload (by decide), Nat.zero_add] at hstored
  unfold openReception
  dsimp only
  rw [hchunk]
  refine ⟨h.config, ?_, ?_, rfl, h.waiting, h.ready, fun _ => ⟨rfl, hmin, hmax, hstored⟩, ?_⟩
  · exact ⟨Nat.le_trans h.size.1 (le_length_storeAt _ (Nat.zero_le _)),
      Nat.le_trans h.size.2 (le_length_storeAt _ (Nat.zero_le _))⟩
  · exact fun hboth => absurd hboth.2 (Bool.eq_false_iff.1 hr)
  · exact fun hr' => absurd hr' (Bool.eq_false_iff.1 hr)

theorem Alike.onFirstFrame (h : Alike k rx rx') (c : Channel) (now : UInt32) (frame : Frame) :
    Matches k (onFirstFrame rx c now frame) (onFirstFrame rx' c now frame) := by
  obtain ⟨-, -, -, -, -, hbuffer, hbufferSize⟩ := h.same
  unfold IsotpRx.onFirstFrame
  dsimp only
  by_cases hp : rx.rxInProgress = true
  · rw [if_pos hp, if_pos (h.progress.trans hp)]
    exact ⟨rfl, h.reset, rfl⟩
  have hp' : ¬rx'.rxInProgress = true := by rwa [h.progress]
  rw [if_neg hp, if_neg hp']
  by_cases hr : rx.messageReady = true
  · rw [if_pos hr, if_pos (h.ready.trans hr)]
    exact ⟨rfl, h, rfl⟩
  have hr' : ¬rx'.messageReady = true := by rwa [h.ready]
  rw [if_neg hr, if_neg hr']
  by_cases hlen : maxSingleFrame < declaredOf frame ∧ declaredOf frame ≤ maxTotalLength
  swap
  · rw [if_pos (declared_illegal_iff.2 hlen), if_pos (declared_illegal_iff.2 hlen)]
    exact ⟨rfl, h, rfl⟩
  have hlegal : ¬(decide (declaredOf frame ≤ maxSingleFrame) || decide (declaredOf frame > maxTotalLength)) =
      true := fun hno => declared_illegal_iff.1 hno hlen
  rw [if_neg hlegal, if_neg hlegal]
  obtain ⟨hover, hchannel⟩ := h.toCommon.sendFc c now fcOverflow
  by_cases hb : (!rx.hasBuffer) = true
  · rw [if_pos hb, if_pos (by rw [hbuffer]; exact hb)]
    exact ⟨rfl, hover, hchannel⟩
  have hb' : ¬(!rx'.hasBuffer) = true := by rwa [hbuffer]
  rw [if_neg hb, if_neg hb']
  by_cases hsize : declaredOf frame > rx.bufferSize
  · rw [if_pos hsize, if_pos (by rw [hbufferSize]; exact hsize)]
    refine ⟨rfl, ⟨⟨hover.config, hover.size, ?_, rfl, hover.waiting, hover.ready, ?_, hover.message⟩,
      hover.enqueue, ?_⟩, hchannel⟩
    · exact fun hboth => by cases hboth.1
    · exact fun hp => by cases hp
    · exact fun _ hp => by cases hp
  have hsize' : ¬declaredOf frame > rx'.bufferSize := by rwa [hbufferSize]
  rw [if_neg hsize, if_neg hsize']
  have hmin : ffPayloadMax ≤ declaredOf frame := Nat.le_of_lt (Nat.lt_of_succ_lt hlen.1)
  have hopened := h.toCommon.opened (Bool.eq_false_iff.2 hr) hmin (Nat.le_of_not_lt hsize)
  obtain ⟨hopen, hchannel⟩ := hopened.sendFc c now fcCts
  rw [if_neg (sendFc_opened rx c now hlen.1), if_neg (sendFc_opened rx' c now hlen.1)]
  exact ⟨rfl, hopen, hchannel⟩

/-- A Consecutive Frame appended to both. -/
theorem Alike.append (h : Alike k rx rx') (hp : rx.rxInProgress = true) (now : UInt32) (frame : Frame) :
    Alike k (rx.appendCf now frame) (rx'.appendCf now frame) := by
  obtain ⟨-, hnCr, -⟩ := h.same
  obtain ⟨hcounters, hle, hmax, hstored⟩ := h.reception hp
  simp only [counters, Prod.mk.injEq] at hcounters
  obtain ⟨hdeclared, hreceived, hsn, hblock⟩ := hcounters
  have hbytes : (frame.payload 1 (min cfPayloadMax (rx.declaredLength - rx.received))).length =
      min cfPayloadMax (rx.declaredLength - rx.received) := by
    have h7 : min cfPayloadMax (rx.declaredLength - rx.received) ≤ 7 := Nat.min_le_left _ _
    exact Frame.length_payload (by omega)
  have hlen : rx.received ≤ rx.buffer.length := Nat.le_trans hle (Nat.le_trans hmax h.size.1)
  have hlen' : rx.received ≤ rx'.buffer.length := Nat.le_trans hle (Nat.le_trans hmax h.size.2)
  have htake := take_storeAt_congr
    (frame.payload 1 (min cfPayloadMax (rx.declaredLength - rx.received))) hstored hlen hlen'
  rw [hbytes] at htake
  unfold appendCf
  dsimp only
  rw [hdeclared, hreceived, hsn, hblock]
  refine ⟨⟨h.config, ?_, h.exclusive, h.progress, h.waiting, h.ready, ?_, ?_⟩, h.enqueue, ?_⟩
  · exact ⟨Nat.le_trans h.size.1 (le_length_storeAt _ hlen), Nat.le_trans h.size.2 (le_length_storeAt _ hlen')⟩
  · exact fun _ => ⟨rfl, show rx.received + _ ≤ rx.declaredLength by omega, hmax, htake⟩
  · exact fun hr => absurd ⟨hp, hr⟩ h.exclusive
  · intro hw _
    refine ⟨(h.pending hw hp).1, (h.pending hw hp).2.1, fun _ => ?_⟩
    dsimp only
    rw [hnCr]

theorem Alike.finished (h : Alike k rx rx') (hp : rx.rxInProgress = true)
    (hdone : rx.declaredLength ≤ rx.received) : Alike k rx.finish rx'.finish := by
  obtain ⟨hcounters, hle, -, hstored⟩ := h.reception hp
  have hdeclared : rx'.declaredLength = rx.declaredLength := congrArg Prod.fst hcounters
  have hall : rx.received = rx.declaredLength := Nat.le_antisymm hle hdone
  rw [hall, ← hdeclared] at hstored
  refine ⟨⟨h.config, h.size, ?_, rfl, h.waiting, rfl, ?_, fun _ => ⟨hdeclared, ?_⟩⟩, h.enqueue, ?_⟩
  · exact fun hboth => by cases hboth.1
  · exact fun hp => by cases hp
  · rw [hdeclared] at hstored
    have hmessage : rx'.buffer.take rx'.declaredLength = rx.buffer.take rx.declaredLength := by
      rw [hdeclared]
      exact hstored
    exact hmessage
  · exact fun _ hp => by cases hp

theorem Alike.onConsecutiveFrame (h : Alike k rx rx') (c : Channel) (now : UInt32) (frame : Frame) :
    Matches k (onConsecutiveFrame rx c now frame) (onConsecutiveFrame rx' c now frame) := by
  unfold IsotpRx.onConsecutiveFrame
  dsimp only
  by_cases hp : (!rx.rxInProgress) = true
  · rw [if_pos hp, if_pos (by rw [h.progress]; exact hp)]
    exact ⟨rfl, h, rfl⟩
  have hp' : ¬(!rx'.rxInProgress) = true := by rwa [h.progress]
  rw [if_neg hp, if_neg hp']
  have hp : rx.rxInProgress = true := by simpa using hp
  obtain ⟨hcounters, -⟩ := h.reception hp
  simp only [counters, Prod.mk.injEq] at hcounters
  by_cases hsn : frame.low ≠ rx.expectedSn
  · rw [if_pos hsn, if_pos (by rw [hcounters.2.2.1]; exact hsn)]
    exact ⟨rfl, h.reset, rfl⟩
  have hsn' : ¬frame.low ≠ rx'.expectedSn := by rwa [hcounters.2.2.1]
  rw [if_neg hsn, if_neg hsn']
  have happend := h.append hp now frame
  obtain ⟨hcounters', hle, hmax, hstored⟩ := happend.reception hp
  simp only [counters, Prod.mk.injEq] at hcounters'
  by_cases hdone : (rx.appendCf now frame).received ≥ (rx.appendCf now frame).declaredLength
  · rw [if_pos hdone, if_pos (by rw [hcounters'.1, hcounters'.2.1]; exact hdone)]
    exact ⟨rfl, happend.finished hp hdone, rfl⟩
  have hdone' : ¬(rx'.appendCf now frame).received ≥ (rx'.appendCf now frame).declaredLength := by
    rwa [hcounters'.1, hcounters'.2.1]
  rw [if_neg hdone, if_neg hdone']
  obtain ⟨-, -, -, hblock, -⟩ := happend.same
  have hfull : (0 < (rx'.appendCf now frame).blockSize &&
      (rx'.appendCf now frame).blockSize ≤ (rx'.appendCf now frame).cfInBlock) =
        (0 < (rx.appendCf now frame).blockSize &&
          (rx.appendCf now frame).blockSize ≤ (rx.appendCf now frame).cfInBlock) := by
    rw [hblock, hcounters'.2.2.2]
  rw [hfull]
  split
  · have hnext : Common k { rx.appendCf now frame with cfInBlock := 0 }
        { rx'.appendCf now frame with cfInBlock := 0 } := by
      refine ⟨happend.config, happend.size, happend.exclusive, happend.progress, happend.waiting, happend.ready,
        fun _ => ⟨?_, hle, hmax, hstored⟩, happend.message⟩
      simp only [counters, hcounters'.1, hcounters'.2.1, hcounters'.2.2.1]
    obtain ⟨hsent, hchannel⟩ := hnext.sendFc c now fcCts
    exact ⟨rfl, hsent, hchannel⟩
  · exact ⟨rfl, happend, rfl⟩

theorem Alike.onFrame (h : Alike k rx rx') (c : Channel) (now : UInt32) (frame : Frame) :
    Matches k (onFrame rx c now frame) (onFrame rx' c now frame) := by
  unfold IsotpRx.onFrame
  split
  · obtain ⟨hresult, hnext⟩ := h.onSingleFrame frame
    exact ⟨hresult, hnext, rfl⟩
  · split
    · exact h.onFirstFrame c now frame
    · split
      · exact h.onConsecutiveFrame c now frame
      · exact ⟨rfl, h, rfl⟩

/-! ## Polls and reads -/

/-- Whether an old Flow Control frame is still pending, a poll of an inactive receiver does nothing. -/
theorem poll_of_inactive (hp : rx.rxInProgress = false) (hw : rx.fcWaitingEnqueue = false) (c : Channel)
    (now : UInt32) : poll rx c now = (.ok, rx, c) := by
  have hservice : serviceFcEnqueue rx c now = (.ok, rx, c) := by rw [serviceFcEnqueue, if_pos (by simp [hw])]
  unfold poll
  rw [hservice]
  split
  · rfl
  · dsimp only
    rw [if_neg (by simp [hw]), if_pos (by simp [hp])]

/-- `IsotpRx_Poll` once the enqueue service has run. -/
def watch (rx : IsotpRx) (c : Channel) (now : UInt32) : IsotpResult × IsotpRx × Channel :=
  if rx.fcWaitingEnqueue then (.ok, rx, c)
  else if !rx.rxInProgress then (.ok, rx, c)
  else if rx.fcPending then
    match c.txPending with
    | (true, c) =>
      if reached now rx.fcDeadlineMs then
        (.errTimeout, { rx with rxInProgress := false, fcPending := false, rxTimedOut := true }, c)
      else (.ok, rx, c)
    | (false, c) => (.ok, { rx with fcPending := false, rxDeadlineMs := now + rx.nCrMs.toUInt32 }, c)
  else if reached now rx.rxDeadlineMs then
    (.errTimeout, { rx with rxInProgress := false, rxTimedOut := true }, c)
  else (.ok, rx, c)

/-- A poll of an active receiver: the service, then the rest unless the service reports a timeout. -/
theorem poll_of_active (h : ¬(rx.rxInProgress = false ∧ rx.fcWaitingEnqueue = false)) (c : Channel)
    (now : UInt32) : poll rx c now =
      if (serviceFcEnqueue rx c now).1 = .errTimeout then serviceFcEnqueue rx c now
      else watch (serviceFcEnqueue rx c now).2.1 (serviceFcEnqueue rx c now).2.2 now := by
  have hguard : ¬(!rx.rxInProgress && !rx.fcWaitingEnqueue && !rx.fcPending) = true := by
    simp only [Bool.and_eq_true, Bool.not_eq_true']
    exact fun hidle => h hidle.1
  unfold poll
  rw [if_neg hguard]
  generalize serviceFcEnqueue rx c now = out
  obtain ⟨result, rx₁, c₁⟩ := out
  cases result <;> rfl

theorem Alike.watch (h : Alike k rx rx') (c : Channel) (now : UInt32) :
    Matches k (watch rx c now) (watch rx' c now) := by
  unfold IsotpRx.watch
  by_cases hw : rx.fcWaitingEnqueue = true
  · rw [if_pos hw, if_pos (h.waiting.trans hw)]
    exact ⟨rfl, h, rfl⟩
  have hw' : ¬rx'.fcWaitingEnqueue = true := by rwa [h.waiting]
  rw [if_neg hw, if_neg hw']
  have hw : rx.fcWaitingEnqueue = false := by simpa using hw
  by_cases hp : (!rx.rxInProgress) = true
  · rw [if_pos hp, if_pos (by rw [h.progress]; exact hp)]
    exact ⟨rfl, h, rfl⟩
  have hp' : ¬(!rx'.rxInProgress) = true := by rwa [h.progress]
  rw [if_neg hp, if_neg hp']
  have hp : rx.rxInProgress = true := by simpa using hp
  obtain ⟨hpending, hfc, hrx⟩ := h.pending hw hp
  by_cases hasked : rx.fcPending = true
  · have hreached : reached now rx'.fcDeadlineMs = reached now rx.fcDeadlineMs := by rw [hfc hasked]
    rw [if_pos hasked, if_pos (hpending.trans hasked), hreached]
    have hclear : Common k { rx with fcPending := false } { rx' with fcPending := false } :=
      ⟨h.config, h.size, h.exclusive, h.progress, h.waiting, h.ready, h.reception, h.message⟩
    split
    · split
      · exact ⟨rfl, hclear.ended hw true true, rfl⟩
      · exact ⟨rfl, h, rfl⟩
    · refine ⟨rfl, ⟨⟨h.config, h.size, h.exclusive, h.progress, h.waiting, h.ready, h.reception, h.message⟩,
        h.enqueue, fun _ _ => ⟨rfl, (fun hp => by cases hp), fun _ => ?_⟩⟩, rfl⟩
      dsimp only
      rw [h.same.2.1]
  have hasked' : ¬rx'.fcPending = true := by rwa [hpending]
  have hreached : reached now rx'.rxDeadlineMs = reached now rx.rxDeadlineMs := by
    rw [hrx (by simpa using hasked)]
  rw [if_neg hasked, if_neg hasked', hreached]
  split
  · exact ⟨rfl, h.toCommon.ended hw true true, rfl⟩
  · exact ⟨rfl, h, rfl⟩

theorem Alike.service (h : Alike k rx rx') (c : Channel) (now : UInt32) :
    Matches k (serviceFcEnqueue rx c now) (serviceFcEnqueue rx' c now) := by
  by_cases hw : rx.fcWaitingEnqueue = true
  · exact h.toCommon.service hw (h.enqueue hw).1 (h.enqueue hw).2 c now
  · have hw' : ¬rx'.fcWaitingEnqueue = true := by rwa [h.waiting]
    rw [serviceFcEnqueue, serviceFcEnqueue, if_pos (by simp [hw]), if_pos (by simp [hw'])]
    exact ⟨rfl, h, rfl⟩

theorem Alike.poll (h : Alike k rx rx') (c : Channel) (now : UInt32) :
    Matches k (poll rx c now) (poll rx' c now) := by
  by_cases hidle : rx.rxInProgress = false ∧ rx.fcWaitingEnqueue = false
  · have hidle' : rx'.rxInProgress = false ∧ rx'.fcWaitingEnqueue = false := by
      rwa [h.progress, h.waiting]
    rw [poll_of_inactive hidle.1 hidle.2, poll_of_inactive hidle'.1 hidle'.2]
    exact ⟨rfl, h, rfl⟩
  · have hidle' : ¬(rx'.rxInProgress = false ∧ rx'.fcWaitingEnqueue = false) := by
      rwa [h.progress, h.waiting]
    obtain ⟨hresult, hnext, hchannel⟩ := h.service c now
    rw [poll_of_active hidle, poll_of_active hidle', hresult, hchannel]
    split
    · exact ⟨hresult, hnext, hchannel⟩
    · exact hnext.watch _ now

theorem Alike.read (h : Alike k rx rx') (outCapacity : ℕ) :
    (read rx' outCapacity).1 = (read rx outCapacity).1 ∧ (read rx' outCapacity).2.1 = (read rx outCapacity).2.1 ∧
      Alike k (read rx outCapacity).2.2 (read rx' outCapacity).2.2 := by
  unfold IsotpRx.read
  by_cases hr : (!rx.messageReady) = true
  · rw [if_pos hr, if_pos (by rw [h.ready]; exact hr)]
    exact ⟨rfl, rfl, h⟩
  have hr' : ¬(!rx'.messageReady) = true := by rwa [h.ready]
  rw [if_neg hr, if_neg hr']
  obtain ⟨hlength, hmessage⟩ := h.message (by simpa using hr)
  by_cases hlong : rx.messageLength > outCapacity
  · rw [if_pos hlong, if_pos (by rw [hlength]; exact hlong)]
    exact ⟨rfl, rfl, h⟩
  have hlong' : ¬rx'.messageLength > outCapacity := by rwa [hlength]
  rw [if_neg hlong, if_neg hlong']
  refine ⟨rfl, hmessage, ⟨h.config, h.size, ?_, h.progress, h.waiting, rfl, h.reception, ?_⟩, h.enqueue,
    h.pending⟩
  · exact fun hboth => by cases hboth.2
  · exact fun hr => by cases hr

end IsotpRx

/-! ## Runs -/

/-- What the caller of a receiver sees: the result, the channel the call leaves and the bytes it reads. -/
structure RxReply where
  result : IsotpResult
  channel : Option Channel
  bytes : List UInt8

namespace RxCall

open IsotpRx

/-- A call with all its caller sees; a reset reports `ok`. -/
def call (rx : IsotpRx) : RxCall → RxReply × IsotpRx
  | .onFrame c now frame =>
    (⟨(rx.onFrame c now frame).1, some (rx.onFrame c now frame).2.2, []⟩, (rx.onFrame c now frame).2.1)
  | .poll c now => (⟨(rx.poll c now).1, some (rx.poll c now).2.2, []⟩, (rx.poll c now).2.1)
  | .read outCapacity => (⟨(rx.read outCapacity).1, none, (rx.read outCapacity).2.1⟩, (rx.read outCapacity).2.2)
  | .reset => (⟨.ok, none, []⟩, rx.reset)

variable {k : Config} {rx rx' : IsotpRx}

theorem call_snd (rx : IsotpRx) (e : RxCall) : (call rx e).2 = step rx e := by
  cases e <;> rfl

/-- **No call tells alike receivers apart.** -/
theorem alike_call (h : Alike k rx rx') (e : RxCall) :
    (call rx' e).1 = (call rx e).1 ∧ Alike k (call rx e).2 (call rx' e).2 := by
  cases e with
  | onFrame c now frame =>
    obtain ⟨hresult, hnext, hchannel⟩ := h.onFrame c now frame
    exact ⟨by rw [call, call, hresult, hchannel], hnext⟩
  | poll c now =>
    obtain ⟨hresult, hnext, hchannel⟩ := h.poll c now
    exact ⟨by rw [call, call, hresult, hchannel], hnext⟩
  | read outCapacity =>
    obtain ⟨hresult, hbytes, hnext⟩ := h.read outCapacity
    exact ⟨by rw [call, call, hresult, hbytes], hnext⟩
  | reset => exact ⟨rfl, h.reset⟩

theorem alike_self (config : IsotpConfig) (fallbackInUse : Bool) (history : List RxCall) :
    Alike (IsotpRx.init config fallbackInUse).1.config
      (after step (IsotpRx.init config fallbackInUse).1 history)
      (after step (IsotpRx.init config fallbackInUse).1 history) := by
  refine after_invariant (I := fun rx => Alike (IsotpRx.init config fallbackInUse).1.config rx rx) ?_ ?_ history
  · refine .of_inactive ⟨rfl, rfl⟩ ⟨?_, ?_⟩ ⟨rfl, rfl, rfl⟩ ⟨rfl, rfl, rfl⟩
    · exact Nat.le_refl _
    · exact Nat.le_refl _
  · intro rx e h
    rw [← call_snd]
    exact (alike_call h e).2

/-- A receiver with nothing to do is as good as a new one. -/
theorem alike_init (config : IsotpConfig) (fallbackInUse : Bool) (history : List RxCall)
    (hidle : (after step (IsotpRx.init config fallbackInUse).1 history).rxInProgress = false ∧
      (after step (IsotpRx.init config fallbackInUse).1 history).fcWaitingEnqueue = false ∧
      (after step (IsotpRx.init config fallbackInUse).1 history).messageReady = false) :
    Alike (IsotpRx.init config fallbackInUse).1.config (IsotpRx.init config fallbackInUse).1
      (after step (IsotpRx.init config fallbackInUse).1 history) := by
  have hself := alike_self config fallbackInUse history
  have hbufferSize : (after step (IsotpRx.init config fallbackInUse).1 history).bufferSize =
      (IsotpRx.init config fallbackInUse).1.bufferSize :=
    congrArg (fun k => k.2.2.2.2.2.2) hself.config.1
  have hsize := hself.size.1
  rw [hbufferSize] at hsize
  exact .of_inactive ⟨rfl, hself.config.1⟩ ⟨Nat.le_refl _, hsize⟩ ⟨rfl, rfl, rfl⟩ hidle

end RxCall

/-- **No state leaks from one transfer into the next**: after any history that ends idle a sender answers every
further run of calls as a new one of its configuration does, with the same results and the same frames; so does
a receiver after any history that ends without a reception, an unread message or a Flow Control frame to send. -/
theorem no_state_leaks :
    (∀ (config : IsotpConfig) (c₀ : Channel) (history : List IsotpTx.Call),
      (after IsotpTx.callStep (IsotpTx.init config, c₀) history).1.txOngoing = false →
        ∀ (c : Channel) (calls : List IsotpTx.Call),
          let used := after (logged IsotpTx.call)
            (((after IsotpTx.callStep (IsotpTx.init config, c₀) history).1, c), []) calls
          let fresh := after (logged IsotpTx.call) ((IsotpTx.init config, c), []) calls
          used.2 = fresh.2 ∧ used.1.2 = fresh.1.2) ∧
    ∀ (config : IsotpConfig) (fallbackInUse : Bool) (history : List RxCall),
      let rx := after RxCall.step (IsotpRx.init config fallbackInUse).1 history
      rx.rxInProgress = false → rx.fcWaitingEnqueue = false → rx.messageReady = false →
        ∀ calls : List RxCall, (after (logged RxCall.call) (rx, []) calls).2 =
          (after (logged RxCall.call) ((IsotpRx.init config fallbackInUse).1, []) calls).2 := by
  constructor
  · intro config c₀ history hidle c calls
    exact (IsotpTx.alike_init config c₀ history hidle).run c calls
  · intro config fallbackInUse history rx hp hw hr calls
    have halike := RxCall.alike_init config fallbackInUse history ⟨hp, hw, hr⟩
    exact (logs_eq_of_related halike (fun _ _ e h => RxCall.alike_call h e) [] calls).1

/-- A driver that takes every frame at once. -/
def idleChannel : Channel where
  sendAnswers := fun _ => true
  pendingAnswers := fun _ => false
  sent := []

/-- A transfer that the peer gives up with an overflow after a block of two frames, 20 ms apart. -/
def overflowed : List IsotpTx.Call :=
  [.start 0 (List.replicate 30 0), .onFrame 5 (Frame.fill 0xCC [0x30, 2, 20]), .poll 6, .poll 30, .poll 31,
    .onFrame 40 (Frame.fill 0xCC [0x32, 0, 0])]

/-- A sender left with a block size of two and an STmin of 20, and a receiver whose peer fell silent. -/
theorem no_state_leaks_overflowed :
    (after (logged IsotpTx.call)
        (((after IsotpTx.callStep (IsotpTx.init (.init none), idleChannel) overflowed).1, idleChannel), [])
        overflowed).2 =
      (after (logged IsotpTx.call) ((IsotpTx.init (.init none), idleChannel), []) overflowed).2 ∧
    (after (logged RxCall.call)
        (after RxCall.step (IsotpRx.init (.init none) false).1
          [.onFrame idleChannel 0 (Frame.fill 0xCC [0x10, 20, 1, 2, 3, 4, 5, 6]), .poll idleChannel 5000], [])
        [.onFrame idleChannel 6000 (Frame.fill 0xCC [2, 0x3E, 0]), .read 8]).2 =
      (after (logged RxCall.call) ((IsotpRx.init (.init none) false).1, [])
        [.onFrame idleChannel 6000 (Frame.fill 0xCC [2, 0x3E, 0]), .read 8]).2 :=
  ⟨(no_state_leaks.1 (.init none) idleChannel overflowed (by decide +kernel) idleChannel overflowed).1,
    no_state_leaks.2 (.init none) false
      [.onFrame idleChannel 0 (Frame.fill 0xCC [0x10, 20, 1, 2, 3, 4, 5, 6]), .poll idleChannel 5000]
      (by decide +kernel) (by decide +kernel) (by decide +kernel)
      [.onFrame idleChannel 6000 (Frame.fill 0xCC [2, 0x3E, 0]), .read 8]⟩

end DualCan.Isotp
