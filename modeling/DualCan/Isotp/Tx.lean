import DualCan.Isotp.Basic
import DualCan.Run.Clock

/-!
# ISO-TP: the sender

`IsotpTx_t` and its operations. `now` is the channel's tick during one call. `tx_data` and `tx_length`
are one list, `tx_sent_in_block` and `tx_offset` are naturals (at most 585 and 4095).
-/

namespace DualCan.Isotp

open DualCan.Clock

/-- `IsotpTx_t`. -/
structure IsotpTx where
  nAsMs : UInt16
  nBsMs : UInt16
  nCrMs : UInt16
  blockSize : UInt8
  stminMs : UInt8
  padding : UInt8
  txData : List UInt8
  txTotalLength : ℕ
  txOffset : ℕ
  txSn : UInt8
  txSentInBlock : ℕ
  txDeadlineMs : UInt32
  txAsDeadlineMs : UInt32
  txEnqueueDeadlineMs : UInt32
  txLastCfMs : UInt32
  txPendingFrame : Frame
  txFfSent : Bool
  txHasSentCf : Bool
  txWaitingEnqueue : Bool
  txWaitingFc : Bool
  txWaitingAfterBlock : Bool
  txFramePending : Bool
  txOngoing : Bool

namespace IsotpTx

/-- `IsotpTx_Init`. -/
def init (config : IsotpConfig) : IsotpTx where
  nAsMs := orDefault config.nAsMs defaultNAsMs
  nBsMs := orDefault config.nBsMs defaultNBsMs
  nCrMs := orDefault config.nCrMs defaultNCrMs
  blockSize := 0
  stminMs := 0
  padding := paddingOf config
  txData := []
  txTotalLength := 0
  txOffset := 0
  txSn := 1
  txSentInBlock := 0
  txDeadlineMs := 0
  txAsDeadlineMs := 0
  txEnqueueDeadlineMs := 0
  txLastCfMs := 0
  txPendingFrame := Vector.replicate 8 0
  txFfSent := false
  txHasSentCf := false
  txWaitingEnqueue := false
  txWaitingFc := false
  txWaitingAfterBlock := false
  txFramePending := false
  txOngoing := false

/-- `isotp_note_frame_sent`. -/
def noteFrameSent (tx : IsotpTx) (c : Channel) (now : UInt32) : IsotpTx × Channel :=
  let (pending, c) := c.txPending
  ({ tx with txFramePending := pending, txAsDeadlineMs := now + tx.nAsMs.toUInt32 }, c)

/-- `isotp_tx_service_enqueue`. -/
def serviceEnqueue (tx : IsotpTx) (c : Channel) (now : UInt32) : IsotpResult × IsotpTx × Channel :=
  if !tx.txWaitingEnqueue then (.ok, tx, c)
  else
    match c.send tx.txPendingFrame with
    | (true, c) => (.ok, noteFrameSent { tx with txWaitingEnqueue := false } c now)
    | (false, c) =>
      if reached now tx.txEnqueueDeadlineMs then
        (.errTimeout, { tx with txWaitingEnqueue := false, txOngoing := false }, c)
      else (.ok, tx, c)

/-- `isotp_tx_schedule_frame`. -/
def scheduleFrame (tx : IsotpTx) (c : Channel) (now : UInt32) (frame : Frame) : IsotpTx × Channel :=
  (serviceEnqueue { tx with
    txPendingFrame := frame
    txWaitingEnqueue := true
    txEnqueueDeadlineMs := now + tx.nAsMs.toUInt32 } c now).2

/-- The frame `isotp_send_sf` builds. -/
def sfFrame (padding : UInt8) (data : List UInt8) : Frame :=
  Frame.fill padding (((pciSf <<< 4) ||| UInt8.ofNat data.length) :: data)

/-- The frame `isotp_send_ff` builds. -/
def ffFrame (padding : UInt8) (totalLength : ℕ) (chunk : List UInt8) : Frame :=
  Frame.fill padding
    (((pciFf <<< 4) ||| UInt8.ofNat ((totalLength >>> 8) &&& 0x0F)) ::
      UInt8.ofNat (totalLength &&& 0xFF) :: chunk)

/-- The frame `isotp_send_cf` builds. -/
def cfFrame (padding : UInt8) (sn : UInt8) (chunk : List UInt8) : Frame :=
  Frame.fill padding (((pciCf <<< 4) ||| (sn &&& seqMask)) :: chunk)

/-- `isotp_send_sf`. -/
def sendSf (tx : IsotpTx) (c : Channel) (now : UInt32) (data : List UInt8) : IsotpTx × Channel :=
  scheduleFrame { tx with txOffset := data.length } c now (sfFrame tx.padding data)

/-- `isotp_send_ff`. -/
def sendFf (tx : IsotpTx) (c : Channel) (now : UInt32) : IsotpTx × Channel :=
  let chunk := tx.txData.take ffPayloadMax
  scheduleFrame { tx with
    txOffset := chunk.length
    txFfSent := true
    txWaitingFc := true
    txWaitingAfterBlock := false
    txDeadlineMs := now + tx.nBsMs.toUInt32 } c now (ffFrame tx.padding tx.txTotalLength chunk)

/-- The payload bytes of the next Consecutive Frame. -/
def nextChunk (tx : IsotpTx) : List UInt8 := (tx.txData.drop tx.txOffset).take cfPayloadMax

/-- The fields `isotp_send_cf` moves on. -/
def advanceCf (tx : IsotpTx) (now : UInt32) : IsotpTx :=
  { tx with
    txOffset := tx.txOffset + tx.nextChunk.length
    txSn := (tx.txSn + 1) &&& seqMask
    txSentInBlock := tx.txSentInBlock + 1
    txHasSentCf := true
    txLastCfMs := now }

/-- `isotp_send_cf`. -/
def sendCf (tx : IsotpTx) (c : Channel) (now : UInt32) : IsotpTx × Channel :=
  scheduleFrame (tx.advanceCf now) c now (cfFrame tx.padding tx.txSn tx.nextChunk)

/-- The fields `IsotpTx_Start` sets for an accepted request. -/
def begin (tx : IsotpTx) (data : List UInt8) : IsotpTx :=
  { tx with
    txData := data
    txTotalLength := data.length
    txOffset := 0
    txSn := 1
    txSentInBlock := 0
    txFfSent := false
    txHasSentCf := false
    txWaitingEnqueue := false
    txWaitingFc := false
    txWaitingAfterBlock := false
    txFramePending := false
    txLastCfMs := 0
    txAsDeadlineMs := 0
    txEnqueueDeadlineMs := 0
    txOngoing := true }

/-- `IsotpTx_Start`. -/
def start (tx : IsotpTx) (c : Channel) (now : UInt32) (data : List UInt8) :
    IsotpResult × IsotpTx × Channel :=
  if data.length = 0 then (.errInvalid, tx, c)
  else if tx.txOngoing then (.errBusy, tx, c)
  else if data.length > maxTotalLength then (.errTooLong, tx, c)
  else if data.length ≤ maxSingleFrame then
    let (tx, c) := sendSf (begin tx data) c now data
    if !tx.txFramePending && !tx.txWaitingEnqueue then (.ok, { tx with txOngoing := false }, c)
    else (.ok, tx, c)
  else (.ok, sendFf (begin tx data) c now)

/-- `IsotpTx_IsBusy`. -/
def isBusy (tx : IsotpTx) : Bool := tx.txOngoing

/-- The block is full: `(block_size > 0) && (tx_sent_in_block >= block_size)`. -/
def afterBlock (tx : IsotpTx) : Bool := 0 < tx.blockSize && tx.blockSize.toNat ≤ tx.txSentInBlock

/-- `IsotpTx_OnFrame`. -/
def onFrame (tx : IsotpTx) (now : UInt32) (frame : Frame) : IsotpResult × IsotpTx :=
  if !tx.txOngoing then (.errState, tx)
  else if !tx.txWaitingFc && !tx.afterBlock then (.errState, tx)
  else if frame.pci ≠ pciFc then (.errInvalid, tx)
  else if frame.low = fcWait then
    (.ok, { tx with
      txDeadlineMs := now +
        (if tx.txWaitingAfterBlock || tx.afterBlock then tx.nCrMs else tx.nBsMs).toUInt32 })
  else if frame.low ≠ fcCts then
    (if frame.low = fcOverflow then .errOverflow else .errNoResponse, { tx with txOngoing := false })
  else
    (.ok, { tx with
      blockSize := getElem frame 1 Frame.one_lt
      stminMs := getElem frame 2 Frame.two_lt
      txWaitingFc := false
      txWaitingAfterBlock := false
      txSentInBlock := 0
      txDeadlineMs := now + tx.nAsMs.toUInt32 })

/-- `IsotpTx_Poll` once the last frame is neither waiting for a mailbox nor pending. -/
def pollReady (tx : IsotpTx) (c : Channel) (now : UInt32) : IsotpResult × IsotpTx × Channel :=
  if tx.txWaitingFc then
    if reached now tx.txDeadlineMs then (.errTimeout, { tx with txOngoing := false }, c)
    else (.ok, tx, c)
  else if tx.afterBlock then
    (.ok, { tx with
      txWaitingFc := true
      txWaitingAfterBlock := true
      txDeadlineMs := now + tx.nCrMs.toUInt32 }, c)
  else if tx.txOffset ≥ tx.txData.length then (.ok, { tx with txOngoing := false }, c)
  else if tx.txHasSentCf && 0 < tx.stminMs && now - tx.txLastCfMs < tx.stminMs.toUInt32 then
    (.ok, tx, c)
  else (.ok, sendCf tx c now)

/-- `IsotpTx_Poll` once the enqueue service has run: the pending frame, then `pollReady`. -/
def pollPending (tx : IsotpTx) (c : Channel) (now : UInt32) : IsotpResult × IsotpTx × Channel :=
  if tx.txWaitingEnqueue then (.ok, tx, c)
  else if tx.txFramePending then
    match c.txPending with
    | (true, c) =>
      if reached now tx.txAsDeadlineMs then
        (.errTimeout, { tx with txOngoing := false, txFramePending := false }, c)
      else (.ok, tx, c)
    | (false, c) => pollReady { tx with txFramePending := false } c now
  else pollReady tx c now

/-- `IsotpTx_Poll`. -/
def poll (tx : IsotpTx) (c : Channel) (now : UInt32) : IsotpResult × IsotpTx × Channel :=
  if !tx.txOngoing then (.ok, tx, c)
  else
    match serviceEnqueue tx c now with
    | (.errTimeout, tx, c) => (.errTimeout, tx, c)
    | (_, tx, c) => pollPending tx c now

/-- `IsotpTx_Reset`. -/
def reset (tx : IsotpTx) : IsotpTx :=
  { tx with
    txOngoing := false
    txWaitingEnqueue := false
    txWaitingFc := false
    txWaitingAfterBlock := false
    txFramePending := false
    txFfSent := false
    txHasSentCf := false
    txData := []
    txOffset := 0 }

/-! ## Calls on a sender and its channel -/

/-- The calls a caller can make on a sender. -/
inductive Call where
  | start (now : UInt32) (data : List UInt8)
  | poll (now : UInt32)
  | onFrame (now : UInt32) (frame : Frame)
  | reset
  deriving DecidableEq

/-- What a call does; a reset reports `ok`. -/
def call (s : IsotpTx × Channel) : Call → IsotpResult × IsotpTx × Channel
  | .start now data => start s.1 s.2 now data
  | .poll now => poll s.1 s.2 now
  | .onFrame now frame => ((onFrame s.1 now frame).1, (onFrame s.1 now frame).2, s.2)
  | .reset => (.ok, reset s.1, s.2)

/-- The state after a call. -/
def callStep (s : IsotpTx × Channel) (e : Call) : IsotpTx × Channel := (call s e).2

end IsotpTx

end DualCan.Isotp
