import DualCan.Isotp.Tx

/-!
# ISO-TP: the receiver

`IsotpRx_t` and its operations. The receive buffer is the list of its bytes. A store past its end lengthens
the list (`storeAt`), so a buffer keeps its length exactly when every store stays inside it.
-/

namespace DualCan.Isotp

open DualCan.Clock

/-- Store `bytes` at index `off` of a buffer. -/
def storeAt (buffer : List UInt8) (off : ℕ) (bytes : List UInt8) : List UInt8 :=
  buffer.take off ++ bytes ++ buffer.drop (off + bytes.length)

/-- `IsotpRx_t`. -/
structure IsotpRx where
  nArMs : UInt16
  nCrMs : UInt16
  fcFrame : Frame
  padding : UInt8
  blockSize : UInt8
  stminMs : UInt8
  hasBuffer : Bool
  buffer : List UInt8
  bufferSize : ℕ
  declaredLength : ℕ
  received : ℕ
  expectedSn : UInt8
  cfInBlock : UInt8
  rxDeadlineMs : UInt32
  fcDeadlineMs : UInt32
  rxInProgress : Bool
  rxTimedOut : Bool
  fcWaitingEnqueue : Bool
  fcPending : Bool
  messageReady : Bool
  messageLength : ℕ

namespace IsotpRx

/-- The buffer `IsotpRx_Init` selects: the caller's, else the static fallback unless another endpoint has
it already (`g_rx_fallback_in_use`), else none. The last component is the flag afterwards. -/
def selectBuffer (rxBuffer : Option (List UInt8)) (fallbackInUse : Bool) :
    Option (List UInt8) × Bool :=
  match rxBuffer with
  | some (b :: bs) => (some (b :: bs), fallbackInUse)
  | _ => if !fallbackInUse then (some (List.replicate maxTotalLength 0), true) else (none, fallbackInUse)

/-- `IsotpRx_Init`, with the flag of the static fallback buffer before and after. -/
def init (config : IsotpConfig) (fallbackInUse : Bool) : IsotpRx × Bool :=
  let (buffer, fallbackInUse) := selectBuffer config.rxBuffer fallbackInUse
  ({ nArMs := orDefault config.nArMs defaultNArMs
     nCrMs := orDefault config.nCrMs defaultNCrMs
     fcFrame := Vector.replicate 8 0
     padding := paddingOf config
     blockSize := config.blockSize
     stminMs := config.stminMs
     hasBuffer := buffer.isSome
     buffer := buffer.getD []
     bufferSize := (buffer.getD []).length
     declaredLength := 0
     received := 0
     expectedSn := 1
     cfInBlock := 0
     rxDeadlineMs := 0
     fcDeadlineMs := 0
     rxInProgress := false
     rxTimedOut := false
     fcWaitingEnqueue := false
     fcPending := false
     messageReady := false
     messageLength := 0 }, fallbackInUse)

/-- `isotp_rx_service_fc_enqueue`. -/
def serviceFcEnqueue (rx : IsotpRx) (c : Channel) (now : UInt32) : IsotpResult × IsotpRx × Channel :=
  if !rx.fcWaitingEnqueue then (.ok, rx, c)
  else
    match c.send rx.fcFrame with
    | (true, c) =>
      let (pending, c) := c.txPending
      (.ok, { rx with
        fcWaitingEnqueue := false
        fcPending := pending
        fcDeadlineMs := now + rx.nArMs.toUInt32
        rxDeadlineMs := if !pending then now + rx.nCrMs.toUInt32 else rx.rxDeadlineMs }, c)
    | (false, c) =>
      if reached now rx.fcDeadlineMs then
        (.errTimeout, { rx with
          fcWaitingEnqueue := false, rxInProgress := false, rxTimedOut := true }, c)
      else (.ok, rx, c)

/-- The frame `isotp_send_fc` builds. -/
def fcFrameOf (rx : IsotpRx) (status : UInt8) : Frame :=
  Frame.fill rx.padding [(pciFc <<< 4) ||| (status &&& 0x0F), rx.blockSize, rx.stminMs]

/-- `isotp_send_fc`. -/
def sendFc (rx : IsotpRx) (c : Channel) (now : UInt32) (status : UInt8) : IsotpRx × Channel :=
  (serviceFcEnqueue { rx with
    fcFrame := rx.fcFrameOf status
    fcWaitingEnqueue := true
    fcDeadlineMs := now + rx.nArMs.toUInt32 } c now).2

/-- `IsotpRx_Reset`. -/
def reset (rx : IsotpRx) : IsotpRx :=
  { rx with
    rxInProgress := false
    rxTimedOut := false
    fcWaitingEnqueue := false
    fcPending := false
    messageReady := false
    messageLength := 0
    received := 0
    declaredLength := 0 }

/-- The Single Frame branch of `IsotpRx_OnFrame`. -/
def onSingleFrame (rx : IsotpRx) (frame : Frame) : IsotpResult × IsotpRx :=
  let sfLen := frame.low.toNat
  if sfLen = 0 then (.errInvalid, rx)
  else if rx.rxInProgress then (.errInvalid, rx)
  else if rx.messageReady then (.errBusy, rx)
  else if sfLen > sfPayloadMax then (.errInvalid, rx)
  else if !rx.hasBuffer then (.errOverflow, rx)
  else
    (.ok, { rx with
      buffer := storeAt rx.buffer 0 (frame.payload 1 sfLen)
      messageLength := sfLen
      messageReady := true })

/-- The length a First Frame declares. -/
def declaredOf (frame : Frame) : ℕ := frame.low.toNat <<< 8 ||| (getElem frame 1 Frame.one_lt).toNat

/-- A message whose bytes have all been received is complete. -/
def finish (rx : IsotpRx) : IsotpRx :=
  { rx with rxInProgress := false, messageLength := rx.declaredLength, messageReady := true }

/-- The reception a First Frame opens. -/
def openReception (rx : IsotpRx) (declared : ℕ) (frame : Frame) : IsotpRx :=
  let chunk := min ffPayloadMax declared
  { rx with
    declaredLength := declared
    buffer := storeAt rx.buffer 0 (frame.payload 2 chunk)
    received := chunk
    expectedSn := 1
    cfInBlock := 0
    rxInProgress := true }

/-- The First Frame branch of `IsotpRx_OnFrame`. -/
def onFirstFrame (rx : IsotpRx) (c : Channel) (now : UInt32) (frame : Frame) :
    IsotpResult × IsotpRx × Channel :=
  let declared := declaredOf frame
  if rx.rxInProgress then (.errInvalid, rx.reset, c)
  else if rx.messageReady then (.errBusy, rx, c)
  else if declared ≤ maxSingleFrame || declared > maxTotalLength then
    (if declared > maxTotalLength then .errTooLong else .errInvalid, rx, c)
  else if !rx.hasBuffer then (.errOverflow, sendFc rx c now fcOverflow)
  else if declared > rx.bufferSize then
    let (rx, c) := sendFc rx c now fcOverflow
    (.errOverflow, { rx with rxInProgress := false }, c)
  else
    let (rx, c) := sendFc (rx.openReception declared frame) c now fcCts
    if rx.received ≥ rx.declaredLength then (.ok, rx.finish, c) else (.ok, rx, c)

/-- The bytes of a Consecutive Frame taken into the buffer, before the completion test. -/
def appendCf (rx : IsotpRx) (now : UInt32) (frame : Frame) : IsotpRx :=
  let chunk := min cfPayloadMax (rx.declaredLength - rx.received)
  { rx with
    buffer := storeAt rx.buffer rx.received (frame.payload 1 chunk)
    received := rx.received + chunk
    expectedSn := (rx.expectedSn + 1) &&& seqMask
    cfInBlock := rx.cfInBlock + 1
    rxDeadlineMs := now + rx.nCrMs.toUInt32 }

/-- The Consecutive Frame branch of `IsotpRx_OnFrame`. -/
def onConsecutiveFrame (rx : IsotpRx) (c : Channel) (now : UInt32) (frame : Frame) :
    IsotpResult × IsotpRx × Channel :=
  if !rx.rxInProgress then (.errInvalid, rx, c)
  else if frame.low ≠ rx.expectedSn then (.errInvalid, rx.reset, c)
  else
    let rx := rx.appendCf now frame
    if rx.received ≥ rx.declaredLength then (.ok, rx.finish, c)
    else if 0 < rx.blockSize && rx.blockSize ≤ rx.cfInBlock then
      (.ok, sendFc { rx with cfInBlock := 0 } c now fcCts)
    else (.ok, rx, c)

/-- `IsotpRx_OnFrame`. -/
def onFrame (rx : IsotpRx) (c : Channel) (now : UInt32) (frame : Frame) :
    IsotpResult × IsotpRx × Channel :=
  if frame.pci = pciSf then ((rx.onSingleFrame frame).1, (rx.onSingleFrame frame).2, c)
  else if frame.pci = pciFf then rx.onFirstFrame c now frame
  else if frame.pci = pciCf then rx.onConsecutiveFrame c now frame
  else (.errInvalid, rx, c)

/-- `IsotpRx_Poll`. -/
def poll (rx : IsotpRx) (c : Channel) (now : UInt32) : IsotpResult × IsotpRx × Channel :=
  if !rx.rxInProgress && !rx.fcWaitingEnqueue && !rx.fcPending then (.ok, rx, c)
  else
    match serviceFcEnqueue rx c now with
    | (.errTimeout, rx, c) => (.errTimeout, rx, c)
    | (_, rx, c) =>
      if rx.fcWaitingEnqueue then (.ok, rx, c)
      else if !rx.rxInProgress then (.ok, rx, c)
      else if rx.fcPending then
        match c.txPending with
        | (true, c) =>
          if reached now rx.fcDeadlineMs then
            (.errTimeout, { rx with
              rxInProgress := false, fcPending := false, rxTimedOut := true }, c)
          else (.ok, rx, c)
        | (false, c) =>
          (.ok, { rx with fcPending := false, rxDeadlineMs := now + rx.nCrMs.toUInt32 }, c)
      else if reached now rx.rxDeadlineMs then
        (.errTimeout, { rx with rxInProgress := false, rxTimedOut := true }, c)
      else (.ok, rx, c)

/-- The complete message waiting in the buffer. -/
def message (rx : IsotpRx) : List UInt8 := rx.buffer.take rx.messageLength

/-- `IsotpRx_Read`: the bytes copied out on success. -/
def read (rx : IsotpRx) (outCapacity : ℕ) : IsotpResult × List UInt8 × IsotpRx :=
  if !rx.messageReady then (.errState, [], rx)
  else if rx.messageLength > outCapacity then (.errTooLong, [], rx)
  else (.ok, rx.message, { rx with messageReady := false, messageLength := 0 })

/-- `IsotpRx_IsBusy`. -/
def isBusy (rx : IsotpRx) : Bool := rx.rxInProgress

end IsotpRx

/-- `Isotp_RouteFrame` for an endpoint with both sides. -/
def routeFrame (tx : IsotpTx) (rx : IsotpRx) (c : Channel) (now : UInt32) (frame : Frame) :
    IsotpResult × IsotpTx × IsotpRx × Channel :=
  if frame.pci = pciFc then
    if !tx.isBusy then (.errState, tx, rx, c)
    else
      let (result, tx) := tx.onFrame now frame
      (result, tx, rx, c)
  else
    let (result, rx, c) := rx.onFrame c now frame
    (result, tx, rx, c)

end DualCan.Isotp
