import Mathlib.Data.List.Basic
import Mathlib.Tactic.Common

/-!
# ISO-TP: constants, frames, channel

The vocabulary of `isotp.h`. A frame is eight bytes. A channel carries the answers its callbacks will give
and the frames it has accepted, so one value stands for any behaviour of the driver below: `send` takes
the next answer and appends the frame if it is `true`, `txPending` takes the next pending answer. An
endpoint here always has a `send` callback (both firmware mains bind one), and the identifiers it sends
under are left out: a channel is one direction of one pair of endpoints.
-/

namespace DualCan.Isotp

/-! ## Constants -/

def pciSf : UInt8 := 0x0
def pciFf : UInt8 := 0x1
def pciCf : UInt8 := 0x2
def pciFc : UInt8 := 0x3

def fcCts : UInt8 := 0x0
def fcWait : UInt8 := 0x1
def fcOverflow : UInt8 := 0x2

def sfPayloadMax : ℕ := 7
def ffPayloadMax : ℕ := 6
def cfPayloadMax : ℕ := 7
def maxSingleFrame : ℕ := sfPayloadMax
def maxTotalLength : ℕ := 0x0FFF

def defaultPadding : UInt8 := 0xCC
def defaultBlockSize : UInt8 := 8
def defaultStminMs : UInt8 := 20
def seqMask : UInt8 := 0x0F

def defaultNAsMs : UInt16 := 1000
def defaultNBsMs : UInt16 := 1000
def defaultNCrMs : UInt16 := 1000
def defaultNArMs : UInt16 := 1000

/-- Outcome codes shared by both state machines. -/
inductive IsotpResult where
  | ok
  | errBusy
  | errTooLong
  | errInvalid
  | errTimeout
  | errOverflow
  | errNoResponse
  | errState
  deriving DecidableEq, Repr

/-! ## Frames -/

/-- A CAN frame of DLC 8. -/
abbrev Frame := Vector UInt8 8

/-- The given bytes, then padding up to the frame's end. -/
def Frame.fill (padding : UInt8) (bytes : List UInt8) : Frame :=
  Vector.ofFn fun i => bytes.getD i padding

theorem Frame.toList_fill {padding : UInt8} {bytes : List UInt8} (h : bytes.length ≤ 8) :
    (Frame.fill padding bytes).toList = bytes ++ List.replicate (8 - bytes.length) padding := by
  apply List.ext_getElem
  · simp [h]
  · intro i h1 h2
    simp only [Vector.length_toList] at h1
    by_cases hi : i < bytes.length
    · simp [Frame.fill, List.getElem_append_left hi, hi]
    · simp [Frame.fill, List.getElem_append_right (Nat.le_of_not_lt hi), hi]

theorem Frame.fill_zero {padding b : UInt8} {bytes : List UInt8} :
    (Frame.fill padding (b :: bytes))[0] = b := by
  simp [Frame.fill]

theorem Frame.fill_one {padding b c : UInt8} {bytes : List UInt8} :
    (Frame.fill padding (b :: c :: bytes))[1] = c := by
  simp [Frame.fill]

theorem Frame.one_lt : 1 < 8 := by decide

theorem Frame.two_lt : 2 < 8 := by decide

/-- `n` bytes of the frame from position `off` on. -/
def Frame.payload (f : Frame) (off n : ℕ) : List UInt8 := (f.toList.drop off).take n

/-- The high nibble of the first byte. -/
def Frame.pci (f : Frame) : UInt8 := f[0] >>> 4

/-- The low nibble of the first byte. -/
def Frame.low (f : Frame) : UInt8 := f[0] &&& 0x0F

/-! ## Channel -/

/-- The driver below an endpoint: what its callbacks will answer, and the frames accepted so far. -/
structure Channel where
  sendAnswers : ℕ → Bool
  pendingAnswers : ℕ → Bool
  sent : List Frame

namespace Channel

/-- One call of `send`. -/
def send (c : Channel) (frame : Frame) : Bool × Channel :=
  let c' := { c with sendAnswers := fun n => c.sendAnswers (n + 1) }
  if c.sendAnswers 0 then (true, { c' with sent := c.sent ++ [frame] }) else (false, c')

/-- One call of `tx_pending`. -/
def txPending (c : Channel) : Bool × Channel :=
  (c.pendingAnswers 0, { c with pendingAnswers := fun n => c.pendingAnswers (n + 1) })

@[simp] theorem txPending_sent (c : Channel) : c.txPending.2.sent = c.sent := rfl

theorem send_true {c c' : Channel} {frame : Frame} (h : c.send frame = (true, c')) :
    c'.sent = c.sent ++ [frame] := by
  unfold send at h
  split at h
  · simp only [Prod.mk.injEq, true_and] at h
    rw [← h]
  · simp at h

theorem send_false {c c' : Channel} {frame : Frame} (h : c.send frame = (false, c')) :
    c'.sent = c.sent := by
  unfold send at h
  split at h
  · simp at h
  · simp only [Prod.mk.injEq, true_and] at h
    rw [← h]

/-- A channel that accepts every frame and never reports one as pending. -/
def Lossless (c : Channel) : Prop :=
  (∀ n, c.sendAnswers n = true) ∧ ∀ n, c.pendingAnswers n = false

end Channel

/-! ## Configuration -/

/-- `IsotpConfig_t`. The receive buffer is its contents; its size is their length. -/
structure IsotpConfig where
  nAsMs : UInt16
  nBsMs : UInt16
  nCrMs : UInt16
  nArMs : UInt16
  blockSize : UInt8
  stminMs : UInt8
  padding : UInt8
  rxBuffer : Option (List UInt8)

/-- `IsotpConfig_Init`. -/
def IsotpConfig.init (rxBuffer : Option (List UInt8)) : IsotpConfig where
  nAsMs := defaultNAsMs
  nBsMs := defaultNBsMs
  nCrMs := defaultNCrMs
  nArMs := defaultNArMs
  blockSize := defaultBlockSize
  stminMs := defaultStminMs
  padding := defaultPadding
  rxBuffer := rxBuffer

/-- `value ? value : fallback`. -/
def orDefault (value fallback : UInt16) : UInt16 := if value = 0 then fallback else value

theorem orDefault_ne_zero {value fallback : UInt16} (h : fallback ≠ 0) :
    orDefault value fallback ≠ 0 := by
  unfold orDefault
  split <;> assumption

/-- The padding byte an endpoint uses: zero selects the default. -/
def paddingOf (config : IsotpConfig) : UInt8 :=
  if config.padding = 0 then defaultPadding else config.padding

theorem paddingOf_eq {config : IsotpConfig} (h : config.padding ≠ 0) :
    paddingOf config = config.padding := by
  simp [paddingOf, h]

end DualCan.Isotp
