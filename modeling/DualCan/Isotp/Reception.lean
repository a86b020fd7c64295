import DualCan.Isotp.RxRefine
import DualCan.Isotp.Tester

/-!
# ISO-TP: the Python transport's `receive`

`IsoTpTransport.receive` between two waits on the bus: `receiveFirst` is what it does with the first frame,
`receiveNext` with a later one. Each gives the Flow Control frames it sends and whether the call goes on,
returns or raises. `receiveFirst_single`, `receiveFirst_multi` and `receiveNext_segment` run them over the
segments of a payload. `Granted` describes a call of `send` that only a Flow Control frame other than CTS can
make raise; a call for 1 to 4095 bytes is one.
-/

namespace DualCan.Isotp

/-- A First Frame has twelve bits for the length. -/
theorem declaredOf_le (frame : Frame) : IsotpRx.declaredOf frame ≤ 4095 := by
  have hlow : frame.low.toNat ≤ 15 := by
    rw [Frame.low, UInt8.toNat_and]
    exact Nat.and_le_right
  have hhigh : frame.low.toNat <<< 8 < 2 ^ 12 := by
    rw [Nat.shiftLeft_eq]
    omega
  have hbyte : frame[1].toNat < 2 ^ 12 := Nat.lt_trans (UInt8.toNat_lt _) (by decide)
  have hor := Nat.or_lt_two_pow hhigh hbyte
  unfold IsotpRx.declaredOf
  omega

namespace Py

/-- `IsoTpTransport`, with its default arguments. -/
structure IsoTpTransport where
  padding : UInt8 := 0xCC
  stminMs : ℕ := 20
  blockSize : ℕ := 8

/-- `encode_flow_control`. -/
def encodeFlowControl (flowStatus blockSize stmin : ℕ) (padding : UInt8) : Except String (List UInt8) :=
  if ¬flowStatus ≤ 0x0F then .error "flow status must be 0..15"
  else
    .ok (pad [UInt8.ofNat ((0x3 <<< 4) ||| flowStatus), UInt8.ofNat (blockSize &&& 0xFF),
      UInt8.ofNat (stmin &&& 0xFF)] padding)

/-- The local variables of `receive` while it waits for a Consecutive Frame. -/
structure Reception where
  totalLength : ℕ
  payload : List UInt8
  expectedIndex : ℕ
  blockCount : ℕ

/-- How a call of `receive` stands after a frame: it waits for another one, or it has ended. -/
inductive Receipt where
  | waiting (r : Reception)
  | returned (payload : List UInt8)
  | raised (message : String)

namespace IsoTpTransport

variable (t : IsoTpTransport)

/-- Send a Flow Control frame and wait. -/
def grantBlock (r : Reception) : List (List UInt8) × Receipt :=
  match encodeFlowControl fcCts.toNat t.blockSize t.stminMs 0xCC with
  | .error message => ([], .raised message)
  | .ok frame => ([frame], .waiting r)

/-- `receive` with its first frame. -/
def receiveFirst (frame : Frame) : List (List UInt8) × Receipt :=
  if frame.pci = pciSf then ([], .returned (frame.payload 1 frame.low.toNat))
  else if frame.pci ≠ pciFf then
    ([], .raised s!"unexpected PCI type {frame.pci.toNat} while receiving")
  else
    let totalLength := (frame.low.toNat <<< 8) ||| (getElem frame 1 Frame.one_lt).toNat
    if totalLength ≤ sfPayloadMax then ([], .raised "invalid first frame total length")
    else
      t.grantBlock
        { totalLength := totalLength, payload := frame.payload 2 ffPayloadMax, expectedIndex := 1,
          blockCount := 0 }

/-- An upper-case hexadecimal digit string. -/
def hex (n : ℕ) : String := (String.ofList (Nat.toDigits 16 n)).toUpper

/-- The end of the loop's body in `receive`, and its head. -/
def resume (r : Reception) : List (List UInt8) × Receipt :=
  if r.payload.length < r.totalLength then
    if t.blockSize > 0 ∧ r.blockCount ≥ t.blockSize then t.grantBlock { r with blockCount := 0 }
    else ([], .waiting r)
  else ([], .returned (r.payload.take r.totalLength))

/-- `receive` with a frame while it waits for a Consecutive Frame; it drops any other. -/
def receiveNext (r : Reception) (frame : Frame) : List (List UInt8) × Receipt :=
  if frame.pci ≠ pciCf then ([], .waiting r)
  else if frame.low.toNat ≠ r.expectedIndex then
    ([], .raised
      s!"unexpected CF sequence index 0x{hex frame.low.toNat}, expected 0x{hex r.expectedIndex}")
  else
    t.resume
      { r with
        payload := r.payload ++ frame.payload 1 cfPayloadMax
        expectedIndex := (r.expectedIndex + 1) % 16
        blockCount := r.blockCount + 1 }

/-! ## The segments of a payload -/

/-- The reception after Consecutive Frame `k` of a payload. -/
def receptionAt (payload : List UInt8) (blockCount k : ℕ) : Reception where
  totalLength := payload.length
  payload := payload.take (offsetOf (k + 1))
  expectedIndex := (k + 1) % 16
  blockCount := blockCount

variable {t : IsoTpTransport} {padding : UInt8} {payload : List UInt8} {k : ℕ}

theorem grantBlock_waiting (r : Reception) : (t.grantBlock r).2 = .waiting r := by
  unfold grantBlock encodeFlowControl
  rw [if_neg (by decide)]

theorem resume_open {r : Reception} (h : r.payload.length < r.totalLength) :
    ∃ count, (t.resume r).2 = .waiting { r with blockCount := count } := by
  unfold resume
  rw [if_pos h]
  by_cases hblock : t.blockSize > 0 ∧ r.blockCount ≥ t.blockSize
  · rw [if_pos hblock]
    exact ⟨0, grantBlock_waiting _⟩
  · rw [if_neg hblock]
    exact ⟨r.blockCount, rfl⟩

theorem resume_closed {r : Reception} (h : ¬r.payload.length < r.totalLength) :
    (t.resume r).2 = .returned (r.payload.take r.totalLength) := by
  unfold resume
  rw [if_neg h]

theorem receiveFirst_single (h : payload.length ≤ 7) :
    t.receiveFirst (IsotpTx.sfFrame padding payload) = ([], .returned payload) := by
  unfold receiveFirst
  rw [if_pos (sfFrame_pci h), sfFrame_low h, IsotpTx.sfFrame, Frame.payload_fill_one h (Nat.le_refl _),
    List.take_length]

theorem receiveFirst_multi (t : IsoTpTransport) (padding : UInt8) (h : 7 < payload.length)
    (hmax : payload.length ≤ 4095) :
    (t.receiveFirst (IsotpTx.ffFrame padding payload.length (payload.take ffPayloadMax))).2 =
      .waiting (receptionAt payload 0 0) := by
  have hdeclared : IsotpRx.declaredOf
      (IsotpTx.ffFrame padding payload.length (payload.take ffPayloadMax)) = payload.length :=
    ffFrame_declared hmax
  have hchunk : (IsotpTx.ffFrame padding payload.length (payload.take ffPayloadMax)).payload 2 ffPayloadMax =
      payload.take 6 := by
    have hlen : (payload.take 6).length = 6 := by
      rw [List.length_take]
      omega
    rw [IsotpTx.ffFrame, ffPayloadMax, Frame.payload_fill_two (Nat.le_of_eq hlen) (Nat.le_of_eq hlen.symm),
      List.take_take, Nat.min_self]
  unfold receiveFirst
  rw [if_neg (by rw [ffFrame_pci]; decide), if_neg (by rw [ffFrame_pci]; decide)]
  unfold IsotpRx.declaredOf at hdeclared
  dsimp only
  rw [hdeclared, if_neg (by unfold sfPayloadMax; omega), hchunk]
  exact grantBlock_waiting _

/-- The next Consecutive Frame of a payload is taken in, and the last one ends the call with the payload. -/
theorem receiveNext_segment (t : IsoTpTransport) (padding : UInt8) (hk : k < cfCount payload) (blockCount : ℕ) :
    (k + 1 = cfCount payload ∧
      (t.receiveNext (receptionAt payload blockCount k) (cfAt padding payload (k + 1))).2 =
        .returned payload) ∨
    (k + 1 < cfCount payload ∧ ∃ count,
      (t.receiveNext (receptionAt payload blockCount k) (cfAt padding payload (k + 1))).2 =
        .waiting (receptionAt payload count (k + 1))) := by
  have hoff : offsetOf (k + 1) < payload.length := (offsetOf_lt_iff payload (Nat.succ_pos k)).2 hk
  have hnext : offsetOf (k + 1 + 1) = offsetOf (k + 1) + 7 := IsotpRx.offsetOf_succ (Nat.succ_pos k)
  have hindex : (cfAt padding payload (k + 1)).low.toNat = (k + 1) % 16 := by
    rw [cfAt, cfFrame_low]
    exact Nat.mod_eq_of_lt (Nat.lt_trans (Nat.mod_lt _ (by decide)) (by decide))
  have hpci : (cfAt padding payload (k + 1)).pci = pciCf := cfFrame_pci
  generalize hdata : (cfAt padding payload (k + 1)).payload 1 cfPayloadMax = data
  have hseven : data.length = 7 := by
    rw [← hdata]
    exact Frame.length_payload (by decide)
  -- what the frame carries of the payload is the beginning of its data
  have hcarried : data.take (payload.length - offsetOf (k + 1)) =
      (payload.drop (offsetOf (k + 1))).take 7 := by
    have hbytes : (cfAt padding payload (k + 1)).payload 1
        (min cfPayloadMax (payload.length - offsetOf (k + 1))) =
          (payload.drop (offsetOf (k + 1))).take cfPayloadMax := IsotpRx.cfAt_payload (k + 1)
    unfold Frame.payload at hbytes hdata
    rw [← hdata, List.take_take, Nat.min_comm]
    exact hbytes
  have hsofar : (payload.take (offsetOf (k + 1))).length = offsetOf (k + 1) := by
    rw [List.length_take]
    omega
  have hlength : (payload.take (offsetOf (k + 1)) ++ data).length = offsetOf (k + 1) + 7 := by
    rw [List.length_append, hsofar, hseven]
  unfold receiveNext
  rw [if_neg (by rw [hpci]; exact fun hne => hne rfl), if_neg (by rw [hindex]; exact fun hne => hne rfl)]
  rw [hdata]
  dsimp only [receptionAt]
  rw [Nat.mod_add_mod]
  by_cases hlast : offsetOf (k + 1) + 7 < payload.length
  · have hmore : k + 1 < cfCount payload := by
      have hle := (offsetOf_lt_iff payload (k := k + 1 + 1) (by omega)).1
      omega
    have hall : data.take (payload.length - offsetOf (k + 1)) = data := List.take_of_length_le (by omega)
    have htaken : payload.take (offsetOf (k + 1)) ++ data = payload.take (offsetOf (k + 1 + 1)) := by
      rw [hnext, List.take_add, ← hcarried, hall]
    rw [← htaken]
    exact Or.inr ⟨hmore, resume_open (by rwa [hlength])⟩
  · have hend : k + 1 = cfCount payload := by
      have hle := (offsetOf_lt_iff payload (k := k + 1 + 1) (by omega)).2
      omega
    have hrest : (payload.drop (offsetOf (k + 1))).take 7 = payload.drop (offsetOf (k + 1)) :=
      List.take_of_length_le (by rw [List.length_drop]; omega)
    have htaken : (payload.take (offsetOf (k + 1)) ++ data).take payload.length = payload := by
      rw [List.take_append, hsofar, List.take_of_length_le (by omega), hcarried, hrest, List.take_append_drop]
    refine Or.inl ⟨hend, ?_⟩
    rw [resume_closed (by rwa [hlength])]
    exact congrArg _ htaken

end IsoTpTransport

/-! ## Calls of `send` that are granted -/

/-- A call that returns when every Flow Control frame it waits for comes and is CTS. -/
inductive Granted : Call → Prop
  | sendFrame {data : List UInt8} {next : Call} : Granted next → Granted (.sendFrame data next)
  | waitFlowControl {next : UInt8 → ℕ → ℕ → Call} :
      (∀ blockSize stminMs, Granted (next fcCts blockSize stminMs)) → Granted (.waitFlowControl next)
  | returned : Granted .returned

theorem Granted.sendBlock {next : Call} (h : Granted next) (block : List (List UInt8)) :
    Granted (sendBlock block next) := by
  induction block with
  | nil => exact h
  | cons frame block ih => exact .sendFrame ih

theorem granted_sendBlocks (cfFrames : List (List UInt8)) (sent blockSize : ℕ) :
    Granted (sendBlocks cfFrames sent blockSize) := by
  induction hn : cfFrames.length - sent using Nat.strongRecOn generalizing sent blockSize with
  | _ n ih =>
    by_cases hmore : sent < cfFrames.length
    · have hpos := blockOf_pos hmore blockSize
      rw [sendBlocks_eq hmore]
      refine .sendBlock ?_ _
      unfold afterBlock
      split
      · refine .waitFlowControl fun nextSize _ => ?_
        rw [if_neg (fun hne => hne rfl)]
        exact ih _ (by omega) _ nextSize rfl
      · exact .returned
    · unfold sendBlocks
      rw [dif_neg hmore]
      exact .returned

/-- `send` raises only for want of a grant. -/
theorem granted_send {payload : List UInt8} (padding : UInt8) (h1 : 1 ≤ payload.length)
    (hmax : payload.length ≤ 4095) : Granted (send payload padding) := by
  by_cases hs : payload.length ≤ 7
  · rw [send_single h1 hs]
    exact .sendFrame .returned
  · rw [send_multi (by omega) hmax]
    refine .sendFrame (.waitFlowControl fun blockSize _ => ?_)
    rw [if_neg (fun hne => hne rfl)]
    exact granted_sendBlocks _ 0 blockSize

end Py

end DualCan.Isotp
