import DualCan.Isotp.Tx

/-!
# ISO-TP: segmentation

`pack_message` of `transport/isotp.py`, and its closed form `segments`: the list of frames of a payload,
written with the frames the C sender builds. `packMessage_eq` identifies the two; the sender and the
receiver are then measured against `segments`.
-/

namespace DualCan.Isotp

/-! ## The Python reference -/

namespace Py

/-- `_pad`. -/
def pad (frame : List UInt8) (padding : UInt8) : List UInt8 :=
  (frame ++ List.replicate (8 - frame.length) padding).take 8

/-- `encode_single_frame`. -/
def encodeSingleFrame (data : List UInt8) (padding : UInt8) : Except String (List UInt8) :=
  if data.length > sfPayloadMax then .error "single frame payload exceeds 7 bytes"
  else .ok (pad (UInt8.ofNat ((0x0 <<< 4) ||| data.length) :: data) padding)

/-- `encode_first_frame`. -/
def encodeFirstFrame (totalLength : ℕ) (firstChunk : List UInt8) (padding : UInt8) :
    Except String (List UInt8) :=
  if totalLength ≤ sfPayloadMax then .error "first frame is only used for payloads over 7 bytes"
  else if totalLength > 0x0FFF then .error "ISO-TP total length exceeds 4095 bytes"
  else if firstChunk.length > ffPayloadMax then .error "first frame data chunk exceeds 6 bytes"
  else
    .ok (pad (UInt8.ofNat ((0x1 <<< 4) ||| ((totalLength >>> 8) &&& 0x0F)) ::
      UInt8.ofNat (totalLength &&& 0xFF) :: firstChunk) padding)

/-- `encode_consecutive_frame`. -/
def encodeConsecutiveFrame (sequenceIndex : ℕ) (chunk : List UInt8) (padding : UInt8) :
    Except String (List UInt8) :=
  if ¬sequenceIndex ≤ 0x0F then .error "consecutive frame sequence index must be 0..15"
  else if chunk.length > sfPayloadMax then .error "consecutive frame data chunk exceeds 7 bytes"
  else .ok (pad (UInt8.ofNat ((0x2 <<< 4) ||| sequenceIndex) :: chunk) padding)

/-- The `while remaining` loop of `pack_message`. -/
def packLoop (remaining : List UInt8) (index : ℕ) (padding : UInt8) :
    Except String (List (List UInt8)) :=
  if h : remaining = [] then .ok []
  else do
    let frame ← encodeConsecutiveFrame index (remaining.take sfPayloadMax) padding
    let frames ← packLoop (remaining.drop sfPayloadMax) ((index + 1) % 16) padding
    return frame :: frames
termination_by remaining.length
decreasing_by
  have := List.length_pos_iff.2 h
  simp only [List.length_drop, sfPayloadMax]
  omega

/-- `pack_message`. -/
def packMessage (data : List UInt8) (padding : UInt8) : Except String (List (List UInt8)) :=
  if data = [] then .error "cannot pack an empty diagnostic payload"
  else if data.length ≤ sfPayloadMax then do
    let frame ← encodeSingleFrame data padding
    return [frame]
  else do
    let first ← encodeFirstFrame data.length (data.take ffPayloadMax) padding
    let rest ← packLoop (data.drop ffPayloadMax) 1 padding
    return first :: rest

end Py

/-! ## The closed form -/

/-- The sequence number of the `k`-th frame of a message, the First Frame being number 0. -/
def snOf (k : ℕ) : UInt8 := UInt8.ofNat (k % 16)

/-- The bytes of the payload before the `k`-th Consecutive Frame. -/
def offsetOf (k : ℕ) : ℕ := 6 + 7 * (k - 1)

/-- The number of Consecutive Frames of a payload over 7 bytes. -/
def cfCount (payload : List UInt8) : ℕ := payload.length / 7

/-- The `k`-th Consecutive Frame of a payload. -/
def cfAt (padding : UInt8) (payload : List UInt8) (k : ℕ) : Frame :=
  IsotpTx.cfFrame padding (snOf k) ((payload.drop (offsetOf k)).take cfPayloadMax)

/-- The frames of a payload, in order. -/
def segments (padding : UInt8) (payload : List UInt8) : List Frame :=
  if payload.length ≤ sfPayloadMax then [IsotpTx.sfFrame padding payload]
  else
    IsotpTx.ffFrame padding payload.length (payload.take ffPayloadMax) ::
      (List.range (cfCount payload)).map fun i => cfAt padding payload (i + 1)

variable {padding : UInt8} {payload : List UInt8}

/-- All frames of a payload are a part of them. -/
theorem exists_take_segments (base : List Frame) :
    ∃ j, base ++ segments padding payload = base ++ (segments padding payload).take j :=
  ⟨(segments padding payload).length, by rw [List.take_length]⟩

theorem segments_sf (h : payload.length ≤ 7) :
    segments padding payload = [IsotpTx.sfFrame padding payload] := if_pos h

theorem segments_mf (h : 7 < payload.length) :
    segments padding payload =
      IsotpTx.ffFrame padding payload.length (payload.take ffPayloadMax) ::
        (List.range (cfCount payload)).map fun i => cfAt padding payload (i + 1) :=
  if_neg (by simpa [sfPayloadMax] using h)

theorem length_segments_mf (h : 7 < payload.length) :
    (segments padding payload).length = cfCount payload + 1 := by
  simp [segments_mf h]

theorem segments_ff (h : 7 < payload.length) :
    (segments padding payload)[0]? =
      some (IsotpTx.ffFrame padding payload.length (payload.take ffPayloadMax)) := by
  simp [segments_mf h]

theorem segments_cf (h : 7 < payload.length) {k : ℕ} (h1 : 1 ≤ k) (h2 : k ≤ cfCount payload) :
    (segments padding payload)[k]? = some (cfAt padding payload k) := by
  obtain ⟨i, rfl⟩ := Nat.exists_eq_add_of_le' h1
  simp [segments_mf h, List.getElem?_range (show i < cfCount payload by omega)]

/-- The Consecutive Frames cover the payload, and no fewer of them do. -/
theorem offsetOf_lt_iff (payload : List UInt8) {k : ℕ} (h1 : 1 ≤ k) :
    offsetOf k < payload.length ↔ k ≤ cfCount payload := by
  unfold offsetOf cfCount
  omega

/-! ## Bytes of the frames -/

theorem pad_eq_fill {bytes : List UInt8} (h : bytes.length ≤ 8) :
    Py.pad bytes padding = (Frame.fill padding bytes).toList := by
  rw [Frame.toList_fill h]
  exact List.take_of_length_le (by simp [h])

theorem sfHeader_eq (n : ℕ) : UInt8.ofNat ((0x0 <<< 4) ||| n) = (pciSf <<< 4) ||| UInt8.ofNat n := by
  simp [pciSf]

theorem ffHeader_eq (n : ℕ) :
    UInt8.ofNat ((0x1 <<< 4) ||| n) = (pciFf <<< 4) ||| UInt8.ofNat n := by
  have h : UInt8.ofNat (0x1 <<< 4) = pciFf <<< 4 := by decide
  rw [UInt8.ofNat_or, h]

theorem cfHeader_eq {n : ℕ} (h : n < 16) :
    UInt8.ofNat ((0x2 <<< 4) ||| n) = (pciCf <<< 4) ||| (UInt8.ofNat n &&& seqMask) := by
  have key : ∀ n < 16,
      UInt8.ofNat ((0x2 <<< 4) ||| n) = (pciCf <<< 4) ||| (UInt8.ofNat n &&& seqMask) := by
    decide
  exact key n h

theorem snOf_succ (k : ℕ) : (snOf k + 1) &&& seqMask = snOf (k + 1) := by
  have key : ∀ r < 16, (UInt8.ofNat r + 1) &&& seqMask = UInt8.ofNat ((r + 1) % 16) := by decide
  unfold snOf
  rw [key (k % 16) (Nat.mod_lt _ (by decide)), Nat.mod_add_mod]

theorem snOf_inj {j k : ℕ} : snOf j = snOf k ↔ j % 16 = k % 16 := by
  unfold snOf
  constructor
  · intro h
    have h' := congrArg UInt8.toNat h
    simp only [UInt8.toNat_ofNat'] at h'
    omega
  · intro h
    rw [h]

/-! ## The reference computes the closed form -/

theorem packLoop_eq (remaining : List UInt8) (index : ℕ) (padding : UInt8) :
    Py.packLoop remaining (index % 16) padding =
      .ok ((List.range ((remaining.length + 6) / 7)).map fun i =>
        (IsotpTx.cfFrame padding (snOf (index + i)) ((remaining.drop (7 * i)).take 7)).toList) := by
  induction hn : remaining.length using Nat.strongRecOn generalizing remaining index with
  | _ n ih =>
    unfold Py.packLoop
    by_cases hr : remaining = []
    · subst hr
      simp only [List.length_nil] at hn
      simp [← hn]
    · have hpos : 0 < remaining.length := List.length_pos_iff.2 hr
      have hmod : index % 16 < 16 := Nat.mod_lt _ (by decide)
      have hlen : (remaining.take 7).length ≤ 7 := List.length_take_le ..
      have hframe : Py.encodeConsecutiveFrame (index % 16) (remaining.take 7) padding =
          .ok (IsotpTx.cfFrame padding (snOf index) (remaining.take 7)).toList := by
        unfold Py.encodeConsecutiveFrame
        rw [if_neg (by omega), if_neg (Nat.not_lt.2 (by exact hlen)), cfHeader_eq hmod,
          pad_eq_fill (by simp only [List.length_cons]; omega)]
        rfl
      have hrest := ih (remaining.drop 7).length (by simp only [List.length_drop]; omega)
        (remaining.drop 7) (index + 1) rfl
      have hcount : (n + 6) / 7 = ((remaining.drop 7).length + 6) / 7 + 1 := by
        simp only [List.length_drop]
        omega
      rw [dif_neg hr]
      simp only [sfPayloadMax, hframe, Nat.mod_add_mod, hrest, hcount, List.range_succ_eq_map,
        List.map_cons, List.map_map]
      simp only [bind, Except.bind, pure, Except.pure, Except.ok.injEq, List.cons.injEq]
      refine ⟨by simp, ?_⟩
      apply List.map_congr_left
      intro i _
      have hdrop : 7 + 7 * i = 7 * (i + 1) := by omega
      have hsn : index + 1 + i = index + (i + 1) := by omega
      simp only [Function.comp_apply, List.drop_drop, Nat.succ_eq_add_one, hdrop, hsn]

/-- **The closed form**: the reference segmentation of a payload is its list of `segments`. -/
theorem packMessage_eq (h1 : 1 ≤ payload.length) (h2 : payload.length ≤ 4095) :
    Py.packMessage payload padding = .ok ((segments padding payload).map Vector.toList) := by
  have hne : payload ≠ [] := List.length_pos_iff.1 h1
  unfold Py.packMessage
  rw [if_neg hne]
  by_cases hs : payload.length ≤ sfPayloadMax
  · have hsf : Py.encodeSingleFrame payload padding =
        .ok (IsotpTx.sfFrame padding payload).toList := by
      unfold Py.encodeSingleFrame
      unfold sfPayloadMax at hs
      rw [if_neg (by simpa [sfPayloadMax] using hs), sfHeader_eq,
        pad_eq_fill (by simp only [List.length_cons]; omega)]
      rfl
    rw [if_pos hs, segments_sf hs, hsf]
    rfl
  · rw [if_neg hs]
    unfold sfPayloadMax at hs
    rw [segments_mf (by omega)]
    have hchunk : (payload.take 6).length ≤ 6 := List.length_take_le ..
    have hff : Py.encodeFirstFrame payload.length (payload.take 6) padding =
        .ok (IsotpTx.ffFrame padding payload.length (payload.take 6)).toList := by
      unfold Py.encodeFirstFrame
      rw [if_neg (by simpa [sfPayloadMax] using hs), if_neg (by omega),
        if_neg (Nat.not_lt.2 (by exact hchunk)), ffHeader_eq,
        pad_eq_fill (by simp only [List.length_cons]; omega)]
      rfl
    have hrest := packLoop_eq (payload.drop 6) 1 padding
    have hcount : ((payload.drop 6).length + 6) / 7 = cfCount payload := by
      simp only [List.length_drop, cfCount]
      omega
    rw [show 1 % 16 = 1 from rfl, hcount] at hrest
    simp only [ffPayloadMax, hff, hrest, List.map_cons, List.map_map, bind, Except.bind, pure,
      Except.pure, Except.ok.injEq, List.cons.injEq, true_and]
    apply List.map_congr_left
    intro i _
    simp [cfAt, offsetOf, cfPayloadMax, Nat.add_comm]

end DualCan.Isotp
