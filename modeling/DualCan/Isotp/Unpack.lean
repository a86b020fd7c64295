import DualCan.Isotp.Receiver
import DualCan.Isotp.Reception

/-!
# ISO-TP: reassembly from a list of frames

`unpack_frames` of `transport/isotp.py`. `unpackFrames_ff` says in closed form which lists that begin with a
First Frame it takes and what it makes of them. Two results rest on it: it undoes `pack_message`, and on the
lists a receiver takes whole it agrees with the C receiver.
-/

namespace DualCan.Isotp

/-! ## The Python function -/

namespace Py

open IsoTpTransport (hex)

/-- `data[i]` of a `bytes` object. -/
def byteAt (data : List UInt8) (i : ℕ) : Except String UInt8 :=
  match data[i]? with
  | some byte => .ok byte
  | none => .error "index out of range"

/-- The loop over `frames[1:]` in `unpack_frames`. -/
def unpackLoop : List (List UInt8) → List UInt8 → ℕ → Except String (List UInt8)
  | [], payload, _ => .ok payload
  | frame :: rest, payload, expectedIndex => do
    let head ← byteAt frame 0
    if (head >>> 4) &&& 0x0F ≠ pciCf then throw "expected a consecutive frame"
    let sequenceIndex := (head &&& 0x0F).toNat
    if sequenceIndex ≠ expectedIndex then
      throw s!"unexpected CF sequence index 0x{hex sequenceIndex}, expected 0x{hex expectedIndex}"
    unpackLoop rest (payload ++ frame.drop 1) ((expectedIndex + 1) % 16)

/-- `unpack_frames`. -/
def unpackFrames : List (List UInt8) → Except String (List UInt8)
  | [] => .error "no frames to unpack"
  | first :: rest => do
    let head ← byteAt first 0
    let pciType := (head >>> 4) &&& 0x0F
    if pciType = pciSf then return (first.drop 1).take (head &&& 0x0F).toNat
    if pciType ≠ pciFf then throw "first frame must be SF or FF"
    let low ← byteAt first 1
    let totalLength := (head &&& 0x0F).toNat <<< 8 ||| low.toNat
    let payload ← unpackLoop rest ((first.drop 2).take ffPayloadMax) 1
    if payload.length < totalLength then throw "incomplete multi-frame payload"
    return payload.take totalLength

end Py

/-! ## Lists of CAN frames -/

/-- The Consecutive Frames of a list run on from sequence number `start`. -/
def Sequenced (start : ℕ) (frames : List Frame) : Prop :=
  ∀ i frame, frames[i]? = some frame → frame.pci = pciCf ∧ frame.low.toNat = (start + i) % 16

/-- The payload bytes of Consecutive Frames. -/
def cfBytes (frames : List Frame) : List UInt8 := frames.flatMap fun frame => frame.payload 1 cfPayloadMax

variable {start : ℕ} {frame : Frame} {frames : List Frame} {acc p : List UInt8}

theorem sequenced_nil : Sequenced start [] := by
  intro i frame h
  cases h

theorem sequenced_cons : Sequenced start (frame :: frames) ↔
    (frame.pci = pciCf ∧ frame.low.toNat = start % 16) ∧ Sequenced (start + 1) frames := by
  constructor
  · intro h
    refine ⟨h 0 frame rfl, ?_⟩
    intro i frame' hi
    have hnext := h (i + 1) frame' hi
    rw [show start + 1 + i = start + (i + 1) by omega]
    exact hnext
  · rintro ⟨hhead, htail⟩ i frame' hi
    cases i with
    | zero =>
      obtain rfl : frame = frame' := by simpa using hi
      exact hhead
    | succ i =>
      have hnext := htail i frame' (by simpa using hi)
      rw [show start + (i + 1) = start + 1 + i by omega]
      exact hnext

theorem length_cfBytes (frames : List Frame) : (cfBytes frames).length = 7 * frames.length := by
  induction frames with
  | nil => rfl
  | cons frame frames ih =>
    have hseven : (frame.payload 1 cfPayloadMax).length = 7 := Frame.length_payload (by decide)
    rw [cfBytes, List.flatMap_cons, List.length_append, hseven, List.length_cons]
    have hrest : (frames.flatMap fun frame => frame.payload 1 cfPayloadMax).length = 7 * frames.length := ih
    omega

/-! ## What `unpack_frames` takes -/

theorem byteAt_zero (frame : Frame) :
    Py.byteAt frame.toList 0 = .ok (getElem frame 0 (Nat.zero_lt_succ 7)) := by
  simp [Py.byteAt]

theorem byteAt_one (frame : Frame) : Py.byteAt frame.toList 1 = .ok (getElem frame 1 Frame.one_lt) := by
  simp [Py.byteAt]

/-- A nibble needs no mask. -/
theorem pci_mask (frame : Frame) : frame.pci &&& 0x0F = frame.pci := by
  have key : ∀ b : UInt8, (b >>> 4 : UInt8) &&& (0x0F : UInt8) = b >>> 4 := by
    intro b
    apply UInt8.toNat_inj.1
    have hb := b.toNat_lt
    have hshift : (b >>> 4).toNat = b.toNat / 16 := by
      rw [UInt8.toNat_shiftRight, Nat.shiftRight_eq_div_pow]
      rfl
    rw [UInt8.toNat_and, hshift, show (0x0F : UInt8).toNat = 2 ^ 4 - 1 from rfl,
      Nat.and_two_pow_sub_one_eq_mod]
    omega
  exact key _

/-- The loop takes exactly the Consecutive Frames in sequence, and collects their bytes. -/
theorem unpackLoop_ok_iff : Py.unpackLoop (frames.map Vector.toList) acc (start % 16) = .ok p ↔
    Sequenced start frames ∧ p = acc ++ cfBytes frames := by
  induction frames generalizing acc start with
  | nil =>
    simp only [List.map_nil, Py.unpackLoop, cfBytes, List.flatMap_nil, List.append_nil, Except.ok.injEq]
    exact ⟨fun h => ⟨sequenced_nil, h.symm⟩, fun h => h.2.symm⟩
  | cons frame frames ih =>
    have hbytes : (frame.toList.drop 1) = frame.payload 1 cfPayloadMax := by
      rw [Frame.payload, List.take_of_length_le]
      simp [cfPayloadMax]
    have hacc : acc ++ cfBytes (frame :: frames) =
        acc ++ frame.payload 1 cfPayloadMax ++ cfBytes frames := by
      rw [cfBytes, List.flatMap_cons, ← List.append_assoc]
      rfl
    have hpci : frame[0] >>> 4 = frame.pci := rfl
    have hlow : frame[0] &&& 0x0F = frame.low := rfl
    rw [List.map_cons, Py.unpackLoop, byteAt_zero, sequenced_cons]
    simp only [bind, Except.bind, hpci, pci_mask, hlow, hbytes, Nat.mod_add_mod, throw, throwThe,
      MonadExceptOf.throw]
    by_cases hcf : frame.pci = pciCf
    · by_cases hsn : frame.low.toNat = start % 16
      · simp only [hcf, hsn, ne_eq, not_true_eq_false, if_false, and_self, true_and]
        rw [ih, hacc]
      · simp [hcf, hsn]
    · simp [hcf]

theorem unpackFrames_sf {first : Frame} (h : first.pci = pciSf) (rest : List Frame) :
    Py.unpackFrames ((first :: rest).map Vector.toList) = .ok (first.payload 1 first.low.toNat) := by
  have hpci : (first[0] >>> 4) &&& 0x0F = pciSf := (pci_mask first).trans h
  rw [List.map_cons, Py.unpackFrames, byteAt_zero]
  simp only [bind, Except.bind, hpci, if_true, pure, Except.pure]
  rfl

/-- A list that begins with a First Frame is taken if Consecutive Frames in sequence follow and together they
carry the declared length; what they carry beyond it is cut off. -/
theorem unpackFrames_ff {first : Frame} (h : first.pci = pciFf) (rest : List Frame) :
    Py.unpackFrames ((first :: rest).map Vector.toList) = .ok p ↔
      Sequenced 1 rest ∧ IsotpRx.declaredOf first ≤ 6 + 7 * rest.length ∧
        p = (first.payload 2 ffPayloadMax ++ cfBytes rest).take (IsotpRx.declaredOf first) := by
  have hpci : (first[0] >>> 4) &&& 0x0F = pciFf := (pci_mask first).trans h
  have hlow : first[0] &&& 0x0F = first.low := rfl
  have hsf : ¬pciFf = pciSf := by decide
  have hsix : (first.payload 2 ffPayloadMax).length = 6 := Frame.length_payload (by decide)
  have hbytes : (first.toList.drop 2).take ffPayloadMax = first.payload 2 ffPayloadMax := rfl
  have hdeclared : (first.low.toNat <<< 8 ||| (getElem first 1 Frame.one_lt).toNat) =
      IsotpRx.declaredOf first := rfl
  rw [List.map_cons, Py.unpackFrames, byteAt_zero]
  simp only [bind, Except.bind, hpci, hlow, byteAt_one, hbytes, hdeclared, ne_eq,
    not_true_eq_false, if_false, hsf, throw, throwThe, MonadExceptOf.throw, pure, Except.pure]
  cases hloop : Py.unpackLoop (rest.map Vector.toList) (first.payload 2 ffPayloadMax) 1 with
  | error message =>
    simp only [reduceCtorEq, false_iff]
    rintro ⟨hseq, -⟩
    have hok := unpackLoop_ok_iff.2 ⟨hseq, (Eq.refl (first.payload 2 ffPayloadMax ++ cfBytes rest))⟩
    rw [show 1 % 16 = 1 from rfl, hloop] at hok
    cases hok
  | ok payload =>
    have hloop : Py.unpackLoop (rest.map Vector.toList) (first.payload 2 ffPayloadMax) (1 % 16) = .ok payload :=
      hloop
    obtain ⟨hseq, rfl⟩ := unpackLoop_ok_iff.1 hloop
    have hlen : (first.payload 2 ffPayloadMax ++ cfBytes rest).length = 6 + 7 * rest.length := by
      rw [List.length_append, hsix, length_cfBytes]
    simp only [hlen]
    by_cases hshort : 6 + 7 * rest.length < IsotpRx.declaredOf first
    · simp only [if_pos hshort, reduceCtorEq, false_iff]
      rintro ⟨-, hle, -⟩
      omega
    · simp only [if_neg hshort, Except.ok.injEq]
      exact ⟨fun hp => ⟨hseq, by omega, hp.symm⟩, fun hp => hp.2.2.symm⟩

theorem unpackFrames_other {first : Frame} (hsf : first.pci ≠ pciSf) (hff : first.pci ≠ pciFf)
    (rest : List Frame) :
    Py.unpackFrames ((first :: rest).map Vector.toList) = .error "first frame must be SF or FF" := by
  have hpci : (first[0] >>> 4) &&& 0x0F = first.pci := pci_mask first
  rw [List.map_cons, Py.unpackFrames, byteAt_zero]
  simp only [bind, Except.bind, hpci, if_neg hsf, ne_eq, hff, not_false_eq_true, if_true, throw,
    throwThe, MonadExceptOf.throw]

/-! ## Packing and unpacking -/

section roundTrip
variable {padding : UInt8} {payload : List UInt8} {n : ℕ}

/-- The bytes a Consecutive Frame of a payload carries, padding included. -/
theorem cfAt_bytes (padding : UInt8) (payload : List UInt8) (k : ℕ) :
    (cfAt padding payload k).payload 1 cfPayloadMax =
      (payload.drop (offsetOf k)).take 7 ++
        List.replicate (7 - ((payload.drop (offsetOf k)).take 7).length) padding := by
  have hseven : ((payload.drop (offsetOf k)).take 7).length ≤ 7 := List.length_take_le ..
  unfold cfAt IsotpTx.cfFrame Frame.payload
  rw [Frame.toList_fill (by rw [List.length_cons]; exact Nat.succ_le_succ hseven)]
  simp only [List.length_cons, List.cons_append, List.drop_succ_cons, List.drop_zero, cfPayloadMax,
    Nat.reduceSubDiff]
  rw [List.take_of_length_le]
  simp only [List.length_append, List.length_replicate]
  omega

/-- The Consecutive Frames of a payload are in sequence. -/
theorem sequenced_segments (padding : UInt8) (payload : List UInt8) (n : ℕ) :
    Sequenced 1 ((List.range n).map fun i => cfAt padding payload (i + 1)) := by
  intro i frame hi
  obtain ⟨j, hj, rfl⟩ : ∃ j, (List.range n)[i]? = some j ∧ cfAt padding payload (j + 1) = frame := by
    simpa using hi
  obtain ⟨-, rfl⟩ := by simpa using List.getElem?_eq_some_iff.1 hj
  refine ⟨cfFrame_pci, ?_⟩
  have hlow : (cfAt padding payload (i + 1)).low = snOf (i + 1) := cfFrame_low
  rw [hlow, snOf, UInt8.toNat_ofNat', Nat.add_comm 1 i]
  omega

/-- The first `n` Consecutive Frames carry the bytes after the First Frame's. -/
theorem take_cfBytes_segments (padding : UInt8) (payload : List UInt8) (n : ℕ) :
    (cfBytes ((List.range n).map fun i => cfAt padding payload (i + 1))).take (payload.length - 6) =
      (payload.drop 6).take (7 * n) := by
  induction n with
  | zero => simp [cfBytes]
  | succ n ih =>
    have hlen : (cfBytes ((List.range n).map fun i => cfAt padding payload (i + 1))).length = 7 * n := by
      rw [length_cfBytes, List.length_map, List.length_range]
    have hoff : offsetOf (n + 1) = 6 + 7 * n := rfl
    have hsucc : cfBytes ((List.range (n + 1)).map fun i => cfAt padding payload (i + 1)) =
        cfBytes ((List.range n).map fun i => cfAt padding payload (i + 1)) ++
          (cfAt padding payload (n + 1)).payload 1 cfPayloadMax := by
      rw [List.range_succ, List.map_append, cfBytes, List.flatMap_append]
      simp [cfBytes]
    rw [hsucc, List.take_append, ih, hlen, cfAt_bytes, hoff, Nat.mul_succ, List.take_add, List.drop_drop]
    have hchunk : ((payload.drop (6 + 7 * n)).take 7).length = min 7 (payload.length - (6 + 7 * n)) := by
      rw [List.length_take, List.length_drop]
    generalize hq : (payload.drop (6 + 7 * n)).take 7 = chunk at hchunk ⊢
    congr 1
    by_cases hlast : payload.length - 6 - 7 * n ≤ 7
    · rw [List.take_append_of_le_length (by omega), List.take_of_length_le (by omega)]
    · rw [show 7 - chunk.length = 0 by omega, List.replicate_zero, List.append_nil,
        List.take_of_length_le (by omega)]

/-- A Single Frame carries a payload of up to seven bytes. -/
theorem unpackFrames_segments_sf (hlen : payload.length ≤ 7) :
    Py.unpackFrames ((segments padding payload).map Vector.toList) = .ok payload := by
  rw [segments_sf hlen, unpackFrames_sf (sfFrame_pci hlen), sfFrame_low hlen, IsotpTx.sfFrame,
    Frame.payload_fill_one hlen (Nat.le_refl _), List.take_length]

/-- The segments of a longer payload carry it, and the padding of the last one is cut off. -/
theorem unpackFrames_segments_mf (hlen : 7 < payload.length) (hmax : payload.length ≤ 4095) :
    Py.unpackFrames ((segments padding payload).map Vector.toList) = .ok payload := by
  have hsix : (payload.take ffPayloadMax).length = 6 := by
    rw [List.length_take, ffPayloadMax]
    omega
  have hroom : ffPayloadMax ≤ (payload.take ffPayloadMax).length := Nat.le_of_eq hsix.symm
  have hfirst : (IsotpTx.ffFrame padding payload.length (payload.take ffPayloadMax)).payload 2
      ffPayloadMax = payload.take 6 := by
    rw [IsotpTx.ffFrame, Frame.payload_fill_two (by omega) hroom, ffPayloadMax,
      List.take_take, Nat.min_self]
  rw [segments_mf hlen, unpackFrames_ff ffFrame_pci, ffFrame_declared hmax, hfirst]
  refine ⟨sequenced_segments padding payload _, ?_, ?_⟩
  · rw [List.length_map, List.length_range, cfCount]
    omega
  · have htail : (payload.drop 6).take (7 * cfCount payload) = payload.drop 6 :=
      List.take_of_length_le (by rw [List.length_drop, cfCount]; omega)
    rw [List.take_append, List.length_take, Nat.min_eq_left (by omega : 6 ≤ payload.length),
      take_cfBytes_segments, htail, List.take_take, Nat.min_eq_right (by omega : 6 ≤ payload.length),
      List.take_append_drop]

/-- **Segmentation round trip**: `unpack_frames` undoes `pack_message`; the frames have eight bytes each,
there is one, or a First Frame with six bytes and one frame for every seven begun of the rest, and the sequence
numbers count modulo 16 from 1. -/
theorem unpackFrames_packMessage (payload : List UInt8) (padding : UInt8) (h1 : 1 ≤ payload.length)
    (h2 : payload.length ≤ 4095) :
    ∃ frames, Py.packMessage payload padding = .ok frames ∧ Py.unpackFrames frames = .ok payload ∧
      (∀ frame ∈ frames, frame.length = 8) ∧
      frames.length = (if payload.length ≤ 7 then 1 else 1 + (payload.length - 6 + 6) / 7) ∧
      ∀ k frame, frames[k + 1]? = some frame →
        ∃ chunk, frame = UInt8.ofNat (0x20 + (k + 1) % 16) :: chunk := by
  refine ⟨_, packMessage_eq h1 h2, ?_, ?_, ?_, ?_⟩
  · by_cases hlen : payload.length ≤ 7
    · exact unpackFrames_segments_sf hlen
    · exact unpackFrames_segments_mf (by omega) h2
  · intro frame hframe
    obtain ⟨f, -, rfl⟩ := List.mem_map.1 hframe
    exact f.length_toList
  · rw [List.length_map]
    split
    · next hlen =>
      rw [segments_sf hlen]
      rfl
    · rw [length_segments_mf (by omega), cfCount]
      omega
  · intro k frame hframe
    obtain ⟨f, hf, rfl⟩ : ∃ f, (segments padding payload)[k + 1]? = some f ∧ f.toList = frame := by
      simpa using hframe
    rcases segment_cases hf with ⟨-, hk, -⟩ | ⟨-, hk, -⟩ | ⟨-, -, -, rfl⟩
    · cases hk
    · cases hk
    · have key : ∀ r < 16, (pciCf <<< 4) ||| (UInt8.ofNat r &&& seqMask) = UInt8.ofNat (0x20 + r) := by
        decide
      have hseven : ((payload.drop (offsetOf (k + 1))).take cfPayloadMax).length ≤ 7 :=
        List.length_take_le ..
      rw [cfAt, IsotpTx.cfFrame, Frame.toList_fill (by rw [List.length_cons]; omega), snOf,
        key _ (Nat.mod_lt _ (by decide))]
      exact ⟨_, rfl⟩

/-- Eight bytes take two frames. -/
theorem unpackFrames_packMessage_eight :
    (Py.packMessage [1, 2, 3, 4, 5, 6, 7, 8] 0xCC).map List.length = .ok 2 ∧
      (Py.packMessage [1, 2, 3, 4, 5, 6, 7, 8] 0xCC >>= Py.unpackFrames) =
        .ok [1, 2, 3, 4, 5, 6, 7, 8] := by
  obtain ⟨frames, hpack, hunpack, -, hlen, -⟩ :=
    unpackFrames_packMessage [1, 2, 3, 4, 5, 6, 7, 8] 0xCC (by decide) (by decide)
  rw [hpack]
  exact ⟨congrArg Except.ok hlen, hunpack⟩

end roundTrip

end DualCan.Isotp
