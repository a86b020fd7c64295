import DualCan.Isotp.Rx
import DualCan.Isotp.Segment

/-!
# ISO-TP: what the receiver makes of the segments of a payload

`Receiving` describes a reception by two indices: `i`, the last segment accepted, and `j`, the number of
Consecutive Frames accepted. They agree modulo 16, the only thing a sequence number can tell. A reception
with `j = i` holds a prefix of the payload; one with `j < i` has skipped at least 16 frames and can no
longer reach the declared length, so `RxSafe` (a complete message is the payload) survives any segment
whose index is not below `i`.
-/

namespace DualCan.Isotp

open DualCan.Clock

variable {padding : UInt8} {payload : List UInt8} {i j k d : ℕ} {frame : Frame}

/-! ## Decoding the segments -/

theorem Frame.payload_fill_one {b : UInt8} {bytes : List UInt8} {n : ℕ} (h : bytes.length ≤ 7)
    (hn : n ≤ bytes.length) : (Frame.fill padding (b :: bytes)).payload 1 n = bytes.take n := by
  unfold Frame.payload
  rw [Frame.toList_fill (by simp only [List.length_cons]; omega)]
  simp [List.take_append_of_le_length hn]

theorem Frame.payload_fill_two {b b' : UInt8} {bytes : List UInt8} {n : ℕ} (h : bytes.length ≤ 6)
    (hn : n ≤ bytes.length) :
    (Frame.fill padding (b :: b' :: bytes)).payload 2 n = bytes.take n := by
  unfold Frame.payload
  rw [Frame.toList_fill (by simp only [List.length_cons]; omega)]
  simp [List.take_append_of_le_length hn]

theorem Frame.length_payload {off n : ℕ} (h : off + n ≤ 8) : (frame.payload off n).length = n := by
  simp only [Frame.payload, List.length_take, List.length_drop, Vector.length_toList]
  omega

theorem sfFrame_pci (h : payload.length ≤ 7) : (IsotpTx.sfFrame padding payload).pci = pciSf := by
  have key : ∀ n ≤ 7, ((pciSf <<< 4) ||| UInt8.ofNat n) >>> 4 = pciSf := by decide
  rw [Frame.pci, IsotpTx.sfFrame, Frame.fill_zero]
  exact key _ h

theorem sfFrame_low (h : payload.length ≤ 7) :
    (IsotpTx.sfFrame padding payload).low.toNat = payload.length := by
  have key : ∀ n ≤ 7, (((pciSf <<< 4) ||| UInt8.ofNat n) &&& 0x0F).toNat = n := by decide
  rw [Frame.low, IsotpTx.sfFrame, Frame.fill_zero]
  exact key _ h

theorem ffFrame_pci {n : ℕ} {chunk : List UInt8} :
    (IsotpTx.ffFrame padding n chunk).pci = pciFf := by
  have key : ∀ r < 16, ((pciFf <<< 4) ||| UInt8.ofNat r) >>> 4 = pciFf := by decide
  have hlt : (n >>> 8) &&& 0x0F < 16 := Nat.lt_of_le_of_lt Nat.and_le_right (by decide)
  rw [Frame.pci, IsotpTx.ffFrame, Frame.fill_zero]
  exact key _ hlt

/-- The First Frame of a payload declares its length. -/
theorem ffFrame_declared {n : ℕ} {chunk : List UInt8} (h : n ≤ 4095) :
    IsotpRx.declaredOf (IsotpTx.ffFrame padding n chunk) = n := by
  have key : ∀ r < 16, (((pciFf <<< 4) ||| UInt8.ofNat r) &&& 0x0F).toNat = r := by decide
  have hhigh : (n >>> 8) &&& 0x0F = n / 256 := by
    rw [Nat.shiftRight_eq_div_pow, show 0x0F = 2 ^ 4 - 1 from rfl, Nat.and_two_pow_sub_one_eq_mod]
    omega
  have hlow : n &&& 0xFF = n % 256 := Nat.and_two_pow_sub_one_eq_mod n 8
  have hbyte : (UInt8.ofNat (n % 256)).toNat = n % 256 := by
    rw [UInt8.toNat_ofNat']
    exact Nat.mod_eq_of_lt (Nat.mod_lt _ (by decide))
  rw [IsotpRx.declaredOf, Frame.low, IsotpTx.ffFrame, Frame.fill_zero, Frame.fill_one, hhigh, hlow,
    key _ (by omega), hbyte, ← Nat.shiftLeft_add_eq_or_of_lt (Nat.mod_lt n (by decide)),
    Nat.shiftLeft_eq]
  omega

theorem cfFrame_pci {chunk : List UInt8} :
    (IsotpTx.cfFrame padding (snOf k) chunk).pci = pciCf := by
  have key : ∀ r < 16, ((pciCf <<< 4) ||| (UInt8.ofNat r &&& seqMask)) >>> 4 = pciCf := by decide
  rw [Frame.pci, IsotpTx.cfFrame, Frame.fill_zero]
  exact key _ (Nat.mod_lt k (by decide))

theorem cfFrame_low {chunk : List UInt8} : (IsotpTx.cfFrame padding (snOf k) chunk).low = snOf k := by
  have key : ∀ r < 16,
      ((pciCf <<< 4) ||| (UInt8.ofNat r &&& seqMask)) &&& 0x0F = UInt8.ofNat r := by decide
  rw [Frame.low, IsotpTx.cfFrame, Frame.fill_zero]
  exact key _ (Nat.mod_lt k (by decide))

/-- A segment is the Single Frame, the First Frame or a Consecutive Frame of the payload. -/
theorem segment_cases (h : (segments padding payload)[d]? = some frame) :
    (payload.length ≤ 7 ∧ d = 0 ∧ frame = IsotpTx.sfFrame padding payload) ∨
    (7 < payload.length ∧ d = 0 ∧
      frame = IsotpTx.ffFrame padding payload.length (payload.take ffPayloadMax)) ∨
    (7 < payload.length ∧ 1 ≤ d ∧ d ≤ cfCount payload ∧ frame = cfAt padding payload d) := by
  have hd : d < (segments padding payload).length := (List.getElem?_eq_some_iff.1 h).1
  by_cases hlen : payload.length ≤ 7
  · rw [segments_sf hlen] at h hd
    obtain rfl : d = 0 := by simpa using hd
    exact Or.inl ⟨hlen, rfl, by simpa using h.symm⟩
  · have hmf : 7 < payload.length := by omega
    rw [length_segments_mf hmf] at hd
    refine Or.inr ?_
    cases d with
    | zero =>
      rw [segments_ff hmf] at h
      exact Or.inl ⟨hmf, rfl, (Option.some.inj h).symm⟩
    | succ d =>
      rw [segments_cf hmf (by omega) (by omega)] at h
      exact Or.inr ⟨hmf, by omega, by omega, (Option.some.inj h).symm⟩

/-! ## The buffer -/

theorem length_storeAt (buffer bytes : List UInt8) {off : ℕ}
    (h : off + bytes.length ≤ buffer.length) : (storeAt buffer off bytes).length = buffer.length := by
  simp only [storeAt, List.length_append, List.length_take, List.length_drop]
  omega

/-- What lies before the end of a store: the old bytes up to its start, then the stored ones. -/
theorem take_storeAt {buffer : List UInt8} (bytes : List UInt8) {off : ℕ} (h : off ≤ buffer.length) :
    (storeAt buffer off bytes).take (off + bytes.length) = buffer.take off ++ bytes := by
  have hlen : (buffer.take off ++ bytes).length = off + bytes.length := by
    simp only [List.length_append, List.length_take]
    omega
  rw [storeAt, ← hlen, List.take_left]

namespace IsotpRx

variable {rx rx' : IsotpRx} {c c' : Channel} {now : UInt32}

/-! ## The branches of `IsotpRx_OnFrame` -/

theorem onFrame_of_sf {frame : Frame} (h : frame.pci = pciSf) :
    rx.onFrame c now frame = ((rx.onSingleFrame frame).1, (rx.onSingleFrame frame).2, c) := by
  rw [onFrame, if_pos h]

theorem onFrame_of_ff {frame : Frame} (h : frame.pci = pciFf) :
    rx.onFrame c now frame = rx.onFirstFrame c now frame := by
  have hsf : ¬pciFf = pciSf := by decide
  rw [onFrame, h, if_neg hsf, if_pos rfl]

theorem onFrame_of_cf {frame : Frame} (h : frame.pci = pciCf) :
    rx.onFrame c now frame = rx.onConsecutiveFrame c now frame := by
  have hsf : ¬pciCf = pciSf := by decide
  have hff : ¬pciCf = pciFf := by decide
  rw [onFrame, h, if_neg hsf, if_neg hff, if_pos rfl]

/-! ## Flow Control leaves the reception alone -/

/-- The fields of a reception and of a complete message. -/
def reception (rx : IsotpRx) : Bool × List UInt8 × ℕ × ℕ × ℕ × UInt8 × Bool × ℕ :=
  (rx.hasBuffer, rx.buffer, rx.bufferSize, rx.declaredLength, rx.received, rx.expectedSn,
    rx.messageReady, rx.messageLength)

theorem serviceFcEnqueue_reception (rx : IsotpRx) (c : Channel) (now : UInt32) :
    (serviceFcEnqueue rx c now).2.1.reception = rx.reception ∧
      ((serviceFcEnqueue rx c now).2.1.rxInProgress = true → rx.rxInProgress = true) := by
  unfold serviceFcEnqueue
  split
  · exact ⟨rfl, id⟩
  · split
    · exact ⟨rfl, id⟩
    · split
      · exact ⟨rfl, fun h => absurd h (by simp)⟩
      · exact ⟨rfl, id⟩

theorem sendFc_reception (rx : IsotpRx) (c : Channel) (now : UInt32) (status : UInt8) :
    (sendFc rx c now status).1.reception = rx.reception ∧
      ((sendFc rx c now status).1.rxInProgress = true → rx.rxInProgress = true) :=
  serviceFcEnqueue_reception _ c now

theorem poll_reception (rx : IsotpRx) (c : Channel) (now : UInt32) :
    (poll rx c now).2.1.reception = rx.reception ∧
      ((poll rx c now).2.1.rxInProgress = true → rx.rxInProgress = true) := by
  unfold poll
  split
  · exact ⟨rfl, id⟩
  · have hse := serviceFcEnqueue_reception rx c now
    split
    · next heq =>
      rw [heq] at hse
      exact hse
    · next heq =>
      rw [heq] at hse
      split
      · exact hse
      · split
        · exact hse
        · split
          · split
            · split
              · exact ⟨hse.1, fun h => absurd h (by simp)⟩
              · exact hse
            · exact ⟨hse.1, hse.2⟩
          · split
            · exact ⟨hse.1, fun h => absurd h (by simp)⟩
            · exact hse

/-! ## Receptions -/

/-- A reception in progress that accepted segment `i` last and `j` Consecutive Frames in all. -/
structure Receiving (payload : List UInt8) (i j : ℕ) (rx : IsotpRx) : Prop where
  multi : 7 < payload.length
  declared : rx.declaredLength = payload.length
  received : rx.received = offsetOf (j + 1)
  sn : rx.expectedSn = snOf (i + 1)
  le : j ≤ i
  mod : j % 16 = i % 16
  more : j < cfCount payload
  stored : j = i → rx.buffer.take (offsetOf (j + 1)) = payload.take (offsetOf (j + 1))

/-- A receiver that has seen no segment beyond the `d`-th: a complete message is the payload. -/
structure RxSafe (payload : List UInt8) (d : ℕ) (rx : IsotpRx) : Prop where
  hasBuffer : rx.hasBuffer = true
  size : rx.buffer.length = rx.bufferSize
  room : payload.length ≤ rx.bufferSize
  ready : rx.messageReady = true → rx.messageLength = payload.length ∧ rx.message = payload
  exclusive : rx.messageReady = true → rx.rxInProgress = false
  receiving : rx.rxInProgress = true → ∃ i j, i ≤ d ∧ Receiving payload i j rx

theorem RxSafe.mono (hs : RxSafe payload d rx) (h : d ≤ k) : RxSafe payload k rx := by
  refine ⟨hs.hasBuffer, hs.size, hs.room, hs.ready, hs.exclusive, ?_⟩
  intro hp
  obtain ⟨i, j, hi, hr⟩ := hs.receiving hp
  exact ⟨i, j, Nat.le_trans hi h, hr⟩

theorem RxSafe.congr (hs : RxSafe payload d rx) (h : rx'.reception = rx.reception)
    (hp : rx'.rxInProgress = true → rx.rxInProgress = true) : RxSafe payload d rx' := by
  simp only [reception, Prod.mk.injEq] at h
  obtain ⟨h1, h2, h3, h4, h5, h6, h7, h8⟩ := h
  refine ⟨h1 ▸ hs.hasBuffer, ?_, h3 ▸ hs.room, ?_, ?_, ?_⟩
  · rw [h2, h3, hs.size]
  · intro hr
    rw [h7] at hr
    rw [message, h2, h8]
    exact hs.ready hr
  · intro hr
    rw [h7] at hr
    have hidle := hs.exclusive hr
    by_contra hp'
    rw [hp (by simpa using hp')] at hidle
    cases hidle
  · intro hp'
    obtain ⟨i, j, hi, hr⟩ := hs.receiving (hp hp')
    refine ⟨i, j, hi, hr.multi, h4 ▸ hr.declared, h5 ▸ hr.received, h6 ▸ hr.sn, hr.le, hr.mod,
      hr.more, ?_⟩
    rw [h2]
    exact hr.stored

/-- A receiver that is not receiving and holds no message, with a buffer. -/
theorem RxSafe.of_empty (hb : rx.hasBuffer = true) (hsize : rx.buffer.length = rx.bufferSize)
    (hroom : payload.length ≤ rx.bufferSize) (hready : rx.messageReady = false)
    (hp : rx.rxInProgress = false) : RxSafe payload d rx := by
  refine ⟨hb, hsize, hroom, ?_, ?_, ?_⟩ <;> intro h
  · rw [hready] at h
    cases h
  · exact hp
  · rw [hp] at h
    cases h

/-- A receiver that has just completed a message. -/
theorem RxSafe.finish (hb : rx.hasBuffer = true) (hsize : rx.buffer.length = rx.bufferSize)
    (hroom : payload.length ≤ rx.bufferSize) (hdeclared : rx.declaredLength = payload.length)
    (hmessage : rx.buffer.take payload.length = payload) : RxSafe payload d rx.finish := by
  refine ⟨hb, hsize, hroom, ?_, fun _ => rfl, fun h => absurd h (by simp [IsotpRx.finish])⟩
  intro _
  refine ⟨hdeclared, ?_⟩
  rw [message, IsotpRx.finish, hdeclared]
  exact hmessage

theorem RxSafe.reset (hs : RxSafe payload d rx) : RxSafe payload d rx.reset :=
  .of_empty hs.hasBuffer hs.size hs.room rfl rfl

theorem RxSafe.poll (hs : RxSafe payload d rx) : RxSafe payload d (rx.poll c now).2.1 :=
  hs.congr (poll_reception rx c now).1 (poll_reception rx c now).2

theorem RxSafe.read (hs : RxSafe payload d rx) (capacity : ℕ) :
    RxSafe payload d (rx.read capacity).2.2 := by
  unfold IsotpRx.read
  split
  · exact hs
  · next hready =>
    split
    · exact hs
    · have hp := hs.exclusive (by simpa using hready)
      exact .of_empty hs.hasBuffer hs.size hs.room rfl hp

/-! ## One segment -/

theorem RxSafe.onSingleFrame (hs : RxSafe payload d rx) (padding : UInt8)
    (hlen : payload.length ≤ 7) :
    RxSafe payload d (rx.onSingleFrame (IsotpTx.sfFrame padding payload)).2 := by
  unfold IsotpRx.onSingleFrame
  rw [sfFrame_low hlen]
  have hbytes : (IsotpTx.sfFrame padding payload).payload 1 payload.length = payload := by
    rw [IsotpTx.sfFrame, Frame.payload_fill_one hlen (Nat.le_refl _), List.take_length]
  simp only [hbytes]
  split
  · exact hs
  · split
    · exact hs
    · next hp =>
      split
      · exact hs
      · split
        · exact hs
        · split
          · exact hs
          · have hroom := hs.room
            have hsize := hs.size
            refine ⟨hs.hasBuffer, ?_, hs.room, ?_, ?_, ?_⟩
            · exact (length_storeAt rx.buffer payload (by omega)).trans hsize
            · intro _
              refine ⟨rfl, ?_⟩
              have htake := take_storeAt payload (Nat.zero_le rx.buffer.length)
              simpa [message] using htake
            · exact fun _ => by simpa using hp
            · intro hp'
              exact absurd hp' (by simpa using hp)

/-- An empty receiver with a buffer accepts a Single Frame at once. -/
theorem onSingleFrame_ready (padding : UInt8) (h1 : 1 ≤ payload.length) (hlen : payload.length ≤ 7)
    (hidle : rx.rxInProgress = false) (hempty : rx.messageReady = false)
    (hbuffer : rx.hasBuffer = true) :
    ∃ rx', rx.onSingleFrame (IsotpTx.sfFrame padding payload) = (.ok, rx') ∧
      rx'.messageReady = true ∧ rx'.rxInProgress = rx.rxInProgress ∧
      rx'.fcWaitingEnqueue = rx.fcWaitingEnqueue ∧ rx'.fcPending = rx.fcPending := by
  unfold IsotpRx.onSingleFrame
  simp only [sfFrame_low hlen]
  rw [if_neg (by omega), if_neg (by simp [hidle]), if_neg (by simp [hempty]),
    if_neg (by rw [sfPayloadMax]; omega), if_neg (by simp [hbuffer])]
  exact ⟨_, rfl, rfl, rfl, rfl, rfl⟩

/-- The reception the First Frame of a payload opens holds its first six bytes. -/
theorem openReception_receiving (hlen : 7 < payload.length)
    (hbuf : payload.length ≤ rx.buffer.length) {q : IsotpRx}
    (hq : rx.openReception payload.length
      (IsotpTx.ffFrame padding payload.length (payload.take ffPayloadMax)) = q) :
    Receiving payload 0 0 q ∧ q.received = 6 ∧ q.buffer.length = rx.buffer.length := by
  have hchunk : min ffPayloadMax payload.length = 6 := by
    simp only [ffPayloadMax]
    omega
  have hsix : (payload.take ffPayloadMax).length = 6 := by
    rw [List.length_take, hchunk]
  have hbytes : (IsotpTx.ffFrame padding payload.length
      (payload.take ffPayloadMax)).payload 2 6 = payload.take ffPayloadMax := by
    rw [IsotpTx.ffFrame, Frame.payload_fill_two (by omega) (by omega), ← hsix, List.take_length]
  have hlength := length_storeAt rx.buffer (payload.take ffPayloadMax)
    (show 0 + (payload.take ffPayloadMax).length ≤ rx.buffer.length by omega)
  have htake := take_storeAt (payload.take ffPayloadMax) (Nat.zero_le rx.buffer.length)
  simp only [openReception, hchunk, hbytes] at hq
  subst hq
  refine ⟨⟨hlen, rfl, rfl, rfl, Nat.le_refl 0, rfl, ?_, ?_⟩, rfl, hlength⟩
  · unfold cfCount
    omega
  · intro _
    rw [hsix] at htake
    simpa [offsetOf, ffPayloadMax] using htake

theorem RxSafe.openReception (hs : RxSafe payload 0 rx) (padding : UInt8) (hlen : 7 < payload.length)
    (hready : rx.messageReady = false) :
    RxSafe payload 0 (rx.openReception payload.length
      (IsotpTx.ffFrame padding payload.length (payload.take ffPayloadMax))) := by
  have hsize := hs.size
  have hroom := hs.room
  generalize hq : rx.openReception payload.length (IsotpTx.ffFrame padding payload.length
    (payload.take ffPayloadMax)) = q
  obtain ⟨hr, -, hlength⟩ := openReception_receiving hlen (by omega) hq
  have hqready : q.messageReady = false := by rw [← hq]; exact hready
  have hqbuffer : q.hasBuffer = true := by rw [← hq]; exact hs.hasBuffer
  have hqsize : q.bufferSize = rx.bufferSize := by rw [← hq]; rfl
  refine ⟨hqbuffer, by omega, by omega, ?_, ?_, ?_⟩
  · exact fun h => absurd (hqready.symm.trans h) (by simp)
  · exact fun h => absurd (hqready.symm.trans h) (by simp)
  · exact fun _ => ⟨0, 0, Nat.le_refl 0, hr⟩

/-- A First Frame opens a reception, or changes nothing that matters. -/
theorem RxSafe.onFirstFrame (hs : RxSafe payload 0 rx) (hlen : 7 < payload.length)
    (hmax : payload.length ≤ 4095) :
    RxSafe payload 0 (rx.onFirstFrame c now
      (IsotpTx.ffFrame padding payload.length (payload.take ffPayloadMax))).2.1 := by
  unfold IsotpRx.onFirstFrame
  simp only [ffFrame_declared hmax]
  have hroom := hs.room
  have hsize := hs.size
  split
  · exact hs.reset
  · split
    · exact hs
    · next hready =>
      split
      · exact hs
      · split
        · exact hs.congr (sendFc_reception rx c now _).1 (sendFc_reception rx c now _).2
        · split
          · omega
          · have hopen := hs.openReception padding hlen (by simpa using hready)
            generalize hq : rx.openReception payload.length (IsotpTx.ffFrame padding payload.length
              (payload.take ffPayloadMax)) = q at hopen ⊢
            obtain ⟨hr, hsix, -⟩ := openReception_receiving hlen (by omega) hq
            have hfc := sendFc_reception q c now fcCts
            have hkeep := hfc.1
            simp only [reception, Prod.mk.injEq] at hkeep
            rw [if_neg (by rw [hkeep.2.2.2.1, hkeep.2.2.2.2.1, hr.declared, hsix]; omega)]
            exact hopen.congr hfc.1 hfc.2

/-- The next Consecutive Frame of a reception with `j = i` carries the bytes that come next. -/
theorem cfAt_payload (k : ℕ) :
    (cfAt padding payload k).payload 1 (min cfPayloadMax (payload.length - offsetOf k)) =
      (payload.drop (offsetOf k)).take cfPayloadMax := by
  have hlen : ((payload.drop (offsetOf k)).take cfPayloadMax).length =
      min cfPayloadMax (payload.length - offsetOf k) := by
    rw [List.length_take, List.length_drop]
  have hseven : ((payload.drop (offsetOf k)).take cfPayloadMax).length ≤ 7 := by
    rw [hlen]
    exact Nat.min_le_left _ _
  rw [cfAt, IsotpTx.cfFrame, ← hlen, Frame.payload_fill_one hseven (Nat.le_refl _), List.take_length]

theorem offsetOf_succ (h : 1 ≤ k) : offsetOf (k + 1) = offsetOf k + 7 := by
  unfold offsetOf
  omega

/-- The accepted bytes after the Consecutive Frame with index `d`, when none was skipped. -/
theorem Receiving.appended (hr : Receiving payload i j rx) (hij : j = i) (hd : j + 1 = d)
    (hbuf : payload.length ≤ rx.buffer.length) :
    (appendCf rx now (cfAt padding payload d)).buffer.take
        (min (offsetOf (d + 1)) payload.length) =
      payload.take (min (offsetOf (d + 1)) payload.length) := by
  subst hd
  have hoff : offsetOf (j + 1) < payload.length := (offsetOf_lt_iff payload (by omega)).2 hr.more
  have hnext := offsetOf_succ (k := j + 1) (by omega)
  have hstore := take_storeAt ((payload.drop (offsetOf (j + 1))).take cfPayloadMax)
    (show offsetOf (j + 1) ≤ rx.buffer.length by omega)
  have hend : offsetOf (j + 1) + ((payload.drop (offsetOf (j + 1))).take cfPayloadMax).length =
      min (offsetOf (j + 1 + 1)) payload.length := by
    rw [List.length_take, List.length_drop, hnext, cfPayloadMax]
    omega
  rw [hend, hr.stored hij] at hstore
  simp only [appendCf, hr.declared, hr.received, cfAt_payload, hstore]
  rw [← List.take_eq_take_min, hnext, List.take_add]
  rfl

/-- What taking in the Consecutive Frame with index `d` does, when its sequence number is the expected
one: the count goes up by one frame, the index jumps to `d`. -/
theorem Receiving.append (hr : Receiving payload i j rx) (hd : d % 16 = (i + 1) % 16)
    (hbuf : payload.length ≤ rx.buffer.length) {q : IsotpRx}
    (hq : appendCf rx now (cfAt padding payload d) = q) :
    q.received = min (offsetOf (j + 1 + 1)) payload.length ∧ q.declaredLength = payload.length ∧
      q.expectedSn = snOf (d + 1) ∧ q.buffer.length = rx.buffer.length ∧
      (j = i → j + 1 = d → q.buffer.take (min (offsetOf (d + 1)) payload.length) =
        payload.take (min (offsetOf (d + 1)) payload.length)) := by
  have hjoff : offsetOf (j + 1) < payload.length := (offsetOf_lt_iff payload (by omega)).2 hr.more
  have hnext : offsetOf (j + 1 + 1) = offsetOf (j + 1) + 7 := offsetOf_succ (by omega)
  subst hq
  refine ⟨?_, hr.declared, ?_, ?_, fun hij hjd => hr.appended hij hjd hbuf⟩
  · simp only [appendCf, hr.declared, hr.received, cfPayloadMax]
    omega
  · simp only [appendCf, hr.sn, snOf_succ]
    rw [snOf_inj]
    omega
  · simp only [appendCf, hr.declared, hr.received, cfPayloadMax]
    rw [length_storeAt]
    rw [Frame.length_payload (by omega)]
    omega

/-- A Consecutive Frame of a payload is taken in as the next one, aborts the reception or is ignored. -/
theorem RxSafe.onConsecutiveFrame (hs : RxSafe payload d rx) (c : Channel) (now : UInt32)
    (padding : UInt8) (hd : d ≤ cfCount payload) :
    RxSafe payload d (rx.onConsecutiveFrame c now (cfAt padding payload d)).2.1 := by
  unfold IsotpRx.onConsecutiveFrame
  split
  · exact hs
  · next hp =>
    obtain ⟨i, j, hi, hr⟩ := hs.receiving (by simpa using hp)
    have hready : rx.messageReady = false := by
      by_contra hready
      exact hp (by rw [hs.exclusive (by simpa using hready)]; rfl)
    split
    · exact hs.reset
    · next hlow =>
      -- the index agrees with the expected one modulo 16, and it lies beyond the last one accepted
      have hmod : d % 16 = (i + 1) % 16 := by
        have hsn : snOf d = snOf (i + 1) := by
          have hdecoded : (cfAt padding payload d).low = snOf d := cfFrame_low
          rw [← hr.sn, ← hdecoded]
          exact not_not.1 hlow
        exact snOf_inj.1 hsn
      have hsize := hs.size
      have hroom := hs.room
      have hle := hr.le
      have hjmod := hr.mod
      have hmore := offsetOf_lt_iff payload (show 1 ≤ j + 1 + 1 by omega)
      generalize hq : appendCf rx now (cfAt padding payload d) = q
      obtain ⟨hreceived, hdeclared, hsn, hlength, hstored⟩ := hr.append hmod (by omega) hq
      have hbuffer : q.hasBuffer = true := hq ▸ hs.hasBuffer
      have hbufferSize : q.bufferSize = rx.bufferSize := by rw [← hq]; rfl
      have hqready : q.messageReady = false := by rw [← hq]; exact hready
      clear hq
      simp only
      split
      · -- complete: only a reception that skipped nothing gets this far
        next hcomplete =>
        have hjd : j + 1 = d := by omega
        have hall : min (offsetOf (d + 1)) payload.length = payload.length := by
          rw [← hjd]
          omega
        have hmessage := hstored (by omega) hjd
        rw [hall, List.take_length] at hmessage
        exact .finish hbuffer (by omega) (by omega) hdeclared hmessage
      · next hcomplete =>
        have hcont : RxSafe payload d q := by
          refine ⟨hbuffer, by omega, by omega, ?_, ?_, ?_⟩
          · exact fun h => absurd h (by simp [hqready])
          · exact fun h => absurd h (by simp [hqready])
          · intro _
            refine ⟨d, j + 1, Nat.le_refl d, hr.multi, hdeclared, by omega, hsn, by omega, by omega,
              by omega, ?_⟩
            intro hjd
            have h := hstored (by omega) hjd
            have hmin : min (offsetOf (d + 1)) payload.length = offsetOf (j + 1 + 1) := by
              rw [← hjd]
              omega
            rw [hmin] at h
            exact h
        split
        · have hfc := sendFc_reception { q with cfInBlock := 0 } c now fcCts
          have hreset : RxSafe payload d { q with cfInBlock := 0 } := hcont.congr rfl id
          exact hreset.congr hfc.1 hfc.2
        · exact hcont

/-- **One segment**: a receiver given any segment of the payload that is not below the ones it has seen
stays safe. -/
theorem RxSafe.onFrame (hs : RxSafe payload d rx) (hmax : payload.length ≤ 4095)
    (hframe : (segments padding payload)[d]? = some frame) :
    RxSafe payload d (rx.onFrame c now frame).2.1 := by
  rcases segment_cases hframe with ⟨hlen, -, rfl⟩ | ⟨hlen, rfl, rfl⟩ | ⟨-, -, hd, rfl⟩
  · rw [onFrame_of_sf (sfFrame_pci hlen)]
    exact hs.onSingleFrame padding hlen
  · rw [onFrame_of_ff ffFrame_pci]
    exact hs.onFirstFrame hlen hmax
  · have hpci : (cfAt padding payload d).pci = pciCf := cfFrame_pci
    rw [onFrame_of_cf hpci]
    exact hs.onConsecutiveFrame c now padding hd

end IsotpRx

end DualCan.Isotp
