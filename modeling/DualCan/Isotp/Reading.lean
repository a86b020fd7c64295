import DualCan.Isotp.Reception

/-!
# ISO-TP: the Python transport's `receive`, frame by frame

A call of `IsoTpTransport.receive` is a `Py.Reading`: before its first frame, or as `receiveFirst` and
`receiveNext` have left it. `ReadSafe` holds whatever segments the call meets, as long as none lies below
the ones before it: it returns the payload or nothing. `readingAt` is the call that has met every segment so
far; it grants its blocks where the firmware's receiver does (`take_readingAt`).
-/

namespace DualCan.Isotp

namespace Py

/-- A call of `receive`: before its first frame, or as it stands after one. -/
inductive Reading where
  | first
  | after (receipt : Receipt)

namespace IsoTpTransport

/-- `receive` with the next frame; a call that has ended takes none. -/
def take (t : IsoTpTransport) : Reading → Frame → List (List UInt8) × Reading
  | .first, frame => ((t.receiveFirst frame).1, .after (t.receiveFirst frame).2)
  | .after (.waiting r), frame => ((t.receiveNext r frame).1, .after (t.receiveNext r frame).2)
  | .after (.returned payload), _ => ([], .after (.returned payload))
  | .after (.raised message), _ => ([], .after (.raised message))

variable {t : IsoTpTransport} {padding : UInt8} {payload : List UInt8} {i j d k : ℕ} {r : Reception}
  {reading : Reading} {frame : Frame}

/-! ## Loss and repetition -/

/-- A reception that took in segment `i` last and `j` Consecutive Frames in all. -/
structure Gathering (payload : List UInt8) (i j : ℕ) (r : Reception) : Prop where
  multi : 7 < payload.length
  total : r.totalLength = payload.length
  length : r.payload.length = offsetOf (j + 1)
  index : r.expectedIndex = (i + 1) % 16
  le : j ≤ i
  mod : j % 16 = i % 16
  more : j < cfCount payload
  stored : j = i → r.payload = payload.take (offsetOf (j + 1))

/-- A call that has met no segment beyond the `d`-th: what it returned is the payload. -/
def ReadSafe (payload : List UInt8) (d : ℕ) : Reading → Prop
  | .after (.waiting r) => ∃ i j, i ≤ d ∧ Gathering payload i j r
  | .after (.returned data) => data = payload
  | _ => True

theorem ReadSafe.mono (h : ReadSafe payload d reading) (hle : d ≤ k) : ReadSafe payload k reading := by
  match reading, h with
  | .first, _ => trivial
  | .after (.returned _), h => exact h
  | .after (.raised _), _ => trivial
  | .after (.waiting r), ⟨i, j, hi, hr⟩ => exact ⟨i, j, Nat.le_trans hi hle, hr⟩

/-- The reception of the first `k` Consecutive Frames, whatever the block count. -/
theorem gathering_receptionAt (hm : 7 < payload.length) (hk : k < cfCount payload) (count : ℕ) :
    Gathering payload k k (receptionAt payload count k) := by
  have hoff : offsetOf (k + 1) < payload.length := (offsetOf_lt_iff payload (Nat.succ_pos k)).2 hk
  refine ⟨hm, rfl, ?_, rfl, Nat.le_refl k, rfl, hk, fun _ => rfl⟩
  rw [receptionAt, List.length_take]
  exact Nat.min_eq_left (Nat.le_of_lt hoff)

theorem Gathering.eq_receptionAt (h : Gathering payload i j r) (hij : j = i) :
    r = receptionAt payload r.blockCount i := by
  obtain ⟨total, data, index, count⟩ := r
  have htotal := h.total
  have hindex := h.index
  have hstored := h.stored hij
  simp only at htotal hindex hstored
  rw [receptionAt, htotal, hindex, hstored, hij]

/-- A Consecutive Frame with the expected index. -/
theorem receiveNext_expected (hpci : frame.pci = pciCf) (hlow : frame.low.toNat = r.expectedIndex) :
    t.receiveNext r frame = t.resume
      { r with
        payload := r.payload ++ frame.payload 1 cfPayloadMax
        expectedIndex := (r.expectedIndex + 1) % 16
        blockCount := r.blockCount + 1 } := by
  unfold receiveNext
  rw [if_neg (fun hne => hne hpci), if_neg (fun hne => hne hlow)]

theorem cfAt_low_toNat : (cfAt padding payload d).low.toNat = d % 16 := by
  rw [cfAt, cfFrame_low]
  exact Nat.mod_eq_of_lt (Nat.lt_trans (Nat.mod_lt _ (by decide)) (by decide))

/-- A Consecutive Frame beyond the next one is taken in as if it were the next, when its index says so. -/
theorem Gathering.skips (h : Gathering payload i j r) (t : IsoTpTransport) (padding : UInt8)
    (hd : d ≤ cfCount payload) (hskip : j + 1 < d) (hmod : d % 16 = (i + 1) % 16) :
    ∃ r', (t.receiveNext r (cfAt padding payload d)).2 = .waiting r' ∧ Gathering payload d (j + 1) r' := by
  have hlow : (cfAt padding payload d).low.toNat = r.expectedIndex := by
    rw [cfAt_low_toNat, h.index, hmod]
  have hseven : ((cfAt padding payload d).payload 1 cfPayloadMax).length = 7 :=
    Frame.length_payload (by decide)
  have hlength : (r.payload ++ (cfAt padding payload d).payload 1 cfPayloadMax).length =
      offsetOf (j + 1 + 1) := by
    rw [List.length_append, h.length, hseven, IsotpRx.offsetOf_succ (Nat.succ_pos j)]
  have hmore : offsetOf (j + 1 + 1) < payload.length :=
    (offsetOf_lt_iff payload (Nat.succ_pos _)).2 (by omega)
  have hpci : (cfAt padding payload d).pci = pciCf := cfFrame_pci
  have hjmod := h.mod
  rw [receiveNext_expected hpci hlow]
  obtain ⟨count, hwaits⟩ := resume_open (t := t) (r := { r with
    payload := r.payload ++ (cfAt padding payload d).payload 1 cfPayloadMax
    expectedIndex := (r.expectedIndex + 1) % 16
    blockCount := r.blockCount + 1 }) (by simp only [hlength, h.total, hmore])
  refine ⟨_, hwaits, h.multi, h.total, hlength, ?_, by omega, by omega, by omega, fun heq => by omega⟩
  simp only [h.index]
  omega

theorem Gathering.receiveNext (h : Gathering payload i j r) (hi : i ≤ d) (h1 : 1 ≤ d)
    (hd : d ≤ cfCount payload) :
    ReadSafe payload d (.after (t.receiveNext r (cfAt padding payload d)).2) := by
  have hpci : (cfAt padding payload d).pci = pciCf := cfFrame_pci
  by_cases hlow : (cfAt padding payload d).low.toNat = r.expectedIndex
  · have hle := h.le
    have hjmod := h.mod
    have hmod : d % 16 = (i + 1) % 16 := by
      rw [← cfAt_low_toNat, hlow, h.index]
    by_cases hnext : j + 1 = d
    · -- nothing was skipped
      obtain rfl : j = i := by omega
      subst hnext
      rw [h.eq_receptionAt rfl]
      rcases receiveNext_segment t padding h.more r.blockCount with ⟨-, hret⟩ | ⟨hmore, count, hwaits⟩
      · rw [hret]
        rfl
      · rw [hwaits]
        exact ⟨j + 1, j + 1, Nat.le_refl _, gathering_receptionAt h.multi hmore count⟩
    · obtain ⟨r', hwaits, hr'⟩ := h.skips t padding hd (by omega) hmod
      rw [hwaits]
      exact ⟨d, j + 1, Nat.le_refl d, hr'⟩
  · unfold IsoTpTransport.receiveNext
    rw [if_neg (fun hne => hne hpci), if_pos hlow]
    trivial

/-- **One frame**: a call given any segment of the payload that is not below the ones it has met stays
safe. -/
theorem ReadSafe.take (h : ReadSafe payload d reading) (hmax : payload.length ≤ 4095)
    (hframe : (segments padding payload)[d]? = some frame) :
    ReadSafe payload d (t.take reading frame).2 := by
  match reading, h with
  | .after (.returned _), h => exact h
  | .after (.raised _), _ => trivial
  | .first, _ =>
    rcases segment_cases hframe with ⟨hlen, -, rfl⟩ | ⟨hlen, rfl, rfl⟩ | ⟨-, -, -, rfl⟩
    · simp only [IsoTpTransport.take, receiveFirst_single hlen]
      rfl
    · simp only [IsoTpTransport.take, receiveFirst_multi t padding hlen hmax]
      refine ⟨0, 0, Nat.le_refl 0, gathering_receptionAt hlen ?_ 0⟩
      unfold cfCount
      omega
    · have hpci : (cfAt padding payload d).pci = pciCf := cfFrame_pci
      simp only [IsoTpTransport.take, receiveFirst, hpci]
      rw [if_neg (by decide), if_pos (by decide)]
      trivial
  | .after (.waiting r), ⟨i, j, hi, hr⟩ =>
    have hm := hr.multi
    simp only [IsoTpTransport.take]
    rcases segment_cases hframe with ⟨hlen, -, -⟩ | ⟨-, rfl, rfl⟩ | ⟨-, h1, hd, rfl⟩
    · omega
    · simp only [IsoTpTransport.receiveNext, ffFrame_pci]
      rw [if_pos (by decide)]
      exact ⟨i, j, hi, hr⟩
    · exact hr.receiveNext hi h1 hd

/-! ## Every segment in order -/

/-- The Flow Control frame the call sends. -/
def grantFrame (t : IsoTpTransport) : Frame :=
  Frame.fill 0xCC [(pciFc <<< 4) ||| fcCts, UInt8.ofNat t.blockSize, UInt8.ofNat t.stminMs]

/-- The call after the first `d` segments. -/
def readingAt (t : IsoTpTransport) (payload : List UInt8) (d : ℕ) : Reading :=
  if d = 0 then .first
  else if 7 < payload.length ∧ d ≤ cfCount payload then
    .after (.waiting (receptionAt payload ((d - 1) % t.blockSize) (d - 1)))
  else .after (.returned payload)

theorem ofNat_and_255 (n : ℕ) : UInt8.ofNat (n &&& 0xFF) = UInt8.ofNat n := by
  rw [show 0xFF = 2 ^ 8 - 1 from rfl, Nat.and_two_pow_sub_one_eq_mod, UInt8.ofNat_mod_size]

theorem grantBlock_eq (r : Reception) : t.grantBlock r = ([t.grantFrame.toList], .waiting r) := by
  unfold grantBlock encodeFlowControl
  rw [if_neg (by decide), ofNat_and_255, ofNat_and_255, pad_eq_fill (by simp)]
  rfl

/-- The call goes on: with a grant and a new block when the block is full. -/
theorem resume_more {r : Reception} (h : r.payload.length < r.totalLength) :
    t.resume r =
      if t.blockSize > 0 ∧ r.blockCount ≥ t.blockSize then
        ([t.grantFrame.toList], .waiting { r with blockCount := 0 })
      else ([], .waiting r) := by
  unfold resume
  rw [if_pos h, grantBlock_eq]

theorem resume_last {r : Reception} (h : ¬r.payload.length < r.totalLength) :
    t.resume r = ([], .returned (r.payload.take r.totalLength)) := by
  unfold resume
  rw [if_neg h]

theorem readingAt_zero : t.readingAt payload 0 = .first := if_pos rfl

theorem readingAt_waiting (hm : 7 < payload.length) (hk : k < cfCount payload) :
    t.readingAt payload (k + 1) = .after (.waiting (receptionAt payload (k % t.blockSize) k)) := by
  unfold readingAt
  rw [if_neg (Nat.succ_ne_zero k), if_pos ⟨hm, hk⟩, Nat.add_sub_cancel]

theorem readingAt_returned (h : cfCount payload < d) : t.readingAt payload d = .after (.returned payload) := by
  unfold readingAt
  rw [if_neg (by omega), if_neg (by omega)]

/-- The First Frame opens the first block. -/
theorem receiveFirst_eq (t : IsoTpTransport) (padding : UInt8) (hm : 7 < payload.length)
    (hmax : payload.length ≤ 4095) :
    t.receiveFirst (IsotpTx.ffFrame padding payload.length (payload.take ffPayloadMax)) =
      ([t.grantFrame.toList], .waiting (receptionAt payload 0 0)) := by
  have hwaits := receiveFirst_multi t padding hm hmax
  have hdeclared : IsotpRx.declaredOf
      (IsotpTx.ffFrame padding payload.length (payload.take ffPayloadMax)) = payload.length :=
    ffFrame_declared hmax
  unfold IsotpRx.declaredOf at hdeclared
  unfold receiveFirst at hwaits ⊢
  rw [if_neg (by rw [ffFrame_pci]; decide), if_neg (by rw [ffFrame_pci]; decide)] at hwaits ⊢
  dsimp only at hwaits ⊢
  rw [hdeclared, if_neg (by unfold sfPayloadMax; omega), grantBlock_eq] at hwaits ⊢
  exact congrArg (Prod.mk _) hwaits

/-- The next Consecutive Frame: the call grants the next block when this one is full and more is to come. -/
theorem receiveNext_eq (t : IsoTpTransport) (padding : UInt8) (hk : k < cfCount payload) :
    t.receiveNext (receptionAt payload (k % t.blockSize) k) (cfAt padding payload (k + 1)) =
      if k + 1 = cfCount payload then ([], .returned payload)
      else
        (List.replicate ((k + 1) / t.blockSize - k / t.blockSize) t.grantFrame.toList,
          .waiting (receptionAt payload ((k + 1) % t.blockSize) (k + 1))) := by
  have hpci : (cfAt padding payload (k + 1)).pci = pciCf := cfFrame_pci
  have hsegment := receiveNext_segment t padding hk (k % t.blockSize)
  rw [receiveNext_expected hpci cfAt_low_toNat] at hsegment ⊢
  generalize hr : ({ receptionAt payload (k % t.blockSize) k with
    payload := (receptionAt payload (k % t.blockSize) k).payload ++
      (cfAt padding payload (k + 1)).payload 1 cfPayloadMax
    expectedIndex := ((receptionAt payload (k % t.blockSize) k).expectedIndex + 1) % 16
    blockCount := (receptionAt payload (k % t.blockSize) k).blockCount + 1 } : Reception) = r at hsegment ⊢
  have hcount : r.blockCount = k % t.blockSize + 1 := by
    rw [← hr]
    rfl
  by_cases hopen : r.payload.length < r.totalLength
  · rw [resume_more hopen] at hsegment ⊢
    rcases hsegment with ⟨-, hret⟩ | ⟨hmore, count, hwaits⟩
    · split at hret <;> cases hret
    rw [if_neg (Nat.ne_of_lt hmore)]
    by_cases hfull : t.blockSize > 0 ∧ r.blockCount ≥ t.blockSize
    · rw [if_pos hfull] at hwaits ⊢
      have hnext := Receipt.waiting.inj hwaits
      obtain rfl : 0 = count := congrArg Reception.blockCount hnext
      rw [hcount] at hfull
      rcases IsotpRx.block_next (r := k) (Nat.ne_of_gt hfull.1) with ⟨-, hzero, hdiv⟩ | ⟨hlt, -⟩
      · rw [hnext, hzero, hdiv, Nat.add_sub_cancel_left]
        rfl
      · omega
    · rw [if_neg hfull] at hwaits ⊢
      have hnext := Receipt.waiting.inj hwaits
      have heq : r.blockCount = count := congrArg Reception.blockCount hnext
      rw [hcount] at hfull heq
      have hsame : (k + 1) % t.blockSize = count ∧ (k + 1) / t.blockSize = k / t.blockSize := by
        rcases Nat.eq_zero_or_pos t.blockSize with hb | hb
        · rw [hb, Nat.mod_zero] at heq
          rw [hb, Nat.mod_zero, Nat.div_zero, Nat.div_zero]
          exact ⟨heq, rfl⟩
        · rcases IsotpRx.block_next (r := k) (Nat.ne_of_gt hb) with ⟨hlast, -⟩ | ⟨-, hmod, hdiv⟩
          · omega
          · exact ⟨hmod.trans heq, hdiv⟩
      rw [hnext, hsame.1, hsame.2, Nat.sub_self]
      rfl
  · rw [resume_last hopen] at hsegment ⊢
    rcases hsegment with ⟨hlast, hret⟩ | ⟨-, count, hwaits⟩
    · rw [if_pos hlast]
      exact congrArg (Prod.mk _) hret
    · cases hwaits

/-- **One segment**: a call in step takes the next segment and grants a block where the firmware's
receiver does. -/
theorem take_readingAt (t : IsoTpTransport) (hm : 7 < payload.length) (hmax : payload.length ≤ 4095)
    (hframe : (segments padding payload)[d]? = some frame) :
    t.take (t.readingAt payload d) frame =
      (List.replicate (grantCount payload t.blockSize (d + 1) - grantCount payload t.blockSize d)
        t.grantFrame.toList, t.readingAt payload (d + 1)) := by
  rcases segment_cases hframe with ⟨hlen, -, -⟩ | ⟨-, rfl, rfl⟩ | ⟨-, h1, hd, rfl⟩
  · omega
  · have hmore : 0 < cfCount payload := by
      unfold cfCount
      omega
    rw [readingAt_zero, readingAt_waiting hm hmore, Nat.zero_mod, grantCount_succ t.blockSize hmore,
      Nat.zero_div]
    simp only [take, receiveFirst_eq t padding hm hmax]
    rfl
  · obtain ⟨k, rfl⟩ := Nat.exists_eq_add_of_le' h1
    rw [readingAt_waiting hm hd]
    simp only [take, receiveNext_eq t padding hd]
    by_cases hlast : k + 1 = cfCount payload
    · rw [if_pos hlast, readingAt_returned (by omega), grantCount_last t.blockSize hlast, Nat.sub_self]
      rfl
    · rw [if_neg hlast, readingAt_waiting hm (by omega), grantCount_succ t.blockSize hd,
        grantCount_succ t.blockSize (show k + 1 + 1 ≤ cfCount payload by omega), Nat.add_sub_add_left]

end IsoTpTransport

end Py

end DualCan.Isotp
