import DualCan.Isotp.Link

/-!
# ISO-TP: both sides in step

On drivers that accept every frame at once, a multi-frame exchange is a walk through five counters: the
Consecutive Frames sent `s`, the segments delivered `d`, the Flow Control frames sent and taken, and the
position inside the current block. `TxAt` and `RxAt` say how each side's state follows from them, for every
block size. The last grant a receiver gives covers the last Consecutive Frame; a sender whose last frame
also fills its block asks for one more.
-/

namespace DualCan.Isotp

open DualCan.Clock

variable {padding : UInt8} {payload : List UInt8} {bs s t d : ℕ} {fc frame : Frame}

theorem Channel.Lossless.send {c : Channel} (h : c.Lossless) (frame : Frame) :
    ∃ c', c.send frame = (true, c') ∧ c'.Lossless ∧ c'.sent = c.sent ++ [frame] := by
  have hanswer := h.1 0
  refine ⟨(c.send frame).2, ?_, ?_, ?_⟩ <;> simp only [Channel.send, hanswer, if_true]
  exact ⟨fun n => h.1 (n + 1), h.2⟩

theorem Channel.Lossless.txPending {c : Channel} (h : c.Lossless) :
    ∃ c', c.txPending = (false, c') ∧ c'.Lossless ∧ c'.sent = c.sent := by
  refine ⟨c.txPending.2, ?_, ⟨h.1, fun n => h.2 (n + 1)⟩, rfl⟩
  rw [Channel.txPending, h.2 0]

/-! ## The sender -/

namespace IsotpTx

variable {tx tx' : IsotpTx} {c c' : Channel} {now : UInt32}

/-- The sender after a frame was accepted at once. -/
def accepted (tx : IsotpTx) (now : UInt32) (frame : Frame) : IsotpTx :=
  { tx with
    txPendingFrame := frame
    txWaitingEnqueue := false
    txEnqueueDeadlineMs := now + tx.nAsMs.toUInt32
    txFramePending := false
    txAsDeadlineMs := now + tx.nAsMs.toUInt32 }

theorem scheduleFrame_lossless (h : c.Lossless) (tx : IsotpTx) (now : UInt32) (frame : Frame) :
    ∃ c', scheduleFrame tx c now frame = (tx.accepted now frame, c') ∧ c'.Lossless ∧
      c'.sent = c.sent ++ [frame] := by
  obtain ⟨c₁, hsend, hl₁, hs₁⟩ := h.send frame
  obtain ⟨c₂, hpending, hl₂, hs₂⟩ := hl₁.txPending
  refine ⟨c₂, ?_, hl₂, by rw [hs₂, hs₁]⟩
  simp [scheduleFrame, serviceEnqueue, hsend, noteFrameSent, hpending, accepted]

/-- Nothing waits for a mailbox or a pending frame: a poll goes straight to its decisions. -/
theorem poll_eq_pollReady (ho : tx.txOngoing = true) (hw : tx.txWaitingEnqueue = false)
    (hp : tx.txFramePending = false) : poll tx c now = pollReady tx c now := by
  simp [poll, ho, serviceEnqueue, hw, pollPending, hp]

/-- A sender that has sent `s` Consecutive Frames and taken `t` Flow Control frames of block size `bs`. -/
structure TxAt (padding : UInt8) (payload : List UInt8) (bs s t : ℕ) (tx : IsotpTx) (c : Channel) :
    Prop where
  scheduled : Scheduled padding payload [] s tx c
  lossless : c.Lossless
  enqueued : tx.txWaitingEnqueue = false
  notPending : tx.txFramePending = false
  ungranted : t = 0 → tx.txWaitingFc = true ∧ tx.blockSize = 0 ∧ s = 0
  granted : 0 < t → tx.blockSize.toNat = bs ∧ (t - 1) * bs + tx.txSentInBlock = s ∧
    (bs ≠ 0 → tx.txSentInBlock ≤ bs)
  waiting : 0 < t → tx.txWaitingFc = true → tx.afterBlock = true
  ended : tx.txOngoing = false →
    tx.txWaitingFc = false ∧ tx.afterBlock = false ∧ s = cfCount payload

theorem TxAt.length_sent (h : TxAt padding payload bs s t tx c) : c.sent.length = s + 1 := by
  have hlast := h.scheduled.last
  rw [h.scheduled.accepted h.enqueued, List.nil_append, List.length_take]
  omega

theorem TxAt.le (h : TxAt padding payload bs s t tx c) (hm : 7 < payload.length) :
    s ≤ cfCount payload := by
  have hlast := h.scheduled.last
  rw [length_segments_mf hm] at hlast
  omega

theorem pred_mul_add (bs : ℕ) (ht : 0 < t) : (t - 1) * bs + bs = t * bs := by
  rw [← Nat.succ_mul, Nat.succ_eq_add_one, Nat.sub_add_cancel ht]

/-- After a grant, the block is full exactly when the grants are used up. -/
theorem TxAt.afterBlock_iff (h : TxAt padding payload bs s t tx c) (ht : 0 < t) :
    tx.afterBlock = true ↔ bs ≠ 0 ∧ s = t * bs := by
  obtain ⟨hbs, hcount, hblock⟩ := h.granted ht
  have hmul := pred_mul_add bs ht
  have hpos : (0 < tx.blockSize) ↔ 0 < tx.blockSize.toNat := UInt8.lt_iff_toNat_lt
  simp only [afterBlock, Bool.and_eq_true, decide_eq_true_eq, hpos, hbs]
  by_cases hb : bs = 0
  · simp [hb]
  · have hle := hblock hb
    omega

theorem TxAt.sendCf (h : TxAt padding payload bs s t tx c) (now : UInt32) (ho : tx.txOngoing = true)
    (hfc : tx.txWaitingFc = false) (hblock : tx.afterBlock = false)
    (hmore : tx.txOffset < payload.length) :
    ∃ tx' c', IsotpTx.sendCf tx c now = (tx', c') ∧ TxAt padding payload bs (s + 1) t tx' c' ∧
      tx'.txOngoing = true := by
  have ht : 0 < t := by
    by_contra h0
    have hwait := (h.ungranted (by omega)).1
    rw [hfc] at hwait
    cases hwait
  obtain ⟨c', hcf, hl', -⟩ := scheduleFrame_lossless h.lossless (tx.advanceCf now) now
    (cfFrame tx.padding tx.txSn tx.nextChunk)
  obtain ⟨hs', ho'⟩ := sendCf_scheduled h.scheduled h.enqueued ho hmore hcf
  obtain ⟨hbs, hcount, hin⟩ := h.granted ht
  refine ⟨_, c', hcf, ⟨hs', hl', rfl, rfl, fun h0 => by omega, ?_, ?_, ?_⟩, ho'⟩
  · intro _
    refine ⟨hbs, ?_, ?_⟩
    · show (t - 1) * bs + (tx.txSentInBlock + 1) = s + 1
      omega
    · intro hb
      show tx.txSentInBlock + 1 ≤ bs
      have hle := hin hb
      have hne : tx.txSentInBlock ≠ bs := by
        intro heq
        have hfull : tx.afterBlock = true := by
          rw [afterBlock, hbs, heq]
          simpa [UInt8.lt_iff_toNat_lt, hbs] using Nat.pos_of_ne_zero hb
        rw [hblock] at hfull
        cases hfull
      omega
  · intro _ hwait
    have hsame : tx.txWaitingFc = true := hwait
    rw [hfc] at hsame
    cases hsame
  · intro hi
    rw [ho'] at hi
    cases hi

/-- What a poll does to a sender whose deadline, if it waits, is not reached. -/
inductive Polled (padding : UInt8) (payload : List UInt8) (bs s t : ℕ) (tx : IsotpTx) (c : Channel)
    (now : UInt32) (tx' : IsotpTx) (c' : Channel) : Prop where
  | waitsFc (next : TxAt padding payload bs s t tx' c') (same : c' = c)
      (ongoing : tx'.txOngoing = true) (wait : tx.txWaitingFc = true ∨ tx.afterBlock = true)
  | waitsSep (sameTx : tx' = tx) (same : c' = c) (sep : now - tx.txLastCfMs < tx.stminMs.toUInt32)
  | ends (next : TxAt padding payload bs s t tx' c') (same : c' = c) (idle : tx'.txOngoing = false)
  | sends (next : TxAt padding payload bs (s + 1) t tx' c') (ongoing : tx'.txOngoing = true)

theorem TxAt.poll (h : TxAt padding payload bs s t tx c) (now : UInt32) (hm : 7 < payload.length)
    (ho : tx.txOngoing = true)
    (hto : tx.txWaitingFc = true → reached now tx.txDeadlineMs = false) :
    ∃ tx' c', IsotpTx.poll tx c now = (.ok, tx', c') ∧
      Polled padding payload bs s t tx c now tx' c' := by
  rw [poll_eq_pollReady ho h.enqueued h.notPending]
  unfold pollReady
  have hs := h.scheduled
  by_cases hfc : tx.txWaitingFc = true
  · rw [if_pos hfc, if_neg (by simp [hto hfc])]
    exact ⟨tx, c, rfl, .waitsFc h rfl ho (Or.inl hfc)⟩
  · rw [if_neg hfc]
    have hfc' : tx.txWaitingFc = false := by simpa using hfc
    by_cases hblock : tx.afterBlock = true
    · rw [if_pos hblock]
      refine ⟨_, _, rfl, .waitsFc ⟨hs.congr rfl rfl, h.lossless, h.enqueued, h.notPending, ?_,
        h.granted, fun _ _ => hblock, fun hi => ?_⟩ rfl ho (Or.inr hblock)⟩
      · intro h0
        exact absurd (h.ungranted h0).1 hfc
      · rw [show tx.txOngoing = false from hi] at ho
        cases ho
    · rw [if_neg hblock]
      have hblock' : tx.afterBlock = false := by simpa using hblock
      split
      · next hall =>
        rw [hs.data] at hall
        refine ⟨_, _, rfl, .ends ⟨hs.congr rfl rfl, h.lossless, h.enqueued, h.notPending,
          h.ungranted, h.granted, h.waiting, fun _ => ⟨hfc', hblock', ?_⟩⟩ rfl rfl⟩
        have hoffset := hs.offset
        have hle := h.le hm
        have hcover := offsetOf_lt_iff payload (show 1 ≤ s + 1 by omega)
        rw [coveredBy_mf hm] at hoffset
        omega
      · next hmore =>
        rw [hs.data] at hmore
        split
        · next hsep =>
          simp only [Bool.and_eq_true, decide_eq_true_eq] at hsep
          exact ⟨tx, c, rfl, .waitsSep rfl rfl hsep.2⟩
        · obtain ⟨tx', c', hcf, hnext, ho'⟩ := h.sendCf now ho hfc' hblock' (by omega)
          exact ⟨tx', c', by rw [hcf], .sends hnext ho'⟩

/-- A Single Frame is accepted at once, and the sender is idle again. -/
theorem start_single (now : UInt32) (hc : c.Lossless) (ho : tx.txOngoing = false) (h1 : 1 ≤ payload.length)
    (hlen : payload.length ≤ 7) :
    ∃ tx' c', start tx c now payload = (.ok, tx', c') ∧ tx'.txOngoing = false ∧ c'.Lossless ∧
      c'.sent = c.sent ++ [sfFrame tx.padding payload] := by
  obtain ⟨c', hsend, hl', hs'⟩ := scheduleFrame_lossless hc
    { begin tx payload with txOffset := payload.length } now (sfFrame tx.padding payload)
  have hsf : sendSf (begin tx payload) c now payload = _ := hsend
  refine ⟨{ accepted { begin tx payload with txOffset := payload.length } now
    (sfFrame tx.padding payload) with txOngoing := false }, c', ?_, rfl, hl', hs'⟩
  unfold start
  rw [if_neg (by omega), if_neg (by simp [ho]), if_neg (by rw [maxTotalLength]; omega),
    if_pos (by rw [maxSingleFrame, sfPayloadMax]; omega), hsf]
  rfl

/-- A First Frame is accepted at once, and the sender waits for its first grant. -/
theorem start_multi (now : UInt32) (bs : ℕ) (hc : c.Lossless) (hempty : c.sent = [])
    (ho : tx.txOngoing = false)
    (hnAs : tx.nAsMs ≠ 0) (hbs : tx.blockSize = 0) (hlen : 7 < payload.length)
    (hmax : payload.length ≤ 4095) :
    ∃ tx' c', start tx c now payload = (.ok, tx', c') ∧
      TxAt tx.padding payload bs 0 0 tx' c' := by
  obtain ⟨c', hsend, hl', -⟩ := scheduleFrame_lossless hc
    { begin tx payload with
      txOffset := (payload.take ffPayloadMax).length
      txFfSent := true
      txWaitingFc := true
      txWaitingAfterBlock := false
      txDeadlineMs := now + tx.nBsMs.toUInt32 } now
    (ffFrame tx.padding payload.length (payload.take ffPayloadMax))
  have hff : sendFf (begin tx payload) c now = _ := hsend
  obtain ⟨hs, ho'⟩ := sendFf_scheduled hlen rfl hnAs hff
  rw [hempty] at hs
  refine ⟨_, c', ?_, ⟨hs, hl', rfl, rfl, fun _ => ⟨rfl, hbs, rfl⟩, fun h0 => absurd h0 (by decide),
    fun h0 => absurd h0 (by decide), fun hi => ?_⟩⟩
  · unfold start
    rw [if_neg (by omega), if_neg (by simp [ho]), if_neg (by rw [maxTotalLength]; omega),
      if_neg (by rw [maxSingleFrame, sfPayloadMax]; omega), hff]
  · rw [ho'] at hi
    cases hi

/-- A grant is taken by a sender that waits for its first one or has used up the others. -/
theorem TxAt.onFrame (h : TxAt padding payload bs s t tx c) (now : UInt32) (ho : tx.txOngoing = true)
    (hdue : t = 0 ∨ tx.afterBlock = true) (hpci : frame.pci = pciFc) (hlow : frame.low = fcCts)
    (hbs : (getElem frame 1 Frame.one_lt).toNat = bs) :
    ∃ tx', IsotpTx.onFrame tx now frame = (.ok, tx') ∧ TxAt padding payload bs s (t + 1) tx' c ∧
      tx'.txOngoing = true := by
  have hguard : ¬((!tx.txWaitingFc && !tx.afterBlock) = true) := by
    rcases hdue with h0 | hblock
    · simp [(h.ungranted h0).1]
    · simp [hblock]
  have hcount : t * bs + 0 = s := by
    rcases Nat.eq_zero_or_pos t with h0 | hpos
    · rw [(h.ungranted h0).2.2, h0, Nat.zero_mul]
    · rcases hdue with h0 | hblock
      · omega
      · exact ((h.afterBlock_iff hpos).1 hblock).2.symm
  unfold IsotpTx.onFrame
  rw [if_neg (by simp [ho]), if_neg hguard, if_neg (by simp [hpci]), hlow, if_neg (by decide),
    if_neg (by decide)]
  refine ⟨_, rfl, ⟨h.scheduled.congr rfl rfl, h.lossless, h.enqueued, h.notPending,
    fun h0 => by omega, ?_, ?_, ?_⟩, ho⟩
  · exact fun _ => ⟨hbs, hcount, fun _ => Nat.zero_le bs⟩
  · exact fun _ hwait => nomatch hwait
  · intro hi
    rw [show tx.txOngoing = false from hi] at ho
    cases ho

end IsotpTx

/-! ## The receiver -/

/-- The Flow Control frames a receiver has sent after `d` segments: one for the First Frame and one for
each full block that is not the end of the message. -/
def grantCount (payload : List UInt8) (bs d : ℕ) : ℕ :=
  if d = 0 then 0 else 1 + min (d - 1) (cfCount payload - 1) / bs

theorem grantCount_mono (payload : List UInt8) (bs : ℕ) {d d' : ℕ} (h : d ≤ d') :
    grantCount payload bs d ≤ grantCount payload bs d' := by
  unfold grantCount
  split
  · exact Nat.zero_le _
  · rw [if_neg (by omega)]
    exact Nat.add_le_add_left (Nat.div_le_div_right (by omega)) 1

/-- The grants while Consecutive Frames are still to come. -/
theorem grantCount_succ {payload : List UInt8} (bs : ℕ) {r : ℕ} (h : r + 1 ≤ cfCount payload) :
    grantCount payload bs (r + 1) = 1 + r / bs := by
  unfold grantCount
  rw [if_neg (Nat.succ_ne_zero r), Nat.add_sub_cancel, Nat.min_eq_left (by omega)]

/-- The last Consecutive Frame is answered with no grant. -/
theorem grantCount_last {payload : List UInt8} (bs : ℕ) {r : ℕ} (h : r + 1 = cfCount payload) :
    grantCount payload bs (r + 2) = grantCount payload bs (r + 1) := by
  unfold grantCount
  rw [if_neg (Nat.succ_ne_zero _), if_neg (Nat.succ_ne_zero _), ← h, Nat.min_eq_right (by omega),
    Nat.min_eq_left (by omega)]

namespace IsotpRx

variable {rx rx' : IsotpRx} {c c' : Channel} {now : UInt32}

/-- The receiver after a Flow Control frame was accepted at once. -/
def granted (rx : IsotpRx) (now : UInt32) (status : UInt8) : IsotpRx :=
  { rx with
    fcFrame := rx.fcFrameOf status
    fcWaitingEnqueue := false
    fcPending := false
    fcDeadlineMs := now + rx.nArMs.toUInt32
    rxDeadlineMs := now + rx.nCrMs.toUInt32 }

theorem sendFc_lossless (h : c.Lossless) (rx : IsotpRx) (now : UInt32) (status : UInt8) :
    ∃ c', sendFc rx c now status = (rx.granted now status, c') ∧ c'.Lossless ∧
      c'.sent = c.sent ++ [rx.fcFrameOf status] := by
  obtain ⟨c₁, hsend, hl₁, hs₁⟩ := h.send (rx.fcFrameOf status)
  obtain ⟨c₂, hpending, hl₂, hs₂⟩ := hl₁.txPending
  refine ⟨c₂, ?_, hl₂, by rw [hs₂, hs₁]⟩
  simp [sendFc, serviceFcEnqueue, hsend, hpending, granted]

/-- A receiver that has been given the first `d` segments of the payload and grants blocks of `bs` with
the frame `fc`. -/
structure RxAt (payload : List UInt8) (bs : ℕ) (fc : Frame) (d : ℕ) (rx : IsotpRx) (c : Channel) :
    Prop where
  safe : RxSafe payload d rx
  lossless : c.Lossless
  enqueued : rx.fcWaitingEnqueue = false
  notPending : rx.fcPending = false
  block : rx.blockSize.toNat = bs
  grant : rx.fcFrameOf fcCts = fc
  grants : c.sent = List.replicate (grantCount payload bs d) fc
  idle : d = 0 → rx.rxInProgress = false ∧ rx.messageReady = false
  receiving : 1 ≤ d → d ≤ cfCount payload → rx.rxInProgress = true ∧
    Receiving payload (d - 1) (d - 1) rx ∧ (bs ≠ 0 → rx.cfInBlock.toNat = (d - 1) % bs)
  complete : cfCount payload < d → rx.messageReady = true

/-- What the receiver sends grants a block of `bs`. -/
theorem RxAt.isGrant (h : RxAt payload bs fc d rx c) :
    fc.pci = pciFc ∧ fc.low = fcCts ∧ (getElem fc 1 Frame.one_lt).toNat = bs := by
  have hhead : ((pciFc <<< 4) ||| (fcCts &&& 0x0F)) >>> 4 = pciFc ∧
      ((pciFc <<< 4) ||| (fcCts &&& 0x0F)) &&& 0x0F = fcCts := by decide
  rw [← h.grant, Frame.pci, Frame.low, fcFrameOf, Frame.fill_zero, Frame.fill_one]
  exact ⟨hhead.1, hhead.2, h.block⟩

theorem Receiving.congr {i j : ℕ} (hr : Receiving payload i j rx)
    (h : rx'.reception = rx.reception) : Receiving payload i j rx' := by
  simp only [reception, Prod.mk.injEq] at h
  obtain ⟨-, h2, -, h4, h5, h6, -, -⟩ := h
  refine ⟨hr.multi, h4 ▸ hr.declared, h5 ▸ hr.received, h6 ▸ hr.sn, hr.le, hr.mod, hr.more, ?_⟩
  rw [h2]
  exact hr.stored

theorem RxAt.onFirstFrame (h : RxAt payload bs fc 0 rx c) (hm : 7 < payload.length)
    (hmax : payload.length ≤ 4095) :
    ∃ rx' c', rx.onFirstFrame c now
        (IsotpTx.ffFrame padding payload.length (payload.take ffPayloadMax)) = (.ok, rx', c') ∧
      RxAt payload bs fc 1 rx' c' := by
  obtain ⟨hidle, hempty⟩ := h.idle rfl
  have hroom := h.safe.room
  have hsize := h.safe.size
  have hopen := h.safe.openReception padding hm hempty
  generalize hq : rx.openReception payload.length (IsotpTx.ffFrame padding payload.length
    (payload.take ffPayloadMax)) = q at hopen
  obtain ⟨hr, hsix, -⟩ := openReception_receiving hm (by omega) hq
  obtain ⟨c', hfc, hl', hs'⟩ := sendFc_lossless h.lossless q now fcCts
  have hgrant : q.fcFrameOf fcCts = fc := by
    rw [← hq]
    exact h.grant
  refine ⟨q.granted now fcCts, c', ?_, ?_⟩
  · have hrange : ¬((decide (payload.length ≤ maxSingleFrame) ||
        decide (payload.length > maxTotalLength)) = true) := by
      rw [decide_eq_false (by rw [maxSingleFrame, sfPayloadMax]; omega),
        decide_eq_false (by rw [maxTotalLength]; omega)]
      decide
    have hpart : ¬((q.granted now fcCts).received ≥ (q.granted now fcCts).declaredLength) := by
      rw [show (q.granted now fcCts).received = q.received from rfl,
        show (q.granted now fcCts).declaredLength = q.declaredLength from rfl, hsix, hr.declared]
      omega
    unfold IsotpRx.onFirstFrame
    simp only [ffFrame_declared hmax]
    rw [if_neg (by simp [hidle]), if_neg (by simp [hempty]), if_neg hrange,
      if_neg (by simp [h.safe.hasBuffer]), if_neg (by omega), hq, hfc]
    exact if_neg hpart
  · have hcf : (q.granted now fcCts).cfInBlock = 0 := by
      rw [← hq]
      rfl
    have hp : (q.granted now fcCts).rxInProgress = true := by
      rw [← hq]
      rfl
    have hsafe : RxSafe payload 0 (q.granted now fcCts) := hopen.congr rfl id
    refine ⟨hsafe.mono (Nat.zero_le 1), hl', rfl, rfl,
      ?_, hgrant, ?_, fun h1 => by omega, ?_, ?_⟩
    · rw [show (q.granted now fcCts).blockSize = q.blockSize from rfl, ← hq]
      exact h.block
    · rw [hs', h.grants, hgrant]
      simp [grantCount]
    · intro _ _
      refine ⟨hp, Receiving.congr hr rfl, ?_⟩
      intro _
      rw [hcf]
      simp
    · intro hlt
      unfold cfCount at hlt
      omega

/-- The counters after one more Consecutive Frame: a full block starts again at zero. -/
theorem block_next {r : ℕ} (hb : bs ≠ 0) :
    (r % bs + 1 = bs ∧ (r + 1) % bs = 0 ∧ (r + 1) / bs = r / bs + 1) ∨
      (r % bs + 1 < bs ∧ (r + 1) % bs = r % bs + 1 ∧ (r + 1) / bs = r / bs) := by
  have hlt := Nat.mod_lt r (Nat.pos_of_ne_zero hb)
  rcases Nat.lt_or_ge (r % bs + 1) bs with h | h
  · have hmod : (r + 1) % bs = r % bs + 1 := by rw [← Nat.mod_add_mod, Nat.mod_eq_of_lt h]
    exact Or.inr ⟨h, hmod, Nat.succ_div_of_mod_ne_zero (by omega)⟩
  · have hfull : r % bs + 1 = bs := by omega
    have hmod : (r + 1) % bs = 0 := by rw [← Nat.mod_add_mod, hfull, Nat.mod_self]
    exact Or.inl ⟨hfull, hmod, Nat.succ_div_of_mod_eq_zero hmod⟩

/-- The test of `IsotpRx_OnFrame` for a full block. -/
theorem block_full_iff (hblock : rx.blockSize.toNat = bs) :
    (0 < rx.blockSize && rx.blockSize ≤ rx.cfInBlock) = true ↔ bs ≠ 0 ∧ bs ≤ rx.cfInBlock.toNat := by
  simp only [Bool.and_eq_true, decide_eq_true_eq, UInt8.lt_iff_toNat_lt, UInt8.le_iff_toNat_le, hblock]
  exact and_congr_left' Nat.pos_iff_ne_zero

/-- The frames of the block after one more: it cannot wrap below the block size. -/
theorem cfInBlock_succ {r : ℕ} (hblock : rx.blockSize.toNat = bs) (hb : bs ≠ 0)
    (hcount : rx.cfInBlock.toNat = r % bs) : (rx.cfInBlock + 1).toNat = r % bs + 1 := by
  have hlt := Nat.mod_lt r (Nat.pos_of_ne_zero hb)
  have hbyte := rx.blockSize.toNat_lt
  have hone : (1 : UInt8).toNat = 1 := rfl
  rw [UInt8.toNat_add, hcount, hone]
  omega

theorem RxAt.onConsecutiveFrame (h : RxAt payload bs fc d rx c) (h1 : 1 ≤ d)
    (hd : d ≤ cfCount payload) :
    ∃ rx' c', rx.onConsecutiveFrame c now (cfAt padding payload d) = (.ok, rx', c') ∧
      RxAt payload bs fc (d + 1) rx' c' := by
  have hsafe := h.safe.onConsecutiveFrame c now padding hd
  obtain ⟨hp, hr, hblock⟩ := h.receiving h1 hd
  have hroom := h.safe.room
  have hsize := h.safe.size
  obtain ⟨r, rfl⟩ := Nat.exists_eq_add_of_le' h1
  simp only [Nat.add_sub_cancel] at hr hblock
  have hlow : (cfAt padding payload (r + 1)).low = rx.expectedSn := by
    rw [cfAt, cfFrame_low, hr.sn]
  generalize hq : appendCf rx now (cfAt padding payload (r + 1)) = q
  obtain ⟨hreceived, hdeclared, hsn, -, hstored⟩ := hr.append rfl (by omega) hq
  have hmore := offsetOf_lt_iff payload (show 1 ≤ r + 1 + 1 by omega)
  have hqp : q.rxInProgress = true := by rw [← hq]; exact hp
  have hqblock : q.blockSize.toNat = bs := by rw [← hq]; exact h.block
  have hqcf : q.cfInBlock = rx.cfInBlock + 1 := by rw [← hq]; rfl
  have hqgrant : q.fcFrameOf fcCts = fc := by rw [← hq]; exact h.grant
  have hqenq : q.fcWaitingEnqueue = false := by rw [← hq]; exact h.enqueued
  have hqpend : q.fcPending = false := by rw [← hq]; exact h.notPending
  unfold IsotpRx.onConsecutiveFrame at hsafe ⊢
  rw [if_neg (by simp [hp]), if_neg (by simp [hlow]), hq] at hsafe ⊢
  simp only at hsafe ⊢
  by_cases hcomplete : q.received ≥ q.declaredLength
  · -- the last segment
    rw [if_pos hcomplete] at hsafe ⊢
    have hlast : r + 1 = cfCount payload := by omega
    refine ⟨_, _, rfl, ⟨hsafe.mono (by omega), h.lossless, hqenq, hqpend, hqblock, hqgrant, ?_,
      fun h0 => by omega, fun _ hle => by omega, fun _ => rfl⟩⟩
    rw [h.grants, grantCount_last bs hlast]
  · rw [if_neg hcomplete] at hsafe ⊢
    have hnext : r + 1 + 1 ≤ cfCount payload := by omega
    have hbefore := grantCount_succ bs (show r + 1 ≤ cfCount payload by omega)
    have hafter := grantCount_succ bs hnext
    have hreceiving : Receiving payload (r + 1) (r + 1) q := by
      refine ⟨hr.multi, hdeclared, ?_, hsn, Nat.le_refl _, rfl, by omega, ?_⟩
      · omega
      · intro _
        have hst := hstored rfl rfl
        rwa [Nat.min_eq_left (by omega)] at hst
    have hcf : bs ≠ 0 → q.cfInBlock.toNat = r % bs + 1 := by
      intro hb
      rw [hqcf]
      exact cfInBlock_succ h.block hb (hblock hb)
    have hfull := block_full_iff hqblock
    by_cases hb : (0 < q.blockSize && q.blockSize ≤ q.cfInBlock) = true
    · -- a full block: the next grant
      rw [if_pos hb] at hsafe ⊢
      obtain ⟨hb0, hle⟩ := hfull.1 hb
      obtain ⟨hfullr, hmod, hdiv⟩ | ⟨hopen, -⟩ := block_next (r := r) hb0
      · obtain ⟨c', hfc, hl', hs'⟩ := sendFc_lossless h.lossless { q with cfInBlock := 0 } now fcCts
        rw [hfc] at hsafe ⊢
        refine ⟨_, _, rfl, ⟨hsafe.mono (by omega), hl', rfl, rfl, hqblock, hqgrant, ?_,
          fun h0 => by omega, ?_, fun hlt => by omega⟩⟩
        · rw [hs', h.grants, hbefore, hafter, hdiv]
          have hg : ({ q with cfInBlock := 0 } : IsotpRx).fcFrameOf fcCts = fc := hqgrant
          rw [hg, ← Nat.add_assoc, List.replicate_succ']
        · intro _ _
          refine ⟨hqp, hreceiving.congr rfl, fun _ => ?_⟩
          simp only [Nat.add_sub_cancel, hmod]
          rfl
      · have hcf' := hcf hb0
        omega
    · rw [if_neg hb] at hsafe ⊢
      refine ⟨_, _, rfl, ⟨hsafe.mono (by omega), h.lossless, hqenq, hqpend, hqblock, hqgrant, ?_,
        fun h0 => by omega, ?_, fun hlt => by omega⟩⟩
      · rw [h.grants, hbefore, hafter]
        by_cases hb0 : bs = 0
        · simp [hb0]
        · obtain ⟨hfullr, -⟩ | ⟨-, -, hdiv⟩ := block_next (r := r) hb0
          · exact absurd (hfull.2 ⟨hb0, by rw [hcf hb0]; omega⟩) hb
          · rw [hdiv]
      · intro _ _
        refine ⟨hqp, hreceiving, fun hb0 => ?_⟩
        obtain ⟨hfullr, -⟩ | ⟨-, hmod, -⟩ := block_next (r := r) hb0
        · exact absurd (hfull.2 ⟨hb0, by rw [hcf hb0]; omega⟩) hb
        · rw [hcf hb0, Nat.add_sub_cancel, hmod]

/-- **One delivery**: the next segment is accepted, and a grant follows when one is due. -/
theorem RxAt.onFrame (h : RxAt payload bs fc d rx c) (now : UInt32) (hm : 7 < payload.length)
    (hmax : payload.length ≤ 4095) (hframe : (segments padding payload)[d]? = some frame) :
    ∃ rx' c', rx.onFrame c now frame = (.ok, rx', c') ∧ RxAt payload bs fc (d + 1) rx' c' := by
  rcases segment_cases hframe with ⟨hlen, -, -⟩ | ⟨-, rfl, rfl⟩ | ⟨-, h1, hd, rfl⟩
  · omega
  · rw [onFrame_of_ff ffFrame_pci]
    exact h.onFirstFrame hm hmax
  · have hpci : (cfAt padding payload d).pci = pciCf := cfFrame_pci
    rw [onFrame_of_cf hpci]
    exact h.onConsecutiveFrame h1 hd

/-- A poll within the receiver's budget changes nothing. -/
theorem RxAt.poll (h : RxAt payload bs fc d rx c)
    (hto : rx.rxInProgress = true → reached now rx.rxDeadlineMs = false) :
    rx.poll c now = (.ok, rx, c) := by
  unfold IsotpRx.poll
  cases hp : rx.rxInProgress with
  | false => simp [h.enqueued, h.notPending]
  | true => simp [serviceFcEnqueue, h.enqueued, h.notPending, hp, hto hp]

end IsotpRx

end DualCan.Isotp
