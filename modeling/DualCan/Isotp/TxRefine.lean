import DualCan.Isotp.Segment
import DualCan.Run.Past

/-!
# ISO-TP: the sender refines the segmentation

A transfer is described by the index `k` of the last frame handed to the enqueue service: `Scheduled`
says how the sender's fields and the frames accepted so far follow from `k`. Every operation on a sender
in that state has one of three outcomes (`Outcome`): the transfer goes on at some index, it is done and
every frame of `segments` was accepted, or it failed after a part of them.
-/

namespace DualCan.Isotp

open DualCan.Clock DualCan.Run

namespace IsotpTx

variable {padding : UInt8} {payload : List UInt8} {base : List Frame} {k : ℕ}
  {tx tx' : IsotpTx} {c c' : Channel} {now : UInt32} {frame : Frame} {result : IsotpResult}

/-! ## The enqueue service -/

/-- Everything the enqueue service can do. -/
theorem serviceEnqueue_cases (h : serviceEnqueue tx c now = (result, tx', c')) :
    (tx.txWaitingEnqueue = false ∧ result = .ok ∧ tx' = tx ∧ c' = c) ∨
    (tx.txWaitingEnqueue = true ∧ result = .ok ∧ c'.sent = c.sent ++ [tx.txPendingFrame] ∧
      ∃ pending, tx' = { tx with
        txWaitingEnqueue := false
        txFramePending := pending
        txAsDeadlineMs := now + tx.nAsMs.toUInt32 }) ∨
    (tx.txWaitingEnqueue = true ∧ c'.sent = c.sent ∧
      ((result = .ok ∧ reached now tx.txEnqueueDeadlineMs = false ∧ tx' = tx) ∨
        (result = .errTimeout ∧ reached now tx.txEnqueueDeadlineMs = true ∧
          tx' = { tx with txWaitingEnqueue := false, txOngoing := false }))) := by
  unfold serviceEnqueue at h
  cases hw : tx.txWaitingEnqueue with
  | false =>
    rw [hw] at h
    simp only [Bool.not_false, if_true, Prod.mk.injEq] at h
    exact Or.inl ⟨rfl, h.1.symm, h.2.1.symm, h.2.2.symm⟩
  | true =>
    rw [hw] at h
    simp only [Bool.not_true, Bool.false_eq_true, if_false] at h
    refine Or.inr ?_
    rcases hs : c.send tx.txPendingFrame with ⟨answer, c₁⟩
    rw [hs] at h
    cases answer with
    | true =>
      simp only [noteFrameSent, Prod.mk.injEq] at h
      obtain ⟨rfl, rfl, rfl⟩ := h
      refine Or.inl ⟨rfl, rfl, ?_, _, rfl⟩
      rw [Channel.txPending_sent]
      exact Channel.send_true hs
    | false =>
      have hsent := Channel.send_false hs
      simp only at h
      cases hr : reached now tx.txEnqueueDeadlineMs with
      | true =>
        rw [hr] at h
        simp only [if_true, Prod.mk.injEq] at h
        obtain ⟨rfl, rfl, rfl⟩ := h
        exact Or.inr ⟨rfl, hsent, Or.inr ⟨rfl, rfl, rfl⟩⟩
      | false =>
        rw [hr] at h
        simp only [Bool.false_eq_true, if_false, Prod.mk.injEq] at h
        obtain ⟨rfl, rfl, rfl⟩ := h
        exact Or.inr ⟨rfl, hsent, Or.inl ⟨rfl, rfl, rfl⟩⟩

/-- A scheduled frame is accepted at once or kept for the next poll: its budget cannot be over yet. -/
theorem scheduleFrame_cases (hnAs : tx.nAsMs ≠ 0)
    (h : scheduleFrame tx c now frame = (tx', c')) :
    (c'.sent = c.sent ++ [frame] ∧ ∃ pending, tx' = { tx with
        txPendingFrame := frame
        txWaitingEnqueue := false
        txEnqueueDeadlineMs := now + tx.nAsMs.toUInt32
        txFramePending := pending
        txAsDeadlineMs := now + tx.nAsMs.toUInt32 }) ∨
    (c'.sent = c.sent ∧ tx' = { tx with
        txPendingFrame := frame
        txWaitingEnqueue := true
        txEnqueueDeadlineMs := now + tx.nAsMs.toUInt32 }) := by
  unfold scheduleFrame at h
  generalize hq : ({ tx with
    txPendingFrame := frame
    txWaitingEnqueue := true
    txEnqueueDeadlineMs := now + tx.nAsMs.toUInt32 } : IsotpTx) = q at h
  rcases hs : serviceEnqueue q c now with ⟨result, tx₁, c₁⟩
  rw [hs] at h
  obtain ⟨rfl, rfl⟩ : tx₁ = tx' ∧ c₁ = c' := by simpa using h
  subst hq
  rcases serviceEnqueue_cases hs with ⟨hw, -⟩ | ⟨-, -, hsent, pending, rfl⟩ | ⟨-, hsent, hto⟩
  · simp at hw
  · exact Or.inl ⟨hsent, pending, rfl⟩
  · rcases hto with ⟨-, -, rfl⟩ | ⟨-, hreached, -⟩
    · exact Or.inr ⟨hsent, rfl⟩
    · simp [not_reached_add hnAs] at hreached

/-! ## A transfer in progress -/

/-- The payload bytes in the frames up to the `k`-th. -/
def coveredBy (payload : List UInt8) (k : ℕ) : ℕ :=
  if payload.length ≤ sfPayloadMax then payload.length else min (offsetOf (k + 1)) payload.length

theorem coveredBy_mf (h : 7 < payload.length) :
    coveredBy payload k = min (offsetOf (k + 1)) payload.length :=
  if_neg (by simpa [sfPayloadMax] using h)

/-- A sender whose last scheduled frame is the `k`-th of `payload`, on a channel that had accepted `base`
when the transfer started. -/
structure Scheduled (padding : UInt8) (payload : List UInt8) (base : List Frame) (k : ℕ)
    (tx : IsotpTx) (c : Channel) : Prop where
  data : tx.txData = payload
  pad : tx.padding = padding
  nAs : tx.nAsMs ≠ 0
  offset : tx.txOffset = coveredBy payload k
  sn : 7 < payload.length → tx.txSn = snOf (k + 1)
  last : k < (segments padding payload).length
  waiting : tx.txWaitingEnqueue = true →
    (segments padding payload)[k]? = some tx.txPendingFrame ∧
      c.sent = base ++ (segments padding payload).take k
  accepted : tx.txWaitingEnqueue = false → c.sent = base ++ (segments padding payload).take (k + 1)

/-- The fields `Scheduled` speaks about. -/
def position (tx : IsotpTx) : List UInt8 × UInt8 × UInt16 × ℕ × UInt8 × Bool × Frame :=
  (tx.txData, tx.padding, tx.nAsMs, tx.txOffset, tx.txSn, tx.txWaitingEnqueue, tx.txPendingFrame)

theorem Scheduled.congr (hs : Scheduled padding payload base k tx c)
    (h : tx'.position = tx.position) (hsent : c'.sent = c.sent) :
    Scheduled padding payload base k tx' c' := by
  simp only [position, Prod.mk.injEq] at h
  obtain ⟨h1, h2, h3, h4, h5, h6, h7⟩ := h
  refine ⟨h1 ▸ hs.data, h2 ▸ hs.pad, h3 ▸ hs.nAs, h4 ▸ hs.offset, h5 ▸ hs.sn, hs.last, ?_, ?_⟩
  · rw [h6, h7, hsent]
    exact hs.waiting
  · rw [h6, hsent]
    exact hs.accepted

theorem append_take_succ {frames : List Frame} (h : frames[k]? = some frame) :
    base ++ frames.take k ++ [frame] = base ++ frames.take (k + 1) := by
  rw [List.take_add_one, h, List.append_assoc]
  rfl

/-- Scheduling the `k`-th frame after the frames before it were accepted. -/
theorem scheduleFrame_scheduled (hdata : tx.txData = payload) (hpad : tx.padding = padding)
    (hnAs : tx.nAsMs ≠ 0) (hoffset : tx.txOffset = coveredBy payload k)
    (hsn : 7 < payload.length → tx.txSn = snOf (k + 1))
    (hframe : (segments padding payload)[k]? = some frame)
    (hsent : c.sent = base ++ (segments padding payload).take k) (ho : tx.txOngoing = true)
    (h : scheduleFrame tx c now frame = (tx', c')) :
    Scheduled padding payload base k tx' c' ∧ tx'.txOngoing = true := by
  have hlast : k < (segments padding payload).length :=
    (List.getElem?_eq_some_iff.1 hframe).1
  rcases scheduleFrame_cases hnAs h with ⟨hacc, pending, rfl⟩ | ⟨hacc, rfl⟩
  · refine ⟨⟨hdata, hpad, hnAs, hoffset, hsn, hlast, by simp, ?_⟩, ho⟩
    intro _
    rw [hacc, hsent, append_take_succ hframe]
  · refine ⟨⟨hdata, hpad, hnAs, hoffset, hsn, hlast, ?_, by simp⟩, ho⟩
    intro _
    exact ⟨hframe, by rw [hacc, hsent]⟩

/-- The enqueue service keeps the index; only its timeout ends the transfer. -/
theorem serviceEnqueue_scheduled (hs : Scheduled padding payload base k tx c)
    (h : serviceEnqueue tx c now = (result, tx', c')) :
    (result = .ok ∧ Scheduled padding payload base k tx' c' ∧ tx'.txOngoing = tx.txOngoing) ∨
    (result = .errTimeout ∧ tx'.txOngoing = false ∧
      c'.sent = base ++ (segments padding payload).take k) := by
  rcases serviceEnqueue_cases h with
    ⟨-, rfl, rfl, rfl⟩ | ⟨hw, rfl, hsent, pending, rfl⟩ | ⟨hw, hsent, hto⟩
  · exact Or.inl ⟨rfl, hs, rfl⟩
  · obtain ⟨hframe, hbase⟩ := hs.waiting hw
    refine Or.inl ⟨rfl, ⟨hs.data, hs.pad, hs.nAs, hs.offset, hs.sn, hs.last, by simp, ?_⟩, rfl⟩
    intro _
    rw [hsent, hbase, append_take_succ hframe]
  · obtain ⟨hframe, hbase⟩ := hs.waiting hw
    rcases hto with ⟨rfl, -, rfl⟩ | ⟨rfl, -, rfl⟩
    · refine Or.inl ⟨rfl, ⟨hs.data, hs.pad, hs.nAs, hs.offset, hs.sn, hs.last, ?_, ?_⟩, rfl⟩
      · exact fun _ => ⟨hframe, by rw [hsent, hbase]⟩
      · intro hw'
        rw [hw] at hw'
        cases hw'
    · exact Or.inr ⟨rfl, rfl, by rw [hsent, hbase]⟩

/-! ## Outcomes of an operation -/

/-- What an operation that reports `result` leaves of a transfer. -/
inductive Outcome (padding : UInt8) (payload : List UInt8) (base : List Frame)
    (result : IsotpResult) (tx : IsotpTx) (c : Channel) : Prop where
  | sending (k : ℕ) (ongoing : tx.txOngoing = true) (scheduled : Scheduled padding payload base k tx c)
  | done (ok : result = .ok) (idle : tx.txOngoing = false)
      (sent : c.sent = base ++ segments padding payload)
  | failed (k : ℕ) (err : result ≠ .ok) (idle : tx.txOngoing = false)
      (sent : c.sent = base ++ (segments padding payload).take k)

theorem Scheduled.accepted_take (hs : Scheduled padding payload base k tx c) :
    ∃ j, c.sent = base ++ (segments padding payload).take j := by
  cases hw : tx.txWaitingEnqueue with
  | true => exact ⟨k, (hs.waiting hw).2⟩
  | false => exact ⟨k + 1, hs.accepted hw⟩

/-- A transfer that an operation ends with an error. -/
theorem Scheduled.outcome_failed (hs : Scheduled padding payload base k tx c)
    (hr : result ≠ .ok) (hidle : tx'.txOngoing = false) (hsent : c'.sent = c.sent) :
    Outcome padding payload base result tx' c' := by
  obtain ⟨j, hj⟩ := hs.accepted_take
  exact .failed j hr hidle (by rw [hsent, hj])

/-- Once every byte is covered the last frame is the last segment. -/
theorem Scheduled.covered (hs : Scheduled padding payload base k tx c)
    (hw : tx.txWaitingEnqueue = false) (hall : payload.length ≤ tx.txOffset) :
    c.sent = base ++ segments padding payload := by
  have hlast := hs.last
  have hoffset := hs.offset
  rw [hs.accepted hw, List.take_of_length_le]
  by_cases hm : 7 < payload.length
  · have hcover := offsetOf_lt_iff payload (show 1 ≤ k + 1 by omega)
    rw [coveredBy_mf hm] at hoffset
    rw [length_segments_mf hm]
    omega
  · rw [segments_sf (by omega)]
    simp

/-- A Consecutive Frame: the next segment, while bytes remain. -/
theorem sendCf_scheduled (hs : Scheduled padding payload base k tx c)
    (hw : tx.txWaitingEnqueue = false) (ho : tx.txOngoing = true)
    (hmore : tx.txOffset < payload.length) (h : sendCf tx c now = (tx', c')) :
    Scheduled padding payload base (k + 1) tx' c' ∧ tx'.txOngoing = true := by
  have hoffset := hs.offset
  have hm : 7 < payload.length := by
    by_contra hsf
    rw [coveredBy, if_pos (by simpa [sfPayloadMax] using hsf)] at hoffset
    omega
  rw [coveredBy_mf hm] at hoffset
  have hk : k + 1 ≤ cfCount payload :=
    (offsetOf_lt_iff payload (show 1 ≤ k + 1 by omega)).1 (by omega)
  have hpos : tx.txOffset = offsetOf (k + 1) := by omega
  have hsn := hs.sn hm
  have hchunk : tx.nextChunk = (payload.drop (offsetOf (k + 1))).take cfPayloadMax := by
    rw [nextChunk, hs.data, hpos]
  unfold sendCf at h
  refine scheduleFrame_scheduled ?_ ?_ ?_ ?_ ?_ ?_ (hs.accepted hw) ?_ h
  · exact hs.data
  · exact hs.pad
  · exact hs.nAs
  · rw [coveredBy_mf hm, advanceCf, hchunk]
    simp only [List.length_take, List.length_drop, cfPayloadMax]
    unfold offsetOf at hpos ⊢
    omega
  · intro _
    simp only [advanceCf, hsn, snOf_succ]
  · rw [segments_cf hm (by omega) hk, cfAt, hchunk, hs.pad, hsn]
  · exact ho

theorem pollReady_outcome (hs : Scheduled padding payload base k tx c)
    (hw : tx.txWaitingEnqueue = false) (ho : tx.txOngoing = true)
    (h : pollReady tx c now = (result, tx', c')) :
    Outcome padding payload base result tx' c' := by
  unfold pollReady at h
  split at h
  · split at h
    · -- N_Bs or N_Cr has run out
      obtain ⟨rfl, rfl, rfl⟩ := by simpa using h
      exact hs.outcome_failed (by decide) rfl rfl
    · obtain ⟨rfl, rfl, rfl⟩ := by simpa using h
      exact .sending k ho hs
  · split at h
    · -- a full block: the next Flow Control is awaited
      obtain ⟨rfl, rfl, rfl⟩ := by simpa using h
      exact .sending k ho (hs.congr rfl rfl)
    · split at h
      · next hall =>
        obtain ⟨rfl, rfl, rfl⟩ := by simpa using h
        rw [hs.data] at hall
        exact .done rfl rfl (hs.covered hw hall)
      · next hall =>
        rw [hs.data] at hall
        split at h
        · obtain ⟨rfl, rfl, rfl⟩ := by simpa using h
          exact .sending k ho hs
        · rcases hcf : sendCf tx c now with ⟨tx₁, c₁⟩
          rw [hcf] at h
          obtain ⟨rfl, rfl, rfl⟩ := by simpa using h
          obtain ⟨hs', ho'⟩ := sendCf_scheduled hs hw ho (by omega) hcf
          exact .sending (k + 1) ho' hs'

theorem pollPending_outcome (hs : Scheduled padding payload base k tx c) (ho : tx.txOngoing = true)
    (h : pollPending tx c now = (result, tx', c')) :
    Outcome padding payload base result tx' c' := by
  unfold pollPending at h
  cases hw : tx.txWaitingEnqueue with
  | true =>
    rw [hw] at h
    obtain ⟨rfl, rfl, rfl⟩ := by simpa using h
    exact .sending k ho hs
  | false =>
    rw [hw] at h
    simp only [Bool.false_eq_true, if_false] at h
    split at h
    · split at h
      · next c₁ hp =>
        have hsent : c₁.sent = c.sent := by rw [← Channel.txPending_sent c, hp]
        split at h
        · -- the controller still holds the frame after N_As
          obtain ⟨rfl, rfl, rfl⟩ := by simpa using h
          exact hs.outcome_failed (by decide) rfl hsent
        · obtain ⟨rfl, rfl, rfl⟩ := by simpa using h
          exact .sending k ho (hs.congr rfl hsent)
      · next c₁ hp =>
        have hsent : c₁.sent = c.sent := by rw [← Channel.txPending_sent c, hp]
        refine pollReady_outcome (hs.congr ?_ hsent) ?_ ?_ h
        · simp [position, hw]
        · rfl
        · exact ho
    · exact pollReady_outcome hs hw ho h

theorem poll_outcome (hs : Scheduled padding payload base k tx c) (ho : tx.txOngoing = true)
    (h : poll tx c now = (result, tx', c')) : Outcome padding payload base result tx' c' := by
  unfold poll at h
  rw [ho] at h
  simp only [Bool.not_true, Bool.false_eq_true, if_false] at h
  rcases hse : serviceEnqueue tx c now with ⟨r₁, tx₁, c₁⟩
  rw [hse] at h
  rcases serviceEnqueue_scheduled hs hse with ⟨rfl, hs', ho'⟩ | ⟨rfl, hidle, hsent⟩
  · exact pollPending_outcome hs' (by rw [ho', ho]) h
  · obtain ⟨rfl, rfl, rfl⟩ := by simpa using h
    exact .failed k (by decide) hidle hsent

theorem onFrame_outcome (hs : Scheduled padding payload base k tx c) (ho : tx.txOngoing = true)
    (h : onFrame tx now frame = (result, tx')) : Outcome padding payload base result tx' c := by
  unfold onFrame at h
  rw [ho] at h
  simp only [Bool.not_true, Bool.false_eq_true, if_false] at h
  split at h
  · obtain ⟨rfl, rfl⟩ := by simpa using h
    exact .sending k ho hs
  · split at h
    · obtain ⟨rfl, rfl⟩ := by simpa using h
      exact .sending k ho hs
    · split at h
      · obtain ⟨rfl, rfl⟩ := by simpa using h
        exact .sending k rfl (hs.congr rfl rfl)
      · split at h
        · -- OVERFLOW or a reserved status abandons the transfer
          obtain ⟨rfl, rfl⟩ := by simpa using h
          refine hs.outcome_failed ?_ rfl rfl
          split <;> decide
        · obtain ⟨rfl, rfl⟩ := by simpa using h
          exact .sending k rfl (hs.congr rfl rfl)

/-! ## Starting a transfer -/

/-- The parameters that only `init` sets. -/
def config (tx : IsotpTx) : UInt16 × UInt16 × UInt16 × UInt8 :=
  (tx.nAsMs, tx.nBsMs, tx.nCrMs, tx.padding)

theorem serviceEnqueue_config (tx : IsotpTx) (c : Channel) (now : UInt32) :
    (serviceEnqueue tx c now).2.1.config = tx.config := by
  unfold serviceEnqueue
  split
  · rfl
  · split
    · rfl
    · split <;> rfl

theorem scheduleFrame_config (tx : IsotpTx) (c : Channel) (now : UInt32) (frame : Frame) :
    (scheduleFrame tx c now frame).1.config = tx.config :=
  serviceEnqueue_config _ c now

theorem pollReady_config (tx : IsotpTx) (c : Channel) (now : UInt32) :
    (pollReady tx c now).2.1.config = tx.config := by
  unfold pollReady
  split
  · split <;> rfl
  · split
    · rfl
    · split
      · rfl
      · split
        · rfl
        · exact scheduleFrame_config _ c now _

theorem pollPending_config (tx : IsotpTx) (c : Channel) (now : UInt32) :
    (pollPending tx c now).2.1.config = tx.config := by
  unfold pollPending
  split
  · rfl
  · split
    · split
      · split <;> rfl
      · exact pollReady_config _ _ now
    · exact pollReady_config tx c now

theorem poll_config (tx : IsotpTx) (c : Channel) (now : UInt32) :
    (poll tx c now).2.1.config = tx.config := by
  unfold poll
  split
  · rfl
  · have hse := serviceEnqueue_config tx c now
    split
    · next heq =>
      rw [heq] at hse
      exact hse
    · next heq =>
      rw [heq] at hse
      rw [pollPending_config]
      exact hse

theorem start_config (tx : IsotpTx) (c : Channel) (now : UInt32) (data : List UInt8) :
    (start tx c now data).2.1.config = tx.config := by
  unfold start
  split
  · rfl
  · split
    · rfl
    · split
      · rfl
      · split
        · simp only
          split <;> exact scheduleFrame_config _ c now _
        · exact scheduleFrame_config _ c now _

theorem onFrame_config (tx : IsotpTx) (now : UInt32) (frame : Frame) :
    (onFrame tx now frame).2.config = tx.config := by
  unfold onFrame
  split
  · rfl
  · split
    · rfl
    · split
      · rfl
      · split
        · rfl
        · split <;> rfl

theorem callStep_config (s : IsotpTx × Channel) (e : Call) :
    (callStep s e).1.config = s.1.config := by
  cases e with
  | start now data => exact start_config s.1 s.2 now data
  | poll now => exact poll_config s.1 s.2 now
  | onFrame now frame => exact onFrame_config s.1 now frame
  | reset => rfl

/-- A poll of an idle sender has nothing to do. -/
theorem poll_of_idle (ho : tx.txOngoing = false) (c : Channel) (now : UInt32) :
    poll tx c now = (.ok, tx, c) := by
  rw [poll, if_pos (by simp [ho])]

/-- An idle sender refuses every frame. -/
theorem onFrame_of_idle (ho : tx.txOngoing = false) (now : UInt32) (frame : Frame) :
    onFrame tx now frame = (.errState, tx) := by
  rw [onFrame, if_pos (by simp [ho])]

/-- A start that is refused changes nothing. -/
theorem start_refused (h : (start tx c now payload).1 ≠ .ok) :
    (start tx c now payload).2 = (tx, c) := by
  unfold start at h ⊢
  split
  · rfl
  · split
    · rfl
    · split
      · rfl
      · next h1 h2 h3 =>
        rw [if_neg h1, if_neg h2, if_neg h3] at h
        refine absurd ?_ h
        split
        · simp only
          split <;> rfl
        · rfl

/-- An idle sender accepts any payload of a message's length. -/
theorem start_ok (hidle : tx.txOngoing = false) (h1 : 0 < payload.length)
    (h2 : payload.length ≤ maxTotalLength) : (start tx c now payload).1 = .ok := by
  unfold start
  rw [if_neg (by omega), hidle, if_neg Bool.false_ne_true, if_neg (by omega)]
  split
  · dsimp only
    split <;> rfl
  · rfl

theorem sendSf_scheduled (hlen : payload.length ≤ 7) (hpad : tx.padding = padding)
    (hnAs : tx.nAsMs ≠ 0) (h : sendSf (begin tx payload) c now payload = (tx', c')) :
    Scheduled padding payload c.sent 0 tx' c' ∧ tx'.txOngoing = true := by
  unfold sendSf at h
  refine scheduleFrame_scheduled rfl ?_ ?_ ?_ ?_ ?_ ?_ rfl h
  · exact hpad
  · exact hnAs
  · simp [coveredBy, sfPayloadMax, hlen]
  · exact fun hm => absurd hm (by omega)
  · rw [segments_sf hlen, ← hpad]
    rfl
  · simp

theorem sendFf_scheduled (hlen : 7 < payload.length) (hpad : tx.padding = padding)
    (hnAs : tx.nAsMs ≠ 0) (h : sendFf (begin tx payload) c now = (tx', c')) :
    Scheduled padding payload c.sent 0 tx' c' ∧ tx'.txOngoing = true := by
  unfold sendFf at h
  refine scheduleFrame_scheduled rfl ?_ ?_ ?_ ?_ ?_ ?_ rfl h
  · exact hpad
  · exact hnAs
  · simp [coveredBy_mf hlen, offsetOf, ffPayloadMax, begin]
  · exact fun _ => rfl
  · rw [segments_ff hlen, ← hpad]
    rfl
  · simp

/-- A successful start schedules the first frame. -/
theorem start_outcome (hpad : tx.padding = padding) (hnAs : tx.nAsMs ≠ 0)
    (h : start tx c now payload = (.ok, tx', c')) :
    1 ≤ payload.length ∧ payload.length ≤ 4095 ∧ Outcome padding payload c.sent .ok tx' c' := by
  unfold start at h
  split at h
  · simp at h
  · split at h
    · simp at h
    · split at h
      · simp at h
      · next h1 _ h3 =>
        refine ⟨by omega, by simpa [maxTotalLength] using h3, ?_⟩
        split at h
        · next hsf =>
          have hlen : payload.length ≤ 7 := by simpa [maxSingleFrame, sfPayloadMax] using hsf
          rcases hsend : sendSf (begin tx payload) c now payload with ⟨tx₁, c₁⟩
          rw [hsend] at h
          obtain ⟨hs, ho⟩ := sendSf_scheduled hlen hpad hnAs hsend
          simp only at h
          split at h
          · next hidle =>
            obtain ⟨rfl, rfl⟩ := by simpa using h
            have hw : tx₁.txWaitingEnqueue = false := by
              simp only [Bool.and_eq_true, Bool.not_eq_true'] at hidle
              exact hidle.2
            refine .done rfl rfl ?_
            rw [hs.accepted hw, segments_sf hlen]
            rfl
          · obtain ⟨rfl, rfl⟩ := by simpa using h
            exact .sending 0 ho hs
        · next hmf =>
          have hlen : 7 < payload.length := by simpa [maxSingleFrame, sfPayloadMax] using hmf
          rcases hsend : sendFf (begin tx payload) c now with ⟨tx₁, c₁⟩
          rw [hsend] at h
          obtain ⟨rfl, rfl⟩ := by simpa using h
          obtain ⟨hs, ho⟩ := sendFf_scheduled hlen hpad hnAs hsend
          exact .sending 0 ho hs

/-! ## Whole transfers -/

/-- A transfer of `payload`: still going on, or ended with `Ended` true of the frames accepted. -/
def InTransfer (padding : UInt8) (payload : List UInt8) (base : List Frame)
    (Ended : List Frame → Prop) (s : IsotpTx × Channel) : Prop :=
  (s.1.txOngoing = true ∧ ∃ k, Scheduled padding payload base k s.1 s.2) ∨
    (s.1.txOngoing = false ∧ Ended s.2.sent)

/-- The call does not begin another transfer. -/
def Continues (s : IsotpTx × Channel) (e : Call) : Prop :=
  ∀ now data, e = .start now data → (call s e).1 ≠ .ok

/-- The call does not abort the transfer: it is no reset, and if it ends the transfer it reports `ok`. -/
def Clean (s : IsotpTx × Channel) (e : Call) : Prop :=
  e ≠ .reset ∧ (s.1.txOngoing = true → (callStep s e).1.txOngoing = false → (call s e).1 = .ok)

instance (s : IsotpTx × Channel) (e : Call) : Decidable (Continues s e) :=
  match e with
  | .start now data =>
    decidable_of_iff ((call s (.start now data)).1 ≠ .ok)
      ⟨fun h _ _ _ => h, fun h => h now data rfl⟩
  | .poll _ | .onFrame _ _ | .reset => isTrue (fun _ _ h => nomatch h)

instance (s : IsotpTx × Channel) (e : Call) : Decidable (Clean s e) :=
  inferInstanceAs (Decidable (_ ∧ _))

theorem Outcome.inTransfer {Ended : List Frame → Prop}
    (h : Outcome padding payload base result tx c)
    (hdone : Ended (base ++ segments padding payload))
    (hfailed : ∀ k, result ≠ .ok → tx.txOngoing = false →
      Ended (base ++ (segments padding payload).take k)) :
    InTransfer padding payload base Ended (tx, c) := by
  cases h with
  | sending k ongoing scheduled => exact Or.inl ⟨ongoing, k, scheduled⟩
  | done ok idle sent => exact Or.inr ⟨idle, by rw [sent]; exact hdone⟩
  | failed k err idle sent => exact Or.inr ⟨idle, by rw [sent]; exact hfailed k err idle⟩

/-- One call of a transfer. What is required of `Ended` is what the call may turn it into: the whole
list, or, when the call aborts the transfer, any part of it. -/
theorem InTransfer.step {Ended : List Frame → Prop} {s : IsotpTx × Channel} {e : Call}
    (hs : InTransfer padding payload base Ended s) (hc : Continues s e)
    (hdone : Ended (base ++ segments padding payload))
    (hfailed : ∀ k, ¬Clean s e → Ended (base ++ (segments padding payload).take k)) :
    InTransfer padding payload base Ended (callStep s e) := by
  rcases hs with ⟨ho, k, hsch⟩ | ⟨hidle, hend⟩
  · have herr : (call s e).1 ≠ .ok → (callStep s e).1.txOngoing = false →
        ∀ j, Ended (base ++ (segments padding payload).take j) :=
      fun hr hi j => hfailed j (fun hcl => hr (hcl.2 ho hi))
    cases e with
    | start now data =>
      have href := start_refused (hc now data rfl)
      have hstep : callStep s (.start now data) = s := href
      rw [hstep]
      exact Or.inl ⟨ho, k, hsch⟩
    | poll now =>
      exact (poll_outcome hsch ho (show poll s.1 s.2 now = _ from rfl)).inTransfer hdone
        fun j hr hi => herr hr hi j
    | onFrame now frame =>
      exact (onFrame_outcome hsch ho (show onFrame s.1 now frame = _ from rfl)).inTransfer hdone
        fun j hr hi => herr hr hi j
    | reset =>
      obtain ⟨j, hj⟩ := hsch.accepted_take
      refine Or.inr ⟨rfl, ?_⟩
      have hcl : ¬Clean s .reset := fun hcl => hcl.1 rfl
      show Ended s.2.sent
      rw [hj]
      exact hfailed j hcl
  · -- an idle sender only answers a start that is accepted
    have hstep : (callStep s e).1.txOngoing = false ∧ (callStep s e).2 = s.2 := by
      cases e with
      | start now data =>
        have href := start_refused (hc now data rfl)
        have hstep : callStep s (.start now data) = s := href
        rw [hstep]
        exact ⟨hidle, rfl⟩
      | poll now =>
        have hpoll : callStep s (.poll now) = s := congrArg Prod.snd (poll_of_idle hidle s.2 now)
        rw [hpoll]
        exact ⟨hidle, rfl⟩
      | onFrame now frame =>
        have hframe : (callStep s (.onFrame now frame)).1 = s.1 :=
          congrArg Prod.snd (onFrame_of_idle hidle now frame)
        rw [hframe]
        exact ⟨hidle, rfl⟩
      | reset => exact ⟨rfl, rfl⟩
    exact Or.inr ⟨hstep.1, by rw [hstep.2]; exact hend⟩

/-- The run of a transfer, from the state its start leaves. -/
theorem inTransfer_after {s : IsotpTx × Channel} {es : List Call}
    (hs : Outcome padding payload base .ok s.1 s.2) (hc : AllSteps callStep s Continues es) :
    InTransfer padding payload base (fun sent => ∃ j, sent = base ++ (segments padding payload).take j)
      (after callStep s es) := by
  refine after_invariant_of (C := Continues) ?_ ?_ es hc
  · exact hs.inTransfer (exists_take_segments base) fun k h _ => absurd rfl h
  · exact fun t e ht hte => ht.step hte (exists_take_segments base) fun k _ => ⟨k, rfl⟩

/-- The run of a transfer that nothing aborts. -/
theorem inTransfer_after_clean {s : IsotpTx × Channel} {es : List Call}
    (hs : Outcome padding payload base .ok s.1 s.2) (hc : AllSteps callStep s Continues es)
    (hcl : AllSteps callStep s Clean es) :
    InTransfer padding payload base (fun sent => sent = base ++ segments padding payload)
      (after callStep s es) := by
  refine after_invariant_of (C := fun t e => Continues t e ∧ Clean t e) ?_ ?_ es
    fun a e b hes => ⟨hc a e b hes, hcl a e b hes⟩
  · exact hs.inTransfer rfl fun k h _ => absurd rfl h
  · exact fun t e ht hte => ht.step hte.1 rfl fun k hncl => absurd hte.2 hncl

/-- A part of a transfer's frames is a prefix of them. -/
theorem InTransfer.sent_prefix {s : IsotpTx × Channel}
    (hs : InTransfer padding payload base
      (fun sent => ∃ j, sent = base ++ (segments padding payload).take j) s) :
    ∃ sent, s.2.sent = base ++ sent ∧ sent <+: segments padding payload := by
  have htake : ∃ j, s.2.sent = base ++ (segments padding payload).take j := by
    rcases hs with ⟨-, k, hsch⟩ | ⟨-, hend⟩
    · exact hsch.accepted_take
    · exact hend
  obtain ⟨j, hj⟩ := htake
  exact ⟨_, hj, List.take_prefix j _⟩

theorem after_configured (config : IsotpConfig) (c : Channel) (history : List Call) :
    (after callStep (init config, c) history).1.nAsMs ≠ 0 ∧
      (after callStep (init config, c) history).1.padding = paddingOf config := by
  have hconf : (after callStep (init config, c) history).1.config = (init config).config :=
    after_invariant (I := fun s => s.1.config = (init config).config) rfl
      (fun t e ht => (callStep_config t e).trans ht) history
  generalize after callStep (init config, c) history = s at hconf
  simp only [IsotpTx.config, init, Prod.mk.injEq] at hconf
  refine ⟨?_, hconf.2.2.2⟩
  rw [hconf.1]
  exact orDefault_ne_zero (by decide)

/-- **The sender refines the reference segmentation.** After any history of calls, let a start of
`payload` be accepted, and let any calls follow that start no further transfer. The frames the driver
has accepted since are a prefix of what `pack_message` lists, and all of it once the sender is idle again
with no reset and no poll or received frame having ended the transfer with an error. -/
theorem sent_refines_packMessage (config : IsotpConfig) (hpad : config.padding ≠ 0) (c : Channel)
    (history : List Call) (now : UInt32) (payload : List UInt8) (es : List Call)
    (hstart : (call (after callStep (init config, c) history) (.start now payload)).1 = .ok)
    (hes : AllSteps callStep (after callStep (init config, c) (history ++ [.start now payload]))
      Continues es) :
    ∃ frames sent,
      Py.packMessage payload config.padding = .ok frames ∧
      (after callStep (init config, c) (history ++ .start now payload :: es)).2.sent =
        (after callStep (init config, c) history).2.sent ++ sent ∧
      sent.map Vector.toList <+: frames ∧
      ((after callStep (init config, c) (history ++ .start now payload :: es)).1.txOngoing = false →
        AllSteps callStep (after callStep (init config, c) (history ++ [.start now payload])) Clean es →
        sent.map Vector.toList = frames) := by
  obtain ⟨hnAs, hpadding⟩ := after_configured config c history
  rw [paddingOf_eq hpad] at hpadding
  rw [after_snoc] at hes
  have happ : after callStep (init config, c) (history ++ .start now payload :: es) =
      after callStep (callStep (after callStep (init config, c) history) (.start now payload)) es := by
    rw [after_append, after_cons]
  rw [happ, after_snoc]
  generalize after callStep (init config, c) history = s₀ at *
  rcases hst : call s₀ (.start now payload) with ⟨r, s₁⟩
  have hr : r = .ok := by rw [hst] at hstart; exact hstart
  subst hr
  have hs₁ : callStep s₀ (.start now payload) = s₁ := by rw [callStep, hst]
  rw [hs₁] at hes ⊢
  have hst' : start s₀.1 s₀.2 now payload = (.ok, s₁.1, s₁.2) := hst
  obtain ⟨h1, h2, hout⟩ := start_outcome hpadding hnAs hst'
  have hrun := inTransfer_after hout hes
  obtain ⟨sent, hsent, hprefix⟩ := hrun.sent_prefix
  refine ⟨_, sent, packMessage_eq h1 h2, hsent, hprefix.map _, ?_⟩
  intro hidle hclean
  rcases inTransfer_after_clean hout hes hclean with ⟨ho, -⟩ | ⟨-, hend⟩
  · rw [hidle] at ho
    cases ho
  · rw [hsent] at hend
    rw [List.append_cancel_left hend]

/-- A driver that refuses the second frame once. -/
def refusesSecond : Channel where
  sendAnswers := fun n => n ≠ 1
  pendingAnswers := fun _ => false
  sent := []

/-- The calls of a transfer of eight bytes through `refusesSecond`. -/
def retriedCalls : List Call :=
  [.onFrame 5 (Frame.fill 0xCC [0x30, 0, 0]), .poll 10, .poll 20, .poll 30]

theorem sent_refines_packMessage_retried :
    Py.packMessage [1, 2, 3, 4, 5, 6, 7, 8] 0xCC = .ok
      ((after callStep (init (IsotpConfig.init none), refusesSecond)
        ([] ++ .start 0 [1, 2, 3, 4, 5, 6, 7, 8] :: retriedCalls)).2.sent.map Vector.toList) := by
  obtain ⟨frames, sent, hframes, hsent, -, hall⟩ :=
    sent_refines_packMessage (IsotpConfig.init none) (by decide) refusesSecond [] 0
      [1, 2, 3, 4, 5, 6, 7, 8] retriedCalls (by decide) (by decide)
  have hpacked : Py.packMessage [1, 2, 3, 4, 5, 6, 7, 8] 0xCC = .ok frames := hframes
  rw [hpacked, hsent, ← hall (by decide) (by decide)]
  rfl

end IsotpTx

end DualCan.Isotp
