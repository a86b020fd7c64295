import DualCan.Isotp.RxRefine
import DualCan.Isotp.TxRefine
import DualCan.Run.Timed

/-!
# ISO-TP: what a call on the sender can do

For each operation of `IsotpTx_t` a relation that lists its outcomes: the result, the frames the channel
accepted and the state left. A poll has two parts. The first settles the frame last handed to the driver
(`Stopped`, or `settled` when the frame is accepted and no longer pending), the second takes the transfer one
step further (`Advanced`). A run in real time is a list of operations with the time between them.
-/

namespace DualCan.Isotp

open DualCan.Clock DualCan.Run

namespace IsotpTx

variable {tx tx' : IsotpTx} {c c' : Channel} {now : UInt32} {result : IsotpResult} {frame : Frame}

/-! ## Handing a frame to the driver -/

/-- The sender after it handed over `frame`: `none` when the driver refused it, else whether it is pending. -/
def handed (tx : IsotpTx) (now : UInt32) (frame : Frame) : Option Bool → IsotpTx
  | none => { tx with
      txPendingFrame := frame
      txWaitingEnqueue := true
      txEnqueueDeadlineMs := now + tx.nAsMs.toUInt32 }
  | some pending => { tx with
      txPendingFrame := frame
      txWaitingEnqueue := false
      txEnqueueDeadlineMs := now + tx.nAsMs.toUInt32
      txFramePending := pending
      txAsDeadlineMs := now + tx.nAsMs.toUInt32 }

/-- The frames accepted when `frame` is handed over. -/
def taken (frame : Frame) : Option Bool → List Frame
  | none => []
  | some _ => [frame]

section handed

variable (tx now frame) (answer : Option Bool)

@[simp] theorem handed_txData : (handed tx now frame answer).txData = tx.txData := by cases answer <;> rfl
@[simp] theorem handed_txOffset : (handed tx now frame answer).txOffset = tx.txOffset := by
  cases answer <;> rfl
@[simp] theorem handed_txOngoing : (handed tx now frame answer).txOngoing = tx.txOngoing := by
  cases answer <;> rfl
@[simp] theorem handed_txHasSentCf : (handed tx now frame answer).txHasSentCf = tx.txHasSentCf := by
  cases answer <;> rfl
@[simp] theorem handed_txWaitingFc : (handed tx now frame answer).txWaitingFc = tx.txWaitingFc := by
  cases answer <;> rfl
@[simp] theorem handed_txWaitingAfterBlock :
    (handed tx now frame answer).txWaitingAfterBlock = tx.txWaitingAfterBlock := by cases answer <;> rfl
@[simp] theorem handed_txSentInBlock : (handed tx now frame answer).txSentInBlock = tx.txSentInBlock := by
  cases answer <;> rfl
@[simp] theorem handed_blockSize : (handed tx now frame answer).blockSize = tx.blockSize := by
  cases answer <;> rfl
@[simp] theorem handed_stminMs : (handed tx now frame answer).stminMs = tx.stminMs := by
  cases answer <;> rfl
@[simp] theorem handed_txLastCfMs : (handed tx now frame answer).txLastCfMs = tx.txLastCfMs := by
  cases answer <;> rfl
@[simp] theorem handed_txDeadlineMs : (handed tx now frame answer).txDeadlineMs = tx.txDeadlineMs := by
  cases answer <;> rfl
@[simp] theorem handed_txPendingFrame : (handed tx now frame answer).txPendingFrame = frame := by
  cases answer <;> rfl
@[simp] theorem handed_txWaitingEnqueue :
    (handed tx now frame answer).txWaitingEnqueue = answer.isNone := by cases answer <;> rfl

end handed

theorem scheduleFrame_spec (tx : IsotpTx) (hnAs : tx.nAsMs ≠ 0) (c : Channel) (now : UInt32) (frame : Frame) :
    ∃ answer, (scheduleFrame tx c now frame).1 = handed tx now frame answer ∧
      (scheduleFrame tx c now frame).2.sent = c.sent ++ taken frame answer := by
  rcases hs : scheduleFrame tx c now frame with ⟨tx', c'⟩
  rcases scheduleFrame_cases hnAs hs with ⟨hsent, pending, htx⟩ | ⟨hsent, htx⟩
  · exact ⟨some pending, htx, hsent⟩
  · refine ⟨none, htx, ?_⟩
    rw [hsent]
    exact (List.append_nil c.sent).symm

/-! ## Starting -/

/-- The sender of a message of several frames as it schedules its First Frame. -/
def beginFf (tx : IsotpTx) (now : UInt32) (data : List UInt8) : IsotpTx :=
  { begin tx data with
    txOffset := (data.take ffPayloadMax).length
    txFfSent := true
    txWaitingFc := true
    txWaitingAfterBlock := false
    txDeadlineMs := now + tx.nBsMs.toUInt32 }

/-- What `IsotpTx_Start` can do. -/
inductive Started (tx : IsotpTx) (now : UInt32) (data : List UInt8) :
    IsotpResult → List Frame → IsotpTx → Prop
  | refused {result : IsotpResult} (hr : result ≠ .ok) : Started tx now data result [] tx
  | single (answer : Option Bool) (hidle : tx.txOngoing = false) (hlen : data.length ≤ 7) :
      Started tx now data .ok (taken (sfFrame tx.padding data) answer)
        { handed { begin tx data with txOffset := data.length } now (sfFrame tx.padding data) answer with
          txOngoing := decide (answer ≠ some false) }
  | multi (answer : Option Bool) (hidle : tx.txOngoing = false) (hlen : 7 < data.length) :
      Started tx now data .ok
        (taken (ffFrame tx.padding data.length (data.take ffPayloadMax)) answer)
        (handed (beginFf tx now data) now
          (ffFrame tx.padding data.length (data.take ffPayloadMax)) answer)

theorem start_spec (hnAs : tx.nAsMs ≠ 0) (c : Channel) (now : UInt32) (data : List UInt8) :
    ∃ accepted, (start tx c now data).2.2.sent = c.sent ++ accepted ∧
      Started tx now data (start tx c now data).1 accepted (start tx c now data).2.1 := by
  by_cases hr : (start tx c now data).1 = .ok
  · unfold start at hr ⊢
    split
    · next h => simp [h] at hr
    · next h1 =>
      split
      · next h => simp [h1, h] at hr
      · next h2 =>
        have hidle : tx.txOngoing = false := by simpa using h2
        split
        · next h => simp [h1, h2, h] at hr
        · split
          · next hlen =>
            obtain ⟨answer, htx, hsent⟩ := scheduleFrame_spec
              { begin tx data with txOffset := data.length } hnAs c now (sfFrame tx.padding data)
            refine ⟨taken (sfFrame tx.padding data) answer, ?_, ?_⟩
            · dsimp only
              split <;> exact hsent
            · have hlen : data.length ≤ 7 := hlen
              have key := @Started.single tx now data answer hidle hlen
              have hsf : (sendSf (begin tx data) c now data).1 =
                  handed { begin tx data with txOffset := data.length } now (sfFrame tx.padding data)
                    answer := htx
              dsimp only
              rw [hsf]
              cases answer with
              | none => exact key
              | some pending => cases pending <;> exact key
          · next hlen =>
            have hlen : 7 < data.length := by
              have h : ¬data.length ≤ 7 := hlen
              omega
            obtain ⟨answer, htx, hsent⟩ := scheduleFrame_spec (beginFf tx now data) hnAs c now
              (ffFrame tx.padding data.length (data.take ffPayloadMax))
            refine ⟨taken (ffFrame tx.padding data.length (data.take ffPayloadMax)) answer, hsent, ?_⟩
            have hff : (sendFf (begin tx data) c now).1 = handed (beginFf tx now data) now
                (ffFrame tx.padding data.length (data.take ffPayloadMax)) answer := htx
            dsimp only
            rw [hff]
            exact .multi answer hidle hlen
  · have href := start_refused hr
    refine ⟨[], ?_, ?_⟩
    · rw [href, List.append_nil]
    · rw [href]
      exact .refused hr

/-! ## Polling -/

/-- This poll finds the frame last handed over accepted and no longer pending. -/
def clears (tx : IsotpTx) (c : Channel) : Bool :=
  if tx.txWaitingEnqueue then c.sendAnswers 0 && !(c.pendingAnswers 0 && c.pendingAnswers 1)
  else !(tx.txFramePending && c.pendingAnswers 0)

/-- The polls that stop at the frame last handed over. -/
inductive Stopped (tx : IsotpTx) (c : Channel) (now : UInt32) :
    IsotpResult → List Frame → IsotpTx → Prop
  | refused (hw : tx.txWaitingEnqueue = true) (hsend : c.sendAnswers 0 = false)
      (hr : reached now tx.txEnqueueDeadlineMs = false) : Stopped tx c now .ok [] tx
  | expired (hw : tx.txWaitingEnqueue = true) (hsend : c.sendAnswers 0 = false)
      (hr : reached now tx.txEnqueueDeadlineMs = true) :
      Stopped tx c now .errTimeout [] { tx with txWaitingEnqueue := false, txOngoing := false }
  | accepted (hw : tx.txWaitingEnqueue = true) (hsend : c.sendAnswers 0 = true) :
      Stopped tx c now .ok [tx.txPendingFrame] { tx with
        txWaitingEnqueue := false
        txFramePending := true
        txAsDeadlineMs := now + tx.nAsMs.toUInt32 }
  | held (hw : tx.txWaitingEnqueue = false) (hp : tx.txFramePending = true)
      (hr : reached now tx.txAsDeadlineMs = false) : Stopped tx c now .ok [] tx
  | unconfirmed (hw : tx.txWaitingEnqueue = false) (hp : tx.txFramePending = true)
      (hr : reached now tx.txAsDeadlineMs = true) :
      Stopped tx c now .errTimeout [] { tx with txOngoing := false, txFramePending := false }

/-- The sender of a poll that goes on, after its first part: no frame waits and none is pending. -/
def settled (tx : IsotpTx) (asDeadlineMs : UInt32) : IsotpTx :=
  { tx with
    txWaitingEnqueue := false
    txFramePending := false
    txAsDeadlineMs := asDeadlineMs }

/-- The frame that such a poll finds waiting is accepted by it. -/
def settles (tx : IsotpTx) : List Frame :=
  if tx.txWaitingEnqueue then [tx.txPendingFrame] else []

/-- The separation time since the last Consecutive Frame was scheduled is over, or there is none to keep. -/
def apart (tx : IsotpTx) (now : UInt32) : Bool :=
  !(tx.txHasSentCf && 0 < tx.stminMs && now - tx.txLastCfMs < tx.stminMs.toUInt32)

/-- The second part of a poll. -/
inductive Advanced (tx : IsotpTx) (now : UInt32) : IsotpResult → List Frame → IsotpTx → Prop
  | listening (hfc : tx.txWaitingFc = true) (hr : reached now tx.txDeadlineMs = false) :
      Advanced tx now .ok [] tx
  | unanswered (hfc : tx.txWaitingFc = true) (hr : reached now tx.txDeadlineMs = true) :
      Advanced tx now .errTimeout [] { tx with txOngoing := false }
  | full (hfc : tx.txWaitingFc = false) (hfull : tx.afterBlock = true) :
      Advanced tx now .ok [] { tx with
        txWaitingFc := true
        txWaitingAfterBlock := true
        txDeadlineMs := now + tx.nCrMs.toUInt32 }
  | finished (hfc : tx.txWaitingFc = false) (hall : tx.txData.length ≤ tx.txOffset) :
      Advanced tx now .ok [] { tx with txOngoing := false }
  | separated (hfc : tx.txWaitingFc = false) (hmore : tx.txOffset < tx.txData.length)
      (hst : tx.apart now = false) : Advanced tx now .ok [] tx
  | consecutive (answer : Option Bool) (hfc : tx.txWaitingFc = false) (hfull : tx.afterBlock = false)
      (hmore : tx.txOffset < tx.txData.length) (hst : tx.apart now = true) :
      Advanced tx now .ok (taken (cfFrame tx.padding tx.txSn tx.nextChunk) answer)
        (handed (tx.advanceCf now) now (cfFrame tx.padding tx.txSn tx.nextChunk) answer)

theorem pollReady_spec (tx : IsotpTx) (hnAs : tx.nAsMs ≠ 0) (c : Channel) (now : UInt32) :
    ∃ accepted, (pollReady tx c now).2.2.sent = c.sent ++ accepted ∧
      Advanced tx now (pollReady tx c now).1 accepted (pollReady tx c now).2.1 := by
  have hnil : c.sent = c.sent ++ [] := (List.append_nil c.sent).symm
  unfold pollReady
  split
  · next hfc =>
    split
    · next hr => exact ⟨[], hnil, .unanswered hfc hr⟩
    · next hr => exact ⟨[], hnil, .listening hfc (by simpa using hr)⟩
  · next hfc =>
    have hfc : tx.txWaitingFc = false := by simpa using hfc
    split
    · next hfull => exact ⟨[], hnil, .full hfc hfull⟩
    · next hfull =>
      split
      · next hall => exact ⟨[], hnil, .finished hfc hall⟩
      · next hall =>
        split
        · next hst =>
          refine ⟨[], hnil, .separated hfc (by omega) ?_⟩
          rw [apart, hst]
          rfl
        · next hst =>
          obtain ⟨answer, htx, hsent⟩ := scheduleFrame_spec (tx.advanceCf now) hnAs c now
            (cfFrame tx.padding tx.txSn tx.nextChunk)
          refine ⟨_, hsent, ?_⟩
          have hcf : (sendCf tx c now).1 =
              handed (tx.advanceCf now) now (cfFrame tx.padding tx.txSn tx.nextChunk) answer := htx
          rw [hcf]
          refine .consecutive answer hfc (by simpa using hfull) (by omega) ?_
          rw [apart, Bool.not_eq_true']
          exact Bool.eq_false_iff.2 hst

/-- The rest of a poll, when no frame waits for a mailbox. -/
theorem pollPending_spec (tx : IsotpTx) (hnAs : tx.nAsMs ≠ 0) (hw : tx.txWaitingEnqueue = false) (c : Channel)
    (now : UInt32) :
    ((tx.txFramePending && c.pendingAnswers 0) = true ∧ (pollPending tx c now).2.2.sent = c.sent ∧
      Stopped tx c now (pollPending tx c now).1 [] (pollPending tx c now).2.1) ∨
    ((tx.txFramePending && c.pendingAnswers 0) = false ∧ ∃ accepted,
      (pollPending tx c now).2.2.sent = c.sent ++ accepted ∧
        Advanced { tx with txFramePending := false } now (pollPending tx c now).1 accepted
          (pollPending tx c now).2.1) := by
  unfold pollPending
  rw [if_neg (by simp [hw])]
  split
  · next hp =>
    split
    · next c₁ ha =>
      have hc : c₁.sent = c.sent := by rw [← Channel.txPending_sent c, ha]
      have hpending : c.pendingAnswers 0 = true := congrArg Prod.fst ha
      refine Or.inl ⟨by rw [hp, hpending]; rfl, ?_⟩
      split
      · next hr => exact ⟨hc, .unconfirmed hw hp hr⟩
      · next hr => exact ⟨hc, .held hw hp (by simpa using hr)⟩
    · next c₁ ha =>
      have hc : c₁.sent = c.sent := by rw [← Channel.txPending_sent c, ha]
      have hpending : c.pendingAnswers 0 = false := congrArg Prod.fst ha
      refine Or.inr ⟨by rw [hpending, Bool.and_false], ?_⟩
      obtain ⟨accepted, hsent, hadv⟩ :=
        pollReady_spec { tx with txFramePending := false } hnAs c₁ now
      exact ⟨accepted, by rw [hsent, hc], hadv⟩
  · next hp =>
    have hp : tx.txFramePending = false := by simpa using hp
    have heta : { tx with txFramePending := false } = tx := by rw [← hp]
    rw [heta]
    exact Or.inr ⟨by rw [hp, Bool.false_and], pollReady_spec tx hnAs c now⟩

/-- A frame accepted by this poll and still pending: its completion budget has just begun. -/
theorem Stopped.of_accepted (hnAs : tx.nAsMs ≠ 0) (hw : tx.txWaitingEnqueue = true)
    (hsend : c.sendAnswers 0 = true) (h : Stopped { tx with
      txWaitingEnqueue := false
      txFramePending := true
      txAsDeadlineMs := now + tx.nAsMs.toUInt32 } c' now result [] tx') :
    Stopped tx c now result [tx.txPendingFrame] tx' := by
  cases h with
  | refused hw' => cases hw'
  | expired hw' => cases hw'
  | held => exact .accepted hw hsend
  | unconfirmed _ _ hr =>
    rw [not_reached_add hnAs] at hr
    cases hr

/-- What `IsotpTx_Poll` of a busy sender can do. -/
theorem poll_spec (hnAs : tx.nAsMs ≠ 0) (ho : tx.txOngoing = true) (c : Channel) (now : UInt32) :
    (clears tx c = false ∧ ∃ accepted, (poll tx c now).2.2.sent = c.sent ++ accepted ∧
      Stopped tx c now (poll tx c now).1 accepted (poll tx c now).2.1) ∨
    (clears tx c = true ∧ ∃ asDeadlineMs accepted,
      (poll tx c now).2.2.sent = c.sent ++ (settles tx ++ accepted) ∧
        Advanced (settled tx asDeadlineMs) now (poll tx c now).1 accepted (poll tx c now).2.1) := by
  have hnil : c.sent = c.sent ++ [] := (List.append_nil c.sent).symm
  unfold poll serviceEnqueue
  rw [if_neg (by simp [ho])]
  by_cases hw : tx.txWaitingEnqueue = true
  · rw [if_neg (by simp [hw])]
    have hsettles : settles tx = [tx.txPendingFrame] := if_pos hw
    cases ha : c.sendAnswers 0 with
    | false =>
      have hclears : clears tx c = false := by simp [clears, hw, ha]
      refine Or.inl ⟨hclears, [], ?_⟩
      simp only [Channel.send, ha, Bool.false_eq_true, if_false]
      by_cases hr : reached now tx.txEnqueueDeadlineMs = true
      · simp only [hr, if_true]
        exact ⟨hnil, .expired hw ha hr⟩
      · simp only [hr, Bool.false_eq_true, if_false, pollPending, hw, if_true]
        exact ⟨hnil, .refused hw ha (by simpa using hr)⟩
    | true =>
      simp only [Channel.send, ha, if_true, noteFrameSent, Channel.txPending]
      -- the frame is accepted and noted; the rest of the poll starts from there
      rcases pollPending_spec { tx with
          txWaitingEnqueue := false
          txFramePending := c.pendingAnswers 0
          txAsDeadlineMs := now + tx.nAsMs.toUInt32 } hnAs rfl
          { sendAnswers := fun n => c.sendAnswers (n + 1)
            pendingAnswers := fun n => c.pendingAnswers (n + 1)
            sent := c.sent ++ [tx.txPendingFrame] } now with
        ⟨hpending, hsent, hstop⟩ | ⟨hpending, accepted, hsent, hadv⟩
      · have hpending : (c.pendingAnswers 0 && c.pendingAnswers 1) = true := hpending
        refine Or.inl ⟨by simp [clears, hw, ha, hpending], [tx.txPendingFrame], hsent, ?_⟩
        have hp : c.pendingAnswers 0 = true := (Bool.and_eq_true_iff.1 hpending).1
        rw [hp] at hstop ⊢
        exact hstop.of_accepted hnAs hw ha
      · have hpending : (c.pendingAnswers 0 && c.pendingAnswers 1) = false := hpending
        refine Or.inr ⟨by simp [clears, hw, ha, hpending], _, accepted, ?_, hadv⟩
        rw [hsent, hsettles, List.append_assoc]
  · have hw : tx.txWaitingEnqueue = false := by simpa using hw
    have hsettles : settles tx = [] := by simp [settles, hw]
    rw [if_pos (by simp [hw])]
    rcases pollPending_spec tx hnAs hw c now with ⟨hpending, hsent, hstop⟩ | ⟨hpending, accepted, hsent, hadv⟩
    · exact Or.inl ⟨by simp [clears, hw, hpending], [], by rw [List.append_nil]; exact hsent, hstop⟩
    · refine Or.inr ⟨by simp [clears, hw, hpending], tx.txAsDeadlineMs, accepted, ?_, ?_⟩
      · rw [hsent, hsettles, List.nil_append]
      · have heta : settled tx tx.txAsDeadlineMs = { tx with txFramePending := false } := by
          rw [settled, ← hw]
        rw [heta]
        exact hadv

/-! ## Received frames -/

/-- The sender listens for Flow Control. -/
def hears (tx : IsotpTx) : Bool := tx.txOngoing && (tx.txWaitingFc || tx.afterBlock)

/-- The sender takes `frame` as a Flow Control frame of the given status. -/
def takes (tx : IsotpTx) (frame : Frame) (status : UInt8) : Bool :=
  tx.hears && decide (frame.pci = pciFc) && decide (frame.low = status)

theorem takes_iff {status : UInt8} : tx.takes frame status = true ↔
    tx.hears = true ∧ frame.pci = pciFc ∧ frame.low = status := by
  simp only [takes, Bool.and_eq_true, decide_eq_true_eq, and_assoc]

theorem not_takes {status : UInt8} (h : frame.low ≠ status) : ¬tx.takes frame status = true :=
  fun htakes => h (takes_iff.1 htakes).2.2

theorem not_takes_of_refused {status : UInt8} (h : tx.hears = true → frame.pci ≠ pciFc) :
    ¬tx.takes frame status = true :=
  fun htakes => h (takes_iff.1 htakes).1 (takes_iff.1 htakes).2.1

theorem not_takes_cts (h : frame.low = fcWait) : ¬tx.takes frame fcCts = true := by
  have hne : fcWait ≠ fcCts := by decide
  exact not_takes (h ▸ hne)

theorem not_takes_wait (h : frame.low = fcCts) : ¬tx.takes frame fcWait = true := by
  have hne : fcCts ≠ fcWait := by decide
  exact not_takes (h ▸ hne)

/-- What `IsotpTx_OnFrame` can do. -/
inductive Framed (tx : IsotpTx) (now : UInt32) (frame : Frame) : IsotpResult → IsotpTx → Prop
  | refused {result : IsotpResult} (h : tx.hears = true → frame.pci ≠ pciFc) (hr : result ≠ .ok) :
      Framed tx now frame result tx
  | wait (hh : tx.hears = true) (hpci : frame.pci = pciFc) (hlow : frame.low = fcWait) :
      Framed tx now frame .ok { tx with
        txDeadlineMs := now +
          (if tx.txWaitingAfterBlock || tx.afterBlock then tx.nCrMs else tx.nBsMs).toUInt32 }
  | abandoned {result : IsotpResult} (hh : tx.hears = true) (hpci : frame.pci = pciFc)
      (hlow : frame.low ≠ fcWait ∧ frame.low ≠ fcCts) (hr : result ≠ .ok) :
      Framed tx now frame result { tx with txOngoing := false }
  | cts (hh : tx.hears = true) (hpci : frame.pci = pciFc) (hlow : frame.low = fcCts) :
      Framed tx now frame .ok { tx with
        blockSize := getElem frame 1 Frame.one_lt
        stminMs := getElem frame 2 Frame.two_lt
        txWaitingFc := false
        txWaitingAfterBlock := false
        txSentInBlock := 0
        txDeadlineMs := now + tx.nAsMs.toUInt32 }

theorem onFrame_spec (tx : IsotpTx) (now : UInt32) (frame : Frame) :
    Framed tx now frame (onFrame tx now frame).1 (onFrame tx now frame).2 := by
  unfold onFrame
  split
  · next ho =>
    refine .refused (fun hh => ?_) (by simp)
    simp only [hears, Bool.and_eq_true] at hh
    simp [hh.1] at ho
  · next ho =>
    have ho : tx.txOngoing = true := by simpa using ho
    split
    · next hl =>
      refine .refused (fun hh => ?_) (by simp)
      simp only [Bool.and_eq_true, Bool.not_eq_true'] at hl
      rw [hears, hl.1, hl.2, Bool.or_false, Bool.and_false] at hh
      cases hh
    · next hl =>
      have hh : tx.hears = true := by
        rw [hears, ho, Bool.true_and]
        cases hfc : tx.txWaitingFc with
        | true => rfl
        | false => simpa [hfc] using hl
      split
      · next hpci => exact .refused (fun _ => hpci) (by simp)
      · next hpci =>
        have hpci : frame.pci = pciFc := by simpa using hpci
        split
        · next hlow => exact .wait hh hpci hlow
        · next hwait =>
          split
          · next hcts =>
            refine .abandoned hh hpci ⟨hwait, hcts⟩ ?_
            split <;> simp
          · next hcts => exact .cts hh hpci (by simpa using hcts)

/-- No frame starts a transfer. -/
theorem Framed.ongoing (h : Framed tx now frame result tx') (ho : tx'.txOngoing = true) :
    tx.txOngoing = true := by
  cases h with
  | refused => exact ho
  | wait hh => exact (Bool.and_eq_true_iff.1 hh).1
  | abandoned => cases ho
  | cts hh => exact (Bool.and_eq_true_iff.1 hh).1

/-- A sender that does not listen ignores every frame. -/
theorem Framed.deaf (h : Framed tx now frame result tx') (hh : tx.hears = false) : tx' = tx := by
  cases h with
  | refused => rfl
  | wait hh' => rw [hh] at hh'; cases hh'
  | abandoned hh' => rw [hh] at hh'; cases hh'
  | cts hh' => rw [hh] at hh'; cases hh'

/-! ## Runs in real time -/

/-- What a caller or the bus does to a sender. -/
inductive Op where
  | start (data : List UInt8)
  | poll
  | onFrame (frame : Frame)
  | reset
  deriving DecidableEq

/-- The call made when the clock reads `now`. -/
def Op.at (now : UInt32) : Op → Call
  | .start data => .start now data
  | .poll => .poll now
  | .onFrame frame => .onFrame now frame
  | .reset => .reset

/-- One operation on a sender and its channel. -/
def operate (s : IsotpTx × Channel) (now : UInt32) (op : Op) : IsotpTx × Channel :=
  callStep s (op.at now)

/-- A sender and its channel in real time. -/
abbrev Endpoint := Timed (IsotpTx × Channel)

/-- One operation, `e.1` ms after the one before. -/
def Endpoint.step : Endpoint → ℕ × Op → Endpoint := timed operate

/-- A sender just initialised, over a channel. -/
def Endpoint.init (config : IsotpConfig) (c : Channel) (now : ℕ) : Endpoint where
  now := now
  state := (IsotpTx.init config, c)

/-- The frames an operation makes the channel accept, in order. -/
def Endpoint.accepted (s : Endpoint) (e : ℕ × Op) : List Frame :=
  (s.step e).state.2.sent.drop s.state.2.sent.length

/-- The result of an operation. -/
def Endpoint.resultOf (s : Endpoint) (e : ℕ × Op) : IsotpResult :=
  (call s.state (e.2.at (tick (s.now + e.1)))).1

/-- What an operation on a sender can do: its result, the frames accepted and the sender after it. -/
inductive Acts (tx : IsotpTx) (c : Channel) (now : UInt32) :
    Op → IsotpResult → List Frame → IsotpTx → Prop
  | start {data : List UInt8} {result : IsotpResult} {accepted : List Frame} {tx' : IsotpTx}
      (h : Started tx now data result accepted tx') : Acts tx c now (.start data) result accepted tx'
  | idle (ho : tx.txOngoing = false) : Acts tx c now .poll .ok [] tx
  | stopped {result : IsotpResult} {accepted : List Frame} {tx' : IsotpTx} (ho : tx.txOngoing = true)
      (hclears : clears tx c = false) (h : Stopped tx c now result accepted tx') :
      Acts tx c now .poll result accepted tx'
  | advanced {result : IsotpResult} {asDeadlineMs : UInt32} {accepted : List Frame} {tx' : IsotpTx}
      (ho : tx.txOngoing = true) (hclears : clears tx c = true)
      (h : Advanced (settled tx asDeadlineMs) now result accepted tx') :
      Acts tx c now .poll result (settles tx ++ accepted) tx'
  | framed {frame : Frame} {result : IsotpResult} {tx' : IsotpTx} (h : Framed tx now frame result tx') :
      Acts tx c now (.onFrame frame) result [] tx'
  | reset : Acts tx c now .reset .ok [] tx.reset

theorem Endpoint.accepted_eq {s : Endpoint} {e : ℕ × Op} {frames : List Frame}
    (h : (s.step e).state.2.sent = s.state.2.sent ++ frames) : s.accepted e = frames := by
  rw [accepted, h, List.drop_left]

theorem Endpoint.step_spec {s : Endpoint} (hnAs : s.state.1.nAsMs ≠ 0) (e : ℕ × Op) :
    Acts s.state.1 s.state.2 (tick (s.now + e.1)) e.2 (s.resultOf e) (s.accepted e)
      (s.step e).state.1 := by
  obtain ⟨gap, op⟩ := e
  have hnil : s.state.2.sent = s.state.2.sent ++ [] := (List.append_nil _).symm
  cases op with
  | start data =>
    obtain ⟨accepted, hsent, h⟩ := start_spec hnAs s.state.2 (tick (s.now + gap)) data
    rw [accepted_eq (s := s) (e := (gap, .start data)) hsent]
    exact .start h
  | poll =>
    cases ho : s.state.1.txOngoing with
    | false =>
      have hpoll : poll s.state.1 s.state.2 (tick (s.now + gap)) = (.ok, s.state) :=
        poll_of_idle ho s.state.2 _
      have hsent : (s.step (gap, .poll)).state.2.sent = s.state.2.sent ++ [] := by
        rw [← hnil]
        exact congrArg (fun r => r.2.2.sent) hpoll
      have hstate : (s.step (gap, .poll)).state.1 = s.state.1 := congrArg (fun r => r.2.1) hpoll
      have hres : s.resultOf (gap, .poll) = .ok := congrArg Prod.fst hpoll
      rw [accepted_eq hsent, hstate, hres]
      exact .idle ho
    | true =>
      rcases poll_spec hnAs ho s.state.2 (tick (s.now + gap)) with
        ⟨hclears, accepted, hsent, h⟩ | ⟨hclears, asDeadlineMs, accepted, hsent, h⟩
      · rw [accepted_eq (s := s) (e := (gap, .poll)) hsent]
        exact .stopped ho hclears h
      · rw [accepted_eq (s := s) (e := (gap, .poll)) hsent]
        exact .advanced ho hclears h
  | onFrame frame =>
    rw [accepted_eq (s := s) (e := (gap, .onFrame frame)) hnil]
    exact .framed (onFrame_spec s.state.1 (tick (s.now + gap)) frame)
  | reset =>
    rw [accepted_eq (s := s) (e := (gap, .reset)) hnil]
    exact .reset

theorem Endpoint.step_frame {s : Endpoint} {e : ℕ × Op} {frame : Frame} (hop : e.2 = .onFrame frame) :
    Framed s.state.1 (tick (s.now + e.1)) frame (s.resultOf e) (s.step e).state.1 := by
  obtain ⟨gap, op⟩ := e
  cases hop
  exact onFrame_spec s.state.1 (tick (s.now + gap)) frame

/-! ## Consecutive Frames among the frames accepted -/

theorem cfFrame_snOf (padding sn : UInt8) (chunk : List UInt8) :
    cfFrame padding (snOf sn.toNat) chunk = cfFrame padding sn chunk := by
  have hmask : snOf sn.toNat &&& seqMask = sn &&& seqMask := by
    apply UInt8.toNat_inj.1
    simp only [snOf, seqMask, UInt8.toNat_and, UInt8.toNat_ofNat', UInt8.reduceToNat]
    rw [show (15 : ℕ) = 2 ^ 4 - 1 from rfl, Nat.and_two_pow_sub_one_eq_mod,
      Nat.and_two_pow_sub_one_eq_mod]
    omega
  rw [cfFrame, cfFrame, hmask]

theorem cfFrame_pci' (padding sn : UInt8) (chunk : List UInt8) :
    (cfFrame padding sn chunk).pci = pciCf := by
  rw [← cfFrame_snOf]
  exact cfFrame_pci

/-- The number of Consecutive Frames an operation makes the channel accept. -/
def Endpoint.consecutives (s : Endpoint) (e : ℕ × Op) : ℕ :=
  (s.accepted e).countP fun frame => frame.pci = pciCf

/-- What every reachable sender satisfies: its N_As is not zero, and the frame that waits for a mailbox is a
Consecutive Frame exactly when one has been sent. -/
structure Regular (tx : IsotpTx) : Prop where
  nAs : tx.nAsMs ≠ 0
  kind : tx.txWaitingEnqueue = true → (tx.txPendingFrame.pci = pciCf ↔ tx.txHasSentCf = true)

theorem Regular.init (config : IsotpConfig) : Regular (IsotpTx.init config) where
  nAs := orDefault_ne_zero (by decide)
  kind := fun hw => by cases hw

theorem taken_consecutive (padding sn : UInt8) (chunk : List UInt8) (answer : Option Bool) :
    (taken (cfFrame padding sn chunk) answer).countP (fun frame => frame.pci = pciCf) =
      answer.isSome.toNat := by
  cases answer with
  | none => rfl
  | some pending => simp [taken, cfFrame_pci']

theorem Regular.settles_consecutive (h : Regular tx) :
    (settles tx).countP (fun frame => frame.pci = pciCf) =
      (tx.txWaitingEnqueue && tx.txHasSentCf).toNat := by
  unfold settles
  cases hw : tx.txWaitingEnqueue with
  | false => rfl
  | true =>
    have hkind := h.kind hw
    cases hcf : tx.txHasSentCf with
    | true => simp [hkind.2 hcf]
    | false =>
      have hpci : tx.txPendingFrame.pci ≠ pciCf := by
        intro hpci
        rw [hkind.1 hpci] at hcf
        cases hcf
      simp [hpci]

theorem Started.consecutive {data : List UInt8} {accepted : List Frame}
    (h : Started tx now data result accepted tx') :
    accepted.countP (fun frame => frame.pci = pciCf) = 0 := by
  cases h with
  | refused => rfl
  | single answer hidle hlen =>
    cases answer with
    | none => rfl
    | some pending =>
      simp only [taken, List.countP_cons, sfFrame_pci hlen, pciSf, pciCf]
      rfl
  | multi answer hidle hlen =>
    cases answer with
    | none => rfl
    | some pending =>
      simp only [taken, List.countP_cons, ffFrame_pci, pciFf, pciCf]
      rfl

/-- An operation keeps what every reachable sender satisfies. -/
theorem Endpoint.step_regular {s : Endpoint} (h : Regular s.state.1) (e : ℕ × Op) :
    Regular (s.step e).state.1 := by
  have hcfg := callStep_config s.state (e.2.at (tick (s.now + e.1)))
  have hn : (s.step e).state.1.nAsMs = s.state.1.nAsMs := congrArg Prod.fst hcfg
  refine ⟨by rw [hn]; exact h.nAs, ?_⟩
  have hkind := h.kind
  have hact := s.step_spec h.nAs e
  obtain ⟨gap, op⟩ := e
  generalize s.resultOf (gap, op) = result at hact
  generalize s.accepted (gap, op) = accepted at hact
  generalize (s.step (gap, op)).state.1 = tx' at hact ⊢
  cases hact with
  | start hst =>
    cases hst with
    | refused => exact hkind
    | single answer hidle hlen =>
      intro _
      simp only [handed_txPendingFrame, handed_txHasSentCf, sfFrame_pci hlen]
      exact ⟨fun hpci => absurd hpci (by decide), fun hcf => absurd hcf Bool.false_ne_true⟩
    | multi answer hidle hlen =>
      intro _
      simp only [handed_txPendingFrame, handed_txHasSentCf, ffFrame_pci]
      exact ⟨fun hpci => absurd hpci (by decide), fun hcf => absurd hcf Bool.false_ne_true⟩
  | idle => exact hkind
  | stopped ho hclears hstop =>
    cases hstop with
    | refused => exact hkind
    | expired => exact fun hw => by cases hw
    | accepted => exact fun hw => by cases hw
    | held => exact hkind
    | unconfirmed => exact hkind
  | advanced ho hclears hadv =>
    cases hadv with
    | consecutive answer =>
      intro _
      simp only [handed_txPendingFrame, handed_txHasSentCf, cfFrame_pci']
      exact ⟨fun _ => rfl, fun _ => trivial⟩
    | _ => exact fun hw => absurd hw Bool.false_ne_true
  | framed hfr => cases hfr <;> exact hkind
  | reset => exact fun hw => by cases hw

end IsotpTx

end DualCan.Isotp
