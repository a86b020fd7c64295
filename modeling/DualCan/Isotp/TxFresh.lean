import DualCan.Isotp.TxSteps
import DualCan.Run.Logged

/-!
# ISO-TP: an idle sender is as good as a new one

What a transfer leaves behind in `IsotpTx_t` is never read again. `IsotpTx_Start` writes every field but the
peer's block size and STmin and, for a Single Frame, the Flow Control deadline; until the first Continue-To-Send
none of these is read (`Ungranted`), and that frame sets all three. `Alike` relates two senders that differ only
in what is not read.
-/

namespace DualCan.Isotp

open DualCan.Clock DualCan.Run

namespace IsotpTx

variable {tx tx' : IsotpTx} {c : Channel} {now d : UInt32} {b m : UInt8}

/-- The sender with another peer's block size and STmin and another Flow Control deadline. -/
def withPeer (tx : IsotpTx) (blockSize stminMs : UInt8) (deadlineMs : UInt32) : IsotpTx :=
  { tx with
    blockSize := blockSize
    stminMs := stminMs
    txDeadlineMs := deadlineMs }

/-- No Continue-To-Send was taken since the start of the transfer: the sender waits for one until `d`, or has
no Consecutive Frame to send. -/
def Ungranted (tx : IsotpTx) (d : UInt32) : Prop :=
  tx.txSentInBlock = 0 ∧
    ((tx.txWaitingFc = true ∧ d = tx.txDeadlineMs) ∨ (tx.txWaitingFc = false ∧ tx.txData.length ≤ tx.txOffset))

/-- The fields `Ungranted` is about. -/
def granted (tx : IsotpTx) : ℕ × Bool × UInt32 × List UInt8 × ℕ :=
  (tx.txSentInBlock, tx.txWaitingFc, tx.txDeadlineMs, tx.txData, tx.txOffset)

theorem Ungranted.congr (h : Ungranted tx d) (hsame : tx'.granted = tx.granted) : Ungranted tx' d := by
  simp only [granted, Prod.mk.injEq] at hsame
  obtain ⟨h1, h2, h3, h4, h5⟩ := hsame
  rw [Ungranted, h1, h2, h3, h4, h5]
  exact h

theorem afterBlock_of_unsent (h : tx.txSentInBlock = 0) : tx.afterBlock = false := by
  rw [afterBlock, h, Bool.and_eq_false_imp]
  intro hb
  have hb : 0 < tx.blockSize.toNat := by simpa [UInt8.lt_iff_toNat_lt] using hb
  exact decide_eq_false (by omega)

/-! ## Handing a frame over reads nothing of the peer -/

theorem serviceEnqueue_withPeer (tx : IsotpTx) (c : Channel) (now : UInt32) :
    serviceEnqueue (tx.withPeer b m d) c now = ((serviceEnqueue tx c now).1,
      (serviceEnqueue tx c now).2.1.withPeer b m d, (serviceEnqueue tx c now).2.2) := by
  unfold serviceEnqueue
  have hw : (tx.withPeer b m d).txWaitingEnqueue = tx.txWaitingEnqueue := rfl
  have hframe : (tx.withPeer b m d).txPendingFrame = tx.txPendingFrame := rfl
  have hdeadline : (tx.withPeer b m d).txEnqueueDeadlineMs = tx.txEnqueueDeadlineMs := rfl
  rw [hw, hframe, hdeadline]
  split
  · rfl
  · split
    · rfl
    · split <;> rfl

theorem serviceEnqueue_granted (tx : IsotpTx) (c : Channel) (now : UInt32) :
    (serviceEnqueue tx c now).2.1.granted = tx.granted := by
  unfold serviceEnqueue
  split
  · rfl
  · split
    · rfl
    · split <;> rfl

theorem scheduleFrame_withPeer (tx : IsotpTx) (c : Channel) (now : UInt32) (frame : Frame) :
    scheduleFrame (tx.withPeer b m d) c now frame =
      ((scheduleFrame tx c now frame).1.withPeer b m d, (scheduleFrame tx c now frame).2) := by
  have hservice := serviceEnqueue_withPeer (b := b) (m := m) (d := d) { tx with
    txPendingFrame := frame
    txWaitingEnqueue := true
    txEnqueueDeadlineMs := now + tx.nAsMs.toUInt32 } c now
  exact congrArg (fun r => r.2) hservice

theorem scheduleFrame_granted (tx : IsotpTx) (c : Channel) (now : UInt32) (frame : Frame) :
    (scheduleFrame tx c now frame).1.granted = tx.granted :=
  serviceEnqueue_granted _ c now

/-! ## Before the first Continue-To-Send -/

theorem pollReady_withPeer (h : Ungranted tx d) (c : Channel) (now : UInt32) :
    pollReady (tx.withPeer b m d) c now = ((pollReady tx c now).1, (pollReady tx c now).2.1.withPeer b m d,
      (pollReady tx c now).2.2) ∧ Ungranted (pollReady tx c now).2.1 d := by
  rcases h.2 with ⟨hfc, rfl⟩ | ⟨hfc, hall⟩
  · have hfc' : (tx.withPeer b m tx.txDeadlineMs).txWaitingFc = true := hfc
    have hdeadline : (tx.withPeer b m tx.txDeadlineMs).txDeadlineMs = tx.txDeadlineMs := rfl
    rw [pollReady, pollReady, if_pos hfc', if_pos hfc, hdeadline]
    split
    · exact ⟨rfl, h.congr rfl⟩
    · exact ⟨rfl, h⟩
  · have hfc' : ¬(tx.withPeer b m d).txWaitingFc = true := Bool.eq_false_iff.1 hfc
    have hall' : (tx.withPeer b m d).txOffset ≥ (tx.withPeer b m d).txData.length := hall
    have hblock : ¬tx.afterBlock = true := Bool.eq_false_iff.1 (afterBlock_of_unsent h.1)
    have hblock' : ¬(tx.withPeer b m d).afterBlock = true := Bool.eq_false_iff.1 (afterBlock_of_unsent h.1)
    rw [pollReady, pollReady, if_neg hfc', if_neg (Bool.eq_false_iff.1 hfc), if_neg hblock', if_neg hblock,
      if_pos hall', if_pos hall]
    exact ⟨rfl, h.congr rfl⟩

theorem pollPending_withPeer (h : Ungranted tx d) (c : Channel) (now : UInt32) :
    pollPending (tx.withPeer b m d) c now = ((pollPending tx c now).1,
      (pollPending tx c now).2.1.withPeer b m d, (pollPending tx c now).2.2) ∧
      Ungranted (pollPending tx c now).2.1 d := by
  have hw : (tx.withPeer b m d).txWaitingEnqueue = tx.txWaitingEnqueue := rfl
  have hpending : (tx.withPeer b m d).txFramePending = tx.txFramePending := rfl
  have hdeadline : (tx.withPeer b m d).txAsDeadlineMs = tx.txAsDeadlineMs := rfl
  unfold pollPending
  rw [hw, hpending, hdeadline]
  split
  · exact ⟨rfl, h⟩
  · split
    · split
      · split
        · exact ⟨rfl, h.congr rfl⟩
        · exact ⟨rfl, h⟩
      · have hsettled : Ungranted { tx with txFramePending := false } d := h.congr rfl
        exact pollReady_withPeer hsettled _ now
    · exact pollReady_withPeer h c now

theorem poll_withPeer (h : Ungranted tx d) (c : Channel) (now : UInt32) :
    poll (tx.withPeer b m d) c now = ((poll tx c now).1, (poll tx c now).2.1.withPeer b m d,
      (poll tx c now).2.2) ∧ Ungranted (poll tx c now).2.1 d := by
  have ho : (tx.withPeer b m d).txOngoing = tx.txOngoing := rfl
  have hservice := serviceEnqueue_granted tx c now
  unfold poll
  rw [ho, serviceEnqueue_withPeer]
  split
  · exact ⟨rfl, h⟩
  · generalize serviceEnqueue tx c now = out at hservice ⊢
    obtain ⟨result, tx₁, c₁⟩ := out
    have h₁ : Ungranted tx₁ d := h.congr hservice
    cases result with
    | errTimeout => exact ⟨rfl, h₁⟩
    | _ => exact pollPending_withPeer h₁ c₁ now

/-! ## Alike senders -/

/-- Two senders that differ only in what is not read: both idle with one configuration, the same, or the same
but for the peer's parameters before its first Continue-To-Send. -/
inductive Alike (tx : IsotpTx) : IsotpTx → Prop
  | idle {tx' : IsotpTx} (hcfg : tx'.config = tx.config) (ho : tx.txOngoing = false)
      (ho' : tx'.txOngoing = false) : Alike tx tx'
  | same : Alike tx tx
  | ungranted (b m : UInt8) {d : UInt32} (h : Ungranted tx d) : Alike tx (tx.withPeer b m d)

/-- What a call does to alike senders over one channel: the same result, the same channel, alike senders. -/
def Matches (out out' : IsotpResult × IsotpTx × Channel) : Prop :=
  out'.1 = out.1 ∧ Alike out.2.1 out'.2.1 ∧ out'.2.2 = out.2.2

theorem begin_withPeer (hcfg : tx'.config = tx.config) (data : List UInt8) :
    begin tx' data = { (begin tx data).withPeer tx'.blockSize tx'.stminMs tx'.txDeadlineMs with
      txPendingFrame := tx'.txPendingFrame } := by
  simp only [config, Prod.mk.injEq] at hcfg
  obtain ⟨h1, h2, h3, h4⟩ := hcfg
  simp only [begin, withPeer, h1, h2, h3, h4]

theorem start_idle (hcfg : tx'.config = tx.config) (ho : tx.txOngoing = false) (ho' : tx'.txOngoing = false)
    (c : Channel) (now : UInt32) (data : List UInt8) : Matches (start tx c now data) (start tx' c now data) := by
  have hpadding : tx'.padding = tx.padding := congrArg (fun k => k.2.2.2) hcfg
  have hbs : tx'.nBsMs = tx.nBsMs := congrArg (fun k => k.2.1) hcfg
  unfold start
  rw [ho, ho']
  split
  · exact ⟨rfl, .idle hcfg ho ho', rfl⟩
  · split
    · exact ⟨rfl, .idle hcfg ho ho', rfl⟩
    · split
      · exact ⟨rfl, .idle hcfg ho ho', rfl⟩
      · split
        · have hsame : sendSf (begin tx' data) c now data =
              ((sendSf (begin tx data) c now data).1.withPeer tx'.blockSize tx'.stminMs tx'.txDeadlineMs,
                (sendSf (begin tx data) c now data).2) := by
            rw [begin_withPeer hcfg]
            exact scheduleFrame_withPeer { begin tx data with txOffset := data.length } c now
              (sfFrame tx.padding data)
          have hbegin : Ungranted { begin tx data with txOffset := data.length } tx'.txDeadlineMs :=
            ⟨rfl, Or.inr ⟨rfl, Nat.le_refl _⟩⟩
          have hungranted : Ungranted (sendSf (begin tx data) c now data).1 tx'.txDeadlineMs :=
            hbegin.congr (scheduleFrame_granted _ c now _)
          rw [hsame]
          generalize sendSf (begin tx data) c now data = out at hungranted ⊢
          obtain ⟨tx₁, c₁⟩ := out
          have hquiet : (!(tx₁.withPeer tx'.blockSize tx'.stminMs tx'.txDeadlineMs).txFramePending &&
              !(tx₁.withPeer tx'.blockSize tx'.stminMs tx'.txDeadlineMs).txWaitingEnqueue) =
                (!tx₁.txFramePending && !tx₁.txWaitingEnqueue) := rfl
          dsimp only
          rw [hquiet]
          split
          · have hdone : Ungranted { tx₁ with txOngoing := false } tx'.txDeadlineMs := hungranted.congr rfl
            exact ⟨rfl, .ungranted _ _ hdone, rfl⟩
          · exact ⟨rfl, .ungranted _ _ hungranted, rfl⟩
        · have hsame : sendFf (begin tx' data) c now =
              ((sendFf (begin tx data) c now).1.withPeer tx'.blockSize tx'.stminMs (now + tx.nBsMs.toUInt32),
                (sendFf (begin tx data) c now).2) := by
            rw [begin_withPeer hcfg]
            exact scheduleFrame_withPeer (beginFf tx now data) c now
              (ffFrame tx.padding data.length (data.take ffPayloadMax))
          have hbegin : Ungranted (beginFf tx now data) (now + tx.nBsMs.toUInt32) := ⟨rfl, Or.inl ⟨rfl, rfl⟩⟩
          have hungranted : Ungranted (sendFf (begin tx data) c now).1 (now + tx.nBsMs.toUInt32) :=
            hbegin.congr (scheduleFrame_granted _ c now _)
          rw [hsame]
          exact ⟨rfl, .ungranted _ _ hungranted, rfl⟩

/-- A Continue-To-Send is the first frame whose peer's parameters are kept. -/
theorem onFrame_withPeer (h : Ungranted tx d) (b m : UInt8) (now : UInt32) (frame : Frame) :
    (onFrame (tx.withPeer b m d) now frame).1 = (onFrame tx now frame).1 ∧
      Alike (onFrame tx now frame).2 (onFrame (tx.withPeer b m d) now frame).2 := by
  have hblock : tx.afterBlock = false := afterBlock_of_unsent h.1
  have hblock' : (tx.withPeer b m d).afterBlock = false := afterBlock_of_unsent h.1
  have ho : (tx.withPeer b m d).txOngoing = tx.txOngoing := rfl
  have hfc : (tx.withPeer b m d).txWaitingFc = tx.txWaitingFc := rfl
  unfold onFrame
  rw [hblock, hblock', ho, hfc]
  split
  · exact ⟨rfl, .ungranted b m h⟩
  split
  · exact ⟨rfl, .ungranted b m h⟩
  next hl =>
    have hwaiting : tx.txWaitingFc = true := by simpa using hl
    split
    · exact ⟨rfl, .ungranted b m h⟩
    split
    · refine ⟨rfl, .ungranted b m ?_⟩
      exact ⟨h.1, Or.inl ⟨hwaiting, rfl⟩⟩
    split
    · refine ⟨rfl, .ungranted b m (d := d) ?_⟩
      exact h.congr rfl
    · exact ⟨rfl, .same⟩

theorem start_withPeer (h : Ungranted tx d) (b m : UInt8) (c : Channel) (now : UInt32) (data : List UInt8) :
    Matches (start tx c now data) (start (tx.withPeer b m d) c now data) := by
  cases ho : tx.txOngoing with
  | false =>
    have hcfg : (tx.withPeer b m d).config = tx.config := rfl
    have ho' : (tx.withPeer b m d).txOngoing = false := ho
    exact start_idle hcfg ho ho' c now data
  | true =>
    have ho' : (tx.withPeer b m d).txOngoing = true := ho
    unfold start
    rw [ho, ho']
    split
    · exact ⟨rfl, .ungranted b m h, rfl⟩
    · exact ⟨rfl, .ungranted b m h, rfl⟩

/-- **No call tells alike senders apart.** -/
theorem Alike.call (h : Alike tx tx') (c : Channel) (e : Call) :
    Matches (IsotpTx.call (tx, c) e) (IsotpTx.call (tx', c) e) := by
  cases h with
  | same => exact ⟨rfl, .same, rfl⟩
  | idle hcfg ho ho' =>
    cases e with
    | start now data => exact start_idle hcfg ho ho' c now data
    | poll now =>
      rw [IsotpTx.call, IsotpTx.call, poll_of_idle ho, poll_of_idle ho']
      exact ⟨rfl, .idle hcfg ho ho', rfl⟩
    | onFrame now frame =>
      rw [IsotpTx.call, IsotpTx.call, onFrame_of_idle ho, onFrame_of_idle ho']
      exact ⟨rfl, .idle hcfg ho ho', rfl⟩
    | reset => exact ⟨rfl, .idle hcfg rfl rfl, rfl⟩
  | ungranted b m h =>
    cases e with
    | start now data => exact start_withPeer h b m c now data
    | poll now =>
      obtain ⟨hpoll, hkept⟩ := poll_withPeer (b := b) (m := m) h c now
      rw [IsotpTx.call, IsotpTx.call, hpoll]
      exact ⟨rfl, .ungranted b m hkept, rfl⟩
    | onFrame now frame =>
      obtain ⟨hresult, halike⟩ := onFrame_withPeer h b m now frame
      exact ⟨hresult, halike, rfl⟩
    | reset => exact ⟨rfl, .idle rfl rfl rfl, rfl⟩

/-- Alike senders over one channel report the same results and leave the same channel along every run. -/
theorem Alike.run (h : Alike tx tx') (c : Channel) (calls : List Call) :
    (after (logged IsotpTx.call) ((tx', c), []) calls).2 = (after (logged IsotpTx.call) ((tx, c), []) calls).2 ∧
      (after (logged IsotpTx.call) ((tx', c), []) calls).1.2 =
        (after (logged IsotpTx.call) ((tx, c), []) calls).1.2 := by
  have hstep : ∀ (s s' : IsotpTx × Channel) (e : Call), Alike s.1 s'.1 ∧ s'.2 = s.2 →
      (IsotpTx.call s' e).1 = (IsotpTx.call s e).1 ∧
        Alike (IsotpTx.call s e).2.1 (IsotpTx.call s' e).2.1 ∧
          (IsotpTx.call s' e).2.2 = (IsotpTx.call s e).2.2 := by
    rintro ⟨tx, c⟩ ⟨tx', c'⟩ e ⟨halike, hc⟩
    obtain rfl : c' = c := hc
    exact halike.call c' e
  have hstart : Alike (tx, c).1 (tx', c).1 ∧ (tx', c).2 = (tx, c).2 := ⟨h, rfl⟩
  have hrun := logs_eq_of_related
    (R := fun s s' : IsotpTx × Channel => Alike s.1 s'.1 ∧ s'.2 = s.2) hstart hstep [] calls
  exact ⟨hrun.1, hrun.2.2⟩

/-- A sender whose transfer has ended is as good as a new one. -/
theorem alike_init (config : IsotpConfig) (c : Channel) (history : List Call)
    (hidle : (after callStep (IsotpTx.init config, c) history).1.txOngoing = false) :
    Alike (IsotpTx.init config) (after callStep (IsotpTx.init config, c) history).1 := by
  have hcfg : ∀ s e, s.1.config = (IsotpTx.init config).config →
      (callStep s e).1.config = (IsotpTx.init config).config := fun s e h => (callStep_config s e).trans h
  refine .idle ?_ rfl hidle
  exact after_invariant (I := fun s : IsotpTx × Channel => s.1.config = (IsotpTx.init config).config) rfl
    hcfg history

end IsotpTx

end DualCan.Isotp
