import DualCan.Isotp.Receiver

/-!
# ISO-TP: what a poll of the receiver can do

`IsotpRx_Poll` has two parts: it services a Flow Control frame that waits for a mailbox (`Serviced`), then
watches the frame's completion and the peer (`Watched`). Each relation lists the outcomes with the states they
come from; `Polled` is the two together, for a receiver whose budgets are not zero.
-/

namespace DualCan.Isotp

open DualCan.Clock

theorem Channel.send_fst (c : Channel) (frame : Frame) : (c.send frame).1 = c.sendAnswers 0 := by
  unfold Channel.send
  split
  · next h => exact h.symm
  · next h => exact (Bool.eq_false_iff.2 h).symm

namespace IsotpRx

variable {rx rx' : IsotpRx} {c : Channel} {now : UInt32} {result : IsotpResult}

/-- What `isotp_rx_service_fc_enqueue` can do. -/
inductive Serviced (rx : IsotpRx) (c : Channel) (now : UInt32) : IsotpResult → IsotpRx → Prop
  | none (hw : rx.fcWaitingEnqueue = false) : Serviced rx c now .ok rx
  | accepted (pending : Bool) (hw : rx.fcWaitingEnqueue = true) (hsend : (c.send rx.fcFrame).1 = true) :
      Serviced rx c now .ok { rx with
        fcWaitingEnqueue := false
        fcPending := pending
        fcDeadlineMs := now + rx.nArMs.toUInt32
        rxDeadlineMs := if !pending then now + rx.nCrMs.toUInt32 else rx.rxDeadlineMs }
  | busy (hw : rx.fcWaitingEnqueue = true) (hsend : (c.send rx.fcFrame).1 = false)
      (hr : reached now rx.fcDeadlineMs = false) : Serviced rx c now .ok rx
  | expired (hw : rx.fcWaitingEnqueue = true) (hsend : (c.send rx.fcFrame).1 = false)
      (hr : reached now rx.fcDeadlineMs = true) :
      Serviced rx c now .errTimeout { rx with
        fcWaitingEnqueue := false, rxInProgress := false, rxTimedOut := true }

theorem serviceFcEnqueue_spec (rx : IsotpRx) (c : Channel) (now : UInt32) :
    Serviced rx c now (serviceFcEnqueue rx c now).1 (serviceFcEnqueue rx c now).2.1 := by
  unfold serviceFcEnqueue
  split
  · next hw => exact .none (by simpa using hw)
  · next hw =>
    have hw : rx.fcWaitingEnqueue = true := by simpa using hw
    split
    · next c₁ hs => exact .accepted _ hw (by rw [hs])
    · next c₁ hs =>
      have hsend : (c.send rx.fcFrame).1 = false := by rw [hs]
      split
      · next hr => exact .expired hw hsend hr
      · next hr => exact .busy hw hsend (by simpa using hr)

/-- What the rest of `IsotpRx_Poll` can do; `pending` is what the driver answers when it is asked. -/
inductive Watched (rx : IsotpRx) (pending : Bool) (now : UInt32) : IsotpResult → IsotpRx → Prop
  | waiting (hw : rx.fcWaitingEnqueue = true) : Watched rx pending now .ok rx
  | idle (hw : rx.fcWaitingEnqueue = false) (hp : rx.rxInProgress = false) : Watched rx pending now .ok rx
  | held (hw : rx.fcWaitingEnqueue = false) (hp : rx.rxInProgress = true) (hpending : rx.fcPending = true)
      (hanswer : pending = true) (hr : reached now rx.fcDeadlineMs = false) : Watched rx pending now .ok rx
  | unconfirmed (hw : rx.fcWaitingEnqueue = false) (hp : rx.rxInProgress = true)
      (hpending : rx.fcPending = true) (hanswer : pending = true)
      (hr : reached now rx.fcDeadlineMs = true) :
      Watched rx pending now .errTimeout { rx with
        rxInProgress := false, fcPending := false, rxTimedOut := true }
  | confirmed (hw : rx.fcWaitingEnqueue = false) (hp : rx.rxInProgress = true)
      (hpending : rx.fcPending = true) (hanswer : pending = false) :
      Watched rx pending now .ok { rx with fcPending := false, rxDeadlineMs := now + rx.nCrMs.toUInt32 }
  | listening (hw : rx.fcWaitingEnqueue = false) (hp : rx.rxInProgress = true)
      (hpending : rx.fcPending = false) (hr : reached now rx.rxDeadlineMs = false) : Watched rx pending now .ok rx
  | silent (hw : rx.fcWaitingEnqueue = false) (hp : rx.rxInProgress = true)
      (hpending : rx.fcPending = false) (hr : reached now rx.rxDeadlineMs = true) :
      Watched rx pending now .errTimeout { rx with rxInProgress := false, rxTimedOut := true }

/-- What `IsotpRx_Poll` can do: the service, and the rest unless the service reports a timeout. -/
theorem poll_spec (rx : IsotpRx) (c : Channel) (now : UInt32) :
    (Serviced rx c now .errTimeout (poll rx c now).2.1 ∧ (poll rx c now).1 = .errTimeout) ∨
    ∃ rx₁ pending, Serviced rx c now .ok rx₁ ∧ (rx.fcWaitingEnqueue = false → pending = c.pendingAnswers 0) ∧
      Watched rx₁ pending now (poll rx c now).1 (poll rx c now).2.1 := by
  have hservice := serviceFcEnqueue_spec rx c now
  unfold poll
  split
  · next hidle =>
    simp only [Bool.and_eq_true, Bool.not_eq_true'] at hidle
    exact Or.inr ⟨rx, _, .none hidle.1.2, fun _ => rfl, .idle hidle.1.2 hidle.1.1⟩
  · split
    · next rx₁ c₁ heq =>
      rw [heq] at hservice
      exact Or.inl ⟨hservice, rfl⟩
    · next result rx₁ c₁ hne heq =>
      rw [heq] at hservice
      have hok : Serviced rx c now .ok rx₁ := by
        cases hservice with
        | none hw => exact .none hw
        | accepted pending hw hsend => exact .accepted pending hw hsend
        | busy hw hsend hr => exact .busy hw hsend hr
        | expired hw hsend hr => exact (hne rfl).elim
      have hasked : rx.fcWaitingEnqueue = false → c₁.pendingAnswers 0 = c.pendingAnswers 0 := by
        intro hw
        have hsame : serviceFcEnqueue rx c now = (.ok, rx, c) := by simp [serviceFcEnqueue, hw]
        rw [hsame] at heq
        cases heq
        rfl
      refine Or.inr ⟨rx₁, c₁.pendingAnswers 0, hok, hasked, ?_⟩
      split
      · next hw => exact .waiting hw
      · next hw =>
        have hw : rx₁.fcWaitingEnqueue = false := by simpa using hw
        split
        · next hp => exact .idle hw (by simpa using hp)
        · next hp =>
          have hp : rx₁.rxInProgress = true := by simpa using hp
          split
          · next hpending =>
            split
            · next c₂ ha =>
              have hanswer : c₁.pendingAnswers 0 = true := congrArg Prod.fst ha
              split
              · next hr => exact .unconfirmed hw hp hpending hanswer hr
              · next hr => exact .held hw hp hpending hanswer (by simpa using hr)
            · next c₂ ha => exact .confirmed hw hp hpending (congrArg Prod.fst ha)
          · next hpending =>
            have hpending : rx₁.fcPending = false := by simpa using hpending
            split
            · next hr => exact .silent hw hp hpending hr
            · next hr => exact .listening hw hp hpending (by simpa using hr)

/-- What `IsotpRx_Poll` can do when the budgets are not zero: a Flow Control frame that this poll has accepted is
not timed out by it. -/
inductive Polled (rx : IsotpRx) (c : Channel) (now : UInt32) : IsotpResult → IsotpRx → Prop
  | idle (hw : rx.fcWaitingEnqueue = false) (hp : rx.rxInProgress = false) : Polled rx c now .ok rx
  | busy (hw : rx.fcWaitingEnqueue = true) (hr : reached now rx.fcDeadlineMs = false) : Polled rx c now .ok rx
  | expired (hw : rx.fcWaitingEnqueue = true) (hsend : c.sendAnswers 0 = false)
      (hr : reached now rx.fcDeadlineMs = true) :
      Polled rx c now .errTimeout { rx with
        fcWaitingEnqueue := false, rxInProgress := false, rxTimedOut := true }
  | accepted (pending : Bool) (rxDeadlineMs : UInt32) (hw : rx.fcWaitingEnqueue = true)
      (h : rx.rxInProgress = true → pending = false → rxDeadlineMs = now + rx.nCrMs.toUInt32) :
      Polled rx c now .ok { rx with
        fcWaitingEnqueue := false
        fcPending := pending
        fcDeadlineMs := now + rx.nArMs.toUInt32
        rxDeadlineMs := rxDeadlineMs }
  | held (hw : rx.fcWaitingEnqueue = false) (hp : rx.rxInProgress = true) (hpending : rx.fcPending = true)
      (hr : reached now rx.fcDeadlineMs = false) : Polled rx c now .ok rx
  | unconfirmed (hw : rx.fcWaitingEnqueue = false) (hp : rx.rxInProgress = true) (hpending : rx.fcPending = true)
      (hanswer : c.pendingAnswers 0 = true) (hr : reached now rx.fcDeadlineMs = true) :
      Polled rx c now .errTimeout { rx with rxInProgress := false, fcPending := false, rxTimedOut := true }
  | confirmed (hw : rx.fcWaitingEnqueue = false) (hp : rx.rxInProgress = true) (hpending : rx.fcPending = true) :
      Polled rx c now .ok { rx with fcPending := false, rxDeadlineMs := now + rx.nCrMs.toUInt32 }
  | listening (hw : rx.fcWaitingEnqueue = false) (hp : rx.rxInProgress = true) (hpending : rx.fcPending = false)
      (hr : reached now rx.rxDeadlineMs = false) : Polled rx c now .ok rx
  | silent (hw : rx.fcWaitingEnqueue = false) (hp : rx.rxInProgress = true) (hpending : rx.fcPending = false)
      (hr : reached now rx.rxDeadlineMs = true) :
      Polled rx c now .errTimeout { rx with rxInProgress := false, rxTimedOut := true }

theorem poll_cases (hnAr : rx.nArMs ≠ 0) (hnCr : rx.nCrMs ≠ 0) (c : Channel) (now : UInt32) :
    Polled rx c now (poll rx c now).1 (poll rx c now).2.1 := by
  rcases poll_spec rx c now with ⟨hservice, hresult⟩ | ⟨rx₁, answer, hservice, hasked, hwatch⟩
  · rw [hresult]
    generalize (poll rx c now).2.1 = rx' at hservice ⊢
    cases hservice with
    | expired hw hsend hr => exact .expired hw (by rwa [Channel.send_fst] at hsend) hr
  · generalize (poll rx c now).1 = result at hwatch ⊢
    generalize (poll rx c now).2.1 = rx' at hwatch ⊢
    cases hservice with
    | none hw =>
      have hasked := hasked hw
      cases hwatch with
      | waiting hw' => exact absurd hw' (Bool.eq_false_iff.1 hw)
      | idle _ hp => exact .idle hw hp
      | held _ hp hpending _ hr => exact .held hw hp hpending hr
      | unconfirmed _ hp hpending hanswer hr => exact .unconfirmed hw hp hpending (hasked ▸ hanswer) hr
      | confirmed _ hp hpending => exact .confirmed hw hp hpending
      | listening _ hp hpending hr => exact .listening hw hp hpending hr
      | silent _ hp hpending hr => exact .silent hw hp hpending hr
    | busy hw hsend hr =>
      cases hwatch with
      | waiting => exact .busy hw hr
      | idle hw' | held hw' | unconfirmed hw' | confirmed hw' | listening hw' | silent hw' =>
        exact absurd hw (Bool.eq_false_iff.1 hw')
    | accepted pending hw =>
      -- neither the budget of the frame just accepted nor that of the next frame is over
      have hnever : reached now (now + rx.nArMs.toUInt32) = false := not_reached_add hnAr
      cases hwatch with
      | waiting hw' => cases hw'
      | idle _ hp => exact .accepted _ _ hw fun hp' => absurd hp' (Bool.eq_false_iff.1 hp)
      | held _ _ hpending =>
        have hpending : pending = true := hpending
        subst hpending
        exact .accepted true _ hw fun _ hp' => by cases hp'
      | unconfirmed _ _ _ _ hr => exact absurd (hnever.symm.trans hr) Bool.false_ne_true
      | confirmed => exact .accepted false _ hw fun _ _ => rfl
      | listening _ _ hpending =>
        have hpending : pending = false := hpending
        subst hpending
        exact .accepted false _ hw fun _ _ => rfl
      | silent _ _ hpending hr =>
        have hpending : pending = false := hpending
        subst hpending
        have hnever : reached now (now + rx.nCrMs.toUInt32) = false := not_reached_add hnCr
        exact absurd (hnever.symm.trans hr) Bool.false_ne_true

end IsotpRx

end DualCan.Isotp
