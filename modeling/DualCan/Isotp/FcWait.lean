import DualCan.Isotp.TxSteps

/-!
# ISO-TP: how long the sender waits for Flow Control

The wait after a full block is armed by the poll that finds the block's last frame complete. The wait after the
First Frame is armed by `isotp_send_ff`, when that frame is only *scheduled*: what it spends waiting for a
mailbox or in the controller is taken off N_Bs. An observer (`Awaited`) writes down when the frame last handed
over was scheduled and completed and when the last WAIT came.
-/

namespace DualCan.Isotp

open DualCan.Clock DualCan.Run

namespace IsotpTx

/-- The frame last handed over waits for a mailbox or is pending. -/
def inFlight (tx : IsotpTx) : Bool := tx.txWaitingEnqueue || tx.txFramePending

/-- When the transfer was started, when the frame last handed over was found accepted and no longer pending,
and when the last WAIT since the start or the latest Continue-To-Send was taken. -/
structure Awaited where
  scheduled : ℕ
  done : Option ℕ
  wait : Option ℕ

/-- What the observer writes down at the time `t` of an operation that takes `tx` to `tx'`. -/
def Awaited.update (g : Awaited) (tx tx' : IsotpTx) (t : ℕ) (op : Op) (result : IsotpResult)
    (frames : List Frame) : Awaited :=
  match op with
  | .start _ =>
    if result = .ok then { scheduled := t, done := if tx'.inFlight then none else some t, wait := none } else g
  | .poll =>
    { g with
      done := if tx'.inFlight then none else if tx.inFlight || !frames.isEmpty then some t else g.done }
  | .onFrame frame =>
    if tx.takes frame fcWait then { g with wait := some t }
    else if tx.takes frame fcCts then { g with wait := none }
    else g
  | .reset => g

def Awaited.note (s : Endpoint) (e : ℕ × Op) (g : Awaited) : Awaited :=
  g.update s.state.1 (s.step e).state.1 (s.now + e.1) e.2 (s.resultOf e) (s.accepted e)

/-- The sender beside its observer. -/
def awaitedStep : Endpoint × Awaited → ℕ × Op → Endpoint × Awaited := observed Endpoint.step Awaited.note

/-- When the frame last handed over was complete, as of a poll that finds it so. -/
def doneBy (s : Endpoint × Awaited) (t : ℕ) : Option ℕ :=
  if s.1.state.1.inFlight then some t else s.2.done

/-- The budget of the Flow Control wait: `n_cr_ms` after a full block, `n_bs_ms` after the First Frame. -/
def fcBudget (tx : IsotpTx) : UInt16 := if tx.txWaitingAfterBlock then tx.nCrMs else tx.nBsMs

/-- A poll that gives up waiting for Flow Control, the awaited frame being complete, does so no sooner than the
budget after that frame's completion or after the last WAIT. -/
def Patient (s : Endpoint × Awaited) (e : ℕ × Op) : Prop :=
  e.2 = .poll → s.1.state.1.txOngoing = true → s.1.state.1.clears s.1.state.2 = true →
    s.1.resultOf e = .errTimeout →
      ∃ a, (s.2.wait = some a ∨ doneBy s (s.1.now + e.1) = some a) ∧
        a + s.1.state.1.fcBudget.toNat ≤ s.1.now + e.1

/-- The poll at the time `t` does not find the First Frame complete, and its answer missing without a WAIT, when
N_Bs is over since the frame was scheduled but not since it was complete. -/
def Prompt (s : Endpoint × Awaited) (t : ℕ) : Prop :=
  s.1.state.1.txOngoing = true → s.1.state.1.txWaitingFc = true → s.1.state.1.txWaitingAfterBlock = false →
    s.2.wait = none → s.1.state.1.clears s.1.state.2 = true → s.2.scheduled + s.1.state.1.nBsMs.toNat ≤ t →
      ∀ d ∈ doneBy s t, d + s.1.state.1.nBsMs.toNat ≤ t

/-- The steps that do not reach the defect. -/
def PromptStep (s : Endpoint × Awaited) (e : ℕ × Op) : Prop := e.2 = .poll → Prompt s (s.1.now + e.1)

instance (s : Endpoint × Awaited) (t : ℕ) : Decidable (Prompt s t) :=
  have : Decidable (∀ d ∈ doneBy s t, d + s.1.state.1.nBsMs.toNat ≤ t) := Option.decidableForallMem _
  inferInstanceAs (Decidable (_ → _ → _ → _ → _ → _ → _))

instance (s : Endpoint × Awaited) (e : ℕ × Op) : Decidable (PromptStep s e) :=
  inferInstanceAs (Decidable (_ → _))

/-! ## The invariant -/

/-- What the deadline of a Flow Control wait is measured from: a WAIT, the completion of a full block or
something later, or the scheduling of the First Frame. -/
def ArmedBy (s : Endpoint × Awaited) (armed : ℕ) : Prop :=
  s.2.wait = some armed ∨
    (s.1.state.1.txWaitingAfterBlock = true ∧ s.1.state.1.inFlight = false ∧
      ∃ d, s.2.done = some d ∧ d ≤ armed) ∨
    (s.1.state.1.txWaitingAfterBlock = false ∧ s.2.wait = none ∧ armed = s.2.scheduled)

/-- What ties the observer to the sender. -/
structure Awaiting (s : Endpoint × Awaited) : Prop where
  regular : Regular s.1.state.1
  complete : s.1.state.1.txOngoing = true → s.1.state.1.inFlight = false → ∃ d, s.2.done = some d
  past : ∀ d ∈ s.2.done, d ≤ s.1.now
  first : s.1.state.1.txOngoing = true → s.1.state.1.txWaitingFc = true →
    s.1.state.1.txWaitingAfterBlock = false → s.1.state.1.txSentInBlock = 0
  armed : s.1.state.1.txOngoing = true → s.1.state.1.txWaitingFc = true → ∃ armed ≤ s.1.now,
    s.1.state.1.txDeadlineMs = tick armed + s.1.state.1.fcBudget.toUInt32 ∧ ArmedBy s armed

theorem Awaiting.init (config : IsotpConfig) (c : Channel) (now : ℕ) :
    Awaiting (Endpoint.init config c now, { scheduled := now, done := none, wait := none }) where
  regular := Regular.init config
  complete := fun ho => by cases ho
  past := fun d hd => by cases hd
  first := fun ho => by cases ho
  armed := fun ho => by cases ho

variable {s : Endpoint × Awaited} {e : ℕ × Op} {t : ℕ} {op : Op} {result : IsotpResult}
  {frames : List Frame} {tx' : IsotpTx} {c' : Channel}

/-- A poll that gives up on Flow Control. -/
theorem Awaiting.patient {asDeadlineMs : UInt32} (h : Awaiting s) (ht : s.1.now ≤ t) (hin : Prompt s t)
    (ho : s.1.state.1.txOngoing = true) (hclears : s.1.state.1.clears s.1.state.2 = true)
    (hfc : (settled s.1.state.1 asDeadlineMs).txWaitingFc = true)
    (hr : reached (tick t) (settled s.1.state.1 asDeadlineMs).txDeadlineMs = true) :
    ∃ a, (s.2.wait = some a ∨ doneBy s t = some a) ∧ a + s.1.state.1.fcBudget.toNat ≤ t := by
  have hfc : s.1.state.1.txWaitingFc = true := hfc
  have hr : reached (tick t) s.1.state.1.txDeadlineMs = true := hr
  obtain ⟨armed, harmed, hdeadline, harmedBy⟩ := h.armed ho hfc
  rw [hdeadline] at hr
  have hover := over_of_reached (Nat.le_trans harmed ht) hr
  rcases harmedBy with hwait | ⟨hafter, hflight, d, hdone, hd⟩ | ⟨hafter, hwait, rfl⟩
  · exact ⟨armed, Or.inl hwait, hover⟩
  · refine ⟨d, Or.inr ?_, by omega⟩
    rw [doneBy, hflight]
    exact hdone
  · have hbudget : s.1.state.1.fcBudget = s.1.state.1.nBsMs := by
      rw [fcBudget, hafter]
      rfl
    rw [hbudget] at hover ⊢
    have hall := hin ho hfc hafter hwait hclears hover
    cases hflight : s.1.state.1.inFlight with
    | true =>
      have hdone : doneBy s t = some t := by rw [doneBy, hflight]; rfl
      exact ⟨t, Or.inr hdone, hall t hdone⟩
    | false =>
      obtain ⟨d, hd⟩ := h.complete ho hflight
      have hdone : doneBy s t = some d := by rw [doneBy, hflight]; exact hd
      exact ⟨d, Or.inr hdone, hall d hdone⟩

theorem update_poll (g : Awaited) (tx tx' : IsotpTx) (t : ℕ) (result : IsotpResult) (frames : List Frame) :
    g.update tx tx' t .poll result frames = { g with
      done := if tx'.inFlight then none else if tx.inFlight || !frames.isEmpty then some t else g.done } := rfl

/-- A poll of a busy sender: the completion of its last frame is written down. -/
theorem Awaiting.polled (h : Awaiting s) (ht : s.1.now ≤ t) (ho : s.1.state.1.txOngoing = true)
    (hreg : Regular tx') (hfirst : tx'.txOngoing = true → tx'.txWaitingFc = true →
      tx'.txWaitingAfterBlock = false → tx'.txSentInBlock = 0)
    (harmed : tx'.txOngoing = true → tx'.txWaitingFc = true → ∃ armed ≤ t,
      tx'.txDeadlineMs = tick armed + tx'.fcBudget.toUInt32 ∧
        ArmedBy (⟨t, (tx', c')⟩, s.2.update s.1.state.1 tx' t .poll result frames) armed) :
    Awaiting (⟨t, (tx', c')⟩, s.2.update s.1.state.1 tx' t .poll result frames) := by
  refine ⟨hreg, ?_, ?_, hfirst, harmed⟩
  · intro _ hflight
    have hflight : tx'.inFlight = false := hflight
    rw [update_poll, hflight]
    cases hnew : s.1.state.1.inFlight || !frames.isEmpty with
    | true => exact ⟨t, rfl⟩
    | false => exact h.complete ho (Bool.or_eq_false_iff.1 hnew).1
  · intro d hd
    rw [update_poll] at hd
    dsimp only at hd
    split at hd
    · cases hd
    · split at hd
      · cases hd
        exact Nat.le_refl t
      · exact Nat.le_trans (h.past d hd) ht

/-- A poll that leaves the Flow Control wait as it is. -/
theorem Awaiting.kept (h : Awaiting s) (ht : s.1.now ≤ t) (ho : s.1.state.1.txOngoing = true)
    (hreg : Regular tx')
    (hsame : tx'.txWaitingFc = s.1.state.1.txWaitingFc ∧
      tx'.txWaitingAfterBlock = s.1.state.1.txWaitingAfterBlock ∧
      tx'.txSentInBlock = s.1.state.1.txSentInBlock ∧ tx'.txDeadlineMs = s.1.state.1.txDeadlineMs ∧
      tx'.fcBudget = s.1.state.1.fcBudget)
    (hflight : s.1.state.1.inFlight = false → tx'.inFlight = false ∧ frames = []) :
    Awaiting (⟨t, (tx', c')⟩, s.2.update s.1.state.1 tx' t .poll result frames) := by
  obtain ⟨hfc, hafter, hin, hdeadline, hbudget⟩ := hsame
  refine h.polled ht ho hreg ?_ ?_
  · intro _ hfc' hafter'
    rw [hfc] at hfc'
    rw [hafter] at hafter'
    rw [hin]
    exact h.first ho hfc' hafter'
  · intro _ hfc'
    rw [hfc] at hfc'
    obtain ⟨armed, hle, hd, hby⟩ := h.armed ho hfc'
    refine ⟨armed, Nat.le_trans hle ht, by rw [hdeadline, hbudget]; exact hd, ?_⟩
    rcases hby with hwait | ⟨hafter', hfl, d, hdone, hle'⟩ | ⟨hafter', hwait, hsched⟩
    · exact Or.inl hwait
    · obtain ⟨hfl', hnil⟩ := hflight hfl
      refine Or.inr (Or.inl ⟨hafter.trans hafter', hfl', d, ?_, hle'⟩)
      rw [update_poll, hfl', hfl, hnil]
      exact hdone
    · exact Or.inr (Or.inr ⟨hafter.trans hafter', hwait, hsched⟩)

/-- A poll that ends the transfer, or its Flow Control wait. -/
theorem Awaiting.ended (h : Awaiting s) (ht : s.1.now ≤ t) (ho : s.1.state.1.txOngoing = true)
    (hreg : Regular tx') (hend : tx'.txOngoing = true → tx'.txWaitingFc = false) :
    Awaiting (⟨t, (tx', c')⟩, s.2.update s.1.state.1 tx' t .poll result frames) := by
  refine h.polled ht ho hreg ?_ ?_
  · intro ho' hfc
    rw [hend ho'] at hfc
    cases hfc
  · intro ho' hfc
    rw [hend ho'] at hfc
    cases hfc

/-- An operation that changes neither the sender nor what the observer knows of its waits. -/
theorem Awaiting.still {tx : IsotpTx} (h : Awaiting s) (ht : s.1.now ≤ t) (htx : tx = s.1.state.1) :
    Awaiting (⟨t, (tx, c')⟩, s.2) := by
  subst htx
  refine ⟨h.regular, h.complete, fun d hd => Nat.le_trans (h.past d hd) ht, h.first, ?_⟩
  intro ho hfc
  obtain ⟨armed, hle, hd, hby⟩ := h.armed ho hfc
  exact ⟨armed, Nat.le_trans hle ht, hd, hby⟩

/-- A poll that settles the last frame, and the Consecutive Frame or the wait that comes next. -/
theorem Awaiting.advance {asDeadlineMs : UInt32} (h : Awaiting s) (ht : s.1.now ≤ t) (hreg : Regular tx')
    (ho : s.1.state.1.txOngoing = true)
    (hadv : Advanced (settled s.1.state.1 asDeadlineMs) (tick t) result frames tx') :
    Awaiting (⟨t, (tx', c')⟩,
      s.2.update s.1.state.1 tx' t .poll result (settles s.1.state.1 ++ frames)) := by
  have hquiet : s.1.state.1.inFlight = false → settles s.1.state.1 ++ [] = [] := by
    intro hfl
    rw [List.append_nil, settles, if_neg]
    intro hw
    rw [inFlight, hw] at hfl
    cases hfl
  cases hadv with
  | listening | separated =>
    exact h.kept ht ho hreg ⟨rfl, rfl, rfl, rfl, rfl⟩ fun hfl => ⟨rfl, hquiet hfl⟩
  | unanswered | finished => exact h.ended ht ho hreg fun ho => by cases ho
  | consecutive answer hfc =>
    refine h.ended ht ho hreg fun _ => ?_
    rw [handed_txWaitingFc]
    exact hfc
  | full hfc hfull =>
    refine h.polled ht ho hreg (fun _ _ hafter => by cases hafter) fun _ _ => ?_
    -- the block's last frame is complete, now or since an earlier poll
    refine ⟨t, Nat.le_refl t, rfl, Or.inr (Or.inl ⟨rfl, rfl, ?_⟩)⟩
    cases hfl : s.1.state.1.inFlight with
    | true => exact ⟨t, by rw [update_poll, hfl]; rfl, Nat.le_refl t⟩
    | false =>
      obtain ⟨d, hd⟩ := h.complete ho hfl
      refine ⟨d, ?_, Nat.le_trans (h.past d hd) ht⟩
      rw [update_poll, hfl, hquiet hfl]
      exact hd

/-- A transfer that starts: the wait for Flow Control is armed as the First Frame is scheduled. -/
theorem Awaiting.start {data : List UInt8} (h : Awaiting s) (ht : s.1.now ≤ t) (hreg : Regular tx')
    (hst : Started s.1.state.1 (tick t) data result frames tx') :
    Awaiting (⟨t, (tx', c')⟩, s.2.update s.1.state.1 tx' t (.start data) result frames) := by
  have hopen : result = .ok →
      s.2.update s.1.state.1 tx' t (.start data) result frames =
        { scheduled := t, done := if tx'.inFlight then none else some t, wait := none } := fun hok => if_pos hok
  have hpast : ∀ d ∈ (if tx'.inFlight then none else some t), d ≤ t := by
    intro d hd
    split at hd
    · cases hd
    · cases hd
      exact Nat.le_refl t
  have hcomplete : tx'.inFlight = false → ∃ d, (if tx'.inFlight then none else some t) = some d := by
    intro hfl
    rw [hfl]
    exact ⟨t, rfl⟩
  cases hst with
  | refused hr =>
    rw [Awaited.update, if_neg hr]
    exact h.still ht rfl
  | single answer =>
    rw [hopen rfl]
    refine ⟨hreg, fun _ => hcomplete, hpast, ?_, ?_⟩
    · intro _ hfc
      simp only [handed_txWaitingFc] at hfc
      cases hfc
    · intro _ hfc
      simp only [handed_txWaitingFc] at hfc
      cases hfc
  | multi answer =>
    rw [hopen rfl]
    refine ⟨hreg, fun _ => hcomplete, hpast, ?_, ?_⟩
    · intro _ _ _
      simp only [handed_txSentInBlock]
      rfl
    · intro _ _
      refine ⟨t, Nat.le_refl t, ?_, Or.inr (Or.inr ⟨?_, rfl, rfl⟩)⟩
      · cases answer <;> rfl
      · simp only [handed_txWaitingAfterBlock]
        rfl

/-- A received frame. -/
theorem Awaiting.frame {frame : Frame} (h : Awaiting s) (ht : s.1.now ≤ t) (hreg : Regular tx')
    (hfr : Framed s.1.state.1 (tick t) frame result tx') :
    Awaiting (⟨t, (tx', c')⟩, s.2.update s.1.state.1 tx' t (.onFrame frame) result frames) := by
  cases hfr with
  | refused hh =>
    rw [Awaited.update, if_neg (not_takes_of_refused hh),
      if_neg (not_takes_of_refused hh)]
    exact h.still ht rfl
  | wait hh hpci hlow =>
    rw [Awaited.update, if_pos (takes_iff.2 ⟨hh, hpci, hlow⟩)]
    refine ⟨hreg, h.complete, fun d hd => Nat.le_trans (h.past d hd) ht, h.first, ?_⟩
    intro ho hfc
    refine ⟨t, Nat.le_refl t, ?_, Or.inl rfl⟩
    have ho : s.1.state.1.txOngoing = true := ho
    have hfc : s.1.state.1.txWaitingFc = true := hfc
    -- before the first Continue-To-Send no block can be full
    cases hafter : s.1.state.1.txWaitingAfterBlock with
    | true => simp [fcBudget]
    | false =>
      have hin := h.first ho hfc hafter
      have hfull : s.1.state.1.afterBlock = false := by
        rw [afterBlock, hin]
        cases hb : s.1.state.1.blockSize.toNat with
        | zero =>
          have hzero : s.1.state.1.blockSize = 0 := UInt8.toNat_inj.1 hb
          rw [hzero]
          rfl
        | succ n => simp
      simp [fcBudget, hfull]
  | abandoned hh hpci hlow =>
    rw [Awaited.update, if_neg (not_takes hlow.1),
      if_neg (not_takes hlow.2)]
    exact ⟨hreg, (fun ho => by cases ho), fun d hd => Nat.le_trans (h.past d hd) ht,
      (fun ho => by cases ho), fun ho => by cases ho⟩
  | cts hh hpci hlow =>
    rw [Awaited.update, if_neg (not_takes_wait hlow),
      if_pos (takes_iff.2 ⟨hh, hpci, hlow⟩)]
    exact ⟨hreg, h.complete, fun d hd => Nat.le_trans (h.past d hd) ht, (fun _ hfc => by cases hfc),
      fun _ hfc => by cases hfc⟩

/-- One operation under the observer. -/
theorem Awaiting.acts (h : Awaiting s) (ht : s.1.now ≤ t) (hreg : Regular tx')
    (hact : Acts s.1.state.1 s.1.state.2 (tick t) op result frames tx') :
    Awaiting (⟨t, (tx', c')⟩, s.2.update s.1.state.1 tx' t op result frames) := by
  cases hact with
  | start hst => exact h.start ht hreg hst
  | idle ho =>
    refine ⟨hreg, ?_, ?_, ?_, ?_⟩
    · exact fun ho' => absurd (ho.symm.trans ho') Bool.false_ne_true
    · intro d hd
      rw [update_poll] at hd
      dsimp only at hd
      split at hd
      · cases hd
      · split at hd
        · cases hd
          exact Nat.le_refl t
        · exact Nat.le_trans (h.past d hd) ht
    · exact fun ho' => absurd (ho.symm.trans ho') Bool.false_ne_true
    · exact fun ho' => absurd (ho.symm.trans ho') Bool.false_ne_true
  | stopped ho hclears hstop =>
    have hfl : s.1.state.1.inFlight = true := by
      rw [inFlight]
      cases hstop with
      | refused hw => rw [hw]; rfl
      | expired hw => rw [hw]; rfl
      | accepted hw => rw [hw]; rfl
      | held _ hp => rw [hp, Bool.or_true]
      | unconfirmed _ hp => rw [hp, Bool.or_true]
    have hbusy : s.1.state.1.inFlight = false → tx'.inFlight = false ∧ frames = [] := by
      rw [hfl]
      exact fun h => by cases h
    cases hstop with
    | refused | accepted | held => exact h.kept ht ho hreg ⟨rfl, rfl, rfl, rfl, rfl⟩ hbusy
    | expired | unconfirmed => exact h.ended ht ho hreg fun ho => by cases ho
  | advanced ho hclears hadv => exact h.advance ht hreg ho hadv
  | framed hfr => exact h.frame ht hreg hfr
  | reset =>
    exact ⟨hreg, (fun ho => by cases ho), fun d hd => Nat.le_trans (h.past d hd) ht,
      (fun ho => by cases ho), fun ho => by cases ho⟩

theorem Awaiting.step (h : Awaiting s) (hC : PromptStep s e) :
    Awaiting (awaitedStep s e) ∧ Patient s e := by
  have ht : s.1.now ≤ s.1.now + e.1 := Nat.le_add_right _ _
  have hspec := s.1.step_spec h.regular.nAs e
  refine ⟨h.acts ht (s.1.step_regular h.regular e) hspec, ?_⟩
  intro hop ho hclears hres
  rw [hop, hres] at hspec
  generalize s.1.accepted e = frames at hspec
  generalize (s.1.step e).state.1 = tx' at hspec
  cases hspec with
  | stopped _ hstuck =>
    rw [hclears] at hstuck
    cases hstuck
  | advanced _ _ hadv =>
    cases hadv with
    | unanswered hfc hr => exact h.patient ht (hC hop) ho hclears hfc hr

/-- **The wait for Flow Control**: in a run that never reaches the defect, the sender gives up on Flow Control
no sooner than its budget after the awaited frame's completion or after the last WAIT. -/
theorem flow_control_awaited (config : IsotpConfig) (c : Channel) (now : ℕ) (es : List (ℕ × Op)) :
    AllSteps awaitedStep (Endpoint.init config c now, { scheduled := now, done := none, wait := none })
        PromptStep es →
      AllSteps awaitedStep (Endpoint.init config c now, { scheduled := now, done := none, wait := none })
        Patient es :=
  allSteps_of_invariant_of (Awaiting.init config c now) (fun _ _ h hC => (h.step hC).1)
    (fun _ _ h hC => (h.step hC).2) es

/-- A driver that refuses its first frame once. -/
def refusesFirst : Channel where
  sendAnswers := fun n => n ≠ 0
  pendingAnswers := fun _ => false
  sent := []

/-- The First Frame is accepted 10 ms late; a WAIT comes, and nothing after it. -/
theorem flow_control_awaited_wait :
    AllSteps awaitedStep
      (Endpoint.init (IsotpConfig.init none) refusesFirst 0, { scheduled := 0, done := none, wait := none })
      Patient
      [(0, .start (List.replicate 20 0)), (10, .poll), (5, .onFrame (Frame.fill 0xCC [0x31, 0, 0])),
        (999, .poll), (1, .poll)] :=
  flow_control_awaited _ _ _ _ (by decide +kernel)

/-- The First Frame is accepted after 999 ms in the queue, and the sender gives up on its answer 1 ms later. -/
theorem not_flow_control_awaited :
    ¬AllSteps awaitedStep
      (Endpoint.init (IsotpConfig.init none) refusesFirst 0, { scheduled := 0, done := none, wait := none })
      Patient [(0, .start (List.replicate 20 0)), (999, .poll), (1, .poll)] := by
  intro h
  have hlast := h [(0, .start (List.replicate 20 0)), (999, .poll)] (1, .poll) [] rfl rfl
    (by decide +kernel) (by decide +kernel) (by decide +kernel)
  obtain ⟨a, ha | ha, hle⟩ := hlast
  · have hnone : none = some a := ha
    cases hnone
  · have hdone : some 999 = some a := ha
    cases hdone
    revert hle
    decide +kernel

end IsotpTx

end DualCan.Isotp
