import DualCan.Isotp.TxSteps
import Mathlib.Data.List.Chain

/-!
# ISO-TP: the separation time on the bus

`IsotpTx_Poll` keeps STmin from `tx_last_cf_ms`, the time the last Consecutive Frame was *scheduled*. A frame
that waits for a mailbox is accepted later than that, and the next one may then follow it too soon. An
observer (`Pace`) writes down when the driver accepted the last Consecutive Frame and the STmin of the latest
Continue-To-Send; as long as no poll lets a frame overtake its separation in this way, and no Continue-To-Send
raises STmin under a frame that is waiting, every two frames are far enough apart.
-/

namespace DualCan.Isotp

open DualCan.Clock DualCan.Run

namespace IsotpTx

/-- When the last Consecutive Frame of the transfer was accepted, and the STmin byte of the latest
Continue-To-Send. -/
structure Pace where
  last : Option ℕ
  stmin : UInt8

/-- What the observer writes down at the time `t` of an operation that had `n` Consecutive Frames accepted. -/
def Pace.update (p : Pace) (tx : IsotpTx) (t : ℕ) (op : Op) (result : IsotpResult) (n : ℕ) : Pace :=
  match op with
  | .start _ => if result = .ok then { p with last := none } else p
  | .poll => if 0 < n then { p with last := some t } else p
  | .onFrame frame =>
    if tx.takes frame fcCts then { p with stmin := getElem frame 2 Frame.two_lt } else p
  | .reset => p

def Pace.note (s : Endpoint) (e : ℕ × Op) (p : Pace) : Pace :=
  p.update s.state.1 (s.now + e.1) e.2 (s.resultOf e) (s.consecutives e)

/-- The sender beside its observer. -/
def pacedStep : Endpoint × Pace → ℕ × Op → Endpoint × Pace := observed Endpoint.step Pace.note

/-- Two real times at least `stmin` ms apart, in real time and on the clock. -/
def Separated (stmin : UInt8) (a b : ℕ) : Prop :=
  a + stmin.toNat ≤ b ∧ (b < a + 2 ^ 32 → stmin.toNat ≤ (tick b - tick a).toNat)

/-- The Consecutive Frames an operation makes the channel accept are separated, from each other and from the
one before them. -/
def Spaced (s : Endpoint × Pace) (e : ℕ × Op) : Prop :=
  (s.2.last.toList ++ List.replicate (s.1.consecutives e) (s.1.now + e.1)).IsChain (Separated s.2.stmin)

/-- A poll would hand over the next Consecutive Frame, were it not for STmin. -/
def due (tx : IsotpTx) (c : Channel) : Bool :=
  tx.txOngoing && tx.clears c && !tx.txWaitingFc && !tx.afterBlock &&
    decide (tx.txOffset < tx.txData.length)

/-- When the last Consecutive Frame was accepted, as of a poll that finds it accepted. -/
def acceptedBy (s : Endpoint × Pace) (t : ℕ) : Option ℕ :=
  if s.1.state.1.txWaitingEnqueue then some t else s.2.last

/-- The poll does not overtake: where the last Consecutive Frame was accepted later than it was scheduled, and
the sender is due to send the next one with STmin over since the scheduling, it is over since the acceptance
too. -/
def InPace (s : Endpoint × Pace) (t : ℕ) : Prop :=
  s.1.state.1.due s.1.state.2 = true → s.1.state.1.txHasSentCf = true →
    s.1.state.1.apart (tick t) = true →
      ∀ a ∈ acceptedBy s t, tick a ≠ s.1.state.1.txLastCfMs → a + s.1.state.1.stminMs.toNat ≤ t

/-- The steps that do not reach the defect. -/
def Unhurried (s : Endpoint × Pace) (e : ℕ × Op) : Prop :=
  match e.2 with
  | .poll => InPace s (s.1.now + e.1)
  | .onFrame frame =>
    s.1.state.1.txWaitingEnqueue = true → s.1.state.1.txHasSentCf = true →
      s.1.state.1.takes frame fcCts = true → getElem frame 2 Frame.two_lt ≤ s.1.state.1.stminMs
  | _ => True

instance (stmin : UInt8) : DecidableRel (Separated stmin) :=
  fun a b => inferInstanceAs (Decidable (_ ∧ (b < a + 2 ^ 32 → _)))

instance (s : Endpoint × Pace) (e : ℕ × Op) : Decidable (Spaced s e) :=
  inferInstanceAs (Decidable (List.IsChain (Separated s.2.stmin) _))

instance (s : Endpoint × Pace) (t : ℕ) : Decidable (InPace s t) :=
  have : Decidable (∀ a ∈ acceptedBy s t, tick a ≠ s.1.state.1.txLastCfMs →
      a + s.1.state.1.stminMs.toNat ≤ t) := Option.decidableForallMem _
  inferInstanceAs (Decidable (_ → _ → _ → _))

instance (s : Endpoint × Pace) : (e : ℕ × Op) → Decidable (Unhurried s e)
  | (gap, .poll) => inferInstanceAs (Decidable (InPace s (s.1.now + gap)))
  | (_, .onFrame _) => inferInstanceAs (Decidable (_ → _ → _ → _))
  | (_, .start _) => isTrue trivial
  | (_, .reset) => isTrue trivial

/-! ## The invariant -/

/-- What ties the observer to the sender. -/
structure Paced (s : Endpoint × Pace) : Prop where
  regular : Regular s.1.state.1
  stmin : s.2.stmin = s.1.state.1.stminMs
  past : ∀ a ∈ s.2.last, a ≤ s.1.now
  fresh : s.1.state.1.txOngoing = true → s.1.state.1.txHasSentCf = false → s.2.last = none
  waiting : s.1.state.1.txOngoing = true → s.1.state.1.txWaitingEnqueue = true →
    ∀ a ∈ s.2.last, a + s.1.state.1.stminMs.toNat ≤ s.1.now

theorem Paced.init (config : IsotpConfig) (c : Channel) (now : ℕ) :
    Paced (Endpoint.init config c now, { last := none, stmin := 0 }) where
  regular := Regular.init config
  stmin := rfl
  past := fun a ha => by cases ha
  fresh := fun _ _ => rfl
  waiting := fun _ hw => by cases hw

variable {s : Endpoint × Pace} {e : ℕ × Op}

/-- STmin has passed since the last acceptance whenever the next frame is handed over: the code's own test
where it was accepted when it was scheduled, the assumption where it was accepted later. -/
theorem Paced.gap {t : ℕ} (h : Paced s) (ht : s.1.now ≤ t) (hin : InPace s t)
    (hdue : s.1.state.1.due s.1.state.2 = true) (hst : s.1.state.1.apart (tick t) = true)
    (hcf : s.1.state.1.txHasSentCf = true) :
    ∀ a ∈ acceptedBy s t, a + s.1.state.1.stminMs.toNat ≤ t := by
  intro a ha
  by_cases hlate : tick a = s.1.state.1.txLastCfMs
  · have hat : a ≤ t := by
      unfold acceptedBy at ha
      split at ha
      · cases ha
        exact le_refl t
      · exact le_trans (h.past a ha) ht
    cases hz : decide (0 < s.1.state.1.stminMs) with
    | false =>
      have hzero : s.1.state.1.stminMs.toNat = 0 := by
        have hle := of_decide_eq_false hz
        rw [UInt8.lt_iff_toNat_lt] at hle
        simpa using hle
      omega
    | true =>
      refine over_of_apart hat ?_
      rw [apart, hcf, hz, ← hlate] at hst
      simpa using hst
  · exact hin hdue hcf hst a ha hlate

theorem separated_of {stmin : UInt8} {a b : ℕ} (h : a + stmin.toNat ≤ b) : Separated stmin a b := by
  refine ⟨h, fun hturn => ?_⟩
  rw [tick_sub (by omega) hturn]
  omega

/-- At most two frames are accepted at a time, the first of them one that was waiting. -/
theorem spaced_of {stmin : UInt8} {last : Option ℕ} {t : ℕ} (waited sent : Bool)
    (h1 : waited = true → ∀ a ∈ last, a + stmin.toNat ≤ t)
    (h2 : sent = true → ∀ a ∈ (if waited then some t else last), a + stmin.toNat ≤ t) :
    (last.toList ++ List.replicate (waited.toNat + sent.toNat) t).IsChain (Separated stmin) := by
  have hcons : ∀ n, (∀ a ∈ last, a + stmin.toNat ≤ t) →
      (List.replicate (n + 1) t).IsChain (Separated stmin) →
        (last.toList ++ List.replicate (n + 1) t).IsChain (Separated stmin) := by
    intro n hlast hrep
    cases last with
    | none => exact hrep
    | some a =>
      rw [Option.toList_some, List.singleton_append, List.replicate_succ, List.isChain_cons_cons]
      rw [List.replicate_succ] at hrep
      exact ⟨separated_of (hlast a rfl), hrep⟩
  cases waited with
  | false =>
    cases sent with
    | false =>
      cases last with
      | none => exact .nil
      | some a => exact .singleton a
    | true => exact hcons 0 (h2 rfl) (.singleton t)
  | true =>
    cases sent with
    | false => exact hcons 0 (h1 rfl) (.singleton t)
    | true =>
      refine hcons 1 (h1 rfl) ?_
      have htt : t + stmin.toNat ≤ t := h2 rfl t rfl
      rw [List.replicate_succ, List.replicate_succ, List.isChain_cons_cons]
      exact ⟨separated_of htt, .singleton t⟩

/-- What no operation disturbs, however much time passes. -/
theorem Paced.keep {tx : IsotpTx} {c : Channel} {t : ℕ} (h : Paced s) (ht : s.1.now ≤ t) (hreg : Regular tx)
    (hst : tx.stminMs = s.1.state.1.stminMs)
    (hcf : tx.txOngoing = true → s.1.state.1.txOngoing = true ∧
      (tx.txHasSentCf = false → s.1.state.1.txHasSentCf = false) ∧
      (tx.txWaitingEnqueue = true → s.1.state.1.txWaitingEnqueue = true)) :
    Paced (⟨t, (tx, c)⟩, s.2) where
  regular := hreg
  stmin := by rw [h.stmin, hst]
  past := fun a ha => le_trans (h.past a ha) ht
  fresh := fun ho hsent => h.fresh (hcf ho).1 ((hcf ho).2.1 hsent)
  waiting := fun ho hw a ha => by
    have hle := h.waiting (hcf ho).1 ((hcf ho).2.2 hw) a ha
    rw [hst]
    exact le_trans hle ht

variable {op : Op} {result : IsotpResult} {frames : List Frame} {tx' : IsotpTx} {c' : Channel} {t : ℕ}

/-- A Consecutive Frame that waits for a mailbox is already separated from the one before it. -/
theorem Paced.gap_waiting (h : Paced s) (ho : s.1.state.1.txOngoing = true)
    (hw : s.1.state.1.txWaitingEnqueue = true) :
    ∀ a ∈ s.2.last, a + s.2.stmin.toNat ≤ s.1.now := by
  rw [h.stmin]
  exact h.waiting ho hw

/-- A poll that goes on, and the Consecutive Frames it had accepted. -/
theorem Paced.polled {tx : IsotpTx} {c : Channel} {n : ℕ} (h : Paced s) (ht : s.1.now ≤ t)
    (hreg : Regular tx) (hst : tx.stminMs = s.1.state.1.stminMs)
    (hfresh : tx.txHasSentCf = false → n = 0 ∧ s.2.last = none)
    (hwait : tx.txWaitingEnqueue = true →
      ∀ a ∈ (if 0 < n then some t else s.2.last), a + s.1.state.1.stminMs.toNat ≤ t) :
    Paced (⟨t, (tx, c)⟩, s.2.update s.1.state.1 t .poll result n) := by
  have hlast : (s.2.update s.1.state.1 t .poll result n).last = if 0 < n then some t else s.2.last := by
    rw [Pace.update]
    split <;> rfl
  have hstmin : (s.2.update s.1.state.1 t .poll result n).stmin = s.2.stmin := by
    rw [Pace.update]
    split <;> rfl
  refine ⟨hreg, by rw [hstmin, h.stmin, hst], ?_, ?_, ?_⟩
  · intro a ha
    rw [hlast] at ha
    split at ha
    · cases ha
      exact le_refl t
    · exact le_trans (h.past a ha) ht
  · intro _ hcf
    obtain ⟨hn, hnone⟩ := hfresh hcf
    rw [hlast, hn, hnone]
    rfl
  · intro _ hw a ha
    rw [hlast] at ha
    rw [hst]
    exact hwait hw a ha

/-- The next Consecutive Frame is handed over: STmin has passed since the last one was accepted, also where
this very poll found it accepted. -/
theorem Paced.next {asDeadlineMs : UInt32} (h : Paced s) (ht : s.1.now ≤ t) (hin : InPace s t)
    (ho : s.1.state.1.txOngoing = true) (hclears : s.1.state.1.clears s.1.state.2 = true)
    (hfc : (settled s.1.state.1 asDeadlineMs).txWaitingFc = false)
    (hfull : (settled s.1.state.1 asDeadlineMs).afterBlock = false)
    (hmore : (settled s.1.state.1 asDeadlineMs).txOffset < (settled s.1.state.1 asDeadlineMs).txData.length)
    (hst : (settled s.1.state.1 asDeadlineMs).apart (tick t) = true) :
    ∀ a ∈ (if s.1.state.1.txWaitingEnqueue && s.1.state.1.txHasSentCf then some t else s.2.last),
      a + s.1.state.1.stminMs.toNat ≤ t := by
  have hdue : s.1.state.1.due s.1.state.2 = true := by
    have hfc : s.1.state.1.txWaitingFc = false := hfc
    have hfull : s.1.state.1.afterBlock = false := hfull
    have hmore : s.1.state.1.txOffset < s.1.state.1.txData.length := hmore
    simp [due, ho, hclears, hfc, hfull, hmore]
  cases hcf : s.1.state.1.txHasSentCf with
  | false =>
    rw [Bool.and_false, h.fresh ho hcf]
    exact fun a ha => by cases ha
  | true =>
    rw [Bool.and_true]
    exact h.gap ht hin hdue hst hcf

/-- One operation under the observer. -/
theorem Paced.acts (h : Paced s) (ht : s.1.now ≤ t) (hreg : Regular tx')
    (hact : Acts s.1.state.1 s.1.state.2 (tick t) op result frames tx')
    (hpoll : op = .poll → InPace s t)
    (hframe : ∀ frame, op = .onFrame frame → s.1.state.1.txWaitingEnqueue = true →
      s.1.state.1.txHasSentCf = true → s.1.state.1.takes frame fcCts = true →
        getElem frame 2 Frame.two_lt ≤ s.1.state.1.stminMs) :
    Paced (⟨t, (tx', c')⟩, s.2.update s.1.state.1 t op result
        (frames.countP fun frame => frame.pci = pciCf)) ∧
      (s.2.last.toList ++ List.replicate (frames.countP fun frame => frame.pci = pciCf) t).IsChain
        (Separated s.2.stmin) := by
  have hquiet : (s.2.last.toList ++ List.replicate 0 t).IsChain (Separated s.2.stmin) :=
    spaced_of false false (fun h => by cases h) (fun h => by cases h)
  cases hact with
  | start hst =>
    rw [hst.consecutive]
    refine ⟨?_, hquiet⟩
    cases hst with
    | refused hr =>
      rw [Pace.update, if_neg hr]
      exact h.keep ht hreg rfl fun ho => ⟨ho, id, id⟩
    | single answer hidle hlen =>
      refine ⟨hreg, ?_, fun a ha => (by cases ha), fun _ _ => rfl, fun _ _ a ha => (by cases ha)⟩
      simp only [Pace.update, handed_stminMs]
      exact h.stmin
    | multi answer hidle hlen =>
      refine ⟨hreg, ?_, fun a ha => (by cases ha), fun _ _ => rfl, fun _ _ a ha => (by cases ha)⟩
      simp only [Pace.update, handed_stminMs]
      exact h.stmin
  | idle ho =>
    exact ⟨h.keep ht hreg rfl fun ho => ⟨ho, id, id⟩, hquiet⟩
  | stopped ho hclears hstop =>
    cases hstop with
    | refused => exact ⟨h.keep ht hreg rfl fun ho => ⟨ho, id, id⟩, hquiet⟩
    | expired => exact ⟨h.keep ht hreg rfl (fun ho => by cases ho), hquiet⟩
    | accepted hw =>
      have hcount := h.regular.settles_consecutive
      rw [settles, if_pos hw, hw, Bool.true_and] at hcount
      rw [hcount]
      refine ⟨h.polled ht hreg rfl ?_ (fun hw' => by cases hw'), ?_⟩
      · intro hcf
        have hcf : s.1.state.1.txHasSentCf = false := hcf
        exact ⟨by rw [hcf]; rfl, h.fresh ho hcf⟩
      · exact spaced_of s.1.state.1.txHasSentCf false
          (fun _ a ha => le_trans (h.gap_waiting ho hw a ha) ht) (fun h => by cases h)
    | held => exact ⟨h.keep ht hreg rfl fun ho => ⟨ho, id, id⟩, hquiet⟩
    | unconfirmed => exact ⟨h.keep ht hreg rfl (fun ho => by cases ho), hquiet⟩
  | advanced ho hclears hadv =>
    have hcount := h.regular.settles_consecutive
    rw [List.countP_append, hcount]
    have hwaited : (s.1.state.1.txWaitingEnqueue && s.1.state.1.txHasSentCf) = true →
        ∀ a ∈ s.2.last, a + s.2.stmin.toNat ≤ t :=
      fun hw a ha => le_trans (h.gap_waiting ho (Bool.and_eq_true_iff.1 hw).1 a ha) ht
    cases hadv with
    | consecutive answer hfc hfull hmore hst =>
      have hnext := h.next ht (hpoll rfl) ho hclears hfc hfull hmore hst
      rw [taken_consecutive]
      refine ⟨h.polled ht hreg ?_ ?_ ?_, ?_⟩
      · rw [handed_stminMs]
        rfl
      · intro hcf
        rw [handed_txHasSentCf] at hcf
        cases hcf
      · intro hw
        rw [handed_txWaitingEnqueue, Option.isNone_iff_eq_none] at hw
        subst hw
        cases hb : s.1.state.1.txWaitingEnqueue && s.1.state.1.txHasSentCf with
        | false =>
          rw [hb] at hnext
          exact hnext
        | true =>
          rw [hb] at hnext
          exact hnext
      · refine spaced_of _ _ hwaited fun _ => ?_
        rw [h.stmin]
        exact hnext
    | _ =>
      refine ⟨h.polled ht hreg rfl ?_ (fun hw => by cases hw),
        spaced_of _ false hwaited (fun h => by cases h)⟩
      intro hcf
      have hcf : s.1.state.1.txHasSentCf = false := hcf
      exact ⟨by rw [hcf, Bool.and_false]; rfl, h.fresh ho hcf⟩
  | framed hfr =>
    cases hfr with
    | refused hh hr =>
      rw [Pace.update, if_neg (not_takes_of_refused hh)]
      exact ⟨h.keep ht hreg rfl fun ho => ⟨ho, id, id⟩, hquiet⟩
    | wait hh hpci hlow =>
      rw [Pace.update, if_neg (not_takes_cts hlow)]
      exact ⟨h.keep ht hreg rfl fun ho => ⟨ho, id, id⟩, hquiet⟩
    | abandoned hh hpci hlow hr =>
      rw [Pace.update, if_neg (not_takes hlow.2)]
      exact ⟨h.keep ht hreg rfl (fun ho => by cases ho), hquiet⟩
    | cts hh hpci hlow =>
      have htakes := takes_iff.2 ⟨hh, hpci, hlow⟩
      rw [Pace.update, if_pos htakes]
      refine ⟨⟨hreg, rfl, fun a ha => le_trans (h.past a ha) ht, h.fresh, ?_⟩, hquiet⟩
      intro ho hw a ha
      cases hcf : s.1.state.1.txHasSentCf with
      | false =>
        have hnone := h.fresh ho hcf
        rw [show s.2.last = none from hnone] at ha
        cases ha
      | true =>
        have hle := UInt8.le_iff_toNat_le.1 (hframe _ rfl hw hcf htakes)
        have hgap := h.waiting ho hw a ha
        dsimp only
        omega
  | reset => exact ⟨h.keep ht hreg rfl (fun ho => by cases ho), hquiet⟩

theorem Paced.step (h : Paced s) (hC : Unhurried s e) : Paced (pacedStep s e) ∧ Spaced s e := by
  refine h.acts (Nat.le_add_right _ _) (s.1.step_regular h.regular e) (s.1.step_spec h.regular.nAs e) ?_ ?_
  · intro hop
    rw [Unhurried, hop] at hC
    exact hC
  · intro frame hop
    rw [Unhurried, hop] at hC
    exact hC

/-- **Separation time on the bus**: in a run that never reaches the defect, any two successive Consecutive
Frames of a transfer are accepted at least STmin apart. -/
theorem consecutive_frames_separated (config : IsotpConfig) (c : Channel) (now : ℕ) (es : List (ℕ × Op)) :
    AllSteps pacedStep (Endpoint.init config c now, { last := none, stmin := 0 }) Unhurried es →
      AllSteps pacedStep (Endpoint.init config c now, { last := none, stmin := 0 }) Spaced es :=
  allSteps_of_invariant_of (Paced.init config c now) (fun _ _ h hC => (h.step hC).1)
    (fun _ _ h hC => (h.step hC).2) es

/-- A transfer of twenty bytes with STmin 20 through a driver that refuses the first Consecutive Frame once;
`d` is the time from there to the poll that has it accepted. -/
def refusedCall (d : ℕ) : List (ℕ × Op) :=
  [(0, .start (List.replicate 20 0)), (5, .onFrame (Frame.fill 0xCC [0x30, 0, 20])), (5, .poll), (d, .poll),
    (20, .poll)]

theorem consecutive_frames_separated_refused :
    AllSteps pacedStep
      (Endpoint.init (IsotpConfig.init none) refusesSecond 0, { last := none, stmin := 0 }) Spaced
      (refusedCall 15) :=
  consecutive_frames_separated _ _ _ _ (by decide +kernel)

/-- Accepted 20 ms after it was scheduled, it is followed by the next in the same poll. -/
theorem not_consecutive_frames_separated :
    ¬AllSteps pacedStep
      (Endpoint.init (IsotpConfig.init none) refusesSecond 0, { last := none, stmin := 0 }) Spaced
      (refusedCall 20) := by
  intro h
  have hlast := h ((refusedCall 20).take 3) (20, .poll) [(20, .poll)] rfl
  revert hlast
  decide +kernel

end IsotpTx

end DualCan.Isotp
