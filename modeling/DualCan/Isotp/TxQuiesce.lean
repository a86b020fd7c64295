import DualCan.Isotp.TxSteps
import DualCan.Run.Fair

/-!
# ISO-TP: the sender comes to rest

Every waiting condition of a busy sender has a timer, and no timer grows so old that the wrapping clock takes it
for one of the future. `Aged` bounds the ages: it names the real times at which the frame in flight was
scheduled or accepted, the Flow Control wait was armed and the last Consecutive Frame was scheduled. Once only
polls come, each at least a budget after the last, every poll lowers `rank` or ends the transfer.
-/

namespace DualCan.Isotp

open DualCan.Clock DualCan.Run

namespace IsotpTx

/-! ## Attended runs -/

/-- The real time of the last poll or of the start of the transfer, after an operation at the time `t`. -/
def served (t : ℕ) (op : Op) (result : IsotpResult) (p : ℕ) : ℕ :=
  match op with
  | .poll => t
  | .start _ => if result = .ok then t else p
  | .onFrame _ => p
  | .reset => p

def lastServed (s : Endpoint) (e : ℕ × Op) (p : ℕ) : ℕ := served (s.now + e.1) e.2 (s.resultOf e) p

/-- The sender beside the time of its last poll. -/
def attendedStep : Endpoint × ℕ → ℕ × Op → Endpoint × ℕ := observed Endpoint.step lastServed

/-- A busy sender is polled at intervals of at most 2^29 ms. -/
def Attended (s : Endpoint × ℕ) (e : ℕ × Op) : Prop :=
  s.1.state.1.txOngoing = true → s.1.now + e.1 ≤ s.2 + 2 ^ 29

instance (s : Endpoint × ℕ) (e : ℕ × Op) : Decidable (Attended s e) := inferInstanceAs (Decidable (_ → _))

/-- The longest budget of a sender, or 256 ms. -/
def longestWait (tx : IsotpTx) : ℕ := max (max tx.nAsMs.toNat tx.nBsMs.toNat) (max tx.nCrMs.toNat 256)

/-- The Consecutive Frames not yet scheduled. -/
def framesLeft (tx : IsotpTx) : ℕ := (tx.txData.length - tx.txOffset + 6) / 7

/-! ## Ages -/

/-- `x` is not long before the frame in flight was scheduled or accepted, at `q`. -/
def Near (tx : IsotpTx) (q x : ℕ) : Prop :=
  (tx.txWaitingEnqueue = true → q ≤ x) ∧
    (tx.txWaitingEnqueue = false → tx.txFramePending = true → q < x + 2 ^ 29 + 2 ^ 16)

/-- The timers of a busy sender last polled at `p`, as of `now`: the frame in flight was scheduled or accepted at
`q`, the Flow Control wait was armed at `f`, the last Consecutive Frame was scheduled at `l`. -/
structure Aged (tx : IsotpTx) (p now q f l : ℕ) : Prop where
  past : p ≤ now ∧ q ≤ now ∧ f ≤ now ∧ l ≤ now
  queued : tx.txWaitingEnqueue = true →
    tx.txEnqueueDeadlineMs = tick q + tx.nAsMs.toUInt32 ∧ p < q + 2 ^ 16
  pending : tx.txWaitingEnqueue = false → tx.txFramePending = true →
    tx.txAsDeadlineMs = tick q + tx.nAsMs.toUInt32 ∧ p < q + 2 ^ 16
  awaiting : tx.txWaitingFc = true →
    (∃ n, (n = tx.nBsMs ∨ n = tx.nCrMs) ∧ tx.txDeadlineMs = tick f + n.toUInt32) ∧ Near tx q f ∧
      (tx.txWaitingEnqueue = false → tx.txFramePending = false → p < f + 2 ^ 16)
  sent : tx.txHasSentCf = true → tx.txLastCfMs = tick l ∧ Near tx q l

variable {tx tx' : IsotpTx} {c : Channel} {p now t q f l : ℕ} {gaps : List ℕ} {now' : UInt32}
  {result : IsotpResult} {frames : List Frame}

theorem Aged.later (h : Aged tx p now q f l) (ht : now ≤ t) : Aged tx p t q f l :=
  { h with past := ⟨Nat.le_trans h.past.1 ht, Nat.le_trans h.past.2.1 ht, Nat.le_trans h.past.2.2.1 ht,
      Nat.le_trans h.past.2.2.2 ht⟩ }

/-- What is near the frame in flight is younger than half the clock's range at the next poll. -/
theorem Aged.young {x : ℕ} (h : Aged tx p now q f l) (ht : t ≤ p + 2 ^ 29) (hnear : Near tx q x)
    (hflight : tx.txWaitingEnqueue = true ∨ tx.txFramePending = true) : t < x + 2 ^ 31 := by
  cases hw : tx.txWaitingEnqueue with
  | true =>
    have hp := (h.queued hw).2
    have hle := hnear.1 hw
    omega
  | false =>
    have hpending : tx.txFramePending = true := by
      rcases hflight with hflight | hflight
      · rw [hw] at hflight
        cases hflight
      · exact hflight
    have hp := (h.pending hw hpending).2
    have hle := hnear.2 hw hpending
    omega

/-- So is the Flow Control wait, whether a frame is in flight or not. -/
theorem Aged.fc_young (h : Aged tx p now q f l) (ht : t ≤ p + 2 ^ 29) (hfc : tx.txWaitingFc = true) :
    t < f + 2 ^ 31 := by
  obtain ⟨-, hnear, hquiet⟩ := h.awaiting hfc
  by_cases hflight : tx.txWaitingEnqueue = true ∨ tx.txFramePending = true
  · exact h.young ht hnear hflight
  · rw [not_or, Bool.not_eq_true, Bool.not_eq_true] at hflight
    have := hquiet hflight.1 hflight.2
    omega

/-- A separation that holds a frame back is over 256 ms later, whatever the clock has wrapped to. -/
theorem apart_later {d : ℕ} (h : tx.apart (tick t) = false) (hd : 256 ≤ d) (hd' : d < 2 ^ 31) :
    tx.apart (tick (t + d)) = true := by
  rw [apart, Bool.not_eq_false', Bool.and_eq_true] at h
  have hopen := separation_over (of_decide_eq_true h.2) hd hd'
  rw [apart, tick_add, decide_eq_false hopen, Bool.and_false]
  rfl

/-- The separation after a frame scheduled at `l` is over from 256 ms on, for a whole turn of the clock. -/
theorem apart_of_sent (hlast : tx.txLastCfMs = tick l) (h1 : l + 256 ≤ t) (h2 : t < l + 2 ^ 32) :
    tx.apart (tick t) = true := by
  have hs : tx.stminMs.toUInt32.toNat < 256 := by
    have h := tx.stminMs.toNat_lt
    simpa using h
  have hover : ¬(tick t - tick l < tx.stminMs.toUInt32) := by
    rw [UInt32.lt_iff_toNat_lt, tick_sub (by omega) h2]
    omega
  rw [apart, hlast, decide_eq_false hover, Bool.and_false]
  rfl

/-- Once a poll has sent a frame or held one back, STmin is over at any poll at least 256 ms later. -/
def Rested (tx : IsotpTx) (t : ℕ) : Prop :=
  tx.txWaitingFc = false → tx.txWaitingEnqueue = false → tx.txFramePending = false →
    ∀ d, 256 ≤ d → d < 2 ^ 31 → tx.apart (tick (t + d)) = true

/-- What a poll leaves of a transfer that goes on. -/
def Kept (tx' : IsotpTx) (t : ℕ) : Prop :=
  tx'.txOngoing = true → (∃ q f l, Aged tx' t t q f l) ∧ Rested tx' t

theorem kept_of_idle (h : tx'.txOngoing = false) : Kept tx' t :=
  fun ho => absurd (h.symm.trans ho) Bool.false_ne_true

/-- A poll that stops at the frame in flight. -/
theorem Aged.stopped (h : Aged tx p now q f l) (ht : now ≤ t) (hp : t ≤ p + 2 ^ 29)
    (hstop : Stopped tx c (tick t) result frames tx') : Kept tx' t := by
  obtain ⟨hpn, hq, hf, hl⟩ := h.past
  cases hstop with
  | expired => exact kept_of_idle rfl
  | unconfirmed => exact kept_of_idle rfl
  | refused hw hsend hr =>
    obtain ⟨hdeadline, hage⟩ := h.queued hw
    rw [hdeadline] at hr
    have hyoung := lt_of_not_reached (by omega) (by omega) hr
    have hbusy : tx.txWaitingEnqueue ≠ false := by simp [hw]
    refine fun _ => ⟨⟨q, f, l, ⟨Nat.le_refl t, by omega, by omega, by omega⟩, fun _ => ⟨hdeadline, hyoung⟩,
      fun hw' => absurd hw' hbusy, fun hfc => ?_, h.sent⟩, fun _ hw' => absurd hw' hbusy⟩
    obtain ⟨hn, hnear, -⟩ := h.awaiting hfc
    exact ⟨hn, hnear, fun hw' => absurd hw' hbusy⟩
  | accepted hw hsend =>
    have hage := (h.queued hw).2
    have hnear : ∀ {x : ℕ}, Near tx q x → t < x + 2 ^ 29 + 2 ^ 16 := by
      intro x hx
      have := hx.1 hw
      omega
    refine fun _ => ⟨⟨t, f, l, ⟨Nat.le_refl t, Nat.le_refl t, by omega, by omega⟩, (fun hw' => by cases hw'),
      fun _ _ => ⟨rfl, by omega⟩, fun hfc => ?_, fun hcf => ?_⟩, fun _ _ hp' => by cases hp'⟩
    · obtain ⟨hn, hx, -⟩ := h.awaiting hfc
      exact ⟨hn, ⟨(fun hw' => by cases hw'), fun _ _ => hnear hx⟩, fun _ hp' => by cases hp'⟩
    · obtain ⟨hlast, hx⟩ := h.sent hcf
      exact ⟨hlast, (fun hw' => by cases hw'), fun _ _ => hnear hx⟩
  | held hw hpending hr =>
    obtain ⟨hdeadline, hage⟩ := h.pending hw hpending
    rw [hdeadline] at hr
    have hyoung := lt_of_not_reached (by omega) (by omega) hr
    have hbusy : tx.txFramePending ≠ false := by simp [hpending]
    refine fun _ => ⟨⟨q, f, l, ⟨Nat.le_refl t, by omega, by omega, by omega⟩,
      fun hw' => absurd hw' (Bool.eq_false_iff.1 hw), fun _ _ => ⟨hdeadline, hyoung⟩, fun hfc => ?_, h.sent⟩,
      fun _ _ hp' => absurd hp' hbusy⟩
    obtain ⟨hn, hnear, -⟩ := h.awaiting hfc
    exact ⟨hn, hnear, fun _ hp' => absurd hp' hbusy⟩

/-- No frame in flight, nothing to be near to. -/
theorem near_of_settled {x : ℕ} (hw : tx.txWaitingEnqueue = false) (hp : tx.txFramePending = false) :
    Near tx q x :=
  ⟨fun hw' => absurd hw' (Bool.eq_false_iff.1 hw), fun _ hp' => absurd hp' (Bool.eq_false_iff.1 hp)⟩

/-- A poll that settles the frame in flight and goes on. -/
theorem Aged.advanced {asDeadlineMs : UInt32} (h : Aged tx p now q f l) (ht : now ≤ t) (hp : t ≤ p + 2 ^ 29)
    (hadv : Advanced (settled tx asDeadlineMs) (tick t) result frames tx') : Kept tx' t := by
  obtain ⟨hpn, hq, hf, hl⟩ := h.past
  have hsent : tx.txHasSentCf = true →
      tx.txLastCfMs = tick l ∧ Near (settled tx asDeadlineMs) q l :=
    fun hcf => ⟨(h.sent hcf).1, near_of_settled rfl rfl⟩
  cases hadv with
  | unanswered => exact kept_of_idle rfl
  | finished => exact kept_of_idle rfl
  | listening hfc hr =>
    have hfc' : tx.txWaitingFc = true := hfc
    obtain ⟨⟨n, hn, hdeadline⟩, -, -⟩ := h.awaiting hfc'
    rw [show (settled tx asDeadlineMs).txDeadlineMs = _ from hdeadline] at hr
    have hyoung := lt_of_not_reached (by omega) (h.fc_young hp hfc') hr
    refine fun _ => ⟨⟨q, f, l, ⟨Nat.le_refl t, by omega, by omega, by omega⟩, (fun hw => by cases hw),
      (fun _ hp' => by cases hp'), fun _ => ⟨⟨n, hn, hdeadline⟩, near_of_settled rfl rfl, fun _ _ => hyoung⟩,
      hsent⟩, fun hfc'' => ?_⟩
    rw [hfc] at hfc''
    cases hfc''
  | full hfc hfull =>
    refine fun _ => ⟨⟨q, t, l, ⟨Nat.le_refl t, by omega, Nat.le_refl t, by omega⟩, (fun hw => by cases hw),
      (fun _ hp' => by cases hp'),
      fun _ => ⟨⟨tx.nCrMs, Or.inr rfl, rfl⟩, near_of_settled rfl rfl, fun _ _ => by omega⟩,
      fun hcf => ⟨(h.sent hcf).1, near_of_settled rfl rfl⟩⟩, fun hfc' => by cases hfc'⟩
  | separated hfc hmore hst =>
    exact fun _ => ⟨⟨q, f, l, ⟨Nat.le_refl t, by omega, by omega, by omega⟩, (fun hw => by cases hw),
      (fun _ hp' => by cases hp'), fun hfc' => absurd hfc' (Bool.eq_false_iff.1 hfc), hsent⟩,
      fun _ _ _ d hd hd' => apart_later hst hd hd'⟩
  | consecutive answer hfc hfull hmore hst =>
    have hnofc : ¬(handed ((settled tx asDeadlineMs).advanceCf (tick t)) (tick t)
        (cfFrame (settled tx asDeadlineMs).padding (settled tx asDeadlineMs).txSn
          (settled tx asDeadlineMs).nextChunk) answer).txWaitingFc = true := by
      rw [handed_txWaitingFc]
      exact Bool.eq_false_iff.1 hfc
    cases answer with
    | none =>
      exact fun _ => ⟨⟨t, f, t, ⟨Nat.le_refl t, Nat.le_refl t, by omega, Nat.le_refl t⟩,
        fun _ => ⟨rfl, by omega⟩, (fun hw => by cases hw), fun hfc' => absurd hfc' hnofc,
        fun _ => ⟨rfl, fun _ => Nat.le_refl t, fun hw => by cases hw⟩⟩, fun _ hw => by cases hw⟩
    | some pending =>
      refine fun _ => ⟨⟨t, f, t, ⟨Nat.le_refl t, Nat.le_refl t, by omega, Nat.le_refl t⟩,
        (fun hw => by cases hw), fun _ _ => ⟨rfl, by omega⟩, fun hfc' => absurd hfc' hnofc,
        fun _ => ⟨rfl, (fun hw => by cases hw), fun _ _ => by omega⟩⟩, fun _ _ _ d hd hd' => ?_⟩
      exact apart_of_sent rfl (by omega) (by omega)

/-! ## Reachable senders -/

/-- What every sender of an attended run satisfies. -/
structure Tended (s : Endpoint × ℕ) : Prop where
  regular : Regular s.1.state.1
  past : s.2 ≤ s.1.now
  aged : s.1.state.1.txOngoing = true → ∃ q f l, Aged s.1.state.1 s.2 s.1.now q f l

theorem Tended.init (config : IsotpConfig) (c : Channel) (now : ℕ) :
    Tended (Endpoint.init config c now, now) where
  regular := Regular.init config
  past := Nat.le_refl now
  aged := fun ho => by cases ho

/-- A transfer that starts arms its first timers. -/
theorem Aged.start {data : List UInt8} (hst : Started tx (tick t) data result frames tx')
    (hok : result = .ok) : tx'.txOngoing = true → Aged tx' t t t t t := by
  have hpast : t ≤ t ∧ t ≤ t ∧ t ≤ t ∧ t ≤ t :=
    ⟨Nat.le_refl t, Nat.le_refl t, Nat.le_refl t, Nat.le_refl t⟩
  cases hst with
  | refused hr => exact absurd hok hr
  | single answer =>
    cases answer with
    | none =>
      exact fun _ => ⟨hpast, fun _ => ⟨rfl, by omega⟩, (fun hw => by cases hw), (fun hfc => by cases hfc),
        fun hcf => by cases hcf⟩
    | some pending =>
      exact fun _ => ⟨hpast, (fun hw => by cases hw), fun _ _ => ⟨rfl, by omega⟩, (fun hfc => by cases hfc),
        fun hcf => by cases hcf⟩
  | multi answer =>
    have hnear : ∀ tx : IsotpTx, Near tx t t := fun _ => ⟨fun _ => Nat.le_refl t, fun _ _ => by omega⟩
    cases answer with
    | none =>
      exact fun _ => ⟨hpast, fun _ => ⟨rfl, by omega⟩, (fun hw => by cases hw),
        fun _ => ⟨⟨tx.nBsMs, Or.inl rfl, rfl⟩, hnear _, fun _ _ => by omega⟩, fun hcf => by cases hcf⟩
    | some pending =>
      exact fun _ => ⟨hpast, (fun hw => by cases hw), fun _ _ => ⟨rfl, by omega⟩,
        fun _ => ⟨⟨tx.nBsMs, Or.inl rfl, rfl⟩, hnear _, fun _ _ => by omega⟩, fun hcf => by cases hcf⟩

/-- A received frame leaves the frame in flight alone and at most arms the Flow Control wait again. -/
theorem Aged.frame {frame : Frame} (h : Aged tx p now q f l) (ht : now ≤ t)
    (hfr : Framed tx (tick t) frame result tx') : tx'.txOngoing = true → ∃ f', Aged tx' p t q f' l := by
  have hl := h.later ht
  obtain ⟨hpt, hqt, hft, hlt⟩ := hl.past
  cases hfr with
  | refused => exact fun _ => ⟨f, hl⟩
  | abandoned => exact fun ho => by cases ho
  | cts => exact fun _ => ⟨f, hl.past, hl.queued, hl.pending, (fun hfc => by cases hfc), hl.sent⟩
  | wait hh =>
    refine fun _ => ⟨t, ⟨hpt, hqt, Nat.le_refl t, hlt⟩, hl.queued, hl.pending, fun _ => ⟨?_, ?_, ?_⟩, hl.sent⟩
    · by_cases hb : (tx.txWaitingAfterBlock || tx.afterBlock) = true
      · exact ⟨tx.nCrMs, Or.inr rfl, by rw [if_pos hb]⟩
      · exact ⟨tx.nBsMs, Or.inl rfl, by rw [if_neg hb]⟩
    · exact ⟨fun _ => hqt, fun _ _ => by omega⟩
    · exact fun _ _ => by omega

theorem Tended.acts {s : Endpoint × ℕ} {op : Op} {c' : Channel} (h : Tended s) (ht : s.1.now ≤ t)
    (hreg : Regular tx') (hp : s.1.state.1.txOngoing = true → t ≤ s.2 + 2 ^ 29)
    (hact : Acts s.1.state.1 s.1.state.2 (tick t) op result frames tx') :
    Tended (⟨t, (tx', c')⟩, served t op result s.2) := by
  have hpast := Nat.le_trans h.past ht
  cases hact with
  | start hst =>
    by_cases hok : result = .ok
    · rw [served, if_pos hok]
      exact ⟨hreg, Nat.le_refl t, fun ho => ⟨t, t, t, Aged.start hst hok ho⟩⟩
    · rw [served, if_neg hok]
      refine ⟨hreg, hpast, fun ho => ?_⟩
      cases hst with
      | refused =>
        obtain ⟨q, f, l, haged⟩ := h.aged ho
        exact ⟨q, f, l, haged.later ht⟩
      | single => exact absurd rfl hok
      | multi => exact absurd rfl hok
  | idle ho => exact ⟨hreg, Nat.le_refl t, fun ho' => absurd ho' (Bool.eq_false_iff.1 ho)⟩
  | stopped ho _ hstop =>
    obtain ⟨q, f, l, haged⟩ := h.aged ho
    exact ⟨hreg, Nat.le_refl t, fun ho' => (haged.stopped ht (hp ho) hstop ho').1⟩
  | advanced ho _ hadv =>
    obtain ⟨q, f, l, haged⟩ := h.aged ho
    exact ⟨hreg, Nat.le_refl t, fun ho' => (haged.advanced ht (hp ho) hadv ho').1⟩
  | framed hfr =>
    refine ⟨hreg, hpast, fun ho => ?_⟩
    obtain ⟨q, f, l, haged⟩ := h.aged (hfr.ongoing ho)
    obtain ⟨f', haged'⟩ := haged.frame ht hfr ho
    exact ⟨q, f', l, haged'⟩
  | reset => exact ⟨hreg, hpast, fun ho => by cases ho⟩

theorem Tended.step {s : Endpoint × ℕ} {e : ℕ × Op} (h : Tended s) (hC : Attended s e) :
    Tended (attendedStep s e) :=
  h.acts (Nat.le_add_right _ _) (s.1.step_regular h.regular e) hC (s.1.step_spec h.regular.nAs e)

/-! ## The rank -/

/-- The polls a sender still needs after a poll, when each comes a budget after the last. -/
def rank (tx : IsotpTx) : ℕ :=
  if tx.txWaitingFc then if tx.txWaitingEnqueue then 2 else 1
  else 2 * tx.framesLeft + if tx.txWaitingEnqueue then 3 else 2

theorem rank_pos (tx : IsotpTx) : 0 < tx.rank := by
  unfold rank
  split <;> split <;> omega

theorem rank_le (tx : IsotpTx) : tx.rank ≤ 2 * tx.framesLeft + 3 := by
  unfold rank
  split <;> split <;> omega

/-- The next Consecutive Frame takes one off those left. -/
theorem framesLeft_next (hmore : tx.txOffset < tx.txData.length) (answer : Option Bool) (frame : Frame)
    (now : UInt32) : (handed (tx.advanceCf now) now frame answer).framesLeft + 1 = tx.framesLeft := by
  have hchunk : tx.nextChunk.length = min 7 (tx.txData.length - tx.txOffset) := by
    simp [nextChunk, cfPayloadMax]
  rw [framesLeft, handed_txData, handed_txOffset, framesLeft]
  simp only [advanceCf, hchunk]
  omega

/-- No poll adds to the frames left. -/
theorem Advanced.framesLeft_le (h : Advanced tx now' result frames tx') : tx'.framesLeft ≤ tx.framesLeft := by
  cases h with
  | consecutive answer _ _ hmore =>
    have := framesLeft_next hmore answer (cfFrame tx.padding tx.txSn tx.nextChunk) now'
    omega
  | _ => exact Nat.le_refl _

theorem Stopped.framesLeft_le (h : Stopped tx c now' result frames tx') : tx'.framesLeft ≤ tx.framesLeft := by
  cases h <;> exact Nat.le_refl _

/-- A poll a budget after the last finds the timer of the frame in flight over. -/
theorem Aged.stopped_falls {d : ℕ} (h : Aged tx p p q f l) (hlong : tx.longestWait ≤ d) (hd : d ≤ 2 ^ 29)
    (hstop : Stopped tx c (tick (p + d)) result frames tx') : tx'.txOngoing = true → tx'.rank < tx.rank := by
  have hnAs : tx.nAsMs.toNat ≤ d := by
    unfold longestWait at hlong
    omega
  obtain ⟨-, hq, -, -⟩ := h.past
  cases hstop with
  | refused hw hsend hr =>
    obtain ⟨hdeadline, hage⟩ := h.queued hw
    rw [hdeadline, reached_of_over (by omega) (by omega)] at hr
    cases hr
  | expired => exact fun ho => by cases ho
  | accepted hw =>
    intro _
    rw [rank, rank, framesLeft, framesLeft, hw]
    cases tx.txWaitingFc <;> simp
  | held hw hp hr =>
    obtain ⟨hdeadline, hage⟩ := h.pending hw hp
    rw [hdeadline, reached_of_over (by omega) (by omega)] at hr
    cases hr
  | unconfirmed => exact fun ho => by cases ho

/-- A poll a budget after the last sends the next frame, asks for Flow Control or ends the transfer. -/
theorem Aged.advanced_falls {d : ℕ} {asDeadlineMs : UInt32} (h : Aged tx p p q f l) (hrested : Rested tx p)
    (hlong : tx.longestWait ≤ d) (hd : d ≤ 2 ^ 29)
    (hadv : Advanced (settled tx asDeadlineMs) (tick (p + d)) result frames tx') :
    tx'.txOngoing = true → tx'.rank < tx.rank := by
  have hbudgets : tx.nBsMs.toNat ≤ d ∧ tx.nCrMs.toNat ≤ d ∧ 256 ≤ d := by
    unfold longestWait at hlong
    omega
  obtain ⟨-, -, hf, hl⟩ := h.past
  have hrank : tx.txWaitingFc = false → 2 * tx.framesLeft + 2 ≤ tx.rank := by
    intro hfc
    rw [rank, if_neg (by simp [hfc])]
    split <;> omega
  cases hadv with
  | listening hfc hr =>
    obtain ⟨⟨n, hn, hdeadline⟩, -, -⟩ := h.awaiting hfc
    have hle : n.toNat ≤ d := by
      rcases hn with rfl | rfl
      · exact hbudgets.1
      · exact hbudgets.2.1
    rw [show (settled tx asDeadlineMs).txDeadlineMs = _ from hdeadline,
      reached_of_over (by omega) (h.fc_young (by omega) hfc)] at hr
    cases hr
  | unanswered => exact fun ho => by cases ho
  | full hfc =>
    intro _
    have := hrank hfc
    rw [rank, if_pos rfl, if_neg (by simp [settled])]
    omega
  | finished => exact fun ho => by cases ho
  | separated hfc hmore hst =>
    -- held back now, the last frame was scheduled less than 256 ms ago, or a turn of the clock before that
    have hover : tx.apart (tick (p + d)) = true := by
      by_cases hflight : tx.txWaitingEnqueue = true ∨ tx.txFramePending = true
      · cases hcf : tx.txHasSentCf with
        | false =>
          rw [apart, hcf]
          rfl
        | true =>
          obtain ⟨hlast, hnear⟩ := h.sent hcf
          have := h.young (show p + d ≤ p + 2 ^ 29 by omega) hnear hflight
          exact apart_of_sent hlast (by omega) (by omega)
      · rw [not_or, Bool.not_eq_true, Bool.not_eq_true] at hflight
        exact hrested hfc hflight.1 hflight.2 d hbudgets.2.2 (by omega)
    have hst : tx.apart (tick (p + d)) = false := hst
    rw [hover] at hst
    cases hst
  | consecutive answer hfc hfull hmore hst =>
    intro _
    have hnext := framesLeft_next hmore answer (cfFrame (settled tx asDeadlineMs).padding
      (settled tx asDeadlineMs).txSn (settled tx asDeadlineMs).nextChunk) (tick (p + d))
    have hsame : (settled tx asDeadlineMs).framesLeft = tx.framesLeft := rfl
    have hle := rank_le (handed ((settled tx asDeadlineMs).advanceCf (tick (p + d))) (tick (p + d))
      (cfFrame (settled tx asDeadlineMs).padding (settled tx asDeadlineMs).txSn
        (settled tx asDeadlineMs).nextChunk) answer)
    have := hrank hfc
    omega

/-! ## Coming to rest -/

theorem Endpoint.step_longestWait (s : Endpoint) (e : ℕ × Op) :
    (s.step e).state.1.longestWait = s.state.1.longestWait := by
  have hcfg := callStep_config s.state (e.2.at (tick (s.now + e.1)))
  simp only [config, Prod.mk.injEq] at hcfg
  obtain ⟨h1, h2, h3, -⟩ := hcfg
  have hstep : (s.step e).state.1 = (callStep s.state (e.2.at (tick (s.now + e.1)))).1 := rfl
  rw [hstep, longestWait, h1, h2, h3]
  rfl

/-- A busy sender that has just been polled. -/
structure JustPolled (s : Endpoint × ℕ) : Prop where
  regular : Regular s.1.state.1
  now : s.2 = s.1.now
  ongoing : s.1.state.1.txOngoing = true
  aged : ∃ q f l, Aged s.1.state.1 s.2 s.2 q f l
  rested : Rested s.1.state.1 s.2

theorem poll_idle {s : Endpoint × ℕ} (d : ℕ) (ho : s.1.state.1.txOngoing = false) :
    (attendedStep s (d, .poll)).1.state.1.txOngoing = false := by
  have hpoll : poll s.1.state.1 s.1.state.2 (tick (s.1.now + d)) = (.ok, s.1.state) :=
    poll_of_idle ho s.1.state.2 _
  have hstate : (attendedStep s (d, .poll)).1.state.1 = s.1.state.1 := congrArg (fun r => r.2.1) hpoll
  rw [hstate]
  exact ho

/-- A poll of any attended sender. -/
theorem Tended.poll {s : Endpoint × ℕ} {d : ℕ} (h : Tended s) (hC : Attended s (d, .poll)) :
    (attendedStep s (d, .poll)).1.state.1.txOngoing = false ∨
      (JustPolled (attendedStep s (d, .poll)) ∧
        (attendedStep s (d, .poll)).1.state.1.framesLeft ≤ s.1.state.1.framesLeft) := by
  cases ho : s.1.state.1.txOngoing with
  | false => exact Or.inl (poll_idle d ho)
  | true =>
    cases ho' : (attendedStep s (d, .poll)).1.state.1.txOngoing with
    | false => exact Or.inl rfl
    | true =>
      have hreg := s.1.step_regular h.regular (d, .poll)
      have hspec := s.1.step_spec h.regular.nAs (d, .poll)
      have ho' : (s.1.step (d, .poll)).state.1.txOngoing = true := ho'
      obtain ⟨q, f, l, haged⟩ := h.aged ho
      have hbound := hC ho
      have hnow : s.1.now ≤ s.1.now + d := Nat.le_add_right _ _
      suffices hkept : Kept (s.1.step (d, .poll)).state.1 (s.1.now + d) ∧
          (s.1.step (d, .poll)).state.1.framesLeft ≤ s.1.state.1.framesLeft from
        Or.inr ⟨⟨hreg, rfl, ho', (hkept.1 ho').1, (hkept.1 ho').2⟩, hkept.2⟩
      generalize s.1.resultOf (d, .poll) = result at hspec
      generalize s.1.accepted (d, .poll) = frames at hspec
      generalize (s.1.step (d, .poll)).state.1 = tx' at hspec ⊢
      cases hspec with
      | idle hidle =>
        rw [ho] at hidle
        cases hidle
      | stopped _ _ hstop => exact ⟨haged.stopped hnow hbound hstop, hstop.framesLeft_le⟩
      | advanced _ _ hadv => exact ⟨haged.advanced hnow hbound hadv, hadv.framesLeft_le⟩

/-- A further poll a budget later. -/
theorem JustPolled.poll {s : Endpoint × ℕ} {d : ℕ} (h : JustPolled s) (hC : Attended s (d, .poll))
    (hlong : s.1.state.1.longestWait ≤ d) :
    (attendedStep s (d, .poll)).1.state.1.txOngoing = false ∨
      (JustPolled (attendedStep s (d, .poll)) ∧
        (attendedStep s (d, .poll)).1.state.1.rank < s.1.state.1.rank) := by
  have htended : Tended s := ⟨h.regular, Nat.le_of_eq h.now, fun _ => by rw [← h.now]; exact h.aged⟩
  rcases htended.poll hC with hidle | ⟨hpolled, -⟩
  · exact Or.inl hidle
  · refine Or.inr ⟨hpolled, ?_⟩
    have hspec := s.1.step_spec h.regular.nAs (d, .poll)
    have ho' : (s.1.step (d, .poll)).state.1.txOngoing = true := hpolled.ongoing
    have hd : d ≤ 2 ^ 29 := by
      have hbound : s.1.now + d ≤ s.2 + 2 ^ 29 := hC h.ongoing
      rw [h.now] at hbound
      omega
    obtain ⟨q, f, l, haged⟩ := h.aged
    have hrested := h.rested
    rw [h.now] at haged hrested
    suffices hfall : (s.1.step (d, .poll)).state.1.rank < s.1.state.1.rank from hfall
    generalize s.1.resultOf (d, .poll) = result at hspec
    generalize s.1.accepted (d, .poll) = frames at hspec
    generalize (s.1.step (d, .poll)).state.1 = tx' at hspec ho' ⊢
    cases hspec with
    | idle hidle =>
      rw [h.ongoing] at hidle
      cases hidle
    | stopped _ _ hstop => exact haged.stopped_falls hlong hd hstop ho'
    | advanced _ _ hadv => exact haged.advanced_falls hrested hlong hd hadv ho'

/-- A sender just polled comes to rest within as many further polls as its rank, a budget apart. -/
theorem JustPolled.rests {s : Endpoint × ℕ}
    (h : s.1.state.1.txOngoing = false ∨ (JustPolled s ∧ s.1.state.1.rank ≤ gaps.length))
    (hC : AllSteps attendedStep s Attended (gaps.map fun d => (d, .poll)))
    (hlong : ∀ d ∈ gaps, s.1.state.1.longestWait ≤ d) :
    (after attendedStep s (gaps.map fun d => (d, .poll))).1.state.1.txOngoing = false := by
  refine rests_of_rank attendedStep
    (fun t => JustPolled t ∧ t.1.state.1.longestWait = s.1.state.1.longestWait)
    (fun t => t.1.state.1.txOngoing = false)
    (fun t e => Attended t e ∧ ∃ d, e = (d, .poll) ∧ s.1.state.1.longestWait ≤ d)
    (fun t => t.1.state.1.rank) ?_ (fun t _ => rank_pos t.1.state.1) ?_ _ s (hC.of_map hlong) ?_
  · rintro t e hidle ⟨-, d, rfl, -⟩
    exact poll_idle d hidle
  · rintro t e ⟨hpolled, hsame⟩ ⟨hatt, d, rfl, hd⟩
    rcases hpolled.poll hatt (by rw [hsame]; exact hd) with hidle | ⟨hpolled', hlt⟩
    · exact Or.inl hidle
    · exact Or.inr ⟨⟨hpolled', (t.1.step_longestWait _).trans hsame⟩, hlt⟩
  · rw [List.length_map]
    exact h.imp id fun h => ⟨⟨h.1, rfl⟩, h.2⟩

/-- A busy sender of an attended run comes to rest after at most twice its frames left and four polls, all but
the first of them a budget after the one before. -/
theorem Tended.rests {s : Endpoint × ℕ} (h : Tended s)
    (hC : AllSteps attendedStep s Attended (gaps.map fun d => (d, .poll)))
    (hlong : ∀ d ∈ gaps.tail, s.1.state.1.longestWait ≤ d)
    (hlen : 2 * s.1.state.1.framesLeft + 4 ≤ gaps.length) :
    (after attendedStep s (gaps.map fun d => (d, .poll))).1.state.1.txOngoing = false := by
  cases gaps with
  | nil =>
    simp only [List.length_nil] at hlen
    omega
  | cons d gaps =>
    rw [List.map_cons, allSteps_cons] at hC
    rw [List.map_cons, after_cons]
    refine JustPolled.rests ?_ hC.2 fun d' hd' => ?_
    · rcases h.poll hC.1 with hidle | ⟨hpolled, hle⟩
      · exact Or.inl hidle
      · refine Or.inr ⟨hpolled, ?_⟩
        have := rank_le (attendedStep s (d, .poll)).1.state.1
        simp only [List.length_cons] at hlen
        omega
    · have hsame := s.1.step_longestWait (d, .poll)
      exact Nat.le_trans (Nat.le_of_eq hsame) (hlong d' hd')

end IsotpTx

end DualCan.Isotp
