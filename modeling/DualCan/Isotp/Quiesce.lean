import DualCan.Isotp.RxTimers
import DualCan.Isotp.TxQuiesce

/-!
# ISO-TP: endpoints never get stuck

The receiver's counterpart of the sender's ages: `Live` names the real time from which the deadline in force is
counted. With it both endpoints come to rest under polls alone, whatever the driver answers.
-/

namespace DualCan.Isotp

open DualCan.Clock DualCan.Run

namespace IsotpRx

/-- A receiver that a poll has work for: a reception in progress or a Flow Control frame to send. -/
def active (rx : IsotpRx) : Bool := rx.rxInProgress || rx.fcWaitingEnqueue

/-- The real time of the last poll, or of the last frame that found the receiver inactive, after an operation at
the time `t`. -/
def served (t : ℕ) (rx : IsotpRx) (p : ℕ) : Op → ℕ
  | .poll _ => t
  | .onFrame _ _ => if rx.active then p else t
  | .read _ => p
  | .reset => p

/-- The receiver beside the time of its last poll. -/
def attendedStep : Timed IsotpRx × ℕ → ℕ × Op → Timed IsotpRx × ℕ :=
  observed timedStep fun s e p => served (s.now + e.1) s.state p e.2

/-- An active receiver is polled at intervals of at most 2^29 ms. -/
def Attended (s : Timed IsotpRx × ℕ) (e : ℕ × Op) : Prop :=
  s.1.state.active = true → s.1.now + e.1 ≤ s.2 + 2 ^ 29

instance (s : Timed IsotpRx × ℕ) (e : ℕ × Op) : Decidable (Attended s e) :=
  inferInstanceAs (Decidable (_ → _))

/-- The longest budget of a receiver. -/
def longestWait (rx : IsotpRx) : ℕ := max rx.nArMs.toNat rx.nCrMs.toNat

/-- The timers of an active receiver last polled at `p`, as of `now`: the deadline in force is counted from
`q`. -/
structure Live (τ : Timers) (p now q : ℕ) : Prop where
  nAr : τ.nArMs ≠ 0
  nCr : τ.nCrMs ≠ 0
  past : p ≤ now ∧ q ≤ now
  waiting : τ.fcWaitingEnqueue = true → τ.fcDeadlineMs = tick q + τ.nArMs.toUInt32 ∧ p < q + 2 ^ 16
  pending : τ.fcWaitingEnqueue = false → τ.rxInProgress = true → τ.fcPending = true →
    τ.fcDeadlineMs = tick q + τ.nArMs.toUInt32 ∧ p < q + 2 ^ 16
  listening : τ.fcWaitingEnqueue = false → τ.rxInProgress = true → τ.fcPending = false →
    τ.rxDeadlineMs = tick q + τ.nCrMs.toUInt32 ∧ p < q + 2 ^ 16

variable {τ τ' : Timers} {rx : IsotpRx} {c : Channel} {p p' now t q : ℕ}

theorem Live.later (h : Live τ p now q) (ht : now ≤ t) : Live τ p t q :=
  { h with past := ⟨Nat.le_trans h.past.1 ht, Nat.le_trans h.past.2 ht⟩ }

/-- Only the flags of an inactive receiver matter. -/
theorem Live.of_inactive (hnAr : τ.nArMs ≠ 0) (hnCr : τ.nCrMs ≠ 0) (hw : τ.fcWaitingEnqueue = false)
    (hp : τ.rxInProgress = false) (hpt : p ≤ t) : Live τ p t t where
  nAr := hnAr
  nCr := hnCr
  past := ⟨hpt, Nat.le_refl t⟩
  waiting := fun hw' => absurd hw' (Bool.eq_false_iff.1 hw)
  pending := fun _ hp' => absurd hp' (Bool.eq_false_iff.1 hp)
  listening := fun _ hp' => absurd hp' (Bool.eq_false_iff.1 hp)

/-- A Flow Control frame scheduled at `t`. -/
theorem Live.of_schedule (hnAr : τ.nArMs ≠ 0) (hnCr : τ.nCrMs ≠ 0) (hpt : p ≤ t) (answer : Option Bool) :
    Live (τ.schedule (tick t) answer) p t t := by
  have hlt : p < t + 2 ^ 16 := by omega
  cases answer with
  | none =>
    exact ⟨hnAr, hnCr, ⟨hpt, Nat.le_refl t⟩, fun _ => ⟨rfl, hlt⟩, (fun hw => by cases hw),
      fun hw => by cases hw⟩
  | some pending =>
    cases pending with
    | true =>
      exact ⟨hnAr, hnCr, ⟨hpt, Nat.le_refl t⟩, (fun hw => by cases hw), fun _ _ _ => ⟨rfl, hlt⟩,
        fun _ _ hp => by cases hp⟩
    | false =>
      exact ⟨hnAr, hnCr, ⟨hpt, Nat.le_refl t⟩, (fun hw => by cases hw), (fun _ _ hp => by cases hp),
        fun _ _ _ => ⟨rfl, hlt⟩⟩

/-- A received frame. -/
theorem Live.received {cf fc : Bool} (h : Live τ p t q) (hr : τ.Received (tick t) cf fc τ') :
    ∃ q', Live τ' p t q' := by
  cases hr with
  | ignored => exact ⟨q, h⟩
  | aborted => exact ⟨t, .of_inactive h.nAr h.nCr rfl rfl h.past.1⟩
  | opened more answer =>
    refine ⟨t, .of_schedule ?_ ?_ h.past.1 answer⟩
    · exact h.nAr
    · exact h.nCr
  | refilled answer =>
    refine ⟨t, .of_schedule ?_ ?_ h.past.1 answer⟩
    · exact h.nAr
    · exact h.nCr
  | taken more hp =>
    by_cases hquiet : τ.fcWaitingEnqueue = false ∧ τ.fcPending = false
    · refine ⟨t, ⟨h.nAr, h.nCr, ⟨h.past.1, Nat.le_refl t⟩, ?_, ?_, ?_⟩⟩
      · exact fun hw => absurd hw (Bool.eq_false_iff.1 hquiet.1)
      · exact fun _ _ hp' => absurd hp' (Bool.eq_false_iff.1 hquiet.2)
      · have := h.past.1
        exact fun _ _ _ => ⟨rfl, by omega⟩
    · refine ⟨q, ⟨h.nAr, h.nCr, h.past, h.waiting, fun hw _ hpending => h.pending hw hp hpending, ?_⟩⟩
      exact fun hw _ hpending => absurd ⟨hw, hpending⟩ hquiet

/-- After a poll the deadline in force, if there is one, is not over. -/
theorem Live.polled (h : Live rx.timers p now q) (ht : now ≤ t) (hp : t ≤ p + 2 ^ 29) :
    ∃ q', Live (rx.poll c (tick t)).2.1.timers t t q' := by
  obtain ⟨hpn, hqn⟩ := h.past
  have hpast : t ≤ t ∧ q ≤ t := ⟨Nat.le_refl t, by omega⟩
  have hfresh : t < t + 2 ^ 16 := by omega
  have hpolled := poll_cases h.nAr h.nCr c (tick t)
  generalize (rx.poll c (tick t)).1 = result at hpolled
  generalize (rx.poll c (tick t)).2.1 = rx' at hpolled ⊢
  cases hpolled with
  | idle hw hp => exact ⟨t, .of_inactive h.nAr h.nCr hw hp (Nat.le_refl t)⟩
  | expired => exact ⟨t, .of_inactive h.nAr h.nCr rfl rfl (Nat.le_refl t)⟩
  | unconfirmed hw | silent hw => exact ⟨t, .of_inactive h.nAr h.nCr hw rfl (Nat.le_refl t)⟩
  | busy hw hr =>
    obtain ⟨hdeadline, hage⟩ := h.waiting hw
    rw [show rx.fcDeadlineMs = _ from hdeadline] at hr
    have hyoung := lt_of_not_reached (by omega) (by omega) hr
    exact ⟨q, h.nAr, h.nCr, hpast, fun _ => ⟨hdeadline, hyoung⟩,
      fun hw' => absurd hw (Bool.eq_false_iff.1 hw'), fun hw' => absurd hw (Bool.eq_false_iff.1 hw')⟩
  | held hw hp hpending hr =>
    obtain ⟨hdeadline, hage⟩ := h.pending hw hp hpending
    rw [show rx.fcDeadlineMs = _ from hdeadline] at hr
    have hyoung := lt_of_not_reached (by omega) (by omega) hr
    exact ⟨q, h.nAr, h.nCr, hpast, fun hw' => absurd hw' (Bool.eq_false_iff.1 hw),
      fun _ _ _ => ⟨hdeadline, hyoung⟩, fun _ _ hp' => absurd hpending (Bool.eq_false_iff.1 hp')⟩
  | listening hw hp hpending hr =>
    obtain ⟨hdeadline, hage⟩ := h.listening hw hp hpending
    rw [show rx.rxDeadlineMs = _ from hdeadline] at hr
    have hyoung := lt_of_not_reached (by omega) (by omega) hr
    exact ⟨q, h.nAr, h.nCr, hpast, fun hw' => absurd hw' (Bool.eq_false_iff.1 hw),
      fun _ _ hp' => absurd hp' (Bool.eq_false_iff.1 hpending), fun _ _ _ => ⟨hdeadline, hyoung⟩⟩
  | accepted pending rxDeadlineMs _ hnext =>
    exact ⟨t, h.nAr, h.nCr, ⟨hpast.1, hpast.1⟩, (fun hw' => by cases hw'), fun _ _ _ => ⟨rfl, hfresh⟩,
      fun _ hp hpending => ⟨hnext hp hpending, hfresh⟩⟩
  | confirmed hw =>
    exact ⟨t, h.nAr, h.nCr, ⟨hpast.1, hpast.1⟩, fun hw' => absurd hw' (Bool.eq_false_iff.1 hw),
      (fun _ _ hp' => by cases hp'), fun _ _ _ => ⟨rfl, hfresh⟩⟩

/-- The polls an active receiver still needs after a poll, when each comes a budget after the last: one for the
mailbox, one for the completion, one for the peer's silence. -/
def rank (rx : IsotpRx) : ℕ := if rx.fcWaitingEnqueue then 3 else if rx.fcPending then 2 else 1

theorem rank_pos (rx : IsotpRx) : 0 < rx.rank := by
  unfold rank
  split
  · omega
  · split <;> omega

theorem rank_le (rx : IsotpRx) : rx.rank ≤ 3 := by
  unfold rank
  split
  · omega
  · split <;> omega

theorem rank_lt_of_accepted {rx' : IsotpRx} (hw : rx.fcWaitingEnqueue = true)
    (hw' : rx'.fcWaitingEnqueue = false) : rx'.rank < rx.rank := by
  rw [rank, rank, if_pos hw, if_neg (by simp [hw'])]
  split <;> omega

theorem active_eq_false : rx.active = false ↔ rx.rxInProgress = false ∧ rx.fcWaitingEnqueue = false := by
  rw [active, Bool.or_eq_false_iff]

/-- A poll at least a budget after the last one lowers the rank, or leaves the receiver inactive. -/
theorem Live.falls {d : ℕ} (h : Live rx.timers p p q) (hlong : rx.longestWait ≤ d) (hd : d ≤ 2 ^ 29) :
    (rx.poll c (tick (p + d))).2.1.active = false ∨ (rx.poll c (tick (p + d))).2.1.rank < rx.rank := by
  have hbudgets : rx.nArMs.toNat ≤ d ∧ rx.nCrMs.toNat ≤ d := by
    unfold longestWait at hlong
    omega
  have hqp := h.past.2
  have hfc : q + rx.timers.nArMs.toNat ≤ p + d := Nat.add_le_add hqp hbudgets.1
  have hcf : q + rx.timers.nCrMs.toNat ≤ p + d := Nat.add_le_add hqp hbudgets.2
  have hpolled := poll_cases h.nAr h.nCr c (tick (p + d))
  generalize (rx.poll c (tick (p + d))).1 = result at hpolled
  generalize (rx.poll c (tick (p + d))).2.1 = rx' at hpolled ⊢
  cases hpolled with
  | idle hw hp => exact Or.inl (active_eq_false.2 ⟨hp, hw⟩)
  | expired => exact Or.inl (active_eq_false.2 ⟨rfl, rfl⟩)
  | unconfirmed hw | silent hw => exact Or.inl (active_eq_false.2 ⟨rfl, hw⟩)
  | busy hw hr =>
    obtain ⟨hdeadline, hage⟩ := h.waiting hw
    rw [show rx.fcDeadlineMs = _ from hdeadline, reached_of_over hfc (by omega)] at hr
    cases hr
  | held hw hp hpending hr =>
    obtain ⟨hdeadline, hage⟩ := h.pending hw hp hpending
    rw [show rx.fcDeadlineMs = _ from hdeadline, reached_of_over hfc (by omega)] at hr
    cases hr
  | listening hw hp hpending hr =>
    obtain ⟨hdeadline, hage⟩ := h.listening hw hp hpending
    rw [show rx.rxDeadlineMs = _ from hdeadline, reached_of_over hcf (by omega)] at hr
    cases hr
  | accepted _ _ hw => exact Or.inr (rank_lt_of_accepted hw rfl)
  | confirmed hw _ hpending =>
    refine Or.inr ?_
    simp [rank, hw, hpending]

/-! ## Coming to rest -/

/-- No poll changes the budgets. -/
theorem Polled.budgets {result : IsotpResult} {now : UInt32} {rx' : IsotpRx} (h : Polled rx c now result rx') :
    rx'.nArMs = rx.nArMs ∧ rx'.nCrMs = rx.nCrMs := by
  cases h <;> exact ⟨rfl, rfl⟩

theorem Polled.longestWait {result : IsotpResult} {now : UInt32} {rx' : IsotpRx}
    (h : Polled rx c now result rx') : rx'.longestWait = rx.longestWait := by
  obtain ⟨hnAr, hnCr⟩ := h.budgets
  rw [IsotpRx.longestWait, hnAr, hnCr, IsotpRx.longestWait]

/-- A poll of an inactive receiver has nothing to do. -/
theorem Polled.inactive {result : IsotpResult} {now : UInt32} {rx' : IsotpRx} (h : Polled rx c now result rx')
    (hidle : rx.active = false) : rx' = rx := by
  obtain ⟨hp, hw⟩ := active_eq_false.1 hidle
  cases h with
  | idle => rfl
  | busy hw' | expired hw' | accepted _ _ hw' => exact absurd hw' (Bool.eq_false_iff.1 hw)
  | held _ hp' | unconfirmed _ hp' | confirmed _ hp' | listening _ hp' | silent _ hp' =>
    exact absurd hp' (Bool.eq_false_iff.1 hp)

/-- What every receiver of an attended run satisfies. -/
def Tended (s : Timed IsotpRx × ℕ) : Prop := ∃ q, Live s.1.state.timers s.2 s.1.now q

theorem Tended.init (config : IsotpConfig) (fallbackInUse : Bool) (now : ℕ) :
    Tended (⟨now, (IsotpRx.init config fallbackInUse).1⟩, now) := by
  refine ⟨now, .of_inactive ?_ ?_ rfl rfl (Nat.le_refl now)⟩
  · exact orDefault_ne_zero (by decide)
  · exact orDefault_ne_zero (by decide)

/-- An inactive receiver may be taken to have been polled now. -/
theorem Tended.rested {s : Timed IsotpRx × ℕ} (h : Tended s) (hidle : s.1.state.active = false) (t : ℕ) :
    Live s.1.state.timers t t t := by
  obtain ⟨q, hq⟩ := h
  obtain ⟨hp, hw⟩ := active_eq_false.1 hidle
  exact .of_inactive hq.nAr hq.nCr hw hp (Nat.le_refl t)

theorem Tended.poll_cases {s : Timed IsotpRx × ℕ} (h : Tended s) (c : Channel) (d : ℕ) :
    Polled s.1.state c (tick (s.1.now + d)) (s.1.state.poll c (tick (s.1.now + d))).1
      (attendedStep s (d, .poll c)).1.state := by
  obtain ⟨q, hq⟩ := h
  exact IsotpRx.poll_cases hq.nAr hq.nCr c _

theorem Tended.poll {s : Timed IsotpRx × ℕ} {d : ℕ} (h : Tended s) (hC : Attended s (d, .poll c)) :
    Tended (attendedStep s (d, .poll c)) := by
  cases hactive : s.1.state.active with
  | true =>
    obtain ⟨q, hq⟩ := h
    exact hq.polled (Nat.le_add_right _ _) (hC hactive)
  | false =>
    have hstate : (attendedStep s (d, .poll c)).1.state = s.1.state := (h.poll_cases c d).inactive hactive
    have hlive := h.rested hactive (s.1.now + d)
    rw [← hstate] at hlive
    exact ⟨_, hlive⟩

theorem Tended.step {s : Timed IsotpRx × ℕ} {e : ℕ × Op} (h : Tended s) (hC : Attended s e) :
    Tended (attendedStep s e) := by
  obtain ⟨gap, op⟩ := e
  obtain ⟨q, hq⟩ := h
  have hlater := hq.later (Nat.le_add_right s.1.now gap)
  cases op with
  | onFrame c frame =>
    have hr := onFrame_timers s.1.state hq.nAr c (tick (s.1.now + gap)) frame
    cases hactive : s.1.state.active with
    | true =>
      have hserved : (attendedStep s (gap, .onFrame c frame)).2 = s.2 := if_pos hactive
      rw [Tended, hserved]
      exact hlater.received hr
    | false =>
      have hserved : (attendedStep s (gap, .onFrame c frame)).2 = s.1.now + gap :=
        if_neg (Bool.eq_false_iff.1 hactive)
      rw [Tended, hserved]
      exact (Tended.rested ⟨q, hq⟩ hactive _).received hr
  | poll c => exact Tended.poll ⟨q, hq⟩ hC
  | read outCapacity =>
    have hstill : Live (s.1.state.read outCapacity).2.2.timers s.2 (s.1.now + gap) q :=
      read_timers s.1.state outCapacity ▸ hlater
    exact ⟨q, hstill⟩
  | reset => exact ⟨_, .of_inactive hq.nAr hq.nCr rfl rfl hlater.past.1⟩

/-- The polls of a list of gaps, each with the driver's answers at that moment. -/
def polling (polls : List (ℕ × Channel)) : List (ℕ × Op) := polls.map fun d => (d.1, .poll d.2)

/-- An active receiver that has just been polled. -/
def JustPolled (s : Timed IsotpRx × ℕ) : Prop :=
  s.2 = s.1.now ∧ s.1.state.active = true ∧ Tended s

/-- A receiver with nothing to do. -/
def Rested (s : Timed IsotpRx × ℕ) : Prop := Tended s ∧ s.1.state.active = false

theorem Tended.justPolled {s : Timed IsotpRx × ℕ} {d : ℕ} (h : Tended s) (hC : Attended s (d, .poll c)) :
    Rested (attendedStep s (d, .poll c)) ∨ JustPolled (attendedStep s (d, .poll c)) := by
  cases hactive : (attendedStep s (d, .poll c)).1.state.active with
  | false => exact Or.inl ⟨h.poll hC, hactive⟩
  | true => exact Or.inr ⟨rfl, hactive, h.poll hC⟩

theorem Rested.poll {s : Timed IsotpRx × ℕ} {d : ℕ} (h : Rested s) (hC : Attended s (d, .poll c)) :
    Rested (attendedStep s (d, .poll c)) := by
  have hstate : (attendedStep s (d, .poll c)).1.state = s.1.state := (h.1.poll_cases c d).inactive h.2
  exact ⟨h.1.poll hC, by rw [hstate]; exact h.2⟩

/-- A further poll a budget later. -/
theorem JustPolled.poll {s : Timed IsotpRx × ℕ} {d : ℕ} (h : JustPolled s) (hC : Attended s (d, .poll c))
    (hlong : s.1.state.longestWait ≤ d) :
    Rested (attendedStep s (d, .poll c)) ∨
      (JustPolled (attendedStep s (d, .poll c)) ∧
        (attendedStep s (d, .poll c)).1.state.rank < s.1.state.rank) := by
  obtain ⟨hnow, hactive, htended⟩ := h
  have hd : d ≤ 2 ^ 29 := by
    have hbound : s.1.now + d ≤ s.2 + 2 ^ 29 := hC hactive
    rw [hnow] at hbound
    omega
  rcases htended.justPolled hC with hidle | hpolled
  · exact Or.inl hidle
  · have hkept := htended.poll hC
    obtain ⟨q, hlive⟩ := htended
    rw [hnow] at hlive
    exact (hlive.falls hlong hd).imp (fun hidle => ⟨hkept, hidle⟩) fun hlt => ⟨hpolled, hlt⟩

/-- A receiver just polled comes to rest within as many further polls as its rank, a budget apart. -/
theorem JustPolled.rests {s : Timed IsotpRx × ℕ} {polls : List (ℕ × Channel)}
    (h : Rested s ∨ (JustPolled s ∧ s.1.state.rank ≤ polls.length))
    (hC : AllSteps attendedStep s Attended (polling polls))
    (hlong : ∀ d ∈ polls, s.1.state.longestWait ≤ d.1) : Rested (after attendedStep s (polling polls)) := by
  refine rests_of_rank attendedStep
    (fun t => JustPolled t ∧ t.1.state.longestWait = s.1.state.longestWait) Rested
    (fun t e => Attended t e ∧ ∃ d : ℕ × Channel, e = (d.1, .poll d.2) ∧ s.1.state.longestWait ≤ d.1)
    (fun t => t.1.state.rank) ?_ (fun t _ => rank_pos t.1.state) ?_ _ s (hC.of_map hlong) ?_
  · rintro t e hrested ⟨hatt, d, rfl, -⟩
    exact hrested.poll hatt
  · rintro t e ⟨hpolled, hsame⟩ ⟨hatt, d, rfl, hd⟩
    rcases hpolled.poll hatt (by rw [hsame]; exact hd) with hrested | ⟨hpolled', hlt⟩
    · exact Or.inl hrested
    · have hkept := (hpolled.2.2.poll_cases d.2 d.1).longestWait
      exact Or.inr ⟨⟨hpolled', hkept.trans hsame⟩, hlt⟩
  · rw [polling, List.length_map]
    exact h.imp id fun h => ⟨⟨h.1, rfl⟩, h.2⟩

/-- A receiver of an attended run comes to rest after at most four polls, all but the first of them a budget
after the one before. -/
theorem Tended.rests {s : Timed IsotpRx × ℕ} {polls : List (ℕ × Channel)} (h : Tended s)
    (hC : AllSteps attendedStep s Attended (polling polls))
    (hlong : ∀ d ∈ polls.tail, s.1.state.longestWait ≤ d.1) (hlen : 4 ≤ polls.length) :
    (after attendedStep s (polling polls)).1.state.active = false := by
  cases polls with
  | nil =>
    simp only [List.length_nil] at hlen
    omega
  | cons d polls =>
    rw [polling, List.map_cons, allSteps_cons] at hC
    rw [polling, List.map_cons, after_cons]
    refine (JustPolled.rests ?_ hC.2 fun d' hd' => ?_).2
    · rcases h.justPolled hC.1 with hrested | hpolled
      · exact Or.inl hrested
      · refine Or.inr ⟨hpolled, ?_⟩
        have := rank_le (attendedStep s (d.1, .poll d.2)).1.state
        simp only [List.length_cons] at hlen
        omega
    · have hsame := (h.poll_cases d.2 d.1).longestWait
      exact Nat.le_trans (Nat.le_of_eq hsame) (hlong d' hd')

end IsotpRx

/-! ## Both endpoints -/

/-- **No endpoint gets stuck**: from any state of an attended run, and whatever the driver answers, polls alone
bring the sender to idle and the receiver to neither a reception nor a Flow Control frame to send. The polls are
a longest budget apart and as many as twice the Consecutive Frames left and six, or five for the receiver. -/
theorem endpoints_come_to_rest :
    (∀ (config : IsotpConfig) (c : Channel) (now : ℕ) (es : List (ℕ × IsotpTx.Op)) (gaps : List ℕ),
      let s := (IsotpTx.Endpoint.init config c now, now)
      let tx := (after IsotpTx.attendedStep s es).1.state.1
      let polls := gaps.map fun d => (d, IsotpTx.Op.poll)
      AllSteps IsotpTx.attendedStep s IsotpTx.Attended (es ++ polls) →
        (∀ d ∈ gaps.tail, tx.longestWait ≤ d) → 2 * tx.framesLeft + 6 ≤ gaps.length →
          (after IsotpTx.attendedStep s (es ++ polls)).1.state.1.txOngoing = false) ∧
    ∀ (config : IsotpConfig) (fallbackInUse : Bool) (now : ℕ) (es : List (ℕ × IsotpRx.Op))
      (polls : List (ℕ × Channel)),
      let s : Timed IsotpRx × ℕ := (⟨now, (IsotpRx.init config fallbackInUse).1⟩, now)
      let rx := (after IsotpRx.attendedStep s es).1.state
      AllSteps IsotpRx.attendedStep s IsotpRx.Attended (es ++ IsotpRx.polling polls) →
        (∀ d ∈ polls.tail, rx.longestWait ≤ d.1) → 5 ≤ polls.length →
          (after IsotpRx.attendedStep s (es ++ IsotpRx.polling polls)).1.state.rxInProgress = false ∧
            (after IsotpRx.attendedStep s (es ++ IsotpRx.polling polls)).1.state.fcWaitingEnqueue = false := by
  constructor
  · intro config c now es gaps s tx polls hC hlong hlen
    rw [allSteps_append] at hC
    rw [after_append]
    have htended : IsotpTx.Tended (after IsotpTx.attendedStep s es) :=
      after_invariant_of (.init config c now) (fun _ _ h hC => h.step hC) es hC.1
    exact htended.rests hC.2 hlong (Nat.le_trans (Nat.add_le_add_left (by decide) _) hlen)
  · intro config fallbackInUse now es polls s rx hC hlong hlen
    rw [allSteps_append] at hC
    rw [after_append]
    have htended : IsotpRx.Tended (after IsotpRx.attendedStep s es) :=
      after_invariant_of (.init config fallbackInUse now) (fun _ _ h hC => h.step hC) es hC.1
    exact IsotpRx.active_eq_false.1 (htended.rests hC.2 hlong (by omega))

/-- A sender whose driver takes its frames and never finds the second complete, and a receiver whose Flow Control
frame the driver refuses. -/
theorem endpoints_come_to_rest_held :
    (after IsotpTx.attendedStep
        (IsotpTx.Endpoint.init (.init none) ⟨fun _ => true, fun n => decide (0 < n), []⟩ 0, 0)
        ([(0, .start (List.replicate 20 0)), (5, .onFrame (Frame.fill 0xCC [0x30, 0, 20]))] ++
          (List.replicate 10 2000).map fun d => (d, .poll))).1.state.1.txOngoing = false ∧
      (after IsotpRx.attendedStep (⟨0, (IsotpRx.init (.init none) false).1⟩, 0)
        ([(0, .onFrame ⟨fun _ => false, fun _ => false, []⟩ (Frame.fill 0xCC [0x10, 20, 1, 2, 3, 4, 5, 6]))] ++
          IsotpRx.polling
            (List.replicate 5 (2000, ⟨fun _ => false, fun _ => false, []⟩)))).1.state.rxInProgress = false :=
  ⟨endpoints_come_to_rest.1 _ _ 0 [(0, .start (List.replicate 20 0)),
      (5, .onFrame (Frame.fill 0xCC [0x30, 0, 20]))] (List.replicate 10 2000) (by decide +kernel)
      (by decide +kernel) (by decide +kernel),
    (endpoints_come_to_rest.2 _ false 0 [(0, .onFrame ⟨fun _ => false, fun _ => false, []⟩
        (Frame.fill 0xCC [0x10, 20, 1, 2, 3, 4, 5, 6]))]
      (List.replicate 5 (2000, ⟨fun _ => false, fun _ => false, []⟩)) (by decide +kernel) (by decide +kernel)
      (by decide +kernel)).1⟩

end DualCan.Isotp
