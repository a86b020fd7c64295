import DualCan.Isotp.Transfer
import DualCan.Run.Fair

/-!
# ISO-TP: end-to-end delivery

Infinite executions of a link whose bus loses and repeats nothing. `Fair` keeps the bus delivering and the
sender polled while time goes on, `Timely` keeps every timer from running out while a frame its owner waits
for is on its way. The payload is delivered exactly when it does not end on a full block
(`delivered_iff`): a sender whose last Consecutive Frame fills its block waits for a Flow Control frame that
the receiver, which is done, never sends.
-/

namespace DualCan.Isotp.Link

open DualCan.Clock DualCan.Run

/-! ## Executions -/

/-- Both directions are delivered and the sender is polled again and again, within 2³¹ ms and after the
longest separation time. -/
structure Fair (x : Execution step) : Prop where
  deliverRx : ∀ n, ∃ m, n ≤ m ∧ x.event m = .deliverRx false
  deliverTx : ∀ n, ∃ m, n ≤ m ∧ x.event m = .deliverTx false
  pollTx : ∀ n, ∃ m, n ≤ m ∧ x.event m = .pollTx ∧
    (x.state n).clock + 256 ≤ (x.state m).clock ∧ (x.state m).clock < (x.state n).clock + 2 ^ 31

/-- The event finds no timer run out whose frame is on its way: for a sender that waits for Flow Control,
while a frame is on the bus in either direction; for a receiver, during a reception. -/
structure InTime (l : Link) (e : Event) : Prop where
  tx : e = .pollTx → l.tx.txWaitingFc = true → l.headRx.isSome = true ∨ l.headTx.isSome = true →
    reached l.now l.tx.txDeadlineMs = false
  rx : e = .pollRx → l.rx.rxInProgress = true → reached l.now l.rx.rxDeadlineMs = false

def Timely (x : Execution step) : Prop := ∀ n, InTime (x.state n) (x.event n)

/-- What a transfer of `payload` should come to. -/
structure Delivered (x : Execution step) (payload : List UInt8) : Prop where
  ready : ∃ n, (x.state n).rx.messageReady = true ∧ (x.state n).rx.message = payload ∧
    (x.state n).rx.messageLength = payload.length
  idle : ∃ n, (x.state n).tx.txOngoing = false
  clean : ∀ n, (x.state n).txResult (x.event n) = .ok

variable {padding : UInt8} {payload : List UInt8} {bs s : ℕ} {fc : Frame} {x : Execution step}

/-! ## The invariant along an execution -/

/-- A sender that waits past its deadline gives up. -/
theorem Exchange.timeout {l : Link} (h : Exchange padding payload bs fc s l)
    (hfc : l.tx.txWaitingFc = true) (hreached : reached l.now l.tx.txDeadlineMs = true) :
    l.txResult .pollTx = .errTimeout := by
  have ho : l.tx.txOngoing = true := by
    by_contra hidle
    rw [(h.tx.ended (by simpa using hidle)).1] at hfc
    cases hfc
  simp only [txResult, IsotpTx.poll_eq_pollReady ho h.tx.enqueued h.tx.notPending]
  rw [IsotpTx.pollReady, if_pos hfc, if_pos hreached]

/-- What an event in time leaves, when the sender is not stuck or reports no error. -/
theorem Exchange.moved_of_inTime {l : Link} {e : Event} (h : Exchange padding payload bs fc s l)
    (he : Lossless e) (htime : InTime l e) (hgood : Free payload bs l ∨ l.txResult e = .ok) :
    Exchange.Moved padding payload bs fc s l e := by
  refine h.moved he ?_ htime.rx
  intro hpoll hfc
  rcases hgood with hfree | hok
  · refine htime.tx hpoll hfc ?_
    by_contra hnone
    simp only [not_or, Bool.not_eq_true] at hnone
    exact h.free hfree hnone.1 hnone.2 (Or.inl hfc)
  · by_contra hreached
    have hto := h.timeout hfc (by simpa using hreached)
    rw [hpoll, hto] at hok
    cases hok

theorem exchange_of_timely (hloss : ∀ n, Lossless (x.event n)) (htimely : Timely x)
    (hgood : EndsInsideBlock payload bs ∨ ∀ n, (x.state n).txResult (x.event n) = .ok)
    (h0 : ∃ s, Exchange padding payload bs fc s (x.state 0)) (n : ℕ) :
    ∃ s, Exchange padding payload bs fc s (x.state n) := by
  induction n with
  | zero => exact h0
  | succ n ih =>
    obtain ⟨s, h⟩ := ih
    obtain ⟨s', -, h'⟩ :=
      (h.moved_of_inTime (hloss n) (htimely n) (hgood.imp Or.inl fun hok => hok n)).next
    rw [x.next]
    exact ⟨s', h'⟩

/-! ## Progress -/

section Progress

variable (hloss : ∀ n, Lossless (x.event n)) (hfair : Fair x) (htimely : Timely x)
  (hfree : ∀ n, Free payload bs (x.state n))
  (hinv : ∀ n, ∃ s, Exchange padding payload bs fc s (x.state n))

include hloss htimely hfree hinv

theorem rank_antitone {m n : ℕ} (hmn : m ≤ n) :
    rank payload (x.state n) ≤ rank payload (x.state m) := by
  refine x.rank_le (fun k => ?_) hmn
  obtain ⟨s, h⟩ := hinv k
  rw [x.next]
  exact (h.moved_of_inTime (hloss k) (htimely k) (Or.inl (hfree k))).rank_le

/-- With nothing on the bus, only the clock moves until a poll of the sender gets on. -/
theorem only_clock_moves {n : ℕ} (hheadRx : (x.state n).headRx.isSome = false)
    (hheadTx : (x.state n).headTx.isSome = false) (ho : (x.state n).tx.txOngoing = true) (d : ℕ) :
    (∃ clock, x.state (n + d) = { x.state n with clock := clock }) ∨
      rank payload (x.state (n + d)) < rank payload (x.state n) := by
  induction d with
  | zero => exact Or.inl ⟨(x.state n).clock, rfl⟩
  | succ d ih =>
    rw [← Nat.add_assoc]
    obtain ⟨s, h⟩ := hinv (n + d)
    rcases ih with ⟨clock, hsame⟩ | hlt
    · have hrank : rank payload (x.state (n + d)) = rank payload (x.state n) := by
        rw [hsame]
        rfl
      have hnoRx : (x.state (n + d)).headRx.isSome = false := by rw [hsame]; exact hheadRx
      have hnoTx : (x.state (n + d)).headTx.isSome = false := by rw [hsame]; exact hheadTx
      have hon : (x.state (n + d)).tx.txOngoing = true := by rw [hsame]; exact ho
      rw [x.next]
      by_cases hpoll : x.event (n + d) = .pollTx
      · rw [hpoll]
        rcases h.progress_pollTx (hfree _) hnoRx hnoTx hon with hlt | ⟨hstep, -⟩
        · exact Or.inr (by omega)
        · exact Or.inl ⟨clock, by rw [hstep, hsame]⟩
      · obtain ⟨clock', hstep⟩ := h.quiet (hloss _) hpoll (htimely _).rx hnoRx hnoTx
        exact Or.inl ⟨clock', by rw [hstep, hsame]⟩
    · have hle := rank_antitone hloss htimely hfree hinv (show n + d ≤ n + d + 1 by omega)
      exact Or.inr (by omega)

include hfair

/-- A segment on the bus is delivered, which lowers the rank. -/
theorem rank_falls_of_headRx {n : ℕ} (hhead : (x.state n).headRx.isSome = true) :
    ∃ m, n ≤ m ∧ rank payload (x.state m) < rank payload (x.state n) := by
  obtain ⟨m, hm, hR | ⟨hP, hH⟩⟩ := x.first_helpful (P := fun l => l.headRx.isSome = true)
    (R := fun _ => False) (H := fun k => x.event k = .deliverRx false) hhead
    (fun k _ hP hH => by
      obtain ⟨s, h⟩ := hinv k
      have hmove := h.moved_of_inTime (hloss k) (htimely k) (Or.inl (hfree k))
      obtain ⟨s', hs, h'⟩ := hmove.next
      have heq := hmove.toRx_eq hH
      have hlt := h.headRx_isSome.1 hP
      rw [x.next]
      exact Or.inl (h'.headRx_isSome.2 (by omega)))
    (hfair.deliverRx n)
  · exact hR.elim
  · obtain ⟨s, h⟩ := hinv m
    have hlt := h.rank_deliverRx hP
    have hle := rank_antitone hloss htimely hfree hinv hm
    refine ⟨m + 1, by omega, ?_⟩
    rw [x.next, hH]
    omega

/-- A grant on the bus is taken, which lowers the rank. -/
theorem rank_falls_of_headTx {n : ℕ} (hhead : (x.state n).headTx.isSome = true) :
    ∃ m, n ≤ m ∧ rank payload (x.state m) < rank payload (x.state n) := by
  obtain ⟨m, hm, hR | ⟨hP, hH⟩⟩ := x.first_helpful (P := fun l => l.headTx.isSome = true)
    (R := fun _ => False) (H := fun k => x.event k = .deliverTx false) hhead
    (fun k _ hP hH => by
      obtain ⟨s, h⟩ := hinv k
      have hmove := h.moved_of_inTime (hloss k) (htimely k) (Or.inl (hfree k))
      obtain ⟨s', -, h'⟩ := hmove.next
      have heq := hmove.toTx_eq hH
      have hlt := h.headTx_isSome.1 hP
      have hmono := grantCount_mono payload bs hmove.toRx
      rw [x.next]
      exact Or.inl (h'.headTx_isSome.2 (by omega)))
    (hfair.deliverTx n)
  · exact hR.elim
  · obtain ⟨s, h⟩ := hinv m
    have hlt := h.rank_deliverTx hP
    have hle := rank_antitone hloss htimely hfree hinv hm
    refine ⟨m + 1, by omega, ?_⟩
    rw [x.next, hH]
    omega

/-- With nothing on the bus the sender gets on: of two polls far enough apart, one finds the separation
time over. -/
theorem rank_falls_of_pollTx {n : ℕ} (hheadRx : (x.state n).headRx.isSome = false)
    (hheadTx : (x.state n).headTx.isSome = false) (ho : (x.state n).tx.txOngoing = true) :
    ∃ m, n ≤ m ∧ rank payload (x.state m) < rank payload (x.state n) := by
  have hmoves := only_clock_moves hloss htimely hfree hinv hheadRx hheadTx ho
  obtain ⟨m₁, hm₁, hpoll₁, -, -⟩ := hfair.pollTx n
  obtain ⟨m₂, hm₂, hpoll₂, hclock, hhalf⟩ := hfair.pollTx m₁
  obtain ⟨d₁, rfl⟩ := Nat.exists_eq_add_of_le hm₁
  obtain ⟨d₂, rfl⟩ := Nat.exists_eq_add_of_le (Nat.le_trans hm₁ hm₂)
  rcases hmoves d₁ with ⟨c₁, hs₁⟩ | hlt
  · rcases hmoves d₂ with ⟨c₂, hs₂⟩ | hlt
    · obtain ⟨s₁, h₁⟩ := hinv (n + d₁)
      obtain ⟨s₂, h₂⟩ := hinv (n + d₂)
      have hfree₁ := hfree (n + d₁)
      have hfree₂ := hfree (n + d₂)
      rw [hs₁] at h₁ hfree₁
      rw [hs₂] at h₂ hfree₂
      rw [hs₁, hs₂] at hclock hhalf
      simp only at hclock hhalf
      rcases h₁.progress_pollTx hfree₁ hheadRx hheadTx ho with hlt | ⟨-, hsep₁⟩
      · refine ⟨n + d₁ + 1, by omega, ?_⟩
        rw [x.next, hpoll₁, hs₁]
        exact hlt
      · rcases h₂.progress_pollTx hfree₂ hheadRx hheadTx ho with hlt | ⟨-, hsep₂⟩
        · refine ⟨n + d₂ + 1, by omega, ?_⟩
          rw [x.next, hpoll₂, hs₂]
          exact hlt
        · -- both polls inside the separation time: too far apart for that
          obtain ⟨d, rfl⟩ := Nat.exists_eq_add_of_le (Nat.le_trans (Nat.le_add_right c₁ 256) hclock)
          simp only [now, tick_add] at hsep₁ hsep₂
          exact absurd hsep₂ (separation_over hsep₁ (by omega) (by omega))
    · exact ⟨n + d₂, by omega, hlt⟩
  · exact ⟨n + d₁, by omega, hlt⟩

/-- **Delivery**: the last segment reaches the receiver and the sender returns to idle. -/
theorem finishes (n : ℕ) :
    ∃ m, n ≤ m ∧ (x.state m).tx.txOngoing = false ∧ (x.state m).toRx = cfCount payload + 1 := by
  refine x.exists_goal_of_rank (fun l => l.tx.txOngoing = false ∧ l.toRx = cfCount payload + 1)
    (rank payload) (fun k hgoal => ?_) n
  obtain ⟨s, h⟩ := hinv k
  cases hheadRx : (x.state k).headRx.isSome with
  | true =>
    obtain ⟨m, hm, hlt⟩ := rank_falls_of_headRx hloss hfair htimely hfree hinv hheadRx
    exact ⟨m, hm, Or.inr hlt⟩
  | false =>
    cases hheadTx : (x.state k).headTx.isSome with
    | true =>
      obtain ⟨m, hm, hlt⟩ := rank_falls_of_headTx hloss hfair htimely hfree hinv hheadTx
      exact ⟨m, hm, Or.inr hlt⟩
    | false =>
      cases ho : (x.state k).tx.txOngoing with
      | true =>
        obtain ⟨m, hm, hlt⟩ := rank_falls_of_pollTx hloss hfair htimely hfree hinv hheadRx hheadTx ho
        exact ⟨m, hm, Or.inr hlt⟩
      | false =>
        -- an idle sender has sent every segment, and none is left on the bus
        have hall := (h.tx.ended ho).2.2
        have hbus := h.bus
        have hnone : ¬(x.state k).toRx < s + 1 := fun hlt => by
          rw [h.headRx_isSome.2 hlt] at hheadRx
          cases hheadRx
        exact absurd ⟨ho, by omega⟩ hgoal

end Progress

/-- A multi-frame payload that ends inside a block is delivered. -/
theorem delivered_of_ends (hloss : ∀ n, Lossless (x.event n)) (hfair : Fair x) (htimely : Timely x)
    (hends : EndsInsideBlock payload bs)
    (hinv : ∀ n, ∃ s, Exchange padding payload bs fc s (x.state n)) : Delivered x payload := by
  have hfree : ∀ n, Free payload bs (x.state n) := fun _ => Or.inl hends
  obtain ⟨m, -, hidle, hlast⟩ := finishes hloss hfair htimely hfree hinv 0
  obtain ⟨s, h⟩ := hinv m
  have hready := h.rx.complete (by omega)
  obtain ⟨hlength, hmessage⟩ := h.rx.safe.ready hready
  refine ⟨⟨m, hready, hmessage, hlength⟩, ⟨m, hidle⟩, fun n => ?_⟩
  obtain ⟨s, h⟩ := hinv n
  exact (h.moved_of_inTime (hloss n) (htimely n) (Or.inl (hfree n))).ok

/-- Every segment reaches the receiver, also those of a sender that will wait on its last full block. -/
theorem reaches_receiver (hloss : ∀ n, Lossless (x.event n)) (hfair : Fair x) (htimely : Timely x)
    (h0 : ∃ s, Exchange padding payload bs fc s (x.state 0)) :
    ∃ m, (x.state m).toRx = cfCount payload + 1 := by
  by_contra hnever
  simp only [not_exists] at hnever
  have hopen : ∀ n, (∃ s, Exchange padding payload bs fc s (x.state n)) → Free payload bs (x.state n) := by
    rintro n ⟨s, h⟩
    have hbus := h.bus
    have hle := h.tx.le h.multi
    have hne := hnever n
    exact Or.inr (by omega)
  have hinv : ∀ n, ∃ s, Exchange padding payload bs fc s (x.state n) := by
    intro n
    induction n with
    | zero => exact h0
    | succ n ih =>
      have hfree := hopen n ih
      obtain ⟨s, h⟩ := ih
      obtain ⟨s', -, h'⟩ := (h.moved_of_inTime (hloss n) (htimely n) (Or.inl hfree)).next
      rw [x.next]
      exact ⟨s', h'⟩
  obtain ⟨m, -, -, hlast⟩ := finishes hloss hfair htimely (fun n => hopen n (hinv n)) hinv 0
  exact hnever m hlast

/-- A multi-frame payload that ends on a full block is not: its sender returns to idle with an error or not
at all. -/
theorem not_delivered_of_full (hloss : ∀ n, Lossless (x.event n)) (htimely : Timely x)
    (hfull : ¬EndsInsideBlock payload bs)
    (h0 : ∃ s, Exchange padding payload bs fc s (x.state 0)) : ¬Delivered x payload := by
  rintro ⟨-, ⟨n, hidle⟩, hclean⟩
  obtain ⟨s, h⟩ := exchange_of_timely hloss htimely (Or.inr hclean) h0 n
  rw [h.ongoing_of_full hfull] at hidle
  cases hidle

/-! ## Single Frames -/

/-- A link whose only frame is a Single Frame. -/
structure SingleShot (padding : UInt8) (payload : List UInt8) (l : Link) : Prop where
  tx : l.tx.txOngoing = false
  sent : l.txChannel.sent = [IsotpTx.sfFrame padding payload]
  quiet : l.rxChannel.sent = []
  safe : IsotpRx.RxSafe payload l.toRx l.rx
  idle : l.rx.rxInProgress = false
  enqueued : l.rx.fcWaitingEnqueue = false
  notPending : l.rx.fcPending = false
  empty : l.toRx = 0 → l.rx.messageReady = false
  ready : l.toRx ≠ 0 → l.rx.messageReady = true

theorem SingleShot.step {l : Link} (h : SingleShot padding payload l) (h1 : 1 ≤ payload.length)
    (hlen : payload.length ≤ 7) {e : Event} (he : Lossless e) :
    l.txResult e = .ok ∧ SingleShot padding payload (l.step e) ∧
      (e = .deliverRx false → (l.step e).toRx ≠ 0) := by
  have htxNone : l.headTx = none := by simp [headTx, h.quiet]
  cases e with
  | advance ms =>
    refine ⟨rfl, ⟨h.tx, h.sent, h.quiet, h.safe, h.idle, h.enqueued, h.notPending, h.empty, h.ready⟩, ?_⟩
    intro hdeliver
    cases hdeliver
  | pollRx =>
    have hstep : l.step .pollRx = l := by
      simp [Link.step, IsotpRx.poll, h.idle, h.enqueued, h.notPending]
    rw [hstep]
    refine ⟨rfl, h, ?_⟩
    intro hdeliver
    cases hdeliver
  | pollTx =>
    obtain ⟨hstep, hok⟩ := Exchange.step_pollTx_idle h.tx
    rw [hstep]
    refine ⟨hok, h, ?_⟩
    intro hdeliver
    cases hdeliver
  | deliverTx lost =>
    cases lost with
    | true => cases he
    | false =>
      have hstep : l.step (.deliverTx false) = l := by simp [Link.step, htxNone]
      rw [hstep]
      refine ⟨by simp [txResult, htxNone], h, ?_⟩
      intro hdeliver
      cases hdeliver
  | deliverRx lost =>
    cases lost with
    | true => cases he
    | false =>
      rcases Nat.eq_zero_or_pos l.toRx with h0 | hpos
      · have hhead : l.headRx = some (IsotpTx.sfFrame padding payload) := by
          simp [headRx, h.sent, h0]
        have hsafe := h.safe.onSingleFrame padding hlen
        obtain ⟨rx, hrx, hready, hidle, henq, hpend⟩ :=
          IsotpRx.onSingleFrame_ready padding h1 hlen h.idle (h.empty h0)
            h.safe.hasBuffer
        rw [hrx] at hsafe
        have hstep : l.step (.deliverRx false) = { l with rx := rx, toRx := 1 } := by
          simp [Link.step, hhead, IsotpRx.onFrame, sfFrame_pci hlen, hrx, advanceCursor, h0]
        rw [hstep]
        exact ⟨rfl, ⟨h.tx, h.sent, h.quiet, hsafe.mono (by omega), by rw [hidle, h.idle],
          by rw [henq, h.enqueued], by rw [hpend, h.notPending], fun h => absurd h Nat.one_ne_zero,
          fun _ => hready⟩, fun _ => Nat.one_ne_zero⟩
      · have hnone : l.headRx = none := by
          simp only [headRx, h.sent, List.getElem?_eq_none_iff, List.length_singleton]
          omega
        have hstep : l.step (.deliverRx false) = l := by simp [Link.step, hnone]
        rw [hstep]
        exact ⟨rfl, h, fun _ => by omega⟩
  | read => cases he
  | dropRx => cases he
  | dropTx => cases he

theorem delivered_of_single (hloss : ∀ n, Lossless (x.event n)) (hfair : Fair x)
    (h1 : 1 ≤ payload.length) (hlen : payload.length ≤ 7)
    (h0 : SingleShot padding payload (x.state 0)) : Delivered x payload := by
  have hinv := x.invariant_of (I := SingleShot padding payload) (C := fun _ e => Lossless e) h0
    (fun t e ht he => (ht.step h1 hlen he).2.1) hloss
  obtain ⟨m, -, hdeliver⟩ := hfair.deliverRx 0
  have hmoved := ((hinv m).step h1 hlen (hloss m)).2.2 hdeliver
  rw [← x.next] at hmoved
  have hready := (hinv (m + 1)).ready hmoved
  obtain ⟨hlength, hmessage⟩ := (hinv (m + 1)).safe.ready hready
  exact ⟨⟨m + 1, hready, hmessage, hlength⟩, ⟨0, (hinv 0).tx⟩,
    fun n => ((hinv n).step h1 hlen (hloss n)).1⟩

/-! ## Starting from fresh endpoints -/

section Start

variable {rxConfig : IsotpConfig} {fallbackInUse : Bool} {buffer : List UInt8}

/-- A fresh receiver that got `buffer` from `selectBuffer` has seen no segment. -/
theorem fresh_safe
    (hbuffer : (IsotpRx.selectBuffer rxConfig.rxBuffer fallbackInUse).1 = some buffer)
    (hroom : payload.length ≤ buffer.length) (d : ℕ) :
    IsotpRx.RxSafe payload d (IsotpRx.init rxConfig fallbackInUse).1 := by
  refine .of_empty ?_ rfl ?_ rfl rfl
  · simp [IsotpRx.init, hbuffer]
  · simpa [IsotpRx.init, hbuffer] using hroom

theorem accepting_lossless : accepting.Lossless := ⟨fun _ => rfl, fun _ => rfl⟩

theorem start_single (txConfig : IsotpConfig) (clock : ℕ) (h1 : 1 ≤ payload.length)
    (hlen : payload.length ≤ 7)
    (hbuffer : (IsotpRx.selectBuffer rxConfig.rxBuffer fallbackInUse).1 = some buffer)
    (hroom : payload.length ≤ buffer.length) :
    SingleShot (paddingOf txConfig) payload
      ((fresh txConfig rxConfig fallbackInUse clock).start payload).2 := by
  obtain ⟨tx, c, hstart, hidle, -, hsent⟩ := IsotpTx.start_single (tick clock)
    accepting_lossless (show (IsotpTx.init txConfig).txOngoing = false from rfl) h1 hlen
  have hlink : ((fresh txConfig rxConfig fallbackInUse clock).start payload).2 =
      { fresh txConfig rxConfig fallbackInUse clock with tx := tx, txChannel := c } := by
    simp [start, fresh, now, hstart]
  rw [hlink]
  exact ⟨hidle, hsent, rfl, fresh_safe hbuffer hroom 0, rfl, rfl, rfl, fun _ => rfl,
    fun h => absurd rfl h⟩

theorem start_multi (txConfig : IsotpConfig) (clock : ℕ) (hlen : 7 < payload.length)
    (hmax : payload.length ≤ 4095)
    (hbuffer : (IsotpRx.selectBuffer rxConfig.rxBuffer fallbackInUse).1 = some buffer)
    (hroom : payload.length ≤ buffer.length) :
    Exchange (paddingOf txConfig) payload rxConfig.blockSize.toNat
      ((IsotpRx.init rxConfig fallbackInUse).1.fcFrameOf fcCts) 0
      ((fresh txConfig rxConfig fallbackInUse clock).start payload).2 := by
  obtain ⟨tx, c, hstart, hat⟩ := IsotpTx.start_multi (tick clock)
    rxConfig.blockSize.toNat accepting_lossless rfl
    (show (IsotpTx.init txConfig).txOngoing = false from rfl) (orDefault_ne_zero (by decide)) rfl hlen
    hmax
  have hlink : ((fresh txConfig rxConfig fallbackInUse clock).start payload).2 =
      { fresh txConfig rxConfig fallbackInUse clock with tx := tx, txChannel := c } := by
    simp [start, fresh, now, hstart]
  rw [hlink]
  refine ⟨hlen, hmax, hat, ⟨fresh_safe hbuffer hroom 0, accepting_lossless, rfl, rfl, rfl, rfl, rfl,
    fun _ => ⟨rfl, rfl⟩, fun h => absurd h (Nat.not_succ_le_zero 0), fun h => absurd h (Nat.not_lt_zero _)⟩,
    Nat.zero_le 1, Nat.le_refl 0⟩

/-- **End-to-end transfer.** Between fresh endpoints, on a lossless bus, in every fair and timely execution
a payload that fits the receiver's buffer is delivered without an error if and only if it is a Single
Frame, the receiver sets no block size, or the last Consecutive Frame does not fill its block. -/
theorem delivered_iff (txConfig rxConfig : IsotpConfig) (fallbackInUse : Bool) (clock : ℕ)
    (payload buffer : List UInt8) (h1 : 1 ≤ payload.length) (hmax : payload.length ≤ 4095)
    (hbuffer : (IsotpRx.selectBuffer rxConfig.rxBuffer fallbackInUse).1 = some buffer)
    (hroom : payload.length ≤ buffer.length) (x : Execution step)
    (h0 : x.state 0 = ((fresh txConfig rxConfig fallbackInUse clock).start payload).2)
    (hloss : ∀ n, Lossless (x.event n)) (hfair : Fair x) (htimely : Timely x) :
    Delivered x payload ↔
      payload.length ≤ 7 ∨ rxConfig.blockSize = 0 ∨
        payload.length / 7 % rxConfig.blockSize.toNat ≠ 0 := by
  by_cases hlen : payload.length ≤ 7
  · have hstart := start_single txConfig clock h1 hlen hbuffer hroom
    rw [← h0] at hstart
    exact ⟨fun _ => Or.inl hlen, fun _ => delivered_of_single hloss hfair h1 hlen hstart⟩
  · have hstart := start_multi txConfig clock (by omega) hmax hbuffer hroom
    rw [← h0] at hstart
    have hends : EndsInsideBlock payload rxConfig.blockSize.toNat ↔ rxConfig.blockSize = 0 ∨
        payload.length / 7 % rxConfig.blockSize.toNat ≠ 0 := by
      rw [EndsInsideBlock, cfCount, ← UInt8.toNat_inj]
      rfl
    rw [or_iff_right hlen, ← hends]
    constructor
    · intro hdelivered
      by_contra hfull
      exact not_delivered_of_full hloss htimely hfull ⟨0, hstart⟩ hdelivered
    · intro hin
      exact delivered_of_ends hloss hfair htimely hin
        (exchange_of_timely hloss htimely (Or.inl hin) ⟨0, hstart⟩)

end Start

/-! ## Two executions -/

/-- Deliver, deliver, poll, poll, and let 256 ms pass, over and over. -/
def roundRobin (n : ℕ) : Event :=
  match n % 5 with
  | 0 => .deliverRx false
  | 1 => .deliverTx false
  | 2 => .pollTx
  | 3 => .pollRx
  | _ => .advance 256

theorem roundRobin_lossless (n : ℕ) : Lossless (roundRobin n) := by
  unfold roundRobin
  split <;> trivial

theorem step_clock (l : Link) (e : Event) :
    (l.step e).clock = match e with
      | .advance ms => l.clock + ms
      | _ => l.clock := by
  cases e <;> simp only [step] <;> split <;> rfl

theorem roundRobin_clock (l : Link) (n : ℕ) :
    ((Execution.ofEvents step l roundRobin).state n).clock = l.clock + 256 * (n / 5) := by
  induction n with
  | zero => rfl
  | succ n ih =>
    rw [Execution.next, step_clock, ih]
    have hlt : n % 5 < 5 := Nat.mod_lt n (by decide)
    have hevent : (Execution.ofEvents step l roundRobin).event n = roundRobin n := rfl
    rw [hevent, roundRobin]
    obtain h | h | h | h | h : n % 5 = 0 ∨ n % 5 = 1 ∨ n % 5 = 2 ∨ n % 5 = 3 ∨ n % 5 = 4 := by omega
    all_goals
      rw [h]
      simp only
      omega

theorem roundRobin_fair (l : Link) : Fair (Execution.ofEvents step l roundRobin) := by
  have hevent : ∀ m, (Execution.ofEvents step l roundRobin).event m = roundRobin m := fun _ => rfl
  refine ⟨fun n => ⟨5 * n, by omega, ?_⟩, fun n => ⟨5 * n + 1, by omega, ?_⟩,
    fun n => ⟨5 * (n / 5 + 1) + 2, by omega, ?_, ?_, ?_⟩⟩
  · rw [hevent, roundRobin, Nat.mul_mod_right]
    rfl
  · rw [hevent, roundRobin, Nat.mul_add_mod]
    rfl
  · rw [hevent, roundRobin, Nat.mul_add_mod]
    rfl
  · rw [roundRobin_clock, roundRobin_clock]
    omega
  · rw [roundRobin_clock, roundRobin_clock]
    omega

/-- Nothing is on the bus and no one will send: the sender is idle or waits for a grant, the receiver is
idle. -/
structure Settled (l : Link) : Prop where
  headRx : l.headRx = none
  headTx : l.headTx = none
  idle : l.rx.rxInProgress = false
  fcEnqueued : l.rx.fcWaitingEnqueue = false
  fcNotPending : l.rx.fcPending = false
  waits : l.tx.txOngoing = true → l.tx.txWaitingFc = true
  enqueued : l.tx.txWaitingEnqueue = false
  notPending : l.tx.txFramePending = false

theorem Settled.step {l : Link} (h : Settled l) {e : Event} (he : Lossless e) :
    Settled (l.step e) := by
  cases e with
  | advance ms =>
    exact ⟨h.headRx, h.headTx, h.idle, h.fcEnqueued, h.fcNotPending, h.waits, h.enqueued,
      h.notPending⟩
  | pollRx =>
    have hstep : l.step .pollRx = l := by
      simp [Link.step, IsotpRx.poll, h.idle, h.fcEnqueued, h.fcNotPending]
    rwa [hstep]
  | pollTx =>
    cases ho : l.tx.txOngoing with
    | false => rwa [(Exchange.step_pollTx_idle ho).1]
    | true =>
      have hstep : l.step .pollTx = { l with
          tx := if reached l.now l.tx.txDeadlineMs then { l.tx with txOngoing := false } else l.tx } := by
        simp only [Link.step, IsotpTx.poll_eq_pollReady ho h.enqueued h.notPending,
          IsotpTx.pollReady, h.waits ho, if_true]
        split <;> rfl
      rw [hstep]
      refine ⟨h.headRx, h.headTx, h.idle, h.fcEnqueued, h.fcNotPending, ?_, ?_, ?_⟩ <;>
        simp only
      · split
        · intro hi
          cases hi
        · exact h.waits
      · split <;> exact h.enqueued
      · split <;> exact h.notPending
  | deliverRx lost =>
    cases lost with
    | true => cases he
    | false =>
      have hstep : l.step (.deliverRx false) = l := by simp [Link.step, h.headRx]
      rwa [hstep]
  | deliverTx lost =>
    cases lost with
    | true => cases he
    | false =>
      have hstep : l.step (.deliverTx false) = l := by simp [Link.step, h.headTx]
      rwa [hstep]
  | read => cases he
  | dropRx => cases he
  | dropTx => cases he

/-- An execution that is in time until it settles is in time. -/
theorem timely_of_settled {k : ℕ} (hloss : ∀ n, Lossless (x.event n))
    (hfirst : ∀ n < k, InTime (x.state n) (x.event n)) (hk : Settled (x.state k)) : Timely x := by
  have hsettled : ∀ d, Settled (x.state (k + d)) := by
    intro d
    induction d with
    | zero => exact hk
    | succ d ih =>
      rw [← Nat.add_assoc, x.next]
      exact ih.step (hloss _)
  intro n
  rcases Nat.lt_or_ge n k with hlt | hge
  · exact hfirst n hlt
  · obtain ⟨d, rfl⟩ := Nat.exists_eq_add_of_le hge
    have h := hsettled d
    refine ⟨fun _ _ hhead => ?_, fun _ hp => ?_⟩
    · rw [h.headRx, h.headTx] at hhead
      rcases hhead with hhead | hhead <;> cases hhead
    · rw [h.idle] at hp
      cases hp

instance (l : Link) (e : Event) : Decidable (InTime l e) :=
  decidable_of_iff
    ((e = .pollTx → l.tx.txWaitingFc = true → l.headRx.isSome = true ∨ l.headTx.isSome = true →
      reached l.now l.tx.txDeadlineMs = false) ∧
      (e = .pollRx → l.rx.rxInProgress = true → reached l.now l.rx.rxDeadlineMs = false))
    ⟨fun h => ⟨h.1, h.2⟩, fun h => ⟨h.tx, h.rx⟩⟩

/-- Eight bytes between fresh endpoints, in round robin, with the receiver's block size. -/
def eightBytes (blockSize : UInt8) : Execution step :=
  .ofEvents step
    ((fresh smallConfig { smallConfig with blockSize := blockSize } false 0).start
      [1, 2, 3, 4, 5, 6, 7, 8]).2 roundRobin

/-- With a block size of 1 the transfer of eight bytes, each of whose frames was taken in, ends in a
timeout. -/
theorem not_delivered_eightBytes :
    (∀ n, Lossless ((eightBytes 1).event n)) ∧ Fair (eightBytes 1) ∧ Timely (eightBytes 1) ∧
      ((eightBytes 1).state 27).txResult ((eightBytes 1).event 27) = .errTimeout ∧
      ¬Delivered (eightBytes 1) [1, 2, 3, 4, 5, 6, 7, 8] := by
  have htimely : Timely (eightBytes 1) :=
    timely_of_settled (k := 8) roundRobin_lossless (by decide)
      ⟨by decide, by decide, by decide, by decide, by decide, by decide, by decide, by decide⟩
  have herror : ((eightBytes 1).state 27).txResult ((eightBytes 1).event 27) = .errTimeout := by
    decide
  refine ⟨roundRobin_lossless, roundRobin_fair _, htimely, herror, ?_⟩
  intro hdelivered
  rw [hdelivered.clean 27] at herror
  cases herror

theorem delivered_eightBytes : Delivered (eightBytes 2) [1, 2, 3, 4, 5, 6, 7, 8] := by
  have htimely : Timely (eightBytes 2) :=
    timely_of_settled (k := 8) roundRobin_lossless (by decide)
      ⟨by decide, by decide, by decide, by decide, by decide, by decide, by decide, by decide⟩
  exact (delivered_iff smallConfig { smallConfig with blockSize := 2 } false 0
    [1, 2, 3, 4, 5, 6, 7, 8] (List.replicate 8 0) (by decide) (by decide) rfl (by decide)
    (eightBytes 2) rfl roundRobin_lossless (roundRobin_fair _) htimely).2 (by decide)

end DualCan.Isotp.Link
