import DualCan.Isotp.Delivery
import DualCan.Isotp.Reading

/-!
# ISO-TP: the firmware's sender against the Python tester's `receive`

An `Uplink` is a firmware sender and a tester in a call of `IsoTpTransport.receive`. On a bus that loses and
repeats frames the call returns the payload or nothing (`read_eq_payload`). On a bus that does neither, the
call mirrors the firmware's own receiver with the same block size (`Mirrors`): the sender meets the same Flow
Control frames at the same places, and a `Link` tells how the transfer ends (`received_and_sent_iff`).
-/

namespace DualCan.Isotp

open DualCan.Clock DualCan.Run

/-! ## The two parties -/

/-- A firmware sender and a tester in a call of `receive`, with one clock. The bus has taken care of the
first `toTester` frames the sender's driver accepted and of the first `toTx` frames the tester sent. -/
structure Uplink where
  tx : IsotpTx
  txChannel : Channel
  reading : Py.Reading
  granted : List (List UInt8)
  toTester : ℕ
  toTx : ℕ
  clock : ℕ

namespace Uplink

/-- A delivery `again` leaves the frame at the head of the bus; `expire` is the deadline of `receive`. -/
inductive Event where
  | advance (ms : ℕ)
  | pollTx
  | deliverTester (again : Bool)
  | dropTester
  | deliverTx (again : Bool)
  | dropTx
  | expire
  deriving DecidableEq

def now (u : Uplink) : UInt32 := tick u.clock

/-- The frame the bus will bring the tester next. -/
def headTester (u : Uplink) : Option Frame := u.txChannel.sent[u.toTester]?

/-- The call when its deadline passes. -/
def expired : Py.Reading → Py.Reading
  | .first => .after (.raised "timed out waiting for ISO-TP frame")
  | .after (.waiting _) => .after (.raised "timed out waiting for ISO-TP frame")
  | reading => reading

def step (t : Py.IsoTpTransport) (u : Uplink) : Event → Uplink
  | .advance ms => { u with clock := u.clock + ms }
  | .pollTx =>
    let (_, tx, c) := u.tx.poll u.txChannel u.now
    { u with tx := tx, txChannel := c }
  | .deliverTester again =>
    match u.headTester with
    | none => u
    | some frame =>
      let (grants, reading) := t.take u.reading frame
      { u with
        reading := reading
        granted := u.granted ++ grants
        toTester := Link.advanceCursor u.toTester again }
  | .dropTester => if u.headTester.isSome then { u with toTester := u.toTester + 1 } else u
  | .deliverTx again =>
    match u.granted[u.toTx]? with
    | none => u
    | some data =>
      let u := { u with toTx := Link.advanceCursor u.toTx again }
      match Frame.ofBytes data with
      | none => u
      | some frame => { u with tx := (u.tx.onFrame u.now frame).2 }
  | .dropTx => if u.granted[u.toTx]?.isSome then { u with toTx := u.toTx + 1 } else u
  | .expire => { u with reading := expired u.reading }

/-- What the sender's poll or frame handler reports in a step, `ok` in every other step. -/
def txResult (u : Uplink) : Event → IsotpResult
  | .pollTx => (u.tx.poll u.txChannel u.now).1
  | .deliverTx _ =>
    match u.granted[u.toTx]?.bind Frame.ofBytes with
    | none => .ok
    | some frame => (u.tx.onFrame u.now frame).1
  | _ => .ok

/-- `IsotpTx_Start` on the sender. -/
def start (u : Uplink) (payload : List UInt8) : IsotpResult × Uplink :=
  let (result, tx, c) := u.tx.start u.txChannel u.now payload
  (result, { u with tx := tx, txChannel := c })

/-! ## Agreement under loss and repetition -/

variable {t : Py.IsoTpTransport} {padding : UInt8} {payload : List UInt8} {base : List Frame} {u : Uplink}

/-- The sender is somewhere in its transfer, the call is safe for the segments the bus has dealt with. -/
structure Agree (padding : UInt8) (payload : List UInt8) (base : List Frame) (u : Uplink) : Prop where
  max : payload.length ≤ 4095
  tx : IsotpTx.InTransfer padding payload base
    (fun sent => ∃ j, sent = base ++ (segments padding payload).take j) (u.tx, u.txChannel)
  cursor : base.length ≤ u.toTester
  reading : Py.IsoTpTransport.ReadSafe payload (u.toTester - base.length) u.reading

/-- A frame at the head of the bus is the segment at the bus's position. -/
theorem Agree.headTester (h : Agree padding payload base u) {frame : Frame}
    (hhead : u.headTester = some frame) :
    (segments padding payload)[u.toTester - base.length]? = some frame := by
  obtain ⟨sent, hsent, hprefix⟩ := h.tx.sent_prefix
  rw [Uplink.headTester, hsent, List.getElem?_append_right h.cursor] at hhead
  obtain ⟨rest, hrest⟩ := hprefix
  rw [← hrest, List.getElem?_append_left (List.getElem?_eq_some_iff.1 hhead).1]
  exact hhead

theorem expired_safe {d : ℕ} {reading : Py.Reading} (h : Py.IsoTpTransport.ReadSafe payload d reading) :
    Py.IsoTpTransport.ReadSafe payload d (expired reading) := by
  match reading, h with
  | .first, _ => trivial
  | .after (.waiting _), _ => trivial
  | .after (.returned _), h => exact h
  | .after (.raised _), _ => trivial

theorem Agree.step (h : Agree padding payload base u) (e : Event) :
    Agree padding payload base (u.step t e) := by
  cases e with
  | advance ms => exact ⟨h.max, h.tx, h.cursor, h.reading⟩
  | pollTx =>
    refine ⟨h.max, ?_, h.cursor, h.reading⟩
    exact h.tx.step (e := .poll u.now) (fun _ _ he => nomatch he) (exists_take_segments _) fun k _ => ⟨k, rfl⟩
  | deliverTester again =>
    simp only [Uplink.step]
    split
    · exact h
    · next frame hhead =>
      have hcursor := h.cursor
      have hle : u.toTester ≤ Link.advanceCursor u.toTester again := by
        unfold Link.advanceCursor
        split <;> omega
      refine ⟨h.max, h.tx, Nat.le_trans hcursor hle, ?_⟩
      exact (h.reading.take h.max (h.headTester hhead)).mono (by simp only; omega)
  | dropTester =>
    simp only [Uplink.step]
    split
    · have hcursor := h.cursor
      exact ⟨h.max, h.tx, Nat.le_succ_of_le hcursor, h.reading.mono (by simp only; omega)⟩
    · exact h
  | deliverTx again =>
    simp only [Uplink.step]
    split
    · exact h
    · split
      · exact ⟨h.max, h.tx, h.cursor, h.reading⟩
      · next frame _ =>
        refine ⟨h.max, ?_, h.cursor, h.reading⟩
        exact h.tx.step (e := .onFrame u.now frame) (fun _ _ he => nomatch he) (exists_take_segments _)
          fun k _ => ⟨k, rfl⟩
  | dropTx =>
    simp only [Uplink.step]
    split
    · exact ⟨h.max, h.tx, h.cursor, h.reading⟩
    · exact h
  | expire => exact ⟨h.max, h.tx, h.cursor, expired_safe h.reading⟩

/-- A sender brought up by any history of calls starts a transfer on an empty bus, towards a tester that
has just called `receive`. -/
theorem agree_start {config : IsotpConfig} {c : Channel} {history : List IsotpTx.Call}
    (htx : (u.tx, u.txChannel) = after IsotpTx.callStep (IsotpTx.init config, c) history)
    (hbus : u.toTester = u.txChannel.sent.length) (hreading : u.reading = .first)
    (hstart : (u.start payload).1 = .ok) :
    Agree (paddingOf config) payload u.txChannel.sent (u.start payload).2 := by
  obtain ⟨hnAs, hpadding⟩ := IsotpTx.after_configured config c history
  rw [← htx] at hnAs hpadding
  rcases hst : u.tx.start u.txChannel u.now payload with ⟨result, tx, c'⟩
  obtain rfl : result = .ok := by simpa [start, hst] using hstart
  obtain ⟨-, hmax, hout⟩ := IsotpTx.start_outcome hpadding hnAs hst
  have huplink : (u.start payload).2 = { u with tx := tx, txChannel := c' } := by simp [start, hst]
  rw [huplink]
  refine ⟨hmax, ?_, Nat.le_of_eq hbus.symm, ?_⟩
  · exact hout.inTransfer (exists_take_segments _) fun k h _ => absurd rfl h
  · rw [hreading]
    trivial

/-- **The tester reads the payload or nothing.** In every run after the start of a transfer of `payload`,
whatever the bus loses or repeats in either direction and whenever the deadline passes, a message that
`receive` returns is the payload. -/
theorem read_eq_payload {config : IsotpConfig} {c : Channel} {history : List IsotpTx.Call}
    (t : Py.IsoTpTransport) (u : Uplink) (payload : List UInt8) (es : List Event) (data : List UInt8)
    (htx : (u.tx, u.txChannel) = after IsotpTx.callStep (IsotpTx.init config, c) history)
    (hbus : u.toTester = u.txChannel.sent.length) (hreading : u.reading = .first)
    (hstart : (u.start payload).1 = .ok)
    (hread : (after (step t) (u.start payload).2 es).reading = .after (.returned data)) :
    data = payload := by
  have h := after_invariant (agree_start htx hbus hreading hstart) (fun u e hu => hu.step (t := t) e) es
  have hsafe := h.reading
  rw [hread] at hsafe
  exact hsafe

/-- A sender as its initialiser leaves it, and a tester that has just called `receive`. -/
def fresh (txConfig : IsotpConfig) (clock : ℕ) : Uplink where
  tx := IsotpTx.init txConfig
  txChannel := Link.accepting
  reading := .first
  granted := []
  toTester := 0
  toTx := 0
  clock := clock

/-- A run that repeats and loses frames. -/
def repeatedRun : List Event :=
  [.deliverTester false, .deliverTx true, .pollTx, .dropTx, .deliverTester true, .deliverTester true, .expire]

theorem read_eq_payload_repeated :
    ∃ data, (after (step {}) ((fresh Link.smallConfig 0).start [1, 2, 3, 4, 5, 6, 7, 8]).2
      repeatedRun).reading = .after (.returned data) ∧ data = [1, 2, 3, 4, 5, 6, 7, 8] :=
  ⟨_, rfl, read_eq_payload {} (fresh Link.smallConfig 0) [1, 2, 3, 4, 5, 6, 7, 8] repeatedRun _
    (show _ = after IsotpTx.callStep (IsotpTx.init Link.smallConfig, Link.accepting) [] from rfl) rfl rfl
    (by decide) rfl⟩

/-! ## A tester that mirrors the firmware's receiver -/

/-- The events of a bus that loses and repeats nothing. -/
def Lossless : Event → Prop
  | .deliverTester true | .deliverTx true | .dropTester | .dropTx => False
  | _ => True

/-- The event finds no timer run out whose frame is on its way, and no call of `receive` past its deadline. -/
structure InTime (u : Uplink) (e : Event) : Prop where
  tx : e = .pollTx → u.tx.txWaitingFc = true →
    u.headTester.isSome = true ∨ u.granted[u.toTx]?.isSome = true → reached u.now u.tx.txDeadlineMs = false
  reading : e = .expire → expired u.reading = u.reading

/-- The event as the link of the sender and a firmware receiver sees it. -/
def toLink : Event → Link.Event
  | .advance ms => .advance ms
  | .pollTx => .pollTx
  | .deliverTester again => .deliverRx again
  | .dropTester => .dropRx
  | .deliverTx again => .deliverTx again
  | .dropTx => .dropTx
  | .expire => .advance 0

/-- The receiver configuration a tester's call mirrors. -/
def mirrorConfig (t : Py.IsoTpTransport) (payload : List UInt8) : IsotpConfig :=
  { IsotpConfig.init (some (List.replicate payload.length 0)) with
    blockSize := UInt8.ofNat t.blockSize
    stminMs := UInt8.ofNat t.stminMs
    padding := 0xCC }

/-- The tester stands where a firmware receiver would, and has sent the same Flow Control frames. -/
structure Mirrors (t : Py.IsoTpTransport) (payload : List UInt8) (u : Uplink) (l : Link) : Prop where
  tx : l.tx = u.tx
  txChannel : l.txChannel = u.txChannel
  toRx : l.toRx = u.toTester
  toTx : l.toTx = u.toTx
  clock : l.clock = u.clock
  reading : u.reading = t.readingAt payload u.toTester
  granted : u.granted = l.rxChannel.sent.map Vector.toList

variable {l : Link} {s : ℕ} {e : Event}

namespace Mirrors

variable (h : Mirrors t payload u l)

include h

theorem now_eq : l.now = u.now := by
  rw [Link.now, h.clock]
  rfl

theorem headRx_eq : l.headRx = u.headTester := by
  rw [Link.headRx, h.txChannel, h.toRx]
  rfl

theorem granted_eq : u.granted[u.toTx]? = l.headTx.map Vector.toList := by
  rw [h.granted, List.getElem?_map, Link.headTx, h.toTx]

theorem headTx_eq : u.granted[u.toTx]?.bind Frame.ofBytes = l.headTx := by
  rw [h.granted_eq]
  cases l.headTx with
  | none => rfl
  | some frame => exact Frame.ofBytes_toList frame

theorem txResult_eq (e : Event) : u.txResult e = l.txResult (toLink e) := by
  cases e with
  | pollTx => simp only [txResult, toLink, Link.txResult, h.tx, h.txChannel, h.now_eq]
  | deliverTx again =>
    cases hhead : l.headTx <;>
      simp only [txResult, toLink, Link.txResult, h.headTx_eq, hhead, h.tx, h.now_eq]
  | advance => rfl
  | deliverTester => rfl
  | dropTester => rfl
  | dropTx => rfl
  | expire => rfl

theorem inTime (hin : InTime u e) : Link.InTime l (toLink e) := by
  refine ⟨fun he hwait hhead => ?_, fun he => ?_⟩
  · obtain rfl : e = .pollTx := by
      cases e with
      | pollTx => rfl
      | _ => cases he
    rw [h.tx] at hwait
    rw [h.headRx_eq, ← h.headTx_eq, h.granted_eq] at hhead
    rw [h.now_eq, h.tx]
    refine hin.tx rfl hwait (hhead.imp_right fun hsome => ?_)
    rw [h.granted_eq]
    cases hl : l.headTx with
    | none => simp [hl] at hsome
    | some frame => rfl
  · cases e <;> cases he

omit h in
theorem lossless_toLink (he : Lossless e) : Link.Lossless (toLink e) := by
  match e, he with
  | .advance _, _ => trivial
  | .pollTx, _ => trivial
  | .deliverTester false, _ => trivial
  | .deliverTx false, _ => trivial
  | .expire, _ => trivial

/-- **One event**: the tester goes on mirroring the receiver. -/
theorem step (hx : Link.Exchange padding payload t.blockSize t.grantFrame s l) (he : Lossless e)
    (hin : InTime u e) : Mirrors t payload (u.step t e) (l.step (toLink e)) := by
  match e, he with
  | .advance ms, _ =>
    refine ⟨h.tx, h.txChannel, h.toRx, h.toTx, ?_, h.reading, h.granted⟩
    exact congrArg (· + ms) h.clock
  | .expire, _ =>
    refine ⟨h.tx, h.txChannel, h.toRx, h.toTx, h.clock, ?_, h.granted⟩
    exact (hin.reading rfl).trans h.reading
  | .pollTx, _ =>
    simp only [Uplink.step, toLink, Link.step, h.tx, h.txChannel, h.now_eq]
    exact ⟨rfl, rfl, h.toRx, h.toTx, h.clock, h.reading, h.granted⟩
  | .deliverTester false, _ =>
    cases hhead : u.headTester with
    | none =>
      have hnone : l.headRx = none := h.headRx_eq.trans hhead
      simp only [Uplink.step, toLink, Link.step, hhead, hnone]
      exact h
    | some frame =>
      have hsome : l.headRx = some frame := h.headRx_eq.trans hhead
      obtain ⟨rx, c, hrx, hnext⟩ := hx.rx.onFrame l.now hx.multi hx.max (hx.headRx_eq hsome)
      have hsegment := hx.headRx_eq hsome
      rw [h.toRx] at hsegment
      have htake := t.take_readingAt hx.multi hx.max hsegment
      have hgrants := hx.rx.grants
      have hmono := grantCount_mono payload t.blockSize (Nat.le_succ u.toTester)
      rw [h.toRx] at hgrants hnext
      simp only [Uplink.step, toLink, Link.step, hhead, hsome, hrx, h.reading, htake, Link.advanceCursor,
        Bool.false_eq_true, if_false]
      refine ⟨h.tx, h.txChannel, congrArg (· + 1) h.toRx, h.toTx, h.clock, rfl, ?_⟩
      simp only
      rw [h.granted, hgrants, hnext.grants, List.map_replicate, List.map_replicate,
        List.replicate_append_replicate, Nat.add_sub_cancel' hmono]
  | .deliverTx false, _ =>
    cases hhead : l.headTx with
    | none =>
      have hnone : u.granted[u.toTx]? = none := by
        rw [h.granted_eq, hhead]
        rfl
      simp only [Uplink.step, toLink, Link.step, hhead, hnone]
      exact h
    | some frame =>
      have hsome : u.granted[u.toTx]? = some frame.toList := by
        rw [h.granted_eq, hhead]
        rfl
      simp only [Uplink.step, toLink, Link.step, hhead, hsome, Frame.ofBytes_toList, Link.advanceCursor,
        Bool.false_eq_true, if_false]
      refine ⟨?_, h.txChannel, h.toRx, congrArg (· + 1) h.toTx, h.clock, h.reading, h.granted⟩
      simp only [h.tx, h.now_eq]
      rfl

end Mirrors

/-! ## Executions -/

/-- Both directions are delivered and the sender is polled again and again, within 2³¹ ms and after the
longest separation time. -/
structure Fair (x : Execution (step t)) : Prop where
  deliverTester : ∀ n, ∃ m, n ≤ m ∧ x.event m = .deliverTester false
  deliverTx : ∀ n, ∃ m, n ≤ m ∧ x.event m = .deliverTx false
  pollTx : ∀ n, ∃ m, n ≤ m ∧ x.event m = .pollTx ∧
    (x.state n).clock + 256 ≤ (x.state m).clock ∧ (x.state m).clock < (x.state n).clock + 2 ^ 31

def Timely (x : Execution (step t)) : Prop := ∀ n, InTime (x.state n) (x.event n)

/-- The sender returns to idle and never reports an error. -/
structure SenderDone (x : Execution (step t)) : Prop where
  idle : ∃ n, (x.state n).tx.txOngoing = false
  clean : ∀ n, (x.state n).txResult (x.event n) = .ok

variable {x : Execution (step t)}

/-- While the sender is not stuck or reports no error, a link takes the events along. -/
theorem exists_mirror (hloss : ∀ n, Lossless (x.event n)) (htimely : Timely x)
    (h0 : Mirrors t payload (x.state 0) l) (hx0 : ∃ s, Link.Exchange padding payload t.blockSize t.grantFrame s l)
    (hgood : (Link.EndsInsideBlock payload t.blockSize ∨
      ∀ n, (x.state n).reading ≠ .after (.returned payload)) ∨
        ∀ n, (x.state n).txResult (x.event n) = .ok) :
    ∃ y : Execution Link.step, y.state 0 = l ∧ (∀ n, y.event n = toLink (x.event n)) ∧
      ∀ n, Mirrors t payload (x.state n) (y.state n) ∧
        ∃ s, Link.Exchange padding payload t.blockSize t.grantFrame s (y.state n) := by
  refine x.exists_beside toLink (R := fun u l => Mirrors t payload u l ∧
    ∃ s, Link.Exchange padding payload t.blockSize t.grantFrame s l) ⟨h0, hx0⟩ ?_
  rintro n l ⟨h, s, hx⟩
  have hlink : Link.Free payload t.blockSize l ∨ l.txResult (toLink (x.event n)) = .ok := by
    rcases hgood with (hends | hnever) | hclean
    · exact Or.inl (Or.inl hends)
    · refine Or.inl (Or.inr (Nat.le_of_not_lt fun hlt => hnever n ?_))
      rw [h.reading, ← h.toRx]
      exact Py.IsoTpTransport.readingAt_returned hlt
    · exact Or.inr ((h.txResult_eq _).symm.trans (hclean n))
  obtain ⟨s', -, hx'⟩ :=
    (hx.moved_of_inTime (Mirrors.lossless_toLink (hloss n)) (h.inTime (htimely n)) hlink).next
  rw [x.next]
  exact ⟨h.step hx (hloss n) (htimely n), s', hx'⟩

section Mirrored

variable {y : Execution Link.step} (hevent : ∀ n, y.event n = toLink (x.event n))
  (hmirror : ∀ n, Mirrors t payload (x.state n) (y.state n) ∧
    ∃ s, Link.Exchange padding payload t.blockSize t.grantFrame s (y.state n))

include hevent

theorem mirror_lossless (hloss : ∀ n, Lossless (x.event n)) (n : ℕ) : Link.Lossless (y.event n) := by
  rw [hevent]
  exact Mirrors.lossless_toLink (hloss n)

include hmirror

theorem mirror_timely (htimely : Timely x) : Link.Timely y := by
  intro n
  rw [hevent]
  exact (hmirror n).1.inTime (htimely n)

theorem mirror_fair (hfair : Fair x) : Link.Fair y := by
  refine ⟨fun n => ?_, fun n => ?_, fun n => ?_⟩
  · obtain ⟨m, hm, he⟩ := hfair.deliverTester n
    exact ⟨m, hm, by rw [hevent, he]; rfl⟩
  · obtain ⟨m, hm, he⟩ := hfair.deliverTx n
    exact ⟨m, hm, by rw [hevent, he]; rfl⟩
  · obtain ⟨m, hm, he, hfrom, hto⟩ := hfair.pollTx n
    rw [← (hmirror n).1.clock, ← (hmirror m).1.clock] at hfrom hto
    exact ⟨m, hm, by rw [hevent, he]; rfl, hfrom, hto⟩

end Mirrored

/-- The tester gets a multi-frame payload, also from a sender that will wait on its last full block. -/
theorem read_of_mirror (hloss : ∀ n, Lossless (x.event n)) (hfair : Fair x) (htimely : Timely x)
    (h0 : Mirrors t payload (x.state 0) l)
    (hx0 : ∃ s, Link.Exchange padding payload t.blockSize t.grantFrame s l) :
    ∃ n, (x.state n).reading = .after (.returned payload) := by
  by_contra hnever
  simp only [not_exists] at hnever
  obtain ⟨y, hy0, hevent, hmirror⟩ := exists_mirror hloss htimely h0 hx0 (Or.inl (Or.inr hnever))
  obtain ⟨m, hlast⟩ := Link.reaches_receiver (mirror_lossless hevent hloss) (mirror_fair hevent hmirror hfair)
    (mirror_timely hevent hmirror htimely) (hy0 ▸ hx0)
  refine hnever m ?_
  have h := (hmirror m).1
  rw [h.reading, ← h.toRx, hlast]
  exact Py.IsoTpTransport.readingAt_returned (Nat.lt_succ_self _)

/-- Its sender is done exactly when the payload ends inside a block. -/
theorem senderDone_of_mirror (hloss : ∀ n, Lossless (x.event n)) (hfair : Fair x) (htimely : Timely x)
    (h0 : Mirrors t payload (x.state 0) l)
    (hx0 : ∃ s, Link.Exchange padding payload t.blockSize t.grantFrame s l) :
    SenderDone x ↔ Link.EndsInsideBlock payload t.blockSize := by
  constructor
  · rintro ⟨⟨n, hidle⟩, hclean⟩
    by_contra hfull
    obtain ⟨y, -, -, hmirror⟩ := exists_mirror hloss htimely h0 hx0 (Or.inr hclean)
    obtain ⟨h, s, hx⟩ := hmirror n
    have hon := hx.ongoing_of_full hfull
    rw [h.tx, hidle] at hon
    cases hon
  · intro hends
    obtain ⟨y, -, hevent, hmirror⟩ := exists_mirror hloss htimely h0 hx0 (Or.inl (Or.inl hends))
    have hl := mirror_lossless hevent hloss
    have ht := mirror_timely hevent hmirror htimely
    have hfree : ∀ n, Link.Free payload t.blockSize (y.state n) := fun _ => Or.inl hends
    obtain ⟨m, -, hidle, -⟩ := Link.finishes hl (mirror_fair hevent hmirror hfair) ht hfree
      (fun n => (hmirror n).2) 0
    rw [(hmirror m).1.tx] at hidle
    refine ⟨⟨m, hidle⟩, fun n => ?_⟩
    obtain ⟨h, s, hx⟩ := hmirror n
    rw [h.txResult_eq, ← hevent]
    exact (hx.moved_of_inTime (hl n) (ht n) (Or.inl (hfree n))).ok

/-! ## Single Frames -/

/-- An uplink whose only frame is a Single Frame. -/
structure SingleShot (t : Py.IsoTpTransport) (padding : UInt8) (payload : List UInt8) (u : Uplink) : Prop where
  tx : u.tx.txOngoing = false
  sent : u.txChannel.sent = [IsotpTx.sfFrame padding payload]
  quiet : u.granted = []
  reading : u.reading = if u.toTester = 0 then .first else .after (.returned payload)

theorem SingleShot.step (h : SingleShot t padding payload u) (hlen : payload.length ≤ 7) (he : Lossless e)
    (hin : InTime u e) :
    u.txResult e = .ok ∧ SingleShot t padding payload (u.step t e) ∧
      (e = .deliverTester false → (u.step t e).toTester ≠ 0) := by
  have hquiet : u.granted[u.toTx]? = none := by simp [h.quiet]
  match e, he with
  | .advance ms, _ => exact ⟨rfl, ⟨h.tx, h.sent, h.quiet, h.reading⟩, nofun⟩
  | .expire, _ =>
    refine ⟨rfl, ⟨h.tx, h.sent, h.quiet, ?_⟩, nofun⟩
    exact (hin.reading rfl).trans h.reading
  | .pollTx, _ =>
    have hpoll : u.tx.poll u.txChannel u.now = (.ok, u.tx, u.txChannel) := by
      unfold IsotpTx.poll
      rw [h.tx]
      rfl
    simp only [txResult, Uplink.step, hpoll]
    exact ⟨trivial, h, nofun⟩
  | .deliverTx false, _ =>
    simp only [txResult, Uplink.step, hquiet]
    exact ⟨rfl, h, nofun⟩
  | .deliverTester false, _ =>
    refine ⟨rfl, ?_⟩
    rcases Nat.eq_zero_or_pos u.toTester with h0 | hpos
    · have hhead : u.headTester = some (IsotpTx.sfFrame padding payload) := by
        simp [headTester, h.sent, h0]
      have hfirst : u.reading = .first := by rw [h.reading, if_pos h0]
      simp only [Uplink.step, hhead, hfirst, Py.IsoTpTransport.take,
        Py.IsoTpTransport.receiveFirst_single hlen, Link.advanceCursor, h0]
      refine ⟨⟨h.tx, h.sent, by rw [h.quiet]; rfl, rfl⟩, fun _ => Nat.one_ne_zero⟩
    · have hhead : u.headTester = none := by
        simp only [headTester, h.sent, List.getElem?_eq_none_iff, List.length_singleton]
        omega
      simp only [Uplink.step, hhead]
      exact ⟨h, fun _ => by omega⟩

theorem of_single (hloss : ∀ n, Lossless (x.event n)) (hfair : Fair x) (htimely : Timely x)
    (hlen : payload.length ≤ 7) (h0 : SingleShot t padding payload (x.state 0)) :
    (∃ n, (x.state n).reading = .after (.returned payload)) ∧ SenderDone x := by
  have hinv := x.invariant_of (I := SingleShot t padding payload) (C := fun u e => Lossless e ∧ InTime u e) h0
    (fun u e hu he => (hu.step hlen he.1 he.2).2.1) fun n => ⟨hloss n, htimely n⟩
  obtain ⟨m, -, hdeliver⟩ := hfair.deliverTester 0
  have hmoved := ((hinv m).step hlen (hloss m) (htimely m)).2.2 hdeliver
  rw [← x.next] at hmoved
  refine ⟨⟨m + 1, ?_⟩, ⟨0, (hinv 0).tx⟩, fun n => ((hinv n).step hlen (hloss n) (htimely n)).1⟩
  rw [(hinv (m + 1)).reading, if_neg hmoved]

/-! ## From a fresh sender -/

theorem start_single (t : Py.IsoTpTransport) (txConfig : IsotpConfig) (clock : ℕ) (h1 : 1 ≤ payload.length)
    (hlen : payload.length ≤ 7) :
    SingleShot t (paddingOf txConfig) payload ((fresh txConfig clock).start payload).2 := by
  obtain ⟨tx, c, hstart, hidle, -, hsent⟩ := IsotpTx.start_single (tick clock) Link.accepting_lossless
    (show (IsotpTx.init txConfig).txOngoing = false from rfl) h1 hlen
  have huplink : ((fresh txConfig clock).start payload).2 =
      { fresh txConfig clock with tx := tx, txChannel := c } := by
    simp [start, fresh, now, hstart]
  rw [huplink]
  exact ⟨hidle, hsent, rfl, rfl⟩

theorem start_multi (t : Py.IsoTpTransport) (txConfig : IsotpConfig) (clock : ℕ) (hbs : t.blockSize < 256)
    (hlen : 7 < payload.length) (hmax : payload.length ≤ 4095) :
    ∃ l, Mirrors t payload ((fresh txConfig clock).start payload).2 l ∧
      Link.Exchange (paddingOf txConfig) payload t.blockSize t.grantFrame 0 l := by
  have hbuffer : (IsotpRx.selectBuffer (mirrorConfig t payload).rxBuffer false).1 =
      some (List.replicate payload.length 0) := by
    obtain ⟨n, hn⟩ := Nat.exists_eq_add_of_le' (show 1 ≤ payload.length by omega)
    simp only [mirrorConfig, IsotpConfig.init, hn, List.replicate_succ, IsotpRx.selectBuffer]
  have hx := Link.start_multi txConfig clock hlen hmax hbuffer (by simp)
  have hsize : (mirrorConfig t payload).blockSize.toNat = t.blockSize :=
    UInt8.toNat_ofNat'.trans (Nat.mod_eq_of_lt hbs)
  rw [hsize] at hx
  refine ⟨_, ?_, hx⟩
  refine ⟨rfl, rfl, rfl, rfl, rfl, ?_, rfl⟩
  exact Py.IsoTpTransport.readingAt_zero.symm

/-- **The firmware's response reaches the tester.** From a fresh sender, on a bus that loses and repeats
nothing, in every fair and timely execution `receive` returns the payload; the sender finishes without an
error if and only if the payload is a Single Frame, the tester sets no block size, or the last Consecutive
Frame does not fill its block. -/
theorem received_and_sent_iff (t : Py.IsoTpTransport) (txConfig : IsotpConfig) (clock : ℕ)
    (payload : List UInt8) (h1 : 1 ≤ payload.length) (hmax : payload.length ≤ 4095) (hbs : t.blockSize < 256)
    (x : Execution (step t)) (h0 : x.state 0 = ((fresh txConfig clock).start payload).2)
    (hloss : ∀ n, Lossless (x.event n)) (hfair : Fair x) (htimely : Timely x) :
    (∃ n, (x.state n).reading = .after (.returned payload)) ∧
      (SenderDone x ↔
        payload.length ≤ 7 ∨ t.blockSize = 0 ∨ payload.length / 7 % t.blockSize ≠ 0) := by
  by_cases hlen : payload.length ≤ 7
  · have hstart := start_single t txConfig clock h1 hlen
    rw [← h0] at hstart
    obtain ⟨hread, hdone⟩ := of_single hloss hfair htimely hlen hstart
    exact ⟨hread, fun _ => Or.inl hlen, fun _ => hdone⟩
  · obtain ⟨l, hmirror, hx⟩ := start_multi t txConfig clock hbs (by omega) hmax
    rw [← h0] at hmirror
    rw [or_iff_right hlen]
    exact ⟨read_of_mirror hloss hfair htimely hmirror ⟨0, hx⟩,
      senderDone_of_mirror hloss hfair htimely hmirror ⟨0, hx⟩⟩

/-- Deliver, deliver, poll, and let 256 ms pass, over and over. -/
def roundRobin (n : ℕ) : Event :=
  match n % 4 with
  | 0 => .deliverTester false
  | 1 => .deliverTx false
  | 2 => .pollTx
  | _ => .advance 256

theorem roundRobin_cases (n : ℕ) :
    roundRobin n = .deliverTester false ∨ roundRobin n = .deliverTx false ∨ roundRobin n = .pollTx ∨
      roundRobin n = .advance 256 := by
  unfold roundRobin
  split <;> simp

theorem roundRobin_clock (t : Py.IsoTpTransport) (u : Uplink) (n : ℕ) :
    ((Execution.ofEvents (step t) u roundRobin).state n).clock = u.clock + 256 * (n / 4) := by
  have hclock : ∀ (u : Uplink) (e : Event), (u.step t e).clock = match e with
      | .advance ms => u.clock + ms
      | _ => u.clock := by
    intro u e
    cases e <;> simp only [step] <;> split <;> first | rfl | (split <;> rfl)
  have hevent : ∀ m, (Execution.ofEvents (step t) u roundRobin).event m = roundRobin m := fun _ => rfl
  induction n with
  | zero => rfl
  | succ n ih =>
    rw [Execution.next, hclock, ih, hevent, roundRobin]
    obtain h | h | h | h : n % 4 = 0 ∨ n % 4 = 1 ∨ n % 4 = 2 ∨ n % 4 = 3 := by omega
    all_goals
      rw [h]
      simp only
      omega

theorem roundRobin_fair (t : Py.IsoTpTransport) (u : Uplink) :
    Fair (Execution.ofEvents (step t) u roundRobin) := by
  have hevent : ∀ m, (Execution.ofEvents (step t) u roundRobin).event m = roundRobin m := fun _ => rfl
  refine ⟨fun n => ⟨4 * n, by omega, ?_⟩, fun n => ⟨4 * n + 1, by omega, ?_⟩,
    fun n => ⟨4 * (n / 4 + 1) + 2, by omega, ?_, ?_, ?_⟩⟩
  · rw [hevent, roundRobin, Nat.mul_mod_right]
    rfl
  · rw [hevent, roundRobin, Nat.mul_add_mod]
    rfl
  · rw [hevent, roundRobin, Nat.mul_add_mod]
    rfl
  · rw [roundRobin_clock, roundRobin_clock]
    omega
  · rw [roundRobin_clock, roundRobin_clock]
    omega

/-- The sender is idle and nothing is on the bus. -/
structure Settled (u : Uplink) : Prop where
  idle : u.tx.txOngoing = false
  headTester : u.headTester = none
  granted : u.granted[u.toTx]? = none

theorem Settled.step (h : Settled u) (he : Lossless e) : Settled (u.step t e) := by
  match e, he with
  | .advance _, _ => exact ⟨h.idle, h.headTester, h.granted⟩
  | .expire, _ => exact ⟨h.idle, h.headTester, h.granted⟩
  | .pollTx, _ =>
    have hpoll : u.tx.poll u.txChannel u.now = (.ok, u.tx, u.txChannel) := by
      unfold IsotpTx.poll
      rw [h.idle]
      rfl
    simp only [Uplink.step, hpoll]
    exact h
  | .deliverTester false, _ =>
    simp only [Uplink.step, h.headTester]
    exact h
  | .deliverTx false, _ =>
    simp only [Uplink.step, h.granted]
    exact h

/-- Eight bytes towards a tester with a block size of 2, in round robin. -/
def eightBytes : Execution (step { blockSize := 2 }) :=
  .ofEvents (step { blockSize := 2 }) ((fresh Link.smallConfig 0).start [1, 2, 3, 4, 5, 6, 7, 8]).2 roundRobin

theorem received_and_sent_eightBytes :
    (∃ n, (eightBytes.state n).reading = .after (.returned [1, 2, 3, 4, 5, 6, 7, 8])) ∧
      SenderDone eightBytes := by
  have hloss : ∀ n, Lossless (eightBytes.event n) := by
    intro n
    show Lossless (roundRobin n)
    rcases roundRobin_cases n with h | h | h | h <;> rw [h] <;> trivial
  have hwaits : ∀ n < 7, eightBytes.event n = .pollTx → (eightBytes.state n).tx.txWaitingFc = false := by
    decide
  have htimely : Timely eightBytes := by
    refine eightBytes.forall_of_settles (I := Settled) (k := 7) ?_ ⟨by decide, by decide, by decide⟩
      (fun n h => ?_) (fun n h => ⟨fun _ _ hhead => ?_, fun he => ?_⟩)
    · refine fun n hn => ⟨fun he hwait => ?_, fun he => ?_⟩
      · rw [hwaits n hn he] at hwait
        cases hwait
      · rcases roundRobin_cases n with h | h | h | h <;> rw [show eightBytes.event n = _ from h] at he <;> cases he
    · rw [eightBytes.next]
      exact h.step (hloss n)
    · rw [h.headTester, h.granted] at hhead
      rcases hhead with hhead | hhead <;> cases hhead
    · rcases roundRobin_cases n with h | h | h | h <;> rw [show eightBytes.event n = _ from h] at he <;> cases he
  obtain ⟨hread, hsent⟩ := received_and_sent_iff { blockSize := 2 } Link.smallConfig 0 [1, 2, 3, 4, 5, 6, 7, 8]
    (by decide) (by decide) (by decide) eightBytes rfl hloss (roundRobin_fair _ _) htimely
  exact ⟨hread, hsent.2 (by decide)⟩

end Uplink

end DualCan.Isotp
