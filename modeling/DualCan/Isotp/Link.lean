import DualCan.Isotp.RxRefine
import DualCan.Isotp.TxRefine

/-!
# ISO-TP: a sender and a receiver on a bus

A `Link` is a sender and a receiver with one clock. The bus keeps each direction in order: it has taken
care of the first `toRx` frames the sender's driver accepted and of the first `toTx` frames the receiver's
did. Delivering a frame `again` leaves it at the head, so it can arrive any number of times in a row;
dropping one loses it. Polls, reads and the clock come in any order in between.
-/

namespace DualCan.Isotp

open DualCan.Clock DualCan.Run

structure Link where
  tx : IsotpTx
  txChannel : Channel
  rx : IsotpRx
  rxChannel : Channel
  toRx : ℕ
  toTx : ℕ
  clock : ℕ

namespace Link

inductive Event where
  | advance (ms : ℕ)
  | pollTx
  | pollRx
  | read (outCapacity : ℕ)
  | deliverRx (again : Bool)
  | dropRx
  | deliverTx (again : Bool)
  | dropTx
  deriving DecidableEq

/-- The tick both sides read. -/
def now (l : Link) : UInt32 := tick l.clock

/-- The frame the bus will bring the receiver next. -/
def headRx (l : Link) : Option Frame := l.txChannel.sent[l.toRx]?

/-- The frame the bus will bring the sender next. -/
def headTx (l : Link) : Option Frame := l.rxChannel.sent[l.toTx]?

/-- The bus's position after a delivery. -/
def advanceCursor (cursor : ℕ) (again : Bool) : ℕ := if again then cursor else cursor + 1

def step (l : Link) : Event → Link
  | .advance ms => { l with clock := l.clock + ms }
  | .pollTx =>
    let (_, tx, c) := l.tx.poll l.txChannel l.now
    { l with tx := tx, txChannel := c }
  | .pollRx =>
    let (_, rx, c) := l.rx.poll l.rxChannel l.now
    { l with rx := rx, rxChannel := c }
  | .read outCapacity => { l with rx := (l.rx.read outCapacity).2.2 }
  | .deliverRx again =>
    match l.headRx with
    | none => l
    | some frame =>
      let (_, rx, c) := l.rx.onFrame l.rxChannel l.now frame
      { l with rx := rx, rxChannel := c, toRx := advanceCursor l.toRx again }
  | .dropRx => if l.headRx.isSome then { l with toRx := l.toRx + 1 } else l
  | .deliverTx again =>
    match l.headTx with
    | none => l
    | some frame =>
      { l with tx := (l.tx.onFrame l.now frame).2, toTx := advanceCursor l.toTx again }
  | .dropTx => if l.headTx.isSome then { l with toTx := l.toTx + 1 } else l

/-- What the sender's poll or frame handler reports in a step, `ok` in every other step. -/
def txResult (l : Link) : Event → IsotpResult
  | .pollTx => (l.tx.poll l.txChannel l.now).1
  | .deliverTx _ =>
    match l.headTx with
    | none => .ok
    | some frame => (l.tx.onFrame l.now frame).1
  | _ => .ok

/-- `IsotpTx_Start` on the link's sender. -/
def start (l : Link) (payload : List UInt8) : IsotpResult × Link :=
  let (result, tx, c) := l.tx.start l.txChannel l.now payload
  (result, { l with tx := tx, txChannel := c })

variable {padding : UInt8} {payload : List UInt8} {base : List Frame} {l : Link}

/-! ## Agreement under loss and duplication -/

/-- The sender is somewhere in its transfer, the receiver is safe for the segments the bus has dealt
with. -/
structure Agree (padding : UInt8) (payload : List UInt8) (base : List Frame) (l : Link) : Prop where
  max : payload.length ≤ 4095
  tx : IsotpTx.InTransfer padding payload base
    (fun sent => ∃ j, sent = base ++ (segments padding payload).take j) (l.tx, l.txChannel)
  cursor : base.length ≤ l.toRx
  rx : IsotpRx.RxSafe payload (l.toRx - base.length) l.rx

/-- A frame at the head of the bus is the segment at the bus's position. -/
theorem Agree.headRx (h : Agree padding payload base l) {frame : Frame}
    (hhead : l.headRx = some frame) :
    (segments padding payload)[l.toRx - base.length]? = some frame := by
  obtain ⟨sent, hsent, hprefix⟩ := h.tx.sent_prefix
  rw [Link.headRx, hsent, List.getElem?_append_right h.cursor] at hhead
  obtain ⟨rest, hrest⟩ := hprefix
  rw [← hrest, List.getElem?_append_left (List.getElem?_eq_some_iff.1 hhead).1]
  exact hhead

theorem Agree.step (h : Agree padding payload base l) (e : Event) :
    Agree padding payload base (l.step e) := by
  cases e with
  | advance ms => exact ⟨h.max, h.tx, h.cursor, h.rx⟩
  | pollTx =>
    refine ⟨h.max, ?_, h.cursor, h.rx⟩
    exact h.tx.step (e := .poll l.now) (fun _ _ he => nomatch he) (exists_take_segments _) fun k _ => ⟨k, rfl⟩
  | pollRx => exact ⟨h.max, h.tx, h.cursor, h.rx.poll⟩
  | read outCapacity => exact ⟨h.max, h.tx, h.cursor, h.rx.read outCapacity⟩
  | deliverRx again =>
    simp only [Link.step]
    split
    · exact h
    · next frame hhead =>
      have hcursor := h.cursor
      have hle : l.toRx ≤ advanceCursor l.toRx again := by
        unfold advanceCursor
        split <;> omega
      refine ⟨h.max, h.tx, Nat.le_trans hcursor hle, ?_⟩
      exact (h.rx.onFrame h.max (h.headRx hhead)).mono (by simp only; omega)
  | dropRx =>
    simp only [Link.step]
    split
    · have hcursor := h.cursor
      exact ⟨h.max, h.tx, Nat.le_succ_of_le hcursor, h.rx.mono (by simp only; omega)⟩
    · exact h
  | deliverTx again =>
    simp only [Link.step]
    split
    · exact h
    · next frame hhead =>
      refine ⟨h.max, ?_, h.cursor, h.rx⟩
      exact h.tx.step (e := .onFrame l.now frame) (fun _ _ he => nomatch he) (exists_take_segments _)
        fun k _ => ⟨k, rfl⟩
  | dropTx =>
    simp only [Link.step]
    split
    · exact ⟨h.max, h.tx, h.cursor, h.rx⟩
    · exact h

/-- A sender brought up by any history of calls starts a transfer on an empty bus, towards a receiver
that is idle, holds no message and has room for the payload. -/
theorem agree_start {config : IsotpConfig} {c : Channel} {history : List IsotpTx.Call}
    (htx : (l.tx, l.txChannel) = after IsotpTx.callStep (IsotpTx.init config, c) history)
    (hbus : l.toRx = l.txChannel.sent.length) (hbuffer : l.rx.hasBuffer = true)
    (hsize : l.rx.buffer.length = l.rx.bufferSize) (hroom : payload.length ≤ l.rx.bufferSize)
    (hidle : l.rx.rxInProgress = false) (hempty : l.rx.messageReady = false)
    (hstart : (l.start payload).1 = .ok) :
    Agree (paddingOf config) payload l.txChannel.sent (l.start payload).2 := by
  obtain ⟨hnAs, hpadding⟩ := IsotpTx.after_configured config c history
  rw [← htx] at hnAs hpadding
  rcases hst : l.tx.start l.txChannel l.now payload with ⟨result, tx, c'⟩
  obtain rfl : result = .ok := by simpa [start, hst] using hstart
  obtain ⟨-, hmax, hout⟩ := IsotpTx.start_outcome hpadding hnAs hst
  have hlink : (l.start payload).2 = { l with tx := tx, txChannel := c' } := by simp [start, hst]
  rw [hlink]
  refine ⟨hmax, ?_, Nat.le_of_eq hbus.symm, .of_empty hbuffer hsize hroom hempty hidle⟩
  exact hout.inTransfer (exists_take_segments _) fun k h _ => absurd rfl h

/-- **Agreement under loss and duplication.** In every run after the start of a transfer of `payload`,
whatever the bus loses or repeats in either direction, a message the receiver reports is the payload. -/
theorem message_eq_payload {config : IsotpConfig} {c : Channel} {history : List IsotpTx.Call}
    (l : Link) (payload : List UInt8) (es : List Event)
    (htx : (l.tx, l.txChannel) = after IsotpTx.callStep (IsotpTx.init config, c) history)
    (hbus : l.toRx = l.txChannel.sent.length) (hbuffer : l.rx.hasBuffer = true)
    (hsize : l.rx.buffer.length = l.rx.bufferSize) (hroom : payload.length ≤ l.rx.bufferSize)
    (hidle : l.rx.rxInProgress = false) (hempty : l.rx.messageReady = false)
    (hstart : (l.start payload).1 = .ok)
    (hready : (after step (l.start payload).2 es).rx.messageReady = true) :
    (after step (l.start payload).2 es).rx.message = payload ∧
      (after step (l.start payload).2 es).rx.messageLength = payload.length := by
  have h := after_invariant
    (agree_start htx hbus hbuffer hsize hroom hidle hempty hstart) (fun t e ht => ht.step e) es
  obtain ⟨hlength, hmessage⟩ := h.rx.ready hready
  exact ⟨hmessage, hlength⟩

/-- A driver that accepts every frame at once. -/
def accepting : Channel where
  sendAnswers := fun _ => true
  pendingAnswers := fun _ => false
  sent := []

/-- A sender and a receiver as their initialisers leave them. -/
def fresh (txConfig rxConfig : IsotpConfig) (fallbackInUse : Bool) (clock : ℕ) : Link where
  tx := IsotpTx.init txConfig
  txChannel := accepting
  rx := (IsotpRx.init rxConfig fallbackInUse).1
  rxChannel := accepting
  toRx := 0
  toTx := 0
  clock := clock

/-- A configuration with a receive buffer of eight bytes. -/
def smallConfig : IsotpConfig := IsotpConfig.init (some (List.replicate 8 0))

/-- A run that repeats and loses frames. -/
def repeatedRun : List Event :=
  [.deliverRx false, .deliverTx true, .pollTx, .dropTx, .deliverRx true, .deliverRx true]

theorem message_eq_payload_repeated :
    (after step ((fresh smallConfig smallConfig false 0).start [1, 2, 3, 4, 5, 6, 7, 8]).2
      repeatedRun).rx.message = [1, 2, 3, 4, 5, 6, 7, 8] :=
  (message_eq_payload (fresh smallConfig smallConfig false 0) [1, 2, 3, 4, 5, 6, 7, 8] repeatedRun
    (show _ = after IsotpTx.callStep (IsotpTx.init smallConfig, accepting) [] from rfl) rfl rfl
    (by decide) (by decide) rfl rfl (by decide) (by decide)).1

end Link

end DualCan.Isotp
