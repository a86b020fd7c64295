import DualCan.Isotp.Exchange
import DualCan.Run.Fair

/-!
# ISO-TP: the Python tester's `send` against the firmware's receiver

`IsoTpTransport.send` as the program it runs between its two operations on the bus: send a frame, wait for
a Flow Control frame. A `Bench` runs that program against an `IsotpRx` over a bus that keeps each
direction in order and loses nothing; the tester, the deliveries and the receiver's polls come in any
order. The tester cuts its list of Consecutive Frames into blocks, the receiver counts the frames it has
taken in, and `Meets` says that they agree: what the tester waits for is what the receiver still sends.
-/

namespace DualCan.Isotp

open DualCan.Clock DualCan.Run

/-! ## The sender -/

namespace Py

/-- What is left of a call of `IsoTpTransport.send`: a frame to send, a Flow Control frame to wait for
(status, block size and STmin are passed on), or how the call ended. -/
inductive Call where
  | sendFrame (data : List UInt8) (next : Call)
  | waitFlowControl (next : UInt8 → ℕ → ℕ → Call)
  | returned
  | raised (message : String)

/-- `for frame in block`. -/
def sendBlock : List (List UInt8) → Call → Call
  | [], next => next
  | frame :: block, next => .sendFrame frame (sendBlock block next)

/-- The slice of `cf_frames` sent before the next Flow Control frame. -/
def blockOf (cfFrames : List (List UInt8)) (sent blockSize : ℕ) : List (List UInt8) :=
  if blockSize > 0 then (cfFrames.drop sent).take blockSize else cfFrames.drop sent

theorem blockOf_pos {cfFrames : List (List UInt8)} {sent : ℕ} (h : sent < cfFrames.length)
    (blockSize : ℕ) : 0 < (blockOf cfFrames sent blockSize).length := by
  unfold blockOf
  split
  · rw [List.length_take, List.length_drop]
    omega
  · rw [List.length_drop]
    omega

/-- `while sent < len(cf_frames)`. -/
def sendBlocks (cfFrames : List (List UInt8)) (sent blockSize : ℕ) : Call :=
  if _h : sent < cfFrames.length then
    sendBlock (blockOf cfFrames sent blockSize) <|
      if sent + (blockOf cfFrames sent blockSize).length < cfFrames.length then
        .waitFlowControl fun status nextSize _ =>
          if status ≠ fcCts then
            .raised s!"flow control rejected next block, status={status.toNat}"
          else sendBlocks cfFrames (sent + (blockOf cfFrames sent blockSize).length) nextSize
      else .returned
  else .returned
termination_by cfFrames.length - sent
decreasing_by
  have := blockOf_pos _h blockSize
  omega

/-- `IsoTpTransport.send`. -/
def send (payload : List UInt8) (padding : UInt8) : Call :=
  match packMessage payload padding with
  | .error message => .raised message
  | .ok [] => .raised "list index out of range"
  | .ok [frame] => .sendFrame frame .returned
  | .ok (first :: cfFrames) =>
    .sendFrame first <| .waitFlowControl fun status blockSize _ =>
      if status ≠ fcCts then
        .raised s!"flow control rejected transmission, status={status.toNat}"
      else sendBlocks cfFrames 0 blockSize

end Py

/-! ## The bench -/

/-- The frame a CAN message of eight data bytes is. -/
def Frame.ofBytes (data : List UInt8) : Option Frame :=
  if h : data.length = 8 then some ⟨data.toArray, by simpa using h⟩ else none

theorem Frame.ofBytes_toList (frame : Frame) : Frame.ofBytes frame.toList = some frame := by
  unfold ofBytes
  rw [dif_pos (by simp)]
  simp [Vector.toList]

/-- A tester in a call of `send` and the receiver it talks to. The bus has delivered the first `toRx`
frames the tester sent, and the tester has consumed the first `toTester` frames the receiver sent. -/
structure Bench where
  tester : Py.Call
  sent : List (List UInt8)
  toRx : ℕ
  rx : IsotpRx
  rxChannel : Channel
  toTester : ℕ

/-! ## The program of a multi-frame payload -/

namespace Py

/-- The Consecutive Frames of a payload. -/
def cfList (padding : UInt8) (payload : List UInt8) : List (List UInt8) :=
  (List.range (cfCount payload)).map fun i => (cfAt padding payload (i + 1)).toList

/-- The call after its First Frame. -/
def awaitFirst (cfFrames : List (List UInt8)) : Call :=
  .waitFlowControl fun status blockSize _ =>
    if status ≠ fcCts then
      .raised s!"flow control rejected transmission, status={status.toNat}"
    else sendBlocks cfFrames 0 blockSize

/-- The call after a block that ends before frame `sent`. -/
def afterBlock (cfFrames : List (List UInt8)) (sent : ℕ) : Call :=
  if sent < cfFrames.length then
    .waitFlowControl fun status nextSize _ =>
      if status ≠ fcCts then
        .raised s!"flow control rejected next block, status={status.toNat}"
      else sendBlocks cfFrames sent nextSize
  else .returned

/-- Where the block granted by the `t`-th Flow Control frame ends, of `n` Consecutive Frames. -/
def blockEnd (bs n t : ℕ) : ℕ := if t = 0 then 0 else if bs = 0 then n else min (t * bs) n

variable {padding : UInt8} {payload : List UInt8} {bs n t : ℕ}

@[simp] theorem length_cfList : (cfList padding payload).length = cfCount payload := by
  simp [cfList]

theorem getElem_cfList {r : ℕ} (h : r < (cfList padding payload).length) :
    (cfList padding payload)[r] = (cfAt padding payload (r + 1)).toList := by
  simp [cfList]

theorem send_single (h1 : 1 ≤ payload.length) (h : payload.length ≤ 7) :
    send payload padding = .sendFrame (IsotpTx.sfFrame padding payload).toList .returned := by
  unfold send
  rw [packMessage_eq h1 (by omega), segments_sf h]
  rfl

theorem send_multi (h : 7 < payload.length) (hmax : payload.length ≤ 4095) :
    send payload padding =
      .sendFrame (IsotpTx.ffFrame padding payload.length (payload.take ffPayloadMax)).toList
        (awaitFirst (cfList padding payload)) := by
  have hcf : 0 < (cfList padding payload).length := by
    rw [length_cfList, cfCount]
    omega
  have htail : (segments padding payload).map Vector.toList =
      (IsotpTx.ffFrame padding payload.length (payload.take ffPayloadMax)).toList ::
        cfList padding payload := by
    rw [segments_mf h, List.map_cons, List.map_map]
    rfl
  unfold send
  rw [packMessage_eq (by omega) hmax, htail]
  cases hlist : cfList padding payload with
  | nil =>
    rw [hlist] at hcf
    exact absurd hcf (Nat.lt_irrefl 0)
  | cons cf rest => rfl

theorem sendBlocks_eq {cfFrames : List (List UInt8)} {sent : ℕ} (h : sent < cfFrames.length) (bs : ℕ) :
    sendBlocks cfFrames sent bs = sendBlock (blockOf cfFrames sent bs)
      (afterBlock cfFrames (sent + (blockOf cfFrames sent bs).length)) := by
  rw [sendBlocks, dif_pos h]
  rfl

theorem blockEnd_le (bs n t : ℕ) : blockEnd bs n t ≤ n := by
  unfold blockEnd
  split
  · exact Nat.zero_le n
  · split
    · exact Nat.le_refl n
    · exact Nat.min_le_right _ _

/-- A block ends one block size after the one before it, or with the last frame. -/
theorem blockEnd_succ (h : blockEnd bs n t < n) :
    blockEnd bs n (t + 1) = if bs = 0 then n else min (blockEnd bs n t + bs) n := by
  unfold blockEnd at h ⊢
  rw [if_neg (Nat.succ_ne_zero t)]
  by_cases hb : bs = 0
  · rw [if_pos hb, if_pos hb]
  · rw [if_neg hb, if_neg hb, if_neg hb, Nat.succ_mul]
    split
    · next h0 => rw [h0, Nat.zero_mul]
    · next h0 =>
      rw [if_neg h0, if_neg hb] at h
      rw [Nat.min_eq_left (a := t * bs) (by omega)]

/-- The next block, as a part of the frames. -/
theorem blockOf_blockEnd {cfFrames : List (List UInt8)} (h : blockEnd bs cfFrames.length t < cfFrames.length) :
    blockOf cfFrames (blockEnd bs cfFrames.length t) bs =
      (cfFrames.take (blockEnd bs cfFrames.length (t + 1))).drop (blockEnd bs cfFrames.length t) := by
  rw [blockEnd_succ h, blockOf]
  generalize blockEnd bs cfFrames.length t = e at h ⊢
  by_cases hb : bs = 0
  · rw [if_pos hb, if_neg (by omega), List.take_length]
  · rw [if_neg hb, if_pos (by omega), List.take_drop, ← List.take_eq_take_min]

/-- A grant of `bs` frames at the end of block `t` leads into block `t + 1`. -/
theorem sendBlocks_blockEnd (cfFrames : List (List UInt8)) (bs t : ℕ)
    (h : blockEnd bs cfFrames.length t < cfFrames.length) :
    sendBlocks cfFrames (blockEnd bs cfFrames.length t) bs =
      sendBlock ((cfFrames.take (blockEnd bs cfFrames.length (t + 1))).drop
        (blockEnd bs cfFrames.length t)) (afterBlock cfFrames (blockEnd bs cfFrames.length (t + 1))) := by
  have hle : blockEnd bs cfFrames.length t ≤ blockEnd bs cfFrames.length (t + 1) := by
    rw [blockEnd_succ h]
    split <;> omega
  have hend := blockEnd_le bs cfFrames.length (t + 1)
  have hlen : ((cfFrames.take (blockEnd bs cfFrames.length (t + 1))).drop
      (blockEnd bs cfFrames.length t)).length =
      blockEnd bs cfFrames.length (t + 1) - blockEnd bs cfFrames.length t := by
    rw [List.length_drop, List.length_take, Nat.min_eq_left hend]
  rw [sendBlocks_eq h, blockOf_blockEnd h, hlen, Nat.add_sub_cancel' hle]

/-- The call after `s` frames sent and `t` Flow Control frames taken. -/
inductive CallAt (padding : UInt8) (payload : List UInt8) (bs : ℕ) : ℕ → ℕ → Call → Prop
  | start : CallAt padding payload bs 0 0 (send payload padding)
  | first : CallAt padding payload bs 1 0 (awaitFirst (cfList padding payload))
  | block {r t : ℕ} (hbefore : blockEnd bs (cfCount payload) t < cfCount payload)
      (hfrom : blockEnd bs (cfCount payload) t ≤ r) (hto : r ≤ blockEnd bs (cfCount payload) (t + 1)) :
      CallAt padding payload bs (r + 1) (t + 1)
        (sendBlock (((cfList padding payload).take (blockEnd bs (cfCount payload) (t + 1))).drop r)
          (afterBlock (cfList padding payload) (blockEnd bs (cfCount payload) (t + 1))))

/-- The grant that opens block `t + 1`. -/
theorem CallAt.granted {t : ℕ} (hbefore : blockEnd bs (cfCount payload) t < cfCount payload) :
    CallAt padding payload bs (blockEnd bs (cfCount payload) t + 1) (t + 1)
      (sendBlocks (cfList padding payload) (blockEnd bs (cfCount payload) t) bs) := by
  have hlen : (cfList padding payload).length = cfCount payload := length_cfList
  have hle : blockEnd bs (cfCount payload) t ≤ blockEnd bs (cfCount payload) (t + 1) := by
    rw [blockEnd_succ hbefore]
    split <;> omega
  have hblocks := sendBlocks_blockEnd (cfList padding payload) bs t (by rw [hlen]; exact hbefore)
  rw [hlen] at hblocks
  rw [hblocks]
  exact .block hbefore (Nat.le_refl _) hle

end Py

namespace Bench

inductive Event where
  | tester
  | deliver (now : UInt32)
  | poll (now : UInt32)

/-- The tester's next operation. Waiting for Flow Control reads and drops any other frame, and a WAIT
keeps it waiting. -/
def testerStep (b : Bench) : Bench :=
  match b.tester with
  | .sendFrame data next => { b with tester := next, sent := b.sent ++ [data] }
  | .waitFlowControl next =>
    match b.rxChannel.sent[b.toTester]? with
    | none => b
    | some fc =>
      let b := { b with toTester := b.toTester + 1 }
      if fc.pci = pciFc && fc.low ≠ fcWait then
        { b with tester := next fc.low (getElem fc 1 Frame.one_lt).toNat (getElem fc 2 Frame.two_lt).toNat }
      else b
  | .returned => b
  | .raised _ => b

def step (b : Bench) : Event → Bench
  | .tester => b.testerStep
  | .deliver now =>
    match b.sent[b.toRx]? with
    | none => b
    | some data =>
      let b := { b with toRx := b.toRx + 1 }
      match Frame.ofBytes data with
      | none => b
      | some frame =>
        let (_, rx, c) := b.rx.onFrame b.rxChannel now frame
        { b with rx := rx, rxChannel := c }
  | .poll now =>
    let (_, rx, c) := b.rx.poll b.rxChannel now
    { b with rx := rx, rxChannel := c }

/-- No poll finds the receiver's wait for a Consecutive Frame expired. -/
def Timely (b : Bench) : Event → Prop
  | .poll now => b.rx.rxInProgress = true → reached now b.rx.rxDeadlineMs = false
  | _ => True

/-- The tester and the bus act again and again. -/
def Turn : Bool → Event → Prop
  | true, .tester => True
  | false, .deliver _ => True
  | _, _ => False

/-- The bus has the turn while a frame is under way, the tester else. -/
theorem turn_of_delivery {left : Bench → ℕ} {b : Bench} (hle : b.toRx ≤ b.sent.length)
    (hbus : ∀ now, b.toRx < b.sent.length → left (b.step (.deliver now)) < left b)
    (htester : b.toRx = b.sent.length → left (b.step .tester) < left b) :
    ∃ k, ∀ e, Turn k e → left (b.step e) < left b := by
  rcases Nat.lt_or_eq_of_le hle with hlt | hall
  · refine ⟨false, fun e he => ?_⟩
    cases e with
    | deliver now => exact hbus now hlt
    | tester => exact he.elim
    | poll => exact he.elim
  · refine ⟨true, fun e he => ?_⟩
    cases e with
    | deliver => exact he.elim
    | poll => exact he.elim
    | tester => exact htester hall

/-- The exchange is over: `send` has returned, the receiver holds the payload, and the bus and the
tester's receive queue are empty. -/
structure Done (payload : List UInt8) (b : Bench) : Prop where
  returned : b.tester = .returned
  ready : b.rx.messageReady = true
  length : b.rx.messageLength = payload.length
  message : b.rx.message = payload
  delivered : b.toRx = b.sent.length
  consumed : b.toTester = b.rxChannel.sent.length

variable {padding : UInt8} {payload : List UInt8} {bs : ℕ} {fc frame : Frame} {b : Bench}

theorem testerStep_sendFrame {data : List UInt8} {next : Py.Call} (h : b.tester = .sendFrame data next) :
    b.testerStep = { b with tester := next, sent := b.sent ++ [data] } := by
  simp only [testerStep, h]

/-- A Flow Control frame that grants the next block. -/
theorem testerStep_granted {next : UInt8 → ℕ → ℕ → Py.Call} (h : b.tester = .waitFlowControl next)
    (hfc : b.rxChannel.sent[b.toTester]? = some fc) (hpci : fc.pci = pciFc) (hlow : fc.low = fcCts) :
    b.testerStep =
      { b with
        toTester := b.toTester + 1
        tester := next fcCts (getElem fc 1 Frame.one_lt).toNat (getElem fc 2 Frame.two_lt).toNat } := by
  simp only [testerStep, h, hfc, hpci, hlow]
  rw [if_pos (by decide)]

theorem testerStep_starved {next : UInt8 → ℕ → ℕ → Py.Call} (h : b.tester = .waitFlowControl next)
    (hfc : b.rxChannel.sent[b.toTester]? = none) : b.testerStep = b := by
  simp only [testerStep, h, hfc]

theorem step_deliver_empty (now : UInt32) (h : b.sent[b.toRx]? = none) : b.step (.deliver now) = b := by
  simp only [step, h]

theorem step_deliver_frame {now : UInt32} {rx : IsotpRx} {c : Channel} {result : IsotpResult}
    (h : b.sent[b.toRx]? = some frame.toList)
    (hrx : b.rx.onFrame b.rxChannel now frame = (result, rx, c)) :
    b.step (.deliver now) = { b with toRx := b.toRx + 1, rx := rx, rxChannel := c } := by
  simp only [step, h, Frame.ofBytes_toList, hrx]

/-! ## A multi-frame exchange -/

/-- The tester and the receiver agree on the exchange: the call stands where the frames sent and the Flow
Control frames taken put it, the receiver where the frames delivered do. -/
structure Meets (padding : UInt8) (payload : List UInt8) (bs : ℕ) (fc : Frame) (b : Bench) : Prop where
  multi : 7 < payload.length
  max : payload.length ≤ 4095
  call : Py.CallAt padding payload bs b.sent.length b.toTester b.tester
  sent : b.sent = ((segments padding payload).take b.sent.length).map Vector.toList
  rx : IsotpRx.RxAt payload bs fc b.toRx b.rx b.rxChannel
  delivered : b.toRx ≤ b.sent.length
  taken : b.toTester ≤ b.rxChannel.sent.length

/-- What is left to send, to deliver and to take. -/
def work (payload : List UInt8) (bs : ℕ) (b : Bench) : ℕ :=
  (cfCount payload + 1 - b.sent.length) + (cfCount payload + 1 - b.toRx) +
    (grantCount payload bs (cfCount payload + 1) - b.toTester)

namespace Meets

variable (h : Meets padding payload bs fc b)

include h

theorem sent_le : b.sent.length ≤ cfCount payload + 1 := by
  have hlen := congrArg List.length h.sent
  rw [List.length_map, List.length_take, length_segments_mf h.multi] at hlen
  omega

theorem grants : b.rxChannel.sent.length = grantCount payload bs b.toRx := by
  rw [h.rx.grants, List.length_replicate]

/-- The tester sends the next segment. -/
theorem sendFrame {next : Py.Call} (hcall : b.tester = .sendFrame frame.toList next)
    (hframe : (segments padding payload)[b.sent.length]? = some frame)
    (hnext : Py.CallAt padding payload bs (b.sent.length + 1) b.toTester next) :
    Meets padding payload bs fc b.testerStep ∧ work payload bs b.testerStep < work payload bs b := by
  have hlt : b.sent.length < (segments padding payload).length := (List.getElem?_eq_some_iff.1 hframe).1
  have hlen : (b.sent ++ [frame.toList]).length = b.sent.length + 1 := by simp
  have hdelivered := h.delivered
  rw [testerStep_sendFrame hcall]
  refine ⟨⟨h.multi, h.max, ?_, ?_, h.rx, by simp only [hlen]; omega, h.taken⟩, ?_⟩
  · simp only [hlen]
    exact hnext
  · simp only [hlen]
    rw [List.take_add_one, hframe, List.map_append, ← h.sent]
    rfl
  · simp only [work, hlen]
    rw [length_segments_mf h.multi] at hlt
    omega

/-- The tester takes a Flow Control frame, or there is none. -/
theorem waitFlowControl {next : UInt8 → ℕ → ℕ → Py.Call} (hcall : b.tester = .waitFlowControl next)
    (hnext : ∀ stmin, Py.CallAt padding payload bs b.sent.length (b.toTester + 1) (next fcCts bs stmin)) :
    (b.toTester = b.rxChannel.sent.length ∧ b.testerStep = b) ∨
      (b.toTester < b.rxChannel.sent.length ∧ Meets padding payload bs fc b.testerStep ∧
        work payload bs b.testerStep < work payload bs b) := by
  obtain ⟨hpci, hlow, hbs⟩ := h.rx.isGrant
  rcases Nat.lt_or_eq_of_le h.taken with hlt | heq
  · have hfc : b.rxChannel.sent[b.toTester]? = some fc := by
      rw [h.rx.grants, List.getElem?_replicate, if_pos (by rw [← h.grants]; exact hlt)]
    have hgrants : b.toTester < grantCount payload bs (cfCount payload + 1) := by
      have hmono := grantCount_mono payload bs (Nat.le_trans h.delivered h.sent_le)
      rw [h.grants] at hlt
      omega
    rw [testerStep_granted hcall hfc hpci hlow, hbs]
    refine Or.inr ⟨hlt, ⟨h.multi, h.max, hnext _, h.sent, h.rx, h.delivered, hlt⟩, ?_⟩
    simp only [work]
    omega
  · have hfc : b.rxChannel.sent[b.toTester]? = none := List.getElem?_eq_none_iff.2 (by omega)
    exact Or.inl ⟨heq, testerStep_starved hcall hfc⟩

/-- The tester's turn: it moves on, or `send` has returned after its last block, or it waits for the grant
of the next one. -/
theorem tester_cases :
    (Meets padding payload bs fc b.testerStep ∧ work payload bs b.testerStep < work payload bs b) ∨
    (b.testerStep = b ∧ b.tester = .returned ∧ b.sent.length = cfCount payload + 1 ∧
      ∃ t, b.toTester = t + 1 ∧ Py.blockEnd bs (cfCount payload) t < cfCount payload ∧
        Py.blockEnd bs (cfCount payload) (t + 1) = cfCount payload) ∨
    (b.testerStep = b ∧ b.toTester = b.rxChannel.sent.length ∧
      Py.blockEnd bs (cfCount payload) b.toTester < cfCount payload ∧
      b.sent.length = Py.blockEnd bs (cfCount payload) b.toTester + 1) := by
  have hmf := h.multi
  have hlen : (Py.cfList padding payload).length = cfCount payload := Py.length_cfList
  generalize hcall : b.tester = call
  generalize hs : b.sent.length = s
  generalize ht : b.toTester = t
  have hat := h.call
  rw [hcall, hs, ht] at hat
  cases hat with
  | start =>
    rw [Py.send_multi hmf h.max] at hcall
    refine Or.inl (h.sendFrame hcall (by rw [hs]; exact segments_ff hmf) ?_)
    rw [hs, ht]
    exact .first
  | first =>
    have hpos : Py.blockEnd bs (cfCount payload) 0 < cfCount payload := by
      rw [show Py.blockEnd bs (cfCount payload) 0 = 0 from rfl, cfCount]
      omega
    rcases h.waitFlowControl hcall (fun _ => by rw [hs, ht]; exact .granted hpos) with
      ⟨heq, hsame⟩ | ⟨-, hmove⟩
    · rw [ht] at heq
      exact Or.inr (Or.inr ⟨hsame, heq, hpos, rfl⟩)
    · exact Or.inl hmove
  | @block r t hbefore hfrom hto =>
    have hend := Py.blockEnd_le bs (cfCount payload) (t + 1)
    rcases Nat.lt_or_eq_of_le hto with hlt | rfl
    · -- inside the block
      have hr : r < ((Py.cfList padding payload).take (Py.blockEnd bs (cfCount payload) (t + 1))).length := by
        rw [List.length_take, hlen]
        omega
      rw [List.drop_eq_getElem_cons hr, List.getElem_take, Py.getElem_cfList] at hcall
      refine Or.inl (h.sendFrame hcall ?_ ?_)
      · rw [hs]
        exact segments_cf hmf (by omega) (by omega)
      · rw [hs, ht]
        exact .block hbefore (by omega) hlt
    · -- at its end
      rw [List.drop_eq_nil_of_le (by rw [List.length_take]; omega)] at hcall
      simp only [Py.sendBlock, Py.afterBlock, hlen] at hcall
      by_cases hmore : Py.blockEnd bs (cfCount payload) (t + 1) < cfCount payload
      · rw [if_pos hmore] at hcall
        rcases h.waitFlowControl hcall (fun _ => by rw [hs, ht]; exact .granted hmore) with
          ⟨heq, hsame⟩ | ⟨-, hmove⟩
        · rw [ht] at heq
          exact Or.inr (Or.inr ⟨hsame, heq, hmore, rfl⟩)
        · exact Or.inl hmove
      · rw [if_neg hmore] at hcall
        have hlast : Py.blockEnd bs (cfCount payload) (t + 1) = cfCount payload := by omega
        refine Or.inr (Or.inl ⟨?_, ?_, by rw [hlast], t, rfl, hbefore, hlast⟩)
        · simp only [testerStep, hcall]
        · simp only [Py.sendBlock, Py.afterBlock, hlen, List.drop_take_self, if_neg hmore]

/-- A frame on its way arrives. -/
theorem deliver (now : UInt32) (hlt : b.toRx < b.sent.length) :
    Meets padding payload bs fc (b.step (.deliver now)) ∧
      work payload bs (b.step (.deliver now)) < work payload bs b := by
  have hle := h.sent_le
  have hsegments : (segments padding payload).length = cfCount payload + 1 := length_segments_mf h.multi
  have hd : b.toRx < (segments padding payload).length := by omega
  have hframe : (segments padding payload)[b.toRx]? = some (segments padding payload)[b.toRx] :=
    List.getElem?_eq_getElem hd
  have hhead : b.sent[b.toRx]? = some (segments padding payload)[b.toRx].toList := by
    rw [h.sent, List.getElem?_map, List.getElem?_take, if_pos hlt, hframe]
    rfl
  obtain ⟨rx, c, hrx, hat⟩ := h.rx.onFrame now h.multi h.max hframe
  have hgrants := h.grants
  have hmono := grantCount_mono payload bs (Nat.le_add_right b.toRx 1)
  have htaken := h.taken
  rw [step_deliver_frame hhead hrx]
  refine ⟨⟨h.multi, h.max, h.call, h.sent, hat, hlt, ?_⟩, ?_⟩
  · simp only
    rw [hat.grants, List.length_replicate]
    omega
  · simp only [work]
    omega

theorem poll {now : UInt32} (ht : Timely b (.poll now)) : b.step (.poll now) = b := by
  simp only [step, h.rx.poll ht]

/-- When every frame has arrived, a tester that waits for a grant has one in its queue. -/
theorem grant_waiting (hall : b.toRx = b.sent.length)
    (hmore : Py.blockEnd bs (cfCount payload) b.toTester < cfCount payload)
    (hs : b.sent.length = Py.blockEnd bs (cfCount payload) b.toTester + 1) :
    b.toTester < b.rxChannel.sent.length := by
  rw [h.grants, hall, hs, grantCount_succ bs (by omega)]
  unfold Py.blockEnd at hmore ⊢
  split
  · next h0 =>
    rw [Nat.zero_div]
    omega
  · next h0 =>
    rw [if_neg h0] at hmore
    split
    · next hb =>
      rw [if_pos hb] at hmore
      exact absurd hmore (Nat.lt_irrefl _)
    · next hb =>
      rw [if_neg hb] at hmore
      rw [Nat.min_eq_left (by omega), Nat.mul_div_cancel _ (Nat.pos_of_ne_zero hb)]
      omega

/-- The grants taken when `send` has returned are all the receiver gives. -/
theorem all_taken {t : ℕ} (hbefore : Py.blockEnd bs (cfCount payload) t < cfCount payload)
    (hlast : Py.blockEnd bs (cfCount payload) (t + 1) = cfCount payload) :
    grantCount payload bs (cfCount payload + 1) = t + 1 := by
  have hmulti := h.multi
  have hpos : 1 ≤ cfCount payload := by
    unfold cfCount
    omega
  obtain ⟨m, hm⟩ := Nat.exists_eq_add_of_le' hpos
  have hcount : grantCount payload bs (cfCount payload + 1) = 1 + m / bs := by
    rw [hm, grantCount_last bs hm.symm, grantCount_succ bs (by omega)]
  rw [hcount]
  unfold Py.blockEnd at hbefore hlast
  rw [if_neg (Nat.succ_ne_zero t)] at hlast
  by_cases hb : bs = 0
  · have h0 : t = 0 := by
      by_contra h0
      rw [if_neg h0, if_pos hb] at hbefore
      exact Nat.lt_irrefl _ hbefore
    rw [hb, h0, Nat.div_zero]
  · rw [if_neg hb, Nat.succ_mul] at hlast
    have hlow : t * bs ≤ m := by
      split at hbefore
      · next h0 =>
        rw [h0, Nat.zero_mul]
        exact Nat.zero_le m
      · omega
    have hdiv : m / bs = t := by
      rw [Nat.div_eq_of_lt_le hlow (by rw [Nat.succ_mul]; omega)]
    omega

/-- Short of the end, the bus or the tester can move. -/
theorem turn (hdone : ¬Done payload b) :
    ∃ k, ∀ e, Turn k e → work payload bs (b.step e) < work payload bs b := by
  refine turn_of_delivery h.delivered (fun now hlt => (h.deliver now hlt).2) fun hall => ?_
  rcases h.tester_cases with ⟨-, hwork⟩ | ⟨-, hret, hs, t, ht, hbefore, hlast⟩ | ⟨-, heq, hmore, hs⟩
  · exact hwork
  · have hready := h.rx.complete (by omega)
    obtain ⟨hlength, hmessage⟩ := h.rx.safe.ready hready
    refine absurd ⟨hret, hready, hlength, hmessage, hall, ?_⟩ hdone
    rw [h.grants, hall, hs, h.all_taken hbefore hlast, ht]
  · exact absurd heq (Nat.ne_of_lt (h.grant_waiting hall hmore hs))

theorem not_raised (message : String) : b.tester ≠ .raised message := by
  intro hcall
  have hat := h.call
  rw [hcall] at hat
  generalize b.sent.length = s at hat
  generalize b.toTester = t at hat
  generalize hc : Py.Call.raised message = call at hat
  cases hat with
  | start =>
    rw [Py.send_multi h.multi h.max] at hc
    cases hc
  | first => cases hc
  | block =>
    generalize List.drop _ _ = rest at hc
    cases rest with
    | cons => cases hc
    | nil =>
      simp only [Py.sendBlock, Py.afterBlock] at hc
      split at hc <;> cases hc

end Meets

/-! ## A Single Frame -/

/-- The exchange of a payload that fits a Single Frame. -/
structure MeetsSingle (padding : UInt8) (payload : List UInt8) (b : Bench) : Prop where
  pos : 1 ≤ payload.length
  fits : payload.length ≤ 7
  call : (b.tester = .sendFrame (IsotpTx.sfFrame padding payload).toList .returned ∧ b.sent = []) ∨
    (b.tester = .returned ∧ b.sent = [(IsotpTx.sfFrame padding payload).toList])
  safe : IsotpRx.RxSafe payload 0 b.rx
  idle : b.rx.rxInProgress = false
  enqueued : b.rx.fcWaitingEnqueue = false
  notPending : b.rx.fcPending = false
  delivered : b.toRx ≤ b.sent.length
  empty : b.toRx = 0 → b.rx.messageReady = false
  ready : b.toRx = 1 → b.rx.messageReady = true
  quiet : b.rxChannel.sent = [] ∧ b.toTester = 0

/-- What is left to send and to deliver of a Single Frame. -/
def workSingle (b : Bench) : ℕ := (1 - b.sent.length) + (1 - b.toRx)

namespace MeetsSingle

variable (h : MeetsSingle padding payload b)

include h

theorem sent_le : b.sent.length ≤ 1 := by
  rcases h.call with ⟨-, hs⟩ | ⟨-, hs⟩
  · rw [hs]
    exact Nat.zero_le 1
  · rw [hs]
    exact Nat.le_refl 1

theorem tester : (b.testerStep = b ∧ b.tester = .returned ∧ b.sent.length = 1) ∨
    (MeetsSingle padding payload b.testerStep ∧ workSingle b.testerStep < workSingle b) := by
  rcases h.call with ⟨hcall, hs⟩ | ⟨hcall, hs⟩
  · have hd : b.toRx = 0 := by
      have hdelivered := h.delivered
      rw [hs] at hdelivered
      exact Nat.le_zero.1 hdelivered
    rw [testerStep_sendFrame hcall, hs]
    refine Or.inr ⟨⟨h.pos, h.fits, Or.inr ⟨rfl, rfl⟩, h.safe, h.idle, h.enqueued, h.notPending,
      by simp only [hd]; exact Nat.zero_le _, h.empty, h.ready, h.quiet⟩, ?_⟩
    simp [workSingle, hs]
  · exact Or.inl ⟨by simp only [testerStep, hcall], hcall, by rw [hs]; rfl⟩

theorem deliver (now : UInt32) (hlt : b.toRx < b.sent.length) :
    MeetsSingle padding payload (b.step (.deliver now)) ∧
      workSingle (b.step (.deliver now)) < workSingle b := by
  rcases h.call with ⟨hcall, hs⟩ | ⟨hcall, hs⟩
  · rw [hs] at hlt
    exact absurd hlt (Nat.not_lt_zero _)
  · have hd : b.toRx = 0 := by
      rw [hs] at hlt
      exact Nat.lt_one_iff.1 hlt
    have hhead : b.sent[b.toRx]? = some (IsotpTx.sfFrame padding payload).toList := by
      rw [hs, hd]
      rfl
    have hsafe := h.safe.onSingleFrame padding h.fits
    obtain ⟨rx, hrx, hready, hidle, henq, hpend⟩ := IsotpRx.onSingleFrame_ready padding h.pos h.fits
      h.idle (h.empty hd) h.safe.hasBuffer
    have hframe : b.rx.onFrame b.rxChannel now (IsotpTx.sfFrame padding payload) =
        (.ok, rx, b.rxChannel) := by
      rw [IsotpRx.onFrame, sfFrame_pci h.fits, if_pos rfl, hrx]
    rw [hrx] at hsafe
    rw [step_deliver_frame hhead hframe]
    refine ⟨⟨h.pos, h.fits, h.call, hsafe, hidle.trans h.idle, henq.trans h.enqueued,
      hpend.trans h.notPending, hlt, fun h0 => absurd h0 (Nat.succ_ne_zero _), fun _ => hready,
      h.quiet⟩, ?_⟩
    simp only [workSingle, hd]
    omega

theorem poll (now : UInt32) : b.step (.poll now) = b := by
  have hpoll : b.rx.poll b.rxChannel now = (.ok, b.rx, b.rxChannel) := by
    simp [IsotpRx.poll, h.idle, h.enqueued, h.notPending]
  simp only [step, hpoll]

theorem turn (hdone : ¬Done payload b) :
    ∃ k, ∀ e, Turn k e → workSingle (b.step e) < workSingle b := by
  refine turn_of_delivery h.delivered (fun now hlt => (h.deliver now hlt).2) fun hall => ?_
  rcases h.tester with ⟨-, hret, hs⟩ | ⟨-, hwork⟩
  · have hready := h.ready (hall.trans hs)
    obtain ⟨hlength, hmessage⟩ := h.safe.ready hready
    refine absurd ⟨hret, hready, hlength, hmessage, hall, ?_⟩ hdone
    rw [h.quiet.1, h.quiet.2]
    rfl
  · exact hwork

theorem not_raised (message : String) : b.tester ≠ .raised message := by
  intro hcall
  rcases h.call with ⟨h', -⟩ | ⟨h', -⟩
  · rw [hcall] at h'
    cases h'
  · rw [hcall] at h'
    cases h'

end MeetsSingle

/-! ## The whole exchange -/

/-- What both kinds of exchange share: an invariant that no event breaks, and a measure of the work left
that the tester and the deliveries bring down. -/
structure Exchanging (payload : List UInt8) (I : Bench → Prop) (left : Bench → ℕ) : Prop where
  tester : ∀ b, I b → b.testerStep = b ∨ (I b.testerStep ∧ left b.testerStep < left b)
  deliver : ∀ b now, I b → b.toRx < b.sent.length →
    I (b.step (.deliver now)) ∧ left (b.step (.deliver now)) < left b
  poll : ∀ b now, I b → Timely b (.poll now) → b.step (.poll now) = b
  turn : ∀ b, I b → ¬Done payload b → ∃ k, ∀ e, Turn k e → left (b.step e) < left b
  not_raised : ∀ b, I b → ∀ message, b.tester ≠ .raised message

theorem exchanging_multi : Exchanging payload (Meets padding payload bs fc) (work payload bs) where
  tester b h := by
    rcases h.tester_cases with hmove | ⟨hsame, -⟩ | ⟨hsame, -⟩
    · exact Or.inr hmove
    · exact Or.inl hsame
    · exact Or.inl hsame
  deliver b now h := h.deliver now
  poll b now h := h.poll
  turn b h := h.turn
  not_raised b h := h.not_raised

theorem exchanging_single : Exchanging payload (MeetsSingle padding payload) workSingle where
  tester b h := by
    rcases h.tester with ⟨hsame, -⟩ | hmove
    · exact Or.inl hsame
    · exact Or.inr hmove
  deliver b now h := h.deliver now
  poll b now h _ := h.poll now
  turn b h := h.turn
  not_raised b h := h.not_raised

namespace Exchanging

variable {I : Bench → Prop} {left : Bench → ℕ}

theorem step (hx : Exchanging payload I left) (h : I b) {e : Event} (ht : Timely b e) :
    I (b.step e) ∧ (b.step e = b ∨ left (b.step e) < left b) := by
  cases e with
  | tester =>
    rcases hx.tester b h with hsame | ⟨hI, hlt⟩
    · rw [show b.step .tester = b from hsame]
      exact ⟨h, Or.inl rfl⟩
    · exact ⟨hI, Or.inr hlt⟩
  | poll now =>
    rw [hx.poll b now h ht]
    exact ⟨h, Or.inl rfl⟩
  | deliver now =>
    by_cases hlt : b.toRx < b.sent.length
    · obtain ⟨hI, hleft⟩ := hx.deliver b now h hlt
      exact ⟨hI, Or.inr hleft⟩
    · rw [step_deliver_empty now (List.getElem?_eq_none_iff.2 (by omega))]
      exact ⟨h, Or.inl rfl⟩

/-- Nothing moves after the end. -/
theorem step_done (hx : Exchanging payload I left) (h : I b) (hdone : Done payload b) {e : Event}
    (ht : Timely b e) : b.step e = b := by
  cases e with
  | tester =>
    show b.testerStep = b
    simp only [testerStep, hdone.returned]
  | poll now => exact hx.poll b now h ht
  | deliver now =>
    exact step_deliver_empty now (List.getElem?_eq_none_iff.2 (Nat.le_of_eq hdone.delivered.symm))

theorem completes (hx : Exchanging payload I left) (x : Execution Bench.step) (h0 : I (x.state 0))
    (hfair : ∀ k n, ∃ m, n ≤ m ∧ Turn k (x.event m)) (htimely : ∀ n, Timely (x.state n) (x.event n)) :
    (∀ n message, (x.state n).tester ≠ .raised message) ∧ ∃ n, ∀ m, n ≤ m → Done payload (x.state m) := by
  have hI : ∀ n, I (x.state n) := x.invariant_of h0 (fun t e hI ht => (hx.step hI ht).1) htimely
  have hmove : ∀ n, x.state (n + 1) = x.state n ∨ left (x.state (n + 1)) < left (x.state n) := by
    intro n
    rw [x.next]
    exact (hx.step (hI n) (htimely n)).2
  obtain ⟨n, -, hdone⟩ := x.exists_goal_of_turns hmove (fun n => hx.turn _ (hI n)) hfair 0
  refine ⟨fun n => hx.not_raised _ (hI n), n, fun m hm => ?_⟩
  obtain ⟨d, rfl⟩ := Nat.exists_eq_add_of_le hm
  clear hm
  induction d with
  | zero => exact hdone
  | succ d ih =>
    rw [← Nat.add_assoc, x.next, hx.step_done (hI _) ih (htimely _)]
    exact ih

end Exchanging

/-- A call of `send` about to begin, towards a receiver as `IsotpRx_Init` leaves it. -/
def fresh (padding : UInt8) (payload : List UInt8) (rxConfig : IsotpConfig) (fallbackInUse : Bool) :
    Bench where
  tester := Py.send payload padding
  sent := []
  toRx := 0
  rx := (IsotpRx.init rxConfig fallbackInUse).1
  rxChannel := Link.accepting
  toTester := 0

/-- **The Python tester and the firmware's receiver work together.** For every payload of 1 to 4095 bytes
that fits the buffer, and every block size and STmin the receiver was configured with, in every fair
execution without an expired timer `send` never raises; it returns, the receiver holds the payload, and no
Flow Control frame is left over. -/
theorem send_interoperates (padding : UInt8) (payload : List UInt8) (rxConfig : IsotpConfig)
    (fallbackInUse : Bool) (h1 : 1 ≤ payload.length) (hmax : payload.length ≤ 4095)
    (hroom : payload.length ≤ (IsotpRx.init rxConfig fallbackInUse).1.bufferSize)
    (x : Execution step) (h0 : x.state 0 = fresh padding payload rxConfig fallbackInUse)
    (hfair : ∀ k n, ∃ m, n ≤ m ∧ Turn k (x.event m))
    (htimely : ∀ n, Timely (x.state n) (x.event n)) :
    (∀ n message, (x.state n).tester ≠ .raised message) ∧
      ∃ n, ∀ m, n ≤ m → Done payload (x.state m) := by
  have hsafe : IsotpRx.RxSafe payload 0 (IsotpRx.init rxConfig fallbackInUse).1 := by
    rcases hbuffer : (IsotpRx.selectBuffer rxConfig.rxBuffer fallbackInUse).1 with _ | buffer
    · simp only [IsotpRx.init, hbuffer, Option.getD_none, List.length_nil] at hroom
      omega
    · refine .of_empty ?_ rfl hroom rfl rfl
      simp [IsotpRx.init, hbuffer]
  by_cases hlen : payload.length ≤ 7
  · have hx : Exchanging payload (MeetsSingle padding payload) workSingle := exchanging_single
    refine hx.completes x ?_ hfair htimely
    rw [h0]
    exact ⟨h1, hlen, Or.inl ⟨Py.send_single h1 hlen, rfl⟩, hsafe, rfl, rfl, rfl, Nat.le_refl 0,
      fun _ => rfl, fun h => absurd h Nat.zero_ne_one, rfl, rfl⟩
  · have hmeets : Meets padding payload rxConfig.blockSize.toNat
        ((IsotpRx.init rxConfig fallbackInUse).1.fcFrameOf fcCts) (x.state 0) := by
      rw [h0]
      exact ⟨by omega, hmax, .start, rfl, ⟨hsafe, ⟨fun _ => rfl, fun _ => rfl⟩, rfl, rfl, rfl, rfl,
        rfl, fun _ => ⟨rfl, rfl⟩, fun h => absurd h (Nat.not_succ_le_zero 0),
        fun h => absurd h (Nat.not_lt_zero _)⟩, Nat.le_refl 0, Nat.le_refl 0⟩
    exact exchanging_multi.completes x hmeets hfair htimely

/-- The tester and the bus take turns. -/
def alternate (n : ℕ) : Event := if n % 2 = 0 then .tester else .deliver 0

/-- A payload of two frames for a buffer of eight bytes. -/
theorem send_interoperates_alternate :
    ∃ n, Done [1, 2, 3, 4, 5, 6, 7, 8] ((Execution.ofEvents step
      (fresh 0xCC [1, 2, 3, 4, 5, 6, 7, 8] Link.smallConfig false) alternate).state n) := by
  have h := send_interoperates 0xCC [1, 2, 3, 4, 5, 6, 7, 8] Link.smallConfig false (by decide)
    (by decide) (by decide) (Execution.ofEvents step _ alternate) rfl ?_ ?_
  · obtain ⟨-, n, hdone⟩ := h
    exact ⟨n, hdone n (Nat.le_refl n)⟩
  · intro k n
    cases k with
    | true =>
      refine ⟨2 * n, by omega, ?_⟩
      show Turn true (alternate (2 * n))
      rw [alternate, if_pos (Nat.mul_mod_right 2 n)]
      trivial
    | false =>
      refine ⟨2 * n + 1, by omega, ?_⟩
      show Turn false (alternate (2 * n + 1))
      rw [alternate, if_neg (by omega)]
      trivial
  · intro n
    show Timely _ (alternate n)
    unfold alternate
    split <;> trivial

end Bench

end DualCan.Isotp
