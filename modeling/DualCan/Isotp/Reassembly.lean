import DualCan.Isotp.RxSteps
import DualCan.Isotp.Unpack

/-!
# ISO-TP: the receiver against `unpack_frames`

A receiver is fed a list of frames with polls in between (`Feeding`). It takes a list whole (`TakesAll`) if it
answers every frame with `ok`. A list it takes whole and that completes a message at its last frame is one
that `unpack_frames` turns into that message and needs to its last frame; the converse holds for lists with a
well-formed first frame. Without those words the two differ: a receiver passes over frames that do not belong
to a reception, and `unpack_frames` passes over what follows a complete message.
-/

namespace DualCan.Isotp

open DualCan.Run

namespace IsotpRx

variable {rx rx' : IsotpRx} {c : Channel} {now : UInt32} {frame : Frame}

/-! ## Calls that leave a reception alone -/

/-- The reception, the message and the progress are those of `rx`. -/
def Same (rx rx' : IsotpRx) : Prop := rx'.reception = rx.reception ∧ rx'.rxInProgress = rx.rxInProgress

theorem Same.refl (rx : IsotpRx) : Same rx rx := ⟨rfl, rfl⟩

theorem Same.trans {rx'' : IsotpRx} (h : Same rx rx') (h' : Same rx' rx'') : Same rx rx'' :=
  ⟨h'.1.trans h.1, h'.2.trans h.2⟩

/-- A channel that accepts every frame. -/
def Accepting (c : Channel) : Prop := ∀ n, c.sendAnswers n = true

theorem send_accepting (hc : Accepting c) (frame : Frame) : (c.send frame).1 = true := by
  unfold Channel.send
  rw [hc 0]
  rfl

theorem serviceFcEnqueue_same (rx : IsotpRx) (hc : Accepting c) (now : UInt32) :
    Same rx (serviceFcEnqueue rx c now).2.1 := by
  refine ⟨(serviceFcEnqueue_reception rx c now).1, ?_⟩
  have hspec := serviceFcEnqueue_spec rx c now
  have hsend := send_accepting hc rx.fcFrame
  generalize (serviceFcEnqueue rx c now).2.1 = rx', (serviceFcEnqueue rx c now).1 = result at hspec ⊢
  cases hspec with
  | none hw => rfl
  | accepted pending hw hs => rfl
  | busy hw hs hr => rfl
  | expired hw hs hr =>
    rw [hsend] at hs
    cases hs

theorem sendFc_same (rx : IsotpRx) (hc : Accepting c) (now : UInt32) (status : UInt8) :
    Same rx (sendFc rx c now status).1 :=
  serviceFcEnqueue_same _ hc now

/-- A poll without a timeout. -/
theorem poll_same (rx : IsotpRx) (c : Channel) (now : UInt32) (h : (rx.poll c now).1 ≠ .errTimeout) :
    Same rx (rx.poll c now).2.1 := by
  refine ⟨(poll_reception rx c now).1, ?_⟩
  rcases poll_spec rx c now with ⟨-, hto⟩ | ⟨rx₁, pending, hservice, -, hwatch⟩
  · exact absurd hto h
  · have hfirst : rx₁.rxInProgress = rx.rxInProgress := by
      cases hservice <;> rfl
    rw [← hfirst]
    generalize (rx.poll c now).2.1 = rx', (rx.poll c now).1 = result at hwatch h ⊢
    cases hwatch with
    | unconfirmed hw hp hpending hr => exact absurd rfl h
    | silent hw hp hpending hr => exact absurd rfl h
    | _ => rfl

/-! ## The three states of a receiver -/

/-- Nothing received, with a buffer for the longest message. -/
structure Idle (rx : IsotpRx) : Prop where
  progress : rx.rxInProgress = false
  empty : rx.messageReady = false
  hasBuffer : rx.hasBuffer = true
  size : rx.bufferSize = maxTotalLength
  room : rx.buffer.length = rx.bufferSize

/-- A reception of `n` bytes that has taken `k` Consecutive Frames and holds the bytes `acc`. -/
structure Collecting (n : ℕ) (acc : List UInt8) (k : ℕ) (rx : IsotpRx) : Prop where
  progress : rx.rxInProgress = true
  empty : rx.messageReady = false
  declared : rx.declaredLength = n
  received : rx.received = 6 + 7 * k
  more : 6 + 7 * k < n
  room : n ≤ rx.buffer.length
  sn : rx.expectedSn.toNat = (1 + k) % 16
  stored : rx.buffer.take (6 + 7 * k) = acc

/-- A complete message. -/
structure Holding (p : List UInt8) (rx : IsotpRx) : Prop where
  progress : rx.rxInProgress = false
  ready : rx.messageReady = true
  message : rx.message = p

variable {n k : ℕ} {acc p : List UInt8}

theorem Collecting.same (hc : Collecting n acc k rx) (h : Same rx rx') : Collecting n acc k rx' := by
  obtain ⟨hr, hp⟩ := h
  simp only [reception, Prod.mk.injEq] at hr
  obtain ⟨-, h2, -, h4, h5, h6, h7, -⟩ := hr
  exact ⟨hp.trans hc.progress, h7.trans hc.empty, h4.trans hc.declared, h5.trans hc.received, hc.more,
    by rw [h2]; exact hc.room, by rw [h6]; exact hc.sn, by rw [h2]; exact hc.stored⟩

theorem Holding.same (hh : Holding p rx) (h : Same rx rx') : Holding p rx' := by
  obtain ⟨hr, hp⟩ := h
  simp only [reception, Prod.mk.injEq] at hr
  obtain ⟨-, h2, -, -, -, -, h7, h8⟩ := hr
  exact ⟨hp.trans hh.progress, h7.trans hh.ready, by rw [IsotpRx.message, h2, h8]; exact hh.message⟩

/-- A receiver that holds a message answers no frame with `ok`. -/
theorem Holding.refuses (hh : Holding p rx) (c : Channel) (now : UInt32) (frame : Frame) :
    (rx.onFrame c now frame).1 ≠ .ok := by
  have hp := hh.progress
  have hr := hh.ready
  unfold onFrame onSingleFrame onFirstFrame onConsecutiveFrame
  simp only [hp, hr, Bool.not_false, if_true, Bool.false_eq_true, if_false]
  split
  · split <;> simp
  · split
    · simp
    · split <;> simp

/-- The well-formed first frames of a message: a Single Frame of 1 to 7 bytes, or a First Frame that declares
more than 7. -/
def Proper (frame : Frame) : Prop :=
  (frame.pci = pciSf ∧ 1 ≤ frame.low.toNat ∧ frame.low.toNat ≤ 7) ∨
    (frame.pci = pciFf ∧ 7 < declaredOf frame)

/-- What an idle receiver does with a Single Frame. -/
theorem Idle.single (hi : Idle rx) (hpci : frame.pci = pciSf) (c : Channel) (now : UInt32) :
    ((rx.onFrame c now frame).1 = .ok ↔ 1 ≤ frame.low.toNat ∧ frame.low.toNat ≤ 7) ∧
      ((rx.onFrame c now frame).1 = .ok →
        Holding (frame.payload 1 frame.low.toNat) (rx.onFrame c now frame).2.1) := by
  rw [onFrame_of_sf hpci]
  unfold onSingleFrame
  dsimp only
  by_cases h0 : frame.low.toNat = 0
  · rw [if_pos h0]
    exact ⟨⟨fun h => by simp at h, fun h => by omega⟩, fun h => by simp at h⟩
  rw [if_neg h0, if_neg (by simp [hi.progress]), if_neg (by simp [hi.empty])]
  by_cases h7 : frame.low.toNat > sfPayloadMax
  · rw [if_pos h7]
    rw [sfPayloadMax] at h7
    exact ⟨⟨fun h => by simp at h, fun h => by omega⟩, fun h => by simp at h⟩
  rw [if_neg h7, if_neg (by simp [hi.hasBuffer])]
  rw [sfPayloadMax] at h7
  refine ⟨⟨fun _ => by omega, fun _ => rfl⟩, fun _ => ⟨hi.progress, rfl, ?_⟩⟩
  have hlen : (frame.payload 1 frame.low.toNat).length = frame.low.toNat := Frame.length_payload (by omega)
  have htake := take_storeAt (frame.payload 1 frame.low.toNat) (Nat.zero_le rx.buffer.length)
  rw [hlen, Nat.zero_add, List.take_zero, List.nil_append] at htake
  exact htake

/-- What an idle receiver does with a First Frame. -/
theorem Idle.first (hi : Idle rx) (hpci : frame.pci = pciFf) (hc : Accepting c) (now : UInt32) :
    ((rx.onFrame c now frame).1 = .ok ↔ 7 < declaredOf frame) ∧
      ((rx.onFrame c now frame).1 = .ok →
        Collecting (declaredOf frame) (frame.payload 2 ffPayloadMax) 0 (rx.onFrame c now frame).2.1) := by
  have hmax := declaredOf_le frame
  have hroom := hi.room
  have hsize := hi.size
  rw [maxTotalLength] at hsize
  rw [onFrame_of_ff hpci]
  unfold onFirstFrame
  dsimp only
  rw [if_neg (by simp [hi.progress]), if_neg (by simp [hi.empty])]
  by_cases hlegal : maxSingleFrame < declaredOf frame ∧ declaredOf frame ≤ maxTotalLength
  swap
  · rw [if_pos (declared_illegal_iff.2 hlegal)]
    rw [maxSingleFrame, sfPayloadMax, maxTotalLength] at hlegal
    refine ⟨⟨fun h => ?_, fun h => by omega⟩, fun h => ?_⟩
    all_goals
      dsimp only at h
      split at h <;> cases h
  rw [if_neg (fun h => declared_illegal_iff.1 h hlegal), if_neg (by simp [hi.hasBuffer]),
    if_neg (by omega)]
  rw [maxSingleFrame, sfPayloadMax] at hlegal
  have hsix : min ffPayloadMax (declaredOf frame) = 6 := by
    rw [ffPayloadMax]
    omega
  have hlen : (frame.payload 2 ffPayloadMax).length = 6 := Frame.length_payload (by decide)
  have hopen : Collecting (declaredOf frame) (frame.payload 2 ffPayloadMax) 0
      (rx.openReception (declaredOf frame) frame) := by
    have htake := take_storeAt (frame.payload 2 ffPayloadMax) (Nat.zero_le rx.buffer.length)
    rw [hlen, Nat.zero_add, List.take_zero, List.nil_append] at htake
    refine ⟨rfl, hi.empty, rfl, hsix, by omega, ?_, rfl, ?_⟩
    · simp only [openReception, hsix]
      rw [length_storeAt]
      · omega
      · rw [Frame.length_payload (by decide)]
        omega
    · simp only [openReception, hsix]
      exact htake
  have hsent := hopen.same (sendFc_same _ hc now fcCts)
  rw [if_neg (by rw [hsent.received, hsent.declared]; omega)]
  exact ⟨⟨fun _ => by omega, fun _ => rfl⟩, fun _ => hsent⟩

/-- An idle receiver answers only well-formed first frames with `ok`. -/
theorem Idle.proper (hi : Idle rx) (hc : Accepting c) (now : UInt32) :
    (rx.onFrame c now frame).1 = .ok ↔ Proper frame := by
  by_cases hsf : frame.pci = pciSf
  · rw [(hi.single hsf c now).1]
    simp [Proper, hsf, show ¬pciSf = pciFf by decide]
  · by_cases hff : frame.pci = pciFf
    · rw [(hi.first hff hc now).1]
      simp [Proper, hff, show ¬pciFf = pciSf by decide]
    · have hbad : (rx.onFrame c now frame).1 ≠ .ok := by
        unfold onFrame onConsecutiveFrame
        simp [hsf, hff, hi.progress]
      simp [Proper, hsf, hff, hbad]

/-- What a reception does with its next Consecutive Frame. -/
theorem Collecting.next (hl : Collecting n acc k rx) (hc : Accepting c) (now : UInt32)
    (hpci : frame.pci = pciCf) (hsn : frame.low.toNat = (1 + k) % 16) :
    (rx.onFrame c now frame).1 = .ok ∧
      (6 + 7 * (k + 1) < n → Collecting n (acc ++ frame.payload 1 cfPayloadMax) (k + 1)
        (rx.onFrame c now frame).2.1) ∧
      (n ≤ 6 + 7 * (k + 1) →
        Holding ((acc ++ frame.payload 1 cfPayloadMax).take n) (rx.onFrame c now frame).2.1) := by
  have hsn' : ¬frame.low ≠ rx.expectedSn := by
    rw [not_not]
    apply UInt8.toNat_inj.1
    rw [hsn, hl.sn]
  have hroom := hl.room
  have hmore := hl.more
  have hchunk : (frame.payload 1 (min cfPayloadMax (n - (6 + 7 * k)))).length =
      min cfPayloadMax (n - (6 + 7 * k)) := Frame.length_payload (by rw [cfPayloadMax]; omega)
  -- the bytes up to the end of the frame's share
  have hstore := take_storeAt (frame.payload 1 (min cfPayloadMax (n - (6 + 7 * k))))
    (show 6 + 7 * k ≤ rx.buffer.length by omega)
  rw [hchunk, hl.stored] at hstore
  have hbuffer : (rx.appendCf now frame).buffer =
      storeAt rx.buffer (6 + 7 * k) (frame.payload 1 (min cfPayloadMax (n - (6 + 7 * k)))) := by
    simp only [appendCf, hl.received, hl.declared]
  have hreceived : (rx.appendCf now frame).received = 6 + 7 * k + min cfPayloadMax (n - (6 + 7 * k)) := by
    simp only [appendCf, hl.received, hl.declared]
  have hdeclared : (rx.appendCf now frame).declaredLength = n := hl.declared
  rw [cfPayloadMax] at hreceived
  rw [onFrame_of_cf hpci]
  unfold onConsecutiveFrame
  rw [if_neg (by simp [hl.progress]), if_neg hsn']
  dsimp only
  by_cases hlast : n ≤ 6 + 7 * (k + 1)
  · have hmin : min cfPayloadMax (n - (6 + 7 * k)) = n - (6 + 7 * k) := by
      rw [cfPayloadMax]
      omega
    rw [if_pos (by rw [hreceived, hdeclared]; omega)]
    refine ⟨rfl, fun h => by omega, fun _ => ⟨rfl, rfl, ?_⟩⟩
    have hacc : acc.length = 6 + 7 * k := by
      rw [← hl.stored, List.length_take]
      omega
    rw [hmin, show 6 + 7 * k + (n - (6 + 7 * k)) = n by omega] at hstore
    rw [message, finish, hdeclared, hbuffer, hmin, hstore, List.take_append, hacc,
      List.take_of_length_le (by omega), Frame.payload, Frame.payload, List.take_take,
      Nat.min_eq_left (by rw [cfPayloadMax]; omega)]
  · have hseven : min cfPayloadMax (n - (6 + 7 * k)) = cfPayloadMax := by
      rw [cfPayloadMax]
      omega
    rw [hseven] at hstore hbuffer
    rw [if_neg (by rw [hreceived, hdeclared]; omega)]
    have happend : Collecting n (acc ++ frame.payload 1 cfPayloadMax) (k + 1) (rx.appendCf now frame) := by
      refine ⟨hl.progress, hl.empty, hdeclared, by omega, by omega, ?_, ?_, ?_⟩
      · rw [hbuffer, length_storeAt]
        · exact hroom
        · rw [Frame.length_payload (by decide), cfPayloadMax]
          omega
      · have hnext := sn_next hl.sn
        rw [← Nat.add_assoc]
        exact hnext
      · rw [hbuffer]
        exact hstore
    split
    · exact ⟨rfl, fun _ => Collecting.same (happend.same ⟨rfl, rfl⟩) (sendFc_same _ hc now fcCts),
        fun h => absurd h hlast⟩
    · exact ⟨rfl, fun _ => happend, fun h => absurd h hlast⟩

/-- A reception answers nothing else with `ok`. -/
theorem Collecting.refuses (hl : Collecting n acc k rx) (c : Channel) (now : UInt32)
    (h : ¬(frame.pci = pciCf ∧ frame.low.toNat = (1 + k) % 16)) : (rx.onFrame c now frame).1 ≠ .ok := by
  have hp := hl.progress
  unfold onFrame onSingleFrame onFirstFrame onConsecutiveFrame
  simp only [hp, Bool.not_true, if_true, Bool.false_eq_true, if_false]
  split
  · split <;> simp
  · split
    · simp
    · split
      · next hcf =>
        rw [if_pos]
        · simp
        · intro hlow
          exact h ⟨hcf, by rw [hlow, hl.sn]⟩
      · simp

end IsotpRx

/-! ## Feeding a list of frames -/

/-- A frame handed to a receiver, and the polls made before the next one, each with its channel and time. -/
structure Feeding where
  frame : Frame
  channel : Channel
  now : UInt32
  polls : List (Channel × UInt32)

namespace Feeding

open IsotpRx

/-- One poll. -/
def pollStep (rx : IsotpRx) (poll : Channel × UInt32) : IsotpRx := (rx.poll poll.1 poll.2).2.1

/-- The answer to the frame. -/
def answer (rx : IsotpRx) (x : Feeding) : IsotpResult := (rx.onFrame x.channel x.now x.frame).1

/-- The receiver after the frame and the polls. -/
def step (rx : IsotpRx) (x : Feeding) : IsotpRx :=
  after pollStep (rx.onFrame x.channel x.now x.frame).2.1 x.polls

/-- The channel accepts every frame and no timer expires. -/
structure Calm (rx : IsotpRx) (x : Feeding) : Prop where
  accepting : Accepting x.channel
  quiet : AllSteps pollStep (rx.onFrame x.channel x.now x.frame).2.1
    (fun rx poll => Accepting poll.1 ∧ (rx.poll poll.1 poll.2).1 ≠ .errTimeout) x.polls

/-- The frames handed over. -/
def framesOf (feed : List Feeding) : List Frame := feed.map Feeding.frame

/-- Every frame is answered with `ok`. -/
def TakesAll (rx : IsotpRx) (feed : List Feeding) : Prop :=
  AllSteps step rx (fun rx x => x.answer rx = .ok) feed

/-- The receiver becomes ready with the message `p` exactly at the last frame. -/
structure Completes (rx : IsotpRx) (feed : List Feeding) (p : List UInt8) : Prop where
  before : (after step rx feed.dropLast).messageReady = false
  ready : (after step rx feed).messageReady = true
  message : (after step rx feed).message = p

variable {rx : IsotpRx} {x : Feeding} {feed : List Feeding} {n k : ℕ} {acc p : List UInt8}

theorem Calm.same (hx : Calm rx x) : Same (rx.onFrame x.channel x.now x.frame).2.1 (step rx x) := by
  have hquiet := hx.quiet
  unfold step
  generalize (rx.onFrame x.channel x.now x.frame).2.1 = rx₁ at hquiet ⊢
  exact after_invariant_of (I := Same rx₁) (Same.refl rx₁)
    (fun t poll ht hp => ht.trans (poll_same t poll.1 poll.2 hp.2)) x.polls hquiet

/-- A receiver that holds a message takes no further frame. -/
theorem takesAll_of_holding (hh : Holding p rx) (h : TakesAll rx feed) : feed = [] := by
  cases feed with
  | nil => rfl
  | cons x feed => exact absurd (allSteps_cons.1 h).1 (hh.refuses x.channel x.now x.frame)

/-- What a reception takes whole: the Consecutive Frames it still needs, in sequence. -/
theorem takesAll_of_collecting (hl : Collecting n acc k rx) (hcalm : AllSteps step rx Calm feed) :
    (TakesAll rx feed ∧ (after step rx feed).messageReady = true ∧ (after step rx feed).message = p) ↔
      Sequenced (1 + k) (framesOf feed) ∧ n ≤ 6 + 7 * (k + feed.length) ∧
        6 + 7 * (k + feed.length) < n + 7 ∧ p = (acc ++ cfBytes (framesOf feed)).take n := by
  induction feed generalizing rx acc k with
  | nil =>
    have hmore := hl.more
    constructor
    · rintro ⟨-, hready, -⟩
      rw [after_nil, hl.empty] at hready
      cases hready
    · rintro ⟨-, hle, -⟩
      rw [List.length_nil] at hle
      omega
  | cons x feed ih =>
    rw [allSteps_cons] at hcalm
    obtain ⟨hx, hrest⟩ := hcalm
    have hsame := hx.same
    have hbytes : cfBytes (framesOf (x :: feed)) =
        x.frame.payload 1 cfPayloadMax ++ cfBytes (framesOf feed) := rfl
    rw [TakesAll, allSteps_cons, after_cons, framesOf, List.map_cons, sequenced_cons, List.length_cons]
    by_cases hnext : x.frame.pci = pciCf ∧ x.frame.low.toNat = (1 + k) % 16
    swap
    · have hrefused := hl.refuses x.channel x.now hnext
      constructor
      · rintro ⟨⟨hok, -⟩, -⟩
        exact absurd hok hrefused
      · rintro ⟨⟨hhead, -⟩, -⟩
        exact absurd hhead hnext
    obtain ⟨hok, hgoing, hdone⟩ := hl.next hx.accepting x.now hnext.1 hnext.2
    by_cases hlast : n ≤ 6 + 7 * (k + 1)
    · have hh := (hdone hlast).same hsame
      have hmore := hl.more
      constructor
      · rintro ⟨⟨-, htake⟩, -, hmessage⟩
        obtain rfl := takesAll_of_holding hh htake
        refine ⟨⟨hnext, sequenced_nil⟩, by simpa using hlast, by simp only [List.length_nil]; omega, ?_⟩
        rw [← hmessage, after_nil, hh.message]
        simp [cfBytes]
      · rintro ⟨-, -, hlt, rfl⟩
        obtain rfl : feed = [] := List.length_eq_zero_iff.1 (by omega)
        refine ⟨⟨hok, allSteps_nil⟩, hh.ready, ?_⟩
        rw [after_nil, hh.message]
        simp [cfBytes]
    · have hih := ih ((hgoing (by omega)).same hsame) hrest
      have hcount : k + (feed.length + 1) = k + 1 + feed.length := by omega
      rw [hcount, show 1 + k + 1 = 1 + (k + 1) by omega]
      rw [framesOf, List.map_cons] at hbytes
      rw [hbytes, ← List.append_assoc]
      constructor
      · rintro ⟨⟨-, htake⟩, hready, hmessage⟩
        obtain ⟨hseq, hle, hlt, hp⟩ := hih.1 ⟨htake, hready, hmessage⟩
        exact ⟨⟨hnext, hseq⟩, hle, hlt, hp⟩
      · rintro ⟨⟨-, hseq⟩, hle, hlt, hp⟩
        obtain ⟨htake, hready, hmessage⟩ := hih.2 ⟨hseq, hle, hlt, hp⟩
        exact ⟨⟨hok, htake⟩, hready, hmessage⟩

/-- While it takes every frame, a receiver is idle, collecting or done. -/
theorem state_of_takesAll (hi : Idle rx) (hcalm : AllSteps step rx Calm feed) (h : TakesAll rx feed) :
    (feed = [] ∨ ∃ n acc k, Collecting n acc k (after step rx feed)) ∨
      ∃ p, Holding p (after step rx feed) := by
  induction feed using List.reverseRecOn with
  | nil => exact Or.inl (Or.inl rfl)
  | append_singleton feed x ih =>
    rw [TakesAll, allSteps_snoc] at h
    rw [allSteps_snoc] at hcalm
    have hx := hcalm.2
    have hsame := hx.same
    have hok := h.2
    rw [after_snoc]
    rcases ih hcalm.1 h.1 with (rfl | ⟨n, acc, k, hl⟩) | ⟨p, hh⟩
    · rcases (hi.proper hx.accepting x.now).1 hok with ⟨hsf, -⟩ | ⟨hff, -⟩
      · exact Or.inr ⟨_, ((hi.single hsf x.channel x.now).2 hok).same hsame⟩
      · exact Or.inl (Or.inr ⟨_, _, _, ((hi.first hff hx.accepting x.now).2 hok).same hsame⟩)
    · by_cases hnext : x.frame.pci = pciCf ∧ x.frame.low.toNat = (1 + k) % 16
      · obtain ⟨-, hgoing, hdone⟩ := hl.next hx.accepting x.now hnext.1 hnext.2
        by_cases hlast : n ≤ 6 + 7 * (k + 1)
        · exact Or.inr ⟨_, (hdone hlast).same hsame⟩
        · exact Or.inl (Or.inr ⟨_, _, _, (hgoing (by omega)).same hsame⟩)
      · exact absurd hok (hl.refuses x.channel x.now hnext)
    · exact absurd hok (hh.refuses x.channel x.now x.frame)

/-- A receiver that takes a list whole is not ready before the last frame. -/
theorem not_ready_before (hi : Idle rx) (hcalm : AllSteps step rx Calm feed) (h : TakesAll rx feed)
    (hne : feed ≠ []) : (after step rx feed.dropLast).messageReady = false := by
  obtain ⟨feed, x, rfl⟩ : ∃ a x, feed = a ++ [x] :=
    ⟨feed.dropLast, feed.getLast hne, (List.dropLast_append_getLast hne).symm⟩
  rw [List.dropLast_concat]
  rw [TakesAll, allSteps_snoc] at h
  rw [allSteps_snoc] at hcalm
  rcases state_of_takesAll hi hcalm.1 h.1 with (rfl | ⟨n, acc, k, hl⟩) | ⟨p, hh⟩
  · exact hi.empty
  · exact hl.empty
  · exact absurd h.2 (hh.refuses x.channel x.now x.frame)

theorem sequenced_dropLast {start : ℕ} {frames : List Frame} (h : Sequenced start frames) :
    Sequenced start frames.dropLast := by
  intro i frame hi
  rw [List.getElem?_dropLast] at hi
  split at hi
  · exact h i frame hi
  · cases hi

/-- `unpack_frames` returns nothing else than a payload or an error. -/
theorem error_iff {frames : List (List UInt8)} :
    (∃ message, Py.unpackFrames frames = .error message) ↔ ∀ q, Py.unpackFrames frames ≠ .ok q := by
  cases Py.unpackFrames frames with
  | error message => simp
  | ok q => simp

/-- The bytes of the frames handed over. -/
def bytesOf (feed : List Feeding) : List (List UInt8) := (framesOf feed).map Vector.toList

/-- The lists that `unpack_frames` takes and needs to the last frame, given a First Frame. -/
theorem unpackFrames_ff_whole (hff : x.frame.pci = pciFf) (hproper : 7 < declaredOf x.frame) :
    (Py.unpackFrames (bytesOf (x :: feed)) = .ok p ∧
      ∃ message, Py.unpackFrames (bytesOf (x :: feed)).dropLast = .error message) ↔
    Sequenced 1 (framesOf feed) ∧ declaredOf x.frame ≤ 6 + 7 * feed.length ∧
      6 + 7 * feed.length < declaredOf x.frame + 7 ∧
        p = (x.frame.payload 2 ffPayloadMax ++ cfBytes (framesOf feed)).take (declaredOf x.frame) := by
  have hwhole : Py.unpackFrames (bytesOf (x :: feed)) = .ok p ↔ _ := unpackFrames_ff hff (framesOf feed)
  have hlen : (framesOf feed).length = feed.length := List.length_map _
  rw [hwhole, error_iff, hlen]
  cases hfeed : feed with
  | nil =>
    simp only [List.length_nil]
    constructor
    · rintro ⟨⟨-, hle, -⟩, -⟩
      omega
    · rintro ⟨-, hle, -⟩
      omega
  | cons y rest =>
    rw [← hfeed]
    have hpos : 0 < feed.length := by rw [hfeed]; exact Nat.succ_pos _
    have hdrop : (bytesOf (x :: feed)).dropLast =
        (x.frame :: (framesOf feed).dropLast).map Vector.toList := by
      rw [bytesOf, framesOf, List.map_cons, List.map_cons, List.dropLast_cons_of_ne_nil]
      · rw [List.map_cons, List.map_dropLast]
        rfl
      · rw [hfeed]
        simp
    have hlast : (framesOf feed).dropLast.length = feed.length - 1 := by rw [List.length_dropLast, hlen]
    rw [hdrop]
    simp only [ne_eq, unpackFrames_ff hff, hlast]
    constructor
    · rintro ⟨⟨hseq, hle, hp⟩, herror⟩
      refine ⟨hseq, hle, ?_, hp⟩
      by_contra hlong
      exact herror _ ⟨sequenced_dropLast hseq, by omega, rfl⟩
    · rintro ⟨hseq, hle, hlt, hp⟩
      refine ⟨⟨hseq, hle, hp⟩, ?_⟩
      rintro q ⟨-, hshort, -⟩
      omega

/-- What an idle receiver takes whole. -/
theorem takesAll_ready_iff (hi : Idle rx) (hcalm : AllSteps step rx Calm feed) :
    (TakesAll rx feed ∧ (after step rx feed).messageReady = true ∧ (after step rx feed).message = p) ↔
      (∀ frame ∈ (framesOf feed).head?, Proper frame) ∧
        Py.unpackFrames (bytesOf feed) = .ok p ∧
        ∃ message, Py.unpackFrames (bytesOf feed).dropLast = .error message := by
  cases feed with
  | nil =>
    constructor
    · rintro ⟨-, hready, -⟩
      rw [after_nil, hi.empty] at hready
      cases hready
    · rintro ⟨-, hok, -⟩
      cases hok
  | cons x feed =>
    rw [allSteps_cons] at hcalm
    obtain ⟨hx, hrest⟩ := hcalm
    have hsame := hx.same
    have hhead : (∀ frame ∈ (framesOf (x :: feed)).head?, Proper frame) ↔ Proper x.frame := by
      simp [framesOf]
    rw [TakesAll, allSteps_cons, after_cons, hhead]
    have hproper : answer rx x = .ok ↔ Proper x.frame := hi.proper hx.accepting x.now
    rw [hproper]
    by_cases hfirst : Proper x.frame
    swap
    · constructor
      · rintro ⟨⟨h, -⟩, -⟩
        exact absurd h hfirst
      · rintro ⟨h, -⟩
        exact absurd h hfirst
    have hok := hproper.2 hfirst
    rcases hfirst with ⟨hsf, hlen⟩ | ⟨hff, hlong⟩
    · -- a Single Frame: the message is complete, so nothing may follow
      have hh := ((hi.single hsf x.channel x.now).2 hok).same hsame
      constructor
      · rintro ⟨⟨hfirst, htake⟩, -, hmessage⟩
        obtain rfl := takesAll_of_holding hh htake
        refine ⟨hfirst, ?_, _, rfl⟩
        rw [← hmessage, after_nil, hh.message]
        exact unpackFrames_sf hsf []
      · rintro ⟨hfirst, hunpack, message, herror⟩
        have hunpack' : Py.unpackFrames (bytesOf (x :: feed)) = .ok _ := unpackFrames_sf hsf (framesOf feed)
        rw [hunpack'] at hunpack
        obtain rfl := Except.ok.inj hunpack
        cases feed with
        | nil => exact ⟨⟨hfirst, allSteps_nil⟩, hh.ready, hh.message⟩
        | cons y rest =>
          have hdrop : (bytesOf (x :: y :: rest)).dropLast =
              (x.frame :: framesOf (y :: rest).dropLast).map Vector.toList := by
            simp [bytesOf, framesOf]
          rw [hdrop, unpackFrames_sf hsf] at herror
          cases herror
    · have hl := ((hi.first hff hx.accepting x.now).2 hok).same hsame
      rw [unpackFrames_ff_whole hff hlong, and_assoc]
      have hwhole := takesAll_of_collecting (p := p) hl hrest
      rw [Nat.zero_add, Nat.add_zero] at hwhole
      exact and_congr_right fun _ => hwhole

theorem sequenced_take {start : ℕ} {frames : List Frame} (h : Sequenced start frames) (m : ℕ) :
    Sequenced start (frames.take m) := by
  intro i frame hi
  rw [List.getElem?_take] at hi
  split at hi
  · exact h i frame hi
  · cases hi

/-- The frames of a list that `unpack_frames` reads for its message: those it needs to complete it. -/
theorem exists_needed (h : ∀ frame ∈ (framesOf feed).head?, Proper frame)
    (hunpack : Py.unpackFrames (bytesOf feed) = .ok p) :
    ∃ taken surplus, feed = taken ++ surplus ∧ (∀ frame ∈ (framesOf taken).head?, Proper frame) ∧
      Py.unpackFrames (bytesOf taken) = .ok p ∧
        ∃ message, Py.unpackFrames (bytesOf taken).dropLast = .error message := by
  cases feed with
  | nil => cases hunpack
  | cons x feed =>
    have hproper : Proper x.frame := h x.frame (by simp [framesOf])
    have hhead : ∀ rest, ∀ frame ∈ (framesOf (x :: rest)).head?, Proper frame := by
      intro rest frame hframe
      obtain rfl : x.frame = frame := by simpa [framesOf] using hframe
      exact hproper
    rcases hproper with ⟨hsf, -⟩ | ⟨hff, hlong⟩
    · have hsingle : ∀ rest, Py.unpackFrames (bytesOf (x :: rest)) = _ :=
        fun rest => unpackFrames_sf hsf (framesOf rest)
      refine ⟨[x], feed, rfl, hhead [], ?_, _, rfl⟩
      rw [hsingle [], ← hunpack, hsingle feed]
    · have hlen : (framesOf feed).length = feed.length := List.length_map _
      obtain ⟨hseq, hle, rfl⟩ := (unpackFrames_ff hff (framesOf feed)).1 hunpack
      rw [hlen] at hle
      -- the number of Consecutive Frames that carry the declared length
      generalize hn : declaredOf x.frame = n at hlong hle ⊢
      refine ⟨x :: feed.take (n / 7), feed.drop (n / 7), by simp, hhead _, ?_⟩
      rw [unpackFrames_ff_whole hff (by omega), hn]
      have htaken : (feed.take (n / 7)).length = n / 7 := by
        rw [List.length_take]
        omega
      have hframes : framesOf (feed.take (n / 7)) = (framesOf feed).take (n / 7) := List.map_take
      have hsplit : cfBytes (framesOf feed) =
          cfBytes (framesOf (feed.take (n / 7))) ++ cfBytes (framesOf (feed.drop (n / 7))) := by
        rw [cfBytes, cfBytes, cfBytes, ← List.flatMap_append, framesOf, framesOf, framesOf, ← List.map_append,
          List.take_append_drop]
      refine ⟨by rw [hframes]; exact sequenced_take hseq _, by omega, by omega, ?_⟩
      have hsix : (x.frame.payload 2 ffPayloadMax).length = 6 := Frame.length_payload (by decide)
      rw [hsplit, ← List.append_assoc, List.take_append_of_le_length]
      rw [List.length_append, length_cfBytes, hsix, hframes, List.length_take, hlen]
      omega

/-- **Agreement of the receiver and `unpack_frames`**: an idle receiver takes a list whole and completes the
message `p` at its last frame exactly if the list begins with a well-formed first frame and `unpack_frames`
returns `p` from it and raises without its last frame. Whenever `unpack_frames` returns `p` from a list with
such a first frame, the list begins with one the receiver takes whole and completes as `p`. -/
theorem takesAll_completes_iff (hi : Idle rx) (feed : List Feeding) (hcalm : AllSteps step rx Calm feed)
    (p : List UInt8) :
    ((TakesAll rx feed ∧ Completes rx feed p) ↔
      (∀ frame ∈ (framesOf feed).head?, Proper frame) ∧
        Py.unpackFrames (bytesOf feed) = .ok p ∧
        ∃ message, Py.unpackFrames (bytesOf feed).dropLast = .error message) ∧
    ((∀ frame ∈ (framesOf feed).head?, Proper frame) → Py.unpackFrames (bytesOf feed) = .ok p →
      ∃ taken surplus, feed = taken ++ surplus ∧ TakesAll rx taken ∧ Completes rx taken p) := by
  have hwhole : ∀ feed, AllSteps step rx Calm feed →
      ((TakesAll rx feed ∧ Completes rx feed p) ↔
        (∀ frame ∈ (framesOf feed).head?, Proper frame) ∧
          Py.unpackFrames (bytesOf feed) = .ok p ∧
          ∃ message, Py.unpackFrames (bytesOf feed).dropLast = .error message) := by
    intro feed hcalm
    rw [← takesAll_ready_iff hi hcalm]
    constructor
    · rintro ⟨htake, hcomplete⟩
      exact ⟨htake, hcomplete.ready, hcomplete.message⟩
    · rintro ⟨htake, hready, hmessage⟩
      have hne : feed ≠ [] := by
        rintro rfl
        rw [after_nil, hi.empty] at hready
        cases hready
      exact ⟨htake, not_ready_before hi hcalm htake hne, hready, hmessage⟩
  refine ⟨hwhole feed hcalm, ?_⟩
  intro hhead hunpack
  obtain ⟨taken, surplus, rfl, hneeded⟩ := exists_needed hhead hunpack
  exact ⟨taken, surplus, rfl, (hwhole taken (allSteps_append.1 hcalm).1).2 hneeded⟩

/-- A receiver with the static buffer of 4095 bytes. -/
def freshRx : IsotpRx := (IsotpRx.init (IsotpConfig.init none) false).1

/-- A frame on a channel that accepts everything, without polls. -/
def plain (bytes : List UInt8) : Feeding where
  frame := Frame.fill 0xCC bytes
  channel := { sendAnswers := fun _ => true, pendingAnswers := fun _ => false, sent := [] }
  now := 0
  polls := []

theorem idle_freshRx : Idle freshRx :=
  ⟨rfl, rfl, rfl, List.length_replicate, rfl⟩

theorem calm_plain (feed : List (List UInt8)) (rx : IsotpRx) :
    AllSteps step rx Calm (feed.map plain) := by
  intro a x b hx
  have hmem : x ∈ feed.map plain := by
    rw [hx]
    simp
  obtain ⟨bytes, -, rfl⟩ := List.mem_map.1 hmem
  exact ⟨fun _ => rfl, allSteps_nil⟩

/-- The two differ on other lists. A receiver passes over a Flow Control frame before a Single Frame, and
`unpack_frames` over a second Single Frame. -/
theorem not_completes_iff_unpacks :
    ¬(∀ rx feed p, Idle rx → AllSteps step rx Calm feed → Completes rx feed p →
        Py.unpackFrames (bytesOf feed) = .ok p) ∧
      ¬∀ rx feed p, Idle rx → AllSteps step rx Calm feed → Py.unpackFrames (bytesOf feed) = .ok p →
        Completes rx feed p := by
  constructor
  · intro h
    have hcompletes : Completes freshRx ([[0x30, 0, 0], [0x01, 0x3E]].map plain) [0x3E] :=
      ⟨by decide +kernel, by decide +kernel, by decide +kernel⟩
    have hok := h freshRx _ _ idle_freshRx (calm_plain _ _) hcompletes
    revert hok
    decide +kernel
  · intro h
    have hok : Py.unpackFrames (bytesOf ([[0x01, 0x3E], [0x01, 0x3F]].map plain)) = .ok [0x3E] := by
      decide +kernel
    have hbefore := (h freshRx _ _ idle_freshRx (calm_plain _ _) hok).before
    revert hbefore
    decide +kernel

/-- A message of eight bytes, and one of two. -/
theorem takesAll_completes_eight :
    (TakesAll freshRx ([[0x10, 8, 1, 2, 3, 4, 5, 6], [0x21, 7, 8]].map plain) ∧
      Completes freshRx ([[0x10, 8, 1, 2, 3, 4, 5, 6], [0x21, 7, 8]].map plain) [1, 2, 3, 4, 5, 6, 7, 8]) ∧
    ∃ taken surplus, [[0x02, 0x3E, 0x00], [0x30, 0, 0]].map plain = taken ++ surplus ∧
      TakesAll freshRx taken ∧ Completes freshRx taken [0x3E, 0x00] := by
  constructor
  · refine (takesAll_completes_iff idle_freshRx _ (calm_plain _ _) _).1.2 ⟨?_, by decide +kernel, ?_⟩
    · intro frame hframe
      obtain rfl : Frame.fill 0xCC [0x10, 8, 1, 2, 3, 4, 5, 6] = frame := by
        simpa [framesOf, plain] using hframe
      exact Or.inr ⟨by decide, by decide +kernel⟩
    · exact ⟨"incomplete multi-frame payload", by decide +kernel⟩
  · refine (takesAll_completes_iff idle_freshRx _ (calm_plain _ _) _).2 ?_ (by decide +kernel)
    intro frame hframe
    obtain rfl : Frame.fill 0xCC [0x02, 0x3E, 0x00] = frame := by
      simpa [framesOf, plain] using hframe
    exact Or.inl ⟨by decide, by decide, by decide⟩

end Feeding

end DualCan.Isotp
