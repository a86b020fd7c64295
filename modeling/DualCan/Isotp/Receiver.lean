import DualCan.Isotp.RxRefine
import DualCan.Run.Past

/-!
# ISO-TP: the receiver along any run

Nothing is assumed about the peer here: the frames are arbitrary, and they mix with polls, reads and
resets in any order. `RxInv` is what the operations keep: a reception in progress counts its bytes and its
sequence number together, a complete message and a reception exclude each other, and the buffer keeps its
length, so every store stayed inside it.

The last part needs help. A First Frame is compared with `rx_buffer_size`, a Single Frame is not: one that
is longer than the buffer (`Overruns`) is stored past its end. `contained_iff` says that this is the only
way out of the buffer, and `receiver_invariant` is about buffers a Single Frame always fits in.
-/

namespace DualCan.Isotp

open DualCan.Run

namespace IsotpRx

variable {rx rx' : IsotpRx} {c : Channel} {now : UInt32} {frame : Frame}

/-! ## What a frame stores -/

/-- The receiver would take a new message: none is being received and none waits to be read. -/
def isFree (rx : IsotpRx) : Bool := !rx.rxInProgress && !rx.messageReady

/-- The length a Single Frame or a First Frame announces, when it is a legal one. -/
def announced (frame : Frame) : Option ℕ :=
  if frame.pci = pciSf then
    if 1 ≤ frame.low.toNat ∧ frame.low.toNat ≤ sfPayloadMax then some frame.low.toNat else none
  else if frame.pci = pciFf then
    if maxSingleFrame < declaredOf frame ∧ declaredOf frame ≤ maxTotalLength then
      some (declaredOf frame)
    else none
  else none

/-- The copy loop a frame runs: the index of its first byte, and the bytes. -/
def stored (rx : IsotpRx) (frame : Frame) : ℕ × List UInt8 :=
  if frame.pci = pciSf then
    if rx.isFree && rx.hasBuffer && (announced frame).isSome then
      (0, frame.payload 1 frame.low.toNat)
    else (0, [])
  else if frame.pci = pciFf then
    if rx.isFree && rx.hasBuffer && (announced frame).any (· ≤ rx.bufferSize) then
      (0, frame.payload 2 (min ffPayloadMax (declaredOf frame)))
    else (0, [])
  else if frame.pci = pciCf then
    if rx.rxInProgress && frame.low = rx.expectedSn then
      (rx.received, frame.payload 1 (min cfPayloadMax (rx.declaredLength - rx.received)))
    else (0, [])
  else (0, [])

/-- The buffer indices a frame writes. -/
def written (rx : IsotpRx) (frame : Frame) : List ℕ :=
  List.range' (rx.stored frame).1 (rx.stored frame).2.length

/-- A Single Frame the receiver takes although its buffer is shorter. -/
def Overruns (rx : IsotpRx) (frame : Frame) : Prop :=
  frame.pci = pciSf ∧ rx.isFree = true ∧ rx.hasBuffer = true ∧ rx.bufferSize < frame.low.toNat ∧
    frame.low.toNat ≤ sfPayloadMax

instance : Decidable (rx.Overruns frame) := by unfold Overruns; infer_instance

theorem storeAt_nil (buffer : List UInt8) (off : ℕ) : storeAt buffer off [] = buffer := by
  simp [storeAt]

theorem poll_buffer (rx : IsotpRx) (c : Channel) (now : UInt32) :
    (rx.poll c now).2.1.buffer = rx.buffer :=
  congrArg (·.2.1) (poll_reception rx c now).1

theorem read_buffer (rx : IsotpRx) (outCapacity : ℕ) : (rx.read outCapacity).2.2.buffer = rx.buffer := by
  unfold read
  split
  · rfl
  · split <;> rfl

theorem read_bufferSize (rx : IsotpRx) (outCapacity : ℕ) :
    (rx.read outCapacity).2.2.bufferSize = rx.bufferSize := by
  unfold read
  split
  · rfl
  · split <;> rfl

/-! ## What each frame does -/

/-- A Single Frame taken in. -/
def takeSingle (rx : IsotpRx) (frame : Frame) : IsotpRx :=
  { rx with
    buffer := storeAt rx.buffer 0 (frame.payload 1 frame.low.toNat)
    messageLength := frame.low.toNat
    messageReady := true }

theorem isFree_iff : rx.isFree = true ↔ rx.rxInProgress = false ∧ rx.messageReady = false := by
  simp [isFree]

/-- A Single Frame is taken in by a free receiver with a buffer, whatever its length; any other is
refused, and nothing changes. -/
theorem onSingleFrame_cases (rx : IsotpRx) (frame : Frame) :
    (rx.isFree = true ∧ rx.hasBuffer = true ∧ 1 ≤ frame.low.toNat ∧ frame.low.toNat ≤ sfPayloadMax ∧
      rx.onSingleFrame frame = (.ok, rx.takeSingle frame)) ∨
    (¬(rx.isFree = true ∧ rx.hasBuffer = true ∧ 1 ≤ frame.low.toNat ∧
        frame.low.toNat ≤ sfPayloadMax) ∧
      (rx.onSingleFrame frame).2 = rx ∧
      (rx.isFree = true → rx.hasBuffer = false → 1 ≤ frame.low.toNat →
        frame.low.toNat ≤ sfPayloadMax → (rx.onSingleFrame frame).1 = .errOverflow)) := by
  rw [isFree_iff]
  unfold onSingleFrame takeSingle
  dsimp only
  by_cases h0 : frame.low.toNat = 0
  · rw [if_pos h0]
    exact Or.inr ⟨by omega, rfl, fun _ _ h => by omega⟩
  rw [if_neg h0]
  by_cases hp : rx.rxInProgress = true
  · rw [if_pos hp]
    exact Or.inr ⟨by simp [hp], rfl, by simp [hp]⟩
  rw [if_neg hp]
  by_cases hr : rx.messageReady = true
  · rw [if_pos hr]
    exact Or.inr ⟨by simp [hr], rfl, by simp [hr]⟩
  rw [if_neg hr]
  by_cases hlen : frame.low.toNat > sfPayloadMax
  · rw [if_pos hlen]
    exact Or.inr ⟨by omega, rfl, fun _ _ _ h => by omega⟩
  rw [if_neg hlen]
  by_cases hb : rx.hasBuffer = true
  · rw [if_neg (by simp [hb])]
    exact Or.inl ⟨by simp [hp, hr], hb, by omega, by omega, rfl⟩
  · rw [if_pos (by simp [hb])]
    exact Or.inr ⟨by simp [hb], rfl, fun _ _ _ _ => rfl⟩

/-- The guard of a First Frame's length. -/
theorem declared_illegal_iff : (decide (declaredOf frame ≤ maxSingleFrame) ||
      decide (declaredOf frame > maxTotalLength)) = true ↔
    ¬(maxSingleFrame < declaredOf frame ∧ declaredOf frame ≤ maxTotalLength) := by
  simp only [Bool.or_eq_true, decide_eq_true_eq]
  omega

/-- The first bytes of a message of several frames are not all of it. -/
theorem sendFc_opened (rx : IsotpRx) (c : Channel) (now : UInt32) (h : maxSingleFrame < declaredOf frame) :
    ¬(sendFc (rx.openReception (declaredOf frame) frame) c now fcCts).1.received ≥
      (sendFc (rx.openReception (declaredOf frame) frame) c now fcCts).1.declaredLength := by
  have hreception := (sendFc_reception (rx.openReception (declaredOf frame) frame) c now fcCts).1
  simp only [reception, Prod.mk.injEq] at hreception
  rw [hreception.2.2.2.1, hreception.2.2.2.2.1]
  simp only [openReception, maxSingleFrame, sfPayloadMax, ffPayloadMax] at h ⊢
  omega

/-- What a First Frame does: it aborts a reception, is refused while a message waits or when its length is
illegal, overflows, or opens a reception. -/
theorem onFirstFrame_cases (rx : IsotpRx) (c : Channel) (now : UInt32) (frame : Frame) :
    (rx.rxInProgress = true ∧ (rx.onFirstFrame c now frame).2.1 = rx.reset) ∨
    (rx.rxInProgress = false ∧ (rx.messageReady = true ∨
        ¬(maxSingleFrame < declaredOf frame ∧ declaredOf frame ≤ maxTotalLength)) ∧
      (rx.onFirstFrame c now frame).2.1 = rx) ∨
    (rx.isFree = true ∧ (rx.hasBuffer = false ∨ rx.bufferSize < declaredOf frame) ∧
      (rx.onFirstFrame c now frame).1 = .errOverflow ∧
      (rx.onFirstFrame c now frame).2.1.reception = rx.reception ∧
      (rx.onFirstFrame c now frame).2.1.rxInProgress = false) ∨
    (rx.isFree = true ∧ rx.hasBuffer = true ∧ maxSingleFrame < declaredOf frame ∧
      declaredOf frame ≤ maxTotalLength ∧ declaredOf frame ≤ rx.bufferSize ∧
      (rx.onFirstFrame c now frame).2.1.reception =
        (rx.openReception (declaredOf frame) frame).reception) := by
  rw [isFree_iff]
  unfold onFirstFrame
  dsimp only
  by_cases hp : rx.rxInProgress = true
  · rw [if_pos hp]
    exact Or.inl ⟨hp, rfl⟩
  rw [if_neg hp]
  have hp' : rx.rxInProgress = false := by simpa using hp
  by_cases hr : rx.messageReady = true
  · rw [if_pos hr]
    exact Or.inr (Or.inl ⟨hp', Or.inl hr, rfl⟩)
  rw [if_neg hr]
  have hr' : rx.messageReady = false := by simpa using hr
  by_cases hlen : maxSingleFrame < declaredOf frame ∧ declaredOf frame ≤ maxTotalLength
  swap
  · rw [if_pos (declared_illegal_iff.2 hlen)]
    exact Or.inr (Or.inl ⟨hp', Or.inr hlen, rfl⟩)
  rw [if_neg (fun h => declared_illegal_iff.1 h hlen)]
  have hover := sendFc_reception rx c now fcOverflow
  by_cases hb : rx.hasBuffer = true
  swap
  · rw [if_pos (by simp [hb])]
    refine Or.inr (Or.inr (Or.inl ⟨⟨hp', hr'⟩, Or.inl (by simpa using hb), rfl, hover.1, ?_⟩))
    cases h : (sendFc rx c now fcOverflow).1.rxInProgress with
    | false => rfl
    | true => exact absurd (hover.2 h) hp
  rw [if_neg (by simp [hb])]
  by_cases hsize : declaredOf frame > rx.bufferSize
  · rw [if_pos hsize]
    exact Or.inr (Or.inr (Or.inl ⟨⟨hp', hr'⟩, Or.inr hsize, rfl, hover.1, rfl⟩))
  rw [if_neg hsize]
  refine Or.inr (Or.inr (Or.inr ⟨⟨hp', hr'⟩, hb, hlen.1, hlen.2, by omega, ?_⟩))
  rw [if_neg (sendFc_opened rx c now hlen.1)]
  exact (sendFc_reception (rx.openReception (declaredOf frame) frame) c now fcCts).1

/-- What a Consecutive Frame does: it is refused, aborts the reception, ends it or carries it on. -/
theorem onConsecutiveFrame_cases (rx : IsotpRx) (c : Channel) (now : UInt32) (frame : Frame) :
    (rx.rxInProgress = false ∧ (rx.onConsecutiveFrame c now frame).2.1 = rx) ∨
    (rx.rxInProgress = true ∧ frame.low ≠ rx.expectedSn ∧
      (rx.onConsecutiveFrame c now frame).2.1 = rx.reset) ∨
    (rx.rxInProgress = true ∧ frame.low = rx.expectedSn ∧
      (rx.appendCf now frame).declaredLength ≤ (rx.appendCf now frame).received ∧
      (rx.onConsecutiveFrame c now frame).2.1 = (rx.appendCf now frame).finish) ∨
    (rx.rxInProgress = true ∧ frame.low = rx.expectedSn ∧
      (rx.appendCf now frame).received < (rx.appendCf now frame).declaredLength ∧
      (rx.onConsecutiveFrame c now frame).2.1.reception = (rx.appendCf now frame).reception) := by
  unfold onConsecutiveFrame
  dsimp only
  by_cases hp : rx.rxInProgress = true
  swap
  · rw [if_pos (by simp [hp])]
    exact Or.inl ⟨by simpa using hp, rfl⟩
  rw [if_neg (by simp [hp])]
  by_cases hsn : frame.low = rx.expectedSn
  swap
  · rw [if_pos hsn]
    exact Or.inr (Or.inl ⟨hp, hsn, rfl⟩)
  rw [if_neg (by simp [hsn])]
  by_cases hdone : (rx.appendCf now frame).received ≥ (rx.appendCf now frame).declaredLength
  · rw [if_pos hdone]
    exact Or.inr (Or.inr (Or.inl ⟨hp, hsn, hdone, rfl⟩))
  rw [if_neg hdone]
  refine Or.inr (Or.inr (Or.inr ⟨hp, hsn, by omega, ?_⟩))
  split
  · exact (sendFc_reception { rx.appendCf now frame with cfInBlock := 0 } c now fcCts).1
  · rfl

theorem onFrame_bufferSize (rx : IsotpRx) (c : Channel) (now : UInt32) (frame : Frame) :
    (rx.onFrame c now frame).2.1.bufferSize = rx.bufferSize := by
  unfold onFrame
  split
  · rcases rx.onSingleFrame_cases frame with ⟨-, -, -, -, h⟩ | ⟨-, h, -⟩
    · rw [h]
      rfl
    · exact congrArg (·.bufferSize) h
  · split
    · rcases rx.onFirstFrame_cases c now frame with ⟨-, h⟩ | ⟨-, -, h⟩ | ⟨-, -, -, h, -⟩ |
        ⟨-, -, -, -, -, h⟩
      · exact congrArg (·.bufferSize) h
      · exact congrArg (·.bufferSize) h
      · exact congrArg (·.2.2.1) h
      · exact congrArg (·.2.2.1) h
    · split
      · rcases rx.onConsecutiveFrame_cases c now frame with ⟨-, h⟩ | ⟨-, -, h⟩ | ⟨-, -, -, h⟩ |
          ⟨-, -, -, h⟩
        · exact congrArg (·.bufferSize) h
        · exact congrArg (·.bufferSize) h
        · exact congrArg (·.bufferSize) h
        · exact congrArg (·.2.2.1) h
      · rfl

theorem announced_sf (hpci : frame.pci = pciSf) : (announced frame).isSome = true ↔
    1 ≤ frame.low.toNat ∧ frame.low.toNat ≤ sfPayloadMax := by
  unfold announced
  rw [if_pos hpci]
  split
  · next hlen => simp [hlen]
  · next hlen => simp only [Option.isSome_none, Bool.false_eq_true, hlen]

theorem announced_low (hpci : frame.pci = pciSf) {n : ℕ} (hn : announced frame = some n) :
    1 ≤ frame.low.toNat ∧ frame.low.toNat ≤ sfPayloadMax ∧ frame.low.toNat = n := by
  obtain ⟨h1, h7⟩ := (announced_sf hpci).1 (by rw [hn]; rfl)
  unfold announced at hn
  rw [if_pos hpci, if_pos ⟨h1, h7⟩] at hn
  exact ⟨h1, h7, Option.some.inj hn⟩

theorem announced_ff (hpci : frame.pci = pciFf) (n : ℕ) : announced frame = some n ↔
    maxSingleFrame < declaredOf frame ∧ declaredOf frame ≤ maxTotalLength ∧ declaredOf frame = n := by
  unfold announced
  rw [if_neg (by simp [hpci, pciFf, pciSf]), if_pos hpci]
  split
  · next hlen => simp [hlen]
  · next hlen =>
    constructor
    · intro h
      cases h
    · rintro ⟨h8, hmax, -⟩
      exact absurd ⟨h8, hmax⟩ hlen

/-- The buffer after a frame is the buffer before it with one copy loop run over it. -/
theorem onFrame_buffer (rx : IsotpRx) (c : Channel) (now : UInt32) (frame : Frame) :
    (rx.onFrame c now frame).2.1.buffer =
      storeAt rx.buffer (rx.stored frame).1 (rx.stored frame).2 := by
  unfold onFrame stored
  by_cases hsf : frame.pci = pciSf
  · rw [if_pos hsf, if_pos hsf]
    simp only [Bool.and_eq_true, announced_sf hsf]
    rcases rx.onSingleFrame_cases frame with ⟨hfree, hb, h1, h7, h⟩ | ⟨hno, h, -⟩
    · rw [if_pos ⟨⟨hfree, hb⟩, h1, h7⟩, h]
      rfl
    · rw [if_neg (by tauto), h, storeAt_nil]
  rw [if_neg hsf, if_neg hsf]
  by_cases hff : frame.pci = pciFf
  · rw [if_pos hff, if_pos hff]
    have hany : (announced frame).any (fun n => decide (n ≤ rx.bufferSize)) = true ↔
        maxSingleFrame < declaredOf frame ∧ declaredOf frame ≤ maxTotalLength ∧
          declaredOf frame ≤ rx.bufferSize := by
      rw [Option.any_eq_true]
      constructor
      · rintro ⟨n, hn, hle⟩
        obtain ⟨h8, hmax, rfl⟩ := (announced_ff hff n).1 hn
        exact ⟨h8, hmax, of_decide_eq_true hle⟩
      · rintro ⟨h8, hmax, hle⟩
        exact ⟨_, (announced_ff hff _).2 ⟨h8, hmax, rfl⟩, decide_eq_true hle⟩
    simp only [Bool.and_eq_true, hany]
    rcases rx.onFirstFrame_cases c now frame with ⟨hp, h⟩ | ⟨hp, hno, h⟩ | ⟨hfree, hno, -, h, -⟩ |
      ⟨hfree, hb, h8, hmax, hle, h⟩
    · rw [if_neg (by simp [isFree, hp]), storeAt_nil, h]
      rfl
    · rw [if_neg, storeAt_nil, h]
      rw [isFree_iff]
      rintro ⟨⟨⟨-, hr⟩, -⟩, h8, hmax, -⟩
      rcases hno with hr' | hlen
      · rw [hr] at hr'
        cases hr'
      · exact hlen ⟨h8, hmax⟩
    · rw [if_neg, storeAt_nil]
      · exact congrArg (·.2.1) h
      · rintro ⟨⟨-, hb⟩, -, -, hle⟩
        rcases hno with hb' | hsize
        · rw [hb] at hb'
          cases hb'
        · omega
    · rw [if_pos ⟨⟨hfree, hb⟩, h8, hmax, hle⟩]
      exact congrArg (·.2.1) h
  rw [if_neg hff, if_neg hff]
  by_cases hcf : frame.pci = pciCf
  · rw [if_pos hcf, if_pos hcf]
    simp only [Bool.and_eq_true, decide_eq_true_eq]
    rcases rx.onConsecutiveFrame_cases c now frame with ⟨hp, h⟩ | ⟨hp, hsn, h⟩ | ⟨hp, hsn, -, h⟩ |
      ⟨hp, hsn, -, h⟩
    · rw [if_neg (by simp [hp]), storeAt_nil, h]
    · rw [if_neg (fun h => hsn h.2), storeAt_nil, h]
      rfl
    · rw [if_pos ⟨hp, hsn⟩, h]
      rfl
    · rw [if_pos ⟨hp, hsn⟩]
      exact congrArg (·.2.1) h
  · rw [if_neg hcf, if_neg hcf, storeAt_nil]

/-! ## The invariant -/

/-- What every operation keeps, unless a Single Frame overruns the buffer. -/
structure RxInv (rx : IsotpRx) : Prop where
  size : rx.buffer.length = rx.bufferSize
  exclusive : ¬(rx.rxInProgress = true ∧ rx.messageReady = true)
  room : rx.rxInProgress = true → rx.hasBuffer = true ∧ 6 ≤ rx.received ∧
    rx.received < rx.declaredLength ∧ rx.declaredLength ≤ min rx.bufferSize maxTotalLength
  sn : rx.rxInProgress = true → rx.expectedSn.toNat = (1 + (rx.received - 6) / 7) % 16

/-- Only what Flow Control leaves alone matters, and a reception may be given up. -/
theorem RxInv.congr (hi : RxInv rx) (h : rx'.reception = rx.reception)
    (hp : rx'.rxInProgress = true → rx.rxInProgress = true) : RxInv rx' := by
  simp only [reception, Prod.mk.injEq] at h
  obtain ⟨h1, h2, h3, h4, h5, h6, h7, -⟩ := h
  refine ⟨?_, ?_, ?_, ?_⟩
  · rw [h2, h3]
    exact hi.size
  · rintro ⟨hp', hr⟩
    exact hi.exclusive ⟨hp hp', h7 ▸ hr⟩
  · intro hp'
    rw [h1, h3, h4, h5]
    exact hi.room (hp hp')
  · intro hp'
    rw [h5, h6]
    exact hi.sn (hp hp')

/-- A receiver with nothing in progress. -/
theorem RxInv.of_idle (hsize : rx.buffer.length = rx.bufferSize) (hp : rx.rxInProgress = false) :
    RxInv rx := by
  refine ⟨hsize, ?_, ?_, ?_⟩
  · rintro ⟨hp', -⟩
    rw [hp] at hp'
    cases hp'
  · intro hp'
    rw [hp] at hp'
    cases hp'
  · intro hp'
    rw [hp] at hp'
    cases hp'

theorem RxInv.init (config : IsotpConfig) (fallbackInUse : Bool) :
    RxInv (IsotpRx.init config fallbackInUse).1 :=
  .of_idle rfl rfl

theorem RxInv.reset (hi : RxInv rx) : RxInv rx.reset := .of_idle hi.size rfl

theorem RxInv.poll (hi : RxInv rx) (c : Channel) (now : UInt32) : RxInv (rx.poll c now).2.1 :=
  hi.congr (poll_reception rx c now).1 (poll_reception rx c now).2

theorem RxInv.read (hi : RxInv rx) (outCapacity : ℕ) : RxInv (rx.read outCapacity).2.2 := by
  unfold IsotpRx.read
  split
  · exact hi
  · next hready =>
    split
    · exact hi
    · have hp : rx.rxInProgress = false := by
        by_contra hp
        exact hi.exclusive ⟨by simpa using hp, by simpa using hready⟩
      exact .of_idle hi.size hp

/-- A store that ends inside the buffer. -/
theorem RxInv.length_storeAt (hi : RxInv rx) {off : ℕ} {bytes : List UInt8}
    (h : off + bytes.length ≤ rx.bufferSize) :
    (storeAt rx.buffer off bytes).length = rx.bufferSize := by
  have hsize := hi.size
  rw [Isotp.length_storeAt rx.buffer bytes (by omega), hsize]

theorem RxInv.onSingleFrame (hi : RxInv rx) (hpci : frame.pci = pciSf) (ho : ¬rx.Overruns frame) :
    RxInv (rx.onSingleFrame frame).2 := by
  rcases rx.onSingleFrame_cases frame with ⟨hfree, hb, h1, h7, h⟩ | ⟨-, h, -⟩
  · have hfits : frame.low.toNat ≤ rx.bufferSize := by
      by_contra hsize
      exact ho ⟨hpci, hfree, hb, by omega, h7⟩
    have hbytes : (frame.payload 1 frame.low.toNat).length = frame.low.toNat :=
      Frame.length_payload (by rw [sfPayloadMax] at h7; omega)
    rw [h]
    refine .of_idle ?_ (isFree_iff.1 hfree).1
    exact hi.length_storeAt (by rw [hbytes]; omega)
  · rw [h]
    exact hi

/-- The reception a First Frame opens has the first six bytes and waits for Consecutive Frame 1. -/
theorem RxInv.openReception (hi : RxInv rx) (hfree : rx.isFree = true) (hb : rx.hasBuffer = true)
    {declared : ℕ} (h8 : maxSingleFrame < declared) (hmax : declared ≤ maxTotalLength)
    (hle : declared ≤ rx.bufferSize) : RxInv (rx.openReception declared frame) := by
  have hchunk : min ffPayloadMax declared = 6 := by
    simp only [maxSingleFrame, sfPayloadMax, ffPayloadMax] at h8 ⊢
    omega
  have hbytes : (frame.payload 2 6).length = 6 := Frame.length_payload (by omega)
  simp only [maxSingleFrame, sfPayloadMax] at h8
  unfold IsotpRx.openReception
  rw [hchunk]
  dsimp only
  refine ⟨hi.length_storeAt (by omega), ?_, fun _ => ⟨hb, ?_, ?_, ?_⟩, fun _ => ?_⟩
  · rintro ⟨-, hr⟩
    have hempty : rx.messageReady = false := (isFree_iff.1 hfree).2
    exact absurd hr (by simp [hempty])
  · exact Nat.le_refl 6
  · show 6 < declared
    omega
  · exact Nat.le_min.2 ⟨hle, hmax⟩
  · show (1 : UInt8).toNat = (1 + (6 - 6) / 7) % 16
    decide

theorem RxInv.onFirstFrame (hi : RxInv rx) (c : Channel) (now : UInt32) (frame : Frame) :
    RxInv (rx.onFirstFrame c now frame).2.1 := by
  rcases rx.onFirstFrame_cases c now frame with ⟨-, h⟩ | ⟨-, -, h⟩ | ⟨hfree, -, -, h, hp⟩ |
    ⟨hfree, hb, h8, hmax, hle, h⟩
  · rw [h]
    exact hi.reset
  · rw [h]
    exact hi
  · refine hi.congr h ?_
    intro hp'
    rw [hp] at hp'
    cases hp'
  · exact (hi.openReception hfree hb h8 hmax hle).congr h fun _ => rfl

/-- The sequence number after one more frame. -/
theorem sn_next {sn : UInt8} {n : ℕ} (h : sn.toNat = n % 16) :
    ((sn + 1) &&& seqMask).toNat = (n + 1) % 16 := by
  have hmask : ((sn + 1) &&& seqMask).toNat = (sn + 1).toNat % 16 := by
    rw [UInt8.toNat_and, show seqMask.toNat = 2 ^ 4 - 1 from rfl, Nat.and_two_pow_sub_one_eq_mod]
  have hone : (1 : UInt8).toNat = 1 := rfl
  rw [hmask, UInt8.toNat_add, hone]
  omega

/-- The bytes a Consecutive Frame adds lie inside the declared length. -/
theorem RxInv.length_appendCf (hi : RxInv rx) (hp : rx.rxInProgress = true) (now : UInt32)
    (frame : Frame) : (rx.appendCf now frame).buffer.length = rx.bufferSize := by
  obtain ⟨-, -, hlt, hle⟩ := hi.room hp
  have hchunk : (frame.payload 1 (min cfPayloadMax (rx.declaredLength - rx.received))).length =
      min cfPayloadMax (rx.declaredLength - rx.received) :=
    Frame.length_payload (by rw [cfPayloadMax]; omega)
  exact hi.length_storeAt (by rw [hchunk]; omega)

theorem RxInv.onConsecutiveFrame (hi : RxInv rx) (c : Channel) (now : UInt32) (frame : Frame) :
    RxInv (rx.onConsecutiveFrame c now frame).2.1 := by
  rcases rx.onConsecutiveFrame_cases c now frame with ⟨-, h⟩ | ⟨-, -, h⟩ | ⟨hp, -, -, h⟩ |
    ⟨hp, -, hmore, h⟩
  · rw [h]
    exact hi
  · rw [h]
    exact hi.reset
  · rw [h]
    exact .of_idle (hi.length_appendCf hp now frame) rfl
  · obtain ⟨hb, h6, hlt, hle⟩ := hi.room hp
    have hsn := sn_next (hi.sn hp)
    have hreceived : (rx.appendCf now frame).received =
        rx.received + min cfPayloadMax (rx.declaredLength - rx.received) := rfl
    have hdeclared : (rx.appendCf now frame).declaredLength = rx.declaredLength := rfl
    have happend : RxInv (rx.appendCf now frame) := by
      refine ⟨hi.length_appendCf hp now frame, hi.exclusive, fun _ => ⟨hb, by omega, hmore, hle⟩, ?_⟩
      -- the message goes on, so the frame was a full one
      intro _
      have hseven : (rx.appendCf now frame).received = rx.received + 7 := by
        rw [cfPayloadMax] at hreceived
        omega
      rw [hseven, show (rx.received + 7 - 6) / 7 = (rx.received - 6) / 7 + 1 by omega]
      exact hsn
    exact happend.congr h fun _ => hp

theorem RxInv.onFrame (hi : RxInv rx) (c : Channel) (now : UInt32) (ho : ¬rx.Overruns frame) :
    RxInv (rx.onFrame c now frame).2.1 := by
  unfold IsotpRx.onFrame
  split
  · next hpci => exact hi.onSingleFrame hpci ho
  · split
    · exact hi.onFirstFrame c now frame
    · split
      · exact hi.onConsecutiveFrame c now frame
      · exact hi

/-! ## A waiting message -/

/-- A message that waits to be read: no frame and no poll changes the receiver's data. -/
theorem onFrame_waiting (hi : RxInv rx) (hready : rx.messageReady = true) (c : Channel) (now : UInt32)
    (frame : Frame) : (rx.onFrame c now frame).2.1 = rx := by
  have hp : rx.rxInProgress = false := by
    by_contra hp
    exact hi.exclusive ⟨by simpa using hp, hready⟩
  have hfree : ¬rx.isFree = true := by simp [isFree, hready]
  unfold onFrame
  split
  · rcases rx.onSingleFrame_cases frame with ⟨h, -⟩ | ⟨-, h, -⟩
    · exact absurd h hfree
    · exact h
  · split
    · rcases rx.onFirstFrame_cases c now frame with ⟨h, -⟩ | ⟨-, -, h⟩ | ⟨h, -⟩ | ⟨h, -⟩
      · rw [hp] at h
        cases h
      · exact h
      · exact absurd h hfree
      · exact absurd h hfree
    · split
      · rcases rx.onConsecutiveFrame_cases c now frame with ⟨-, h⟩ | ⟨h, -⟩ | ⟨h, -⟩ | ⟨h, -⟩
        · exact h
        · rw [hp] at h
          cases h
        · rw [hp] at h
          cases h
        · rw [hp] at h
          cases h
      · rfl

/-! ## The bounds -/

theorem written_eq_nil {off : ℕ} (h : rx.stored frame = (off, [])) : rx.written frame = [] := by
  rw [written, h]
  rfl

/-- An index written lies in the copy loop's range. -/
theorem mem_written {i : ℕ} : i ∈ rx.written frame ↔
    (rx.stored frame).1 ≤ i ∧ i < (rx.stored frame).1 + (rx.stored frame).2.length := by
  rw [written, List.mem_range'_1]

/-- Every copy loop stays inside the buffer, but for the one Single Frame. -/
theorem RxInv.stored_le (hi : RxInv rx) (ho : ¬rx.Overruns frame) :
    (rx.stored frame).1 + (rx.stored frame).2.length ≤ rx.bufferSize ∨ (rx.stored frame).2 = [] := by
  unfold stored
  split
  · next hsf =>
    split
    · next h =>
      simp only [Bool.and_eq_true, announced_sf hsf] at h
      obtain ⟨⟨hfree, hb⟩, h1, h7⟩ := h
      have hfits : frame.low.toNat ≤ rx.bufferSize := by
        by_contra hsize
        exact ho ⟨hsf, hfree, hb, by omega, h7⟩
      refine Or.inl ?_
      rw [sfPayloadMax] at h7
      rw [Frame.length_payload (by omega)]
      omega
    · exact Or.inr rfl
  · split
    · next hff =>
      split
      · next h =>
        simp only [Bool.and_eq_true, Option.any_eq_true] at h
        obtain ⟨-, n, hn, hle⟩ := h
        obtain ⟨h8, -, rfl⟩ := (announced_ff hff n).1 hn
        have hle' := of_decide_eq_true hle
        refine Or.inl ?_
        rw [Frame.length_payload (by rw [ffPayloadMax]; omega)]
        omega
      · exact Or.inr rfl
    · split
      · split
        · next h =>
          simp only [Bool.and_eq_true] at h
          obtain ⟨-, -, hlt, hle⟩ := hi.room h.1
          refine Or.inl ?_
          rw [Frame.length_payload (by rw [cfPayloadMax]; omega)]
          omega
        · exact Or.inr rfl
      · exact Or.inr rfl

/-- A message longer than the buffer is not stored, but for the one Single Frame. -/
theorem stored_of_long (ho : ¬rx.Overruns frame) {n : ℕ} (hn : announced frame = some n)
    (hlong : rx.bufferSize < n) : rx.stored frame = (0, []) := by
  unfold stored
  by_cases hsf : frame.pci = pciSf
  · rw [if_pos hsf]
    obtain ⟨h1, h7, hlow⟩ := announced_low hsf hn
    rw [if_neg]
    simp only [Bool.and_eq_true]
    rintro ⟨⟨hfree, hb⟩, -⟩
    exact ho ⟨hsf, hfree, hb, by omega, h7⟩
  rw [if_neg hsf]
  by_cases hff : frame.pci = pciFf
  · rw [if_pos hff, if_neg]
    rw [hn]
    simp only [Bool.and_eq_true, Option.any_some, decide_eq_true_eq]
    omega
  · unfold announced at hn
    rw [if_neg hsf, if_neg hff] at hn
    cases hn

/-- A free receiver answers a message longer than its buffer with an overflow and stays free. -/
theorem onFrame_of_long (hfree : rx.isFree = true) (ho : ¬rx.Overruns frame) {n : ℕ}
    (hn : announced frame = some n) (hlong : rx.bufferSize < n) (c : Channel) (now : UInt32) :
    (rx.onFrame c now frame).1 = .errOverflow ∧ (rx.onFrame c now frame).2.1.isFree = true := by
  unfold onFrame
  by_cases hsf : frame.pci = pciSf
  · rw [if_pos hsf]
    obtain ⟨h1, h7, hlow⟩ := announced_low hsf hn
    have hb : rx.hasBuffer = false := by
      by_contra hb
      exact ho ⟨hsf, hfree, by simpa using hb, by omega, h7⟩
    rcases rx.onSingleFrame_cases frame with ⟨-, hb', -⟩ | ⟨-, h, hresult⟩
    · rw [hb] at hb'
      cases hb'
    · refine ⟨hresult hfree hb h1 h7, ?_⟩
      dsimp only
      rw [h]
      exact hfree
  rw [if_neg hsf]
  by_cases hff : frame.pci = pciFf
  · rw [if_pos hff]
    obtain ⟨h8, hmax, rfl⟩ := (announced_ff hff n).1 hn
    obtain ⟨hp, hr⟩ := isFree_iff.1 hfree
    rcases rx.onFirstFrame_cases c now frame with ⟨hp', -⟩ | ⟨-, hno, -⟩ | ⟨-, -, hresult, h, hp'⟩ |
      ⟨-, -, -, -, hle, -⟩
    · rw [hp] at hp'
      cases hp'
    · rcases hno with hr' | hlen
      · rw [hr] at hr'
        cases hr'
      · exact absurd ⟨h8, hmax⟩ hlen
    · refine ⟨hresult, isFree_iff.2 ⟨hp', ?_⟩⟩
      have hready := congrArg (·.2.2.2.2.2.2.1) h
      exact hready.trans hr
    · omega
  · unfold announced at hn
    rw [if_neg hsf, if_neg hff] at hn
    cases hn

/-- The Single Frame that overruns writes the index just past the buffer. -/
theorem Overruns.mem_written (ho : rx.Overruns frame) : rx.bufferSize ∈ rx.written frame := by
  obtain ⟨hsf, hfree, hb, hlong, h7⟩ := ho
  have hstored : rx.stored frame = (0, frame.payload 1 frame.low.toNat) := by
    unfold stored
    rw [if_pos hsf, if_pos]
    simp only [Bool.and_eq_true, announced_sf hsf]
    exact ⟨⟨hfree, hb⟩, by omega, h7⟩
  rw [sfPayloadMax] at h7
  rw [IsotpRx.mem_written, hstored, Frame.length_payload (by omega)]
  omega

end IsotpRx

/-! ## Runs -/

/-- A call of a receiver, with the time and the transmit channel it finds. -/
inductive RxCall where
  | onFrame (c : Channel) (now : UInt32) (frame : Frame)
  | poll (c : Channel) (now : UInt32)
  | read (outCapacity : ℕ)
  | reset

namespace RxCall

open IsotpRx

/-- The receiver after a call. -/
def step (rx : IsotpRx) : RxCall → IsotpRx
  | .onFrame c now frame => (rx.onFrame c now frame).2.1
  | .poll c now => (rx.poll c now).2.1
  | .read outCapacity => (rx.read outCapacity).2.2
  | .reset => rx.reset

/-- A frame or a poll, as opposed to a read or a reset. -/
def isArrival : RxCall → Bool
  | .onFrame .. | .poll .. => true
  | .read _ | .reset => false

/-- The call does not overrun the buffer. -/
def Fits (rx : IsotpRx) : RxCall → Prop
  | .onFrame _ _ frame => ¬rx.Overruns frame
  | _ => True

/-- What the buffer may expect of a call: every index written lies in it, and a message that does not fit
is not stored, nor even complete afterwards, and answered with an overflow if the receiver was free. -/
def Contained (rx : IsotpRx) : RxCall → Prop
  | .onFrame c now frame =>
    (∀ i ∈ rx.written frame, i < rx.bufferSize) ∧
    ∀ n, announced frame = some n → rx.bufferSize < n →
      rx.written frame = [] ∧
      (rx.isFree = true → (rx.onFrame c now frame).1 = .errOverflow ∧
        (rx.onFrame c now frame).2.1.isFree = true)
  | call => (call.step rx).buffer = rx.buffer

variable {rx : IsotpRx}

theorem step_inv (call : RxCall) (hi : RxInv rx) (hf : Fits rx call) : RxInv (step rx call) := by
  cases call with
  | onFrame c now frame => exact hi.onFrame c now hf
  | poll c now => exact hi.poll c now
  | read outCapacity => exact hi.read outCapacity
  | reset => exact hi.reset

theorem contained_iff_fits (call : RxCall) (hi : RxInv rx) : Contained rx call ↔ Fits rx call := by
  cases call with
  | poll c now => exact ⟨fun _ => trivial, fun _ => poll_buffer rx c now⟩
  | read outCapacity => exact ⟨fun _ => trivial, fun _ => read_buffer rx outCapacity⟩
  | reset => exact ⟨fun _ => trivial, fun _ => rfl⟩
  | onFrame c now frame =>
    constructor
    · intro h ho
      exact absurd (h.1 _ ho.mem_written) (Nat.lt_irrefl _)
    · intro ho
      refine ⟨?_, ?_⟩
      · intro i hmem
        rw [mem_written] at hmem
        rcases hi.stored_le ho with hle | hnil
        · omega
        · rw [hnil, List.length_nil] at hmem
          omega
      · intro n hn hlong
        exact ⟨written_eq_nil (stored_of_long ho hn hlong),
          fun hfree => onFrame_of_long hfree ho hn hlong c now⟩

/-- **The receive buffer is written inside its bounds** at every call of a run exactly if no Single Frame
of the run finds a free receiver with a shorter buffer. -/
theorem contained_iff (config : IsotpConfig) (fallbackInUse : Bool) (calls : List RxCall) :
    AllSteps step (IsotpRx.init config fallbackInUse).1 Contained calls ↔
      AllSteps step (IsotpRx.init config fallbackInUse).1 Fits calls := by
  induction calls using List.reverseRecOn with
  | nil => exact ⟨fun _ => allSteps_nil, fun _ => allSteps_nil⟩
  | append_singleton calls call ih =>
    rw [allSteps_snoc, allSteps_snoc, ih]
    refine and_congr_right fun hfits => contained_iff_fits call ?_
    exact after_invariant_of (I := RxInv) (.init config fallbackInUse)
      (fun _ e hi hf => step_inv e hi hf) calls hfits

/-- The defaults of `IsotpConfig_Init` with a receive buffer of two bytes. -/
def shortConfig : IsotpConfig := .init (some [0, 0])

/-- A Single Frame of seven bytes is stored whole in the buffer of two, and reported as received. -/
theorem short_buffer_overrun :
    ¬AllSteps step (IsotpRx.init shortConfig false).1 Contained
        [.onFrame ⟨fun _ => true, fun _ => false, []⟩ 0 #v[0x07, 1, 2, 3, 4, 5, 6, 7]] ∧
      (IsotpRx.init shortConfig false).1.bufferSize = 2 ∧
      (IsotpRx.init shortConfig false).1.written #v[0x07, 1, 2, 3, 4, 5, 6, 7] = [0, 1, 2, 3, 4, 5, 6] ∧
      ((IsotpRx.init shortConfig false).1.onFrame ⟨fun _ => true, fun _ => false, []⟩ 0
        #v[0x07, 1, 2, 3, 4, 5, 6, 7]).1 = .ok := by
  refine ⟨?_, by decide, by decide, by decide⟩
  intro h
  have hcontained := (allSteps_cons.1 h).1
  exact absurd (hcontained.1 2 (by decide)) (by decide)

/-- No Single Frame overruns a buffer of seven bytes. -/
theorem fits_of_seven (call : RxCall) (hseven : 7 ≤ rx.bufferSize) : Fits rx call := by
  cases call with
  | onFrame c now frame =>
    rintro ⟨-, -, -, hlong, h7⟩
    rw [sfPayloadMax] at h7
    omega
  | poll => trivial
  | read => trivial
  | reset => trivial

/-- No call changes the size of the buffer. -/
theorem step_bufferSize (call : RxCall) : (step rx call).bufferSize = rx.bufferSize := by
  cases call with
  | onFrame c now frame => exact onFrame_bufferSize rx c now frame
  | poll c now => exact congrArg (·.2.2.1) (poll_reception rx c now).1
  | read outCapacity => exact read_bufferSize rx outCapacity
  | reset => rfl

/-- The data of a waiting message survive any frames and polls. -/
theorem waiting_run (calls : List RxCall) (harrive : ∀ call ∈ calls, call.isArrival = true)
    (hi : RxInv rx) (hready : rx.messageReady = true) :
    (after step rx calls).reception = rx.reception := by
  induction calls generalizing rx with
  | nil => rfl
  | cons call calls ih =>
    have hrest : ∀ call ∈ calls, call.isArrival = true :=
      fun call h => harrive call (List.mem_cons_of_mem _ h)
    have hcall := harrive call List.mem_cons_self
    rw [after_cons]
    cases call with
    | onFrame c now frame =>
      have hsame : step rx (.onFrame c now frame) = rx := onFrame_waiting hi hready c now frame
      rw [hsame]
      exact ih hrest hi hready
    | poll c now =>
      have hsame : (step rx (.poll c now)).reception = rx.reception := (poll_reception rx c now).1
      rw [← hsame]
      apply ih hrest (hi.poll c now)
      exact (congrArg (·.2.2.2.2.2.2.1) hsame).trans hready
    | read => cases hcall
    | reset => cases hcall

/-- **The receiver's state along any run**, for a buffer that holds a Single Frame: a reception and an
unread message exclude each other, the bytes counted and the sequence number expected agree, and an unread
message keeps its bytes and its length until it is read or dropped. -/
theorem receiver_invariant (config : IsotpConfig) (fallbackInUse : Bool) (calls : List RxCall)
    (hseven : 7 ≤ (IsotpRx.init config fallbackInUse).1.bufferSize) :
    let rx := after step (IsotpRx.init config fallbackInUse).1 calls
    ¬(rx.rxInProgress = true ∧ rx.messageReady = true) ∧
    (rx.rxInProgress = true → 6 ≤ rx.received ∧ rx.received < rx.declaredLength ∧
      rx.declaredLength ≤ min rx.bufferSize 4095 ∧
      rx.expectedSn.toNat = (1 + (rx.received - 6) / 7) % 16) ∧
    (rx.messageReady = true → ∀ more : List RxCall, (∀ call ∈ more, call.isArrival = true) →
      (after step rx more).messageReady = true ∧
      (after step rx more).messageLength = rx.messageLength ∧
      (after step rx more).buffer.take rx.messageLength = rx.buffer.take rx.messageLength) := by
  intro rx
  have hinv : RxInv rx ∧ 7 ≤ rx.bufferSize := by
    refine after_invariant (I := fun rx => RxInv rx ∧ 7 ≤ rx.bufferSize)
      ⟨.init config fallbackInUse, hseven⟩ ?_ calls
    rintro rx call ⟨hi, h7⟩
    exact ⟨step_inv call hi (fits_of_seven call h7), by rw [step_bufferSize]; exact h7⟩
  obtain ⟨hi, -⟩ := hinv
  refine ⟨hi.exclusive, ?_, ?_⟩
  · intro hp
    obtain ⟨-, h6, hlt, hle⟩ := hi.room hp
    exact ⟨h6, hlt, hle, hi.sn hp⟩
  · intro hready more harrive
    have hsame := waiting_run more harrive hi hready
    simp only [reception, Prod.mk.injEq] at hsame
    obtain ⟨-, hbuffer, -, -, -, -, hkept, hlength⟩ := hsame
    exact ⟨hkept.trans hready, hlength, by rw [hbuffer]⟩

/-- A buffer of exactly seven bytes: a first message is kept, a second Single Frame does not touch it. -/
theorem receiver_invariant_seven :
    let rx := after step (IsotpRx.init (.init (some (List.replicate 7 0))) false).1
      [.onFrame ⟨fun _ => true, fun _ => false, []⟩ 0 #v[0x03, 0x10, 0x03, 0xAA, 0, 0, 0, 0]]
    rx.messageReady = true ∧
      (after step rx [.onFrame ⟨fun _ => true, fun _ => false, []⟩ 5
        #v[0x02, 0x22, 0xF1, 0, 0, 0, 0, 0]]).messageLength = rx.messageLength := by
  refine ⟨by decide, ?_⟩
  have h := receiver_invariant (.init (some (List.replicate 7 0))) false
    [.onFrame ⟨fun _ => true, fun _ => false, []⟩ 0 #v[0x03, 0x10, 0x03, 0xAA, 0, 0, 0, 0]] (by decide)
  refine (h.2.2 (by decide) _ ?_).2.1
  intro call hmem
  rw [List.mem_singleton] at hmem
  rw [hmem]
  rfl

end RxCall

end DualCan.Isotp
