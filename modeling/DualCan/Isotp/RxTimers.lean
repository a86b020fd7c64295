import DualCan.Isotp.RxSteps
import DualCan.Run.Timed

/-!
# ISO-TP: the receiver's timers

The receiver has two deadlines. `fc_deadline_ms` runs while a Flow Control frame waits for a mailbox or is
pending, `rx_deadline_ms` while the next Consecutive Frame is awaited. `Timers` is what they and the flags that
select them are made of, `Received` what a frame does to them. An observer (`Seen`) writes down when a Flow
Control frame was scheduled, accepted and confirmed and when a Consecutive Frame was taken; each deadline is
the budget after one of these times, in every reachable state and across the clock's wrap.
-/

namespace DualCan.Isotp

open DualCan.Clock DualCan.Run

/-- The receiver's deadlines, the budgets they are set from and the flags that select them. -/
structure Timers where
  nArMs : UInt16
  nCrMs : UInt16
  fcWaitingEnqueue : Bool
  fcPending : Bool
  rxInProgress : Bool
  fcDeadlineMs : UInt32
  rxDeadlineMs : UInt32

namespace IsotpRx

def timers (rx : IsotpRx) : Timers where
  nArMs := rx.nArMs
  nCrMs := rx.nCrMs
  fcWaitingEnqueue := rx.fcWaitingEnqueue
  fcPending := rx.fcPending
  rxInProgress := rx.rxInProgress
  fcDeadlineMs := rx.fcDeadlineMs
  rxDeadlineMs := rx.rxDeadlineMs

end IsotpRx

namespace Timers

/-- A Flow Control frame is scheduled: `none` when the driver refused it, else whether it is pending. -/
def schedule (τ : Timers) (now : UInt32) : Option Bool → Timers
  | none => { τ with
      fcWaitingEnqueue := true
      fcDeadlineMs := now + τ.nArMs.toUInt32 }
  | some pending => { τ with
      fcWaitingEnqueue := false
      fcPending := pending
      fcDeadlineMs := now + τ.nArMs.toUInt32
      rxDeadlineMs := if !pending then now + τ.nCrMs.toUInt32 else τ.rxDeadlineMs }

/-- A Consecutive Frame is taken. -/
def take (τ : Timers) (now : UInt32) : Timers := { τ with rxDeadlineMs := now + τ.nCrMs.toUInt32 }

/-- What a received frame does, by whether it is a Consecutive Frame that is taken and whether a Flow Control
frame is scheduled. -/
inductive Received (τ : Timers) (now : UInt32) : Bool → Bool → Timers → Prop
  | ignored : Received τ now false false τ
  | aborted : Received τ now false false { τ with
      fcWaitingEnqueue := false, fcPending := false, rxInProgress := false }
  | taken (more : Bool) (hp : τ.rxInProgress = true) :
      Received τ now true false { τ.take now with rxInProgress := more }
  | opened (more : Bool) (answer : Option Bool) (hp : τ.rxInProgress = false) :
      Received τ now false true ({ τ with rxInProgress := more }.schedule now answer)
  | refilled (answer : Option Bool) (hp : τ.rxInProgress = true) :
      Received τ now true true ((τ.take now).schedule now answer)

theorem Received.nArMs {τ τ' : Timers} {now : UInt32} {cf fc : Bool} (h : τ.Received now cf fc τ') :
    τ'.nArMs = τ.nArMs := by
  cases h with
  | opened _ answer | refilled answer => cases answer <;> rfl
  | _ => rfl

/-- A Flow Control frame waits for a mailbox or is pending. -/
def fcInFlight (τ : Timers) : Bool := τ.fcWaitingEnqueue || τ.fcPending

end Timers

namespace IsotpRx

theorem sendFc_timers (rx : IsotpRx) (hnAr : rx.nArMs ≠ 0) (c : Channel) (now : UInt32) (status : UInt8) :
    ∃ answer, (sendFc rx c now status).1.timers = rx.timers.schedule now answer := by
  have hspec := serviceFcEnqueue_spec { rx with
    fcFrame := rx.fcFrameOf status
    fcWaitingEnqueue := true
    fcDeadlineMs := now + rx.nArMs.toUInt32 } c now
  rw [sendFc]
  generalize serviceFcEnqueue { rx with
    fcFrame := rx.fcFrameOf status
    fcWaitingEnqueue := true
    fcDeadlineMs := now + rx.nArMs.toUInt32 } c now = out at hspec ⊢
  obtain ⟨result, rx', c'⟩ := out
  cases hspec with
  | none hw => cases hw
  | accepted pending => exact ⟨some pending, rfl⟩
  | busy => exact ⟨none, rfl⟩
  | expired _ _ hr =>
    rw [not_reached_add hnAr] at hr
    cases hr

/-- The frame is a Consecutive Frame that a reception in progress takes. -/
def takesCf (rx : IsotpRx) (frame : Frame) : Bool :=
  decide (frame.pci = pciCf) && rx.rxInProgress && decide (frame.low = rx.expectedSn)

/-- The frame makes the receiver schedule a Flow Control frame: a First Frame of a legal length, or the last
Consecutive Frame of a block that is not the last of the message. -/
def schedulesFc (rx : IsotpRx) (frame : Frame) : Bool :=
  if frame.pci = pciFf then
    rx.isFree && decide (maxSingleFrame < declaredOf frame ∧ declaredOf frame ≤ maxTotalLength)
  else
    rx.takesCf frame && decide ((rx.appendCf 0 frame).received < rx.declaredLength) &&
      (0 < rx.blockSize && rx.blockSize ≤ rx.cfInBlock + 1)

theorem onFirstFrame_timers (rx : IsotpRx) (hnAr : rx.nArMs ≠ 0) (c : Channel) (now : UInt32)
    (frame : Frame) :
    rx.timers.Received now false
      (rx.isFree && decide (maxSingleFrame < declaredOf frame ∧ declaredOf frame ≤ maxTotalLength))
      (rx.onFirstFrame c now frame).2.1.timers := by
  unfold onFirstFrame
  dsimp only
  by_cases hp : rx.rxInProgress = true
  · rw [if_pos hp, isFree, hp]
    exact .aborted
  rw [if_neg hp]
  have hp : rx.rxInProgress = false := by simpa using hp
  by_cases hr : rx.messageReady = true
  · rw [if_pos hr, isFree, hr, Bool.not_true, Bool.and_false]
    exact .ignored
  rw [if_neg hr]
  have hfree : rx.isFree = true := isFree_iff.2 ⟨hp, by simpa using hr⟩
  by_cases hlen : maxSingleFrame < declaredOf frame ∧ declaredOf frame ≤ maxTotalLength
  swap
  · rw [if_pos (declared_illegal_iff.2 hlen), decide_eq_false hlen, Bool.and_false]
    exact .ignored
  rw [if_neg (fun h => declared_illegal_iff.1 h hlen), hfree, decide_eq_true hlen]
  have hsame : { rx.timers with rxInProgress := false } = rx.timers := by rw [← hp]; rfl
  obtain ⟨answer, htimers⟩ := sendFc_timers rx hnAr c now fcOverflow
  have hover : rx.timers.Received now false true
      ({ rx.timers with rxInProgress := false }.schedule now answer) := .opened false answer hp
  rw [hsame] at hover
  by_cases hb : rx.hasBuffer = true
  swap
  · rw [if_pos (by simp [hb]), htimers]
    exact hover
  rw [if_neg (by simp [hb])]
  by_cases hsize : declaredOf frame > rx.bufferSize
  · rw [if_pos hsize]
    have hidle : ({ (sendFc rx c now fcOverflow).1 with rxInProgress := false } : IsotpRx).timers =
        rx.timers.schedule now answer := by
      have hfields : ({ (sendFc rx c now fcOverflow).1 with rxInProgress := false } : IsotpRx).timers =
          { (sendFc rx c now fcOverflow).1.timers with rxInProgress := false } := rfl
      rw [hfields, htimers]
      cases answer <;> simp [Timers.schedule, timers, hp]
    rw [hidle]
    exact hover
  rw [if_neg hsize]
  obtain ⟨answer, htimers⟩ := sendFc_timers (rx.openReception (declaredOf frame) frame) hnAr c now fcCts
  rw [if_neg (sendFc_opened rx c now hlen.1), htimers]
  exact .opened true answer hp

theorem onConsecutiveFrame_timers (rx : IsotpRx) (hnAr : rx.nArMs ≠ 0) (c : Channel) (now : UInt32)
    (frame : Frame) (hpci : frame.pci = pciCf) :
    rx.timers.Received now (rx.takesCf frame) (rx.schedulesFc frame)
      (rx.onConsecutiveFrame c now frame).2.1.timers := by
  have hff : ¬frame.pci = pciFf := by
    rw [hpci]
    decide
  rw [schedulesFc, if_neg hff, takesCf, decide_eq_true hpci, Bool.true_and]
  unfold onConsecutiveFrame
  dsimp only
  by_cases hp : rx.rxInProgress = true
  swap
  · have hp' : rx.rxInProgress = false := by simpa using hp
    rw [if_pos (by simp [hp]), hp', Bool.false_and, Bool.false_and, Bool.false_and]
    exact .ignored
  rw [if_neg (by simp [hp]), hp, Bool.true_and]
  by_cases hsn : frame.low = rx.expectedSn
  swap
  · rw [if_pos hsn, decide_eq_false hsn, Bool.false_and, Bool.false_and]
    exact .aborted
  rw [if_neg (by simp [hsn]), decide_eq_true hsn, Bool.true_and]
  have hreceived : (rx.appendCf now frame).received = (rx.appendCf 0 frame).received := rfl
  have hdeclared : (rx.appendCf now frame).declaredLength = rx.declaredLength := rfl
  by_cases hdone : (rx.appendCf now frame).received ≥ (rx.appendCf now frame).declaredLength
  · rw [if_pos hdone]
    rw [hreceived, hdeclared] at hdone
    rw [decide_eq_false (by omega), Bool.false_and]
    exact .taken false hp
  rw [if_neg hdone]
  rw [hreceived, hdeclared] at hdone
  rw [decide_eq_true (by omega), Bool.true_and]
  have hblock : (0 < (rx.appendCf now frame).blockSize &&
      (rx.appendCf now frame).blockSize ≤ (rx.appendCf now frame).cfInBlock) =
        (0 < rx.blockSize && rx.blockSize ≤ rx.cfInBlock + 1) := rfl
  rw [hblock]
  by_cases hfull : (0 < rx.blockSize && rx.blockSize ≤ rx.cfInBlock + 1) = true
  · rw [if_pos hfull, hfull]
    obtain ⟨answer, htimers⟩ :=
      sendFc_timers { rx.appendCf now frame with cfInBlock := 0 } hnAr c now fcCts
    rw [htimers]
    exact .refilled answer hp
  · rw [if_neg hfull, Bool.eq_false_iff.2 hfull]
    have hopen : (rx.appendCf now frame).timers = { rx.timers.take now with rxInProgress := true } := by
      rw [← hp]
      rfl
    rw [hopen]
    exact .taken true hp

/-- What a received frame does to the timers. -/
theorem onFrame_timers (rx : IsotpRx) (hnAr : rx.nArMs ≠ 0) (c : Channel) (now : UInt32) (frame : Frame) :
    rx.timers.Received now (rx.takesCf frame) (rx.schedulesFc frame) (rx.onFrame c now frame).2.1.timers := by
  by_cases hcf : frame.pci = pciCf
  · rw [onFrame_of_cf hcf]
    exact onConsecutiveFrame_timers rx hnAr c now frame hcf
  have htakes : rx.takesCf frame = false := by rw [takesCf, decide_eq_false hcf]; rfl
  by_cases hff : frame.pci = pciFf
  · rw [onFrame_of_ff hff, htakes, schedulesFc, if_pos hff]
    exact onFirstFrame_timers rx hnAr c now frame
  rw [onFrame, if_neg hff, if_neg hcf, htakes, schedulesFc, if_neg hff, htakes]
  split
  · rcases onSingleFrame_cases rx frame with ⟨-, -, -, -, hrx⟩ | ⟨-, hrx, -⟩
    · rw [hrx]
      exact .ignored
    · rw [hrx]
      exact .ignored
  · exact .ignored

theorem read_timers (rx : IsotpRx) (outCapacity : ℕ) :
    (rx.read outCapacity).2.2.timers = rx.timers := by
  unfold read
  split
  · rfl
  · split <;> rfl

/-! ## The receiver in real time -/

/-- What the bus or the reader does to a receiver; the channel is the driver's answers at that moment. -/
inductive Op where
  | onFrame (c : Channel) (frame : Frame)
  | poll (c : Channel)
  | read (outCapacity : ℕ)
  | reset

/-- The call made when the clock reads `now`. -/
def Op.at (now : UInt32) : Op → RxCall
  | .onFrame c frame => .onFrame c now frame
  | .poll c => .poll c now
  | .read outCapacity => .read outCapacity
  | .reset => .reset

/-- One operation, `e.1` ms after the one before. -/
def timedStep : Timed IsotpRx → ℕ × Op → Timed IsotpRx := timed fun rx now op => (op.at now).step rx

/-- When the latest Flow Control frame was scheduled, accepted and found complete, and when the latest
Consecutive Frame was taken. -/
structure Seen where
  scheduled : ℕ
  accepted : ℕ
  confirmed : ℕ
  lastCf : ℕ

/-- The later of the last Consecutive Frame taken and the last Flow Control frame found complete. -/
def Seen.base (g : Seen) : ℕ := max g.lastCf g.confirmed

/-- What the observer writes down of a frame received at the time `t`, by whether it is a Consecutive Frame
that is taken and whether a Flow Control frame is scheduled. -/
def Seen.frame (g : Seen) (t : ℕ) (cf fc : Bool) (τ' : Timers) : Seen where
  scheduled := if fc then t else g.scheduled
  accepted := if fc && !τ'.fcWaitingEnqueue then t else g.accepted
  confirmed := if fc && !τ'.fcInFlight then t else g.confirmed
  lastCf := if cf then t else g.lastCf

/-- What the observer writes down of a poll at the time `t`. -/
def Seen.poll (g : Seen) (t : ℕ) (τ τ' : Timers) : Seen :=
  { g with
    accepted := if τ.fcWaitingEnqueue && !τ'.fcWaitingEnqueue then t else g.accepted
    confirmed := if τ.fcInFlight && !τ'.fcInFlight then t else g.confirmed }

/-- What the observer writes down at the time `t` of an operation that takes `rx` to `rx'`. -/
def Seen.update (g : Seen) (rx rx' : IsotpRx) (t : ℕ) : Op → Seen
  | .onFrame _ frame => g.frame t (rx.takesCf frame) (rx.schedulesFc frame) rx'.timers
  | .poll _ => g.poll t rx.timers rx'.timers
  | .read _ => g
  | .reset => g

def Seen.note (s : Timed IsotpRx) (e : ℕ × Op) (g : Seen) : Seen :=
  g.update s.state (timedStep s e).state (s.now + e.1) e.2

/-- The receiver beside its observer. -/
def seenStep : Timed IsotpRx × Seen → ℕ × Op → Timed IsotpRx × Seen := observed timedStep Seen.note

/-- At a poll at the time `t` a budget has run out: N_Ar since a Flow Control frame was scheduled that the
driver still refuses, N_Ar since one was accepted that is still pending, or N_Cr since the later of the last
Consecutive Frame and the completion of the Flow Control frame. -/
def RunOut (s : Timed IsotpRx × Seen) (c : Channel) (t : ℕ) : Prop :=
  if s.1.state.fcWaitingEnqueue then
    c.sendAnswers 0 = false ∧ s.2.scheduled + s.1.state.nArMs.toNat ≤ t
  else if s.1.state.fcPending then
    s.1.state.rxInProgress = true ∧ c.pendingAnswers 0 = true ∧ s.2.accepted + s.1.state.nArMs.toNat ≤ t
  else s.1.state.rxInProgress = true ∧ s.2.base + s.1.state.nCrMs.toNat ≤ t

/-- A poll that reports TIMEOUT or ends a reception does so because a budget has run out. -/
def OnTime (s : Timed IsotpRx × Seen) (e : ℕ × Op) : Prop :=
  ∀ c, e.2 = .poll c →
    ((s.1.state.poll c (tick (s.1.now + e.1))).1 = .errTimeout → RunOut s c (s.1.now + e.1)) ∧
    (¬RunOut s c (s.1.now + e.1) →
      (s.1.state.poll c (tick (s.1.now + e.1))).1 ≠ .errTimeout ∧
        (s.1.state.rxInProgress = true → (s.1.state.poll c (tick (s.1.now + e.1))).2.1.rxInProgress = true))

/-! ## The invariant -/

/-- The deadline in force is its budget after the event it is counted from. -/
structure Tied (τ : Timers) (g : Seen) (now : ℕ) : Prop where
  nAr : τ.nArMs ≠ 0
  nCr : τ.nCrMs ≠ 0
  past : g.scheduled ≤ now ∧ g.accepted ≤ now ∧ g.confirmed ≤ now ∧ g.lastCf ≤ now
  waiting : τ.fcWaitingEnqueue = true → τ.fcDeadlineMs = tick g.scheduled + τ.nArMs.toUInt32
  pending : τ.fcWaitingEnqueue = false → τ.rxInProgress = true → τ.fcPending = true →
    τ.fcDeadlineMs = tick g.accepted + τ.nArMs.toUInt32
  listening : τ.fcWaitingEnqueue = false → τ.rxInProgress = true → τ.fcPending = false →
    τ.rxDeadlineMs = tick g.base + τ.nCrMs.toUInt32

variable {τ τ' : Timers} {g : Seen} {t t' : ℕ}

theorem Tied.later (h : Tied τ g t) (ht : t ≤ t') : Tied τ g t' :=
  { h with past := ⟨Nat.le_trans h.past.1 ht, Nat.le_trans h.past.2.1 ht, Nat.le_trans h.past.2.2.1 ht,
      Nat.le_trans h.past.2.2.2 ht⟩ }

/-- A receiver without a reception has no deadline in force but that of a Flow Control frame to send. -/
theorem Tied.of_idle (hnAr : τ.nArMs ≠ 0) (hnCr : τ.nCrMs ≠ 0)
    (hpast : g.scheduled ≤ t ∧ g.accepted ≤ t ∧ g.confirmed ≤ t ∧ g.lastCf ≤ t) (hp : τ.rxInProgress = false)
    (hw : τ.fcWaitingEnqueue = true → τ.fcDeadlineMs = tick g.scheduled + τ.nArMs.toUInt32) : Tied τ g t where
  nAr := hnAr
  nCr := hnCr
  past := hpast
  waiting := hw
  pending := fun _ hp' => absurd (hp.symm.trans hp') Bool.false_ne_true
  listening := fun _ hp' => absurd (hp.symm.trans hp') Bool.false_ne_true

/-- A Flow Control frame scheduled now sets the deadline in force, whichever it is. -/
theorem Tied.of_schedule (hnAr : τ.nArMs ≠ 0) (hnCr : τ.nCrMs ≠ 0)
    (hpast : g.scheduled ≤ t ∧ g.accepted ≤ t ∧ g.confirmed ≤ t ∧ g.lastCf ≤ t) (cf : Bool)
    (answer : Option Bool) :
    Tied (τ.schedule (tick t) answer) (g.frame t cf true (τ.schedule (tick t) answer)) t := by
  obtain ⟨h1, h2, h3, h4⟩ := hpast
  have hcf : (if cf then t else g.lastCf) ≤ t := by
    split
    · exact Nat.le_refl t
    · exact h4
  cases answer with
  | none =>
    exact ⟨hnAr, hnCr, ⟨Nat.le_refl t, h2, h3, hcf⟩, fun _ => rfl, (fun hw => by cases hw), fun hw => by cases hw⟩
  | some pending =>
    cases pending with
    | true =>
      exact ⟨hnAr, hnCr, ⟨Nat.le_refl t, Nat.le_refl t, h3, hcf⟩, (fun hw => by cases hw), fun _ _ _ => rfl,
        fun _ _ hp => by cases hp⟩
    | false =>
      refine ⟨hnAr, hnCr, ⟨Nat.le_refl t, Nat.le_refl t, Nat.le_refl t, hcf⟩, (fun hw => by cases hw),
        (fun _ _ hp => by cases hp), fun _ _ _ => ?_⟩
      have hbase : (g.frame t cf true (τ.schedule (tick t) (some false))).base = t := Nat.max_eq_right hcf
      rw [hbase]
      rfl

theorem Tied.received {cf fc : Bool} (h : Tied τ g t) (hr : τ.Received (tick t) cf fc τ') :
    Tied τ' (g.frame t cf fc τ') t := by
  cases hr with
  | ignored => exact h
  | aborted => exact .of_idle h.nAr h.nCr h.past rfl fun hw => by cases hw
  | taken more hp =>
    have hbase : (g.frame t true false { τ.take (tick t) with rxInProgress := more }).base = t :=
      Nat.max_eq_left h.past.2.2.1
    refine ⟨h.nAr, h.nCr, ⟨h.past.1, h.past.2.1, h.past.2.2.1, Nat.le_refl t⟩, h.waiting,
      fun hw _ hpending => h.pending hw hp hpending, fun _ _ _ => ?_⟩
    rw [hbase]
    rfl
  | opened more answer =>
    refine .of_schedule ?_ ?_ h.past false answer
    · exact h.nAr
    · exact h.nCr
  | refilled answer =>
    refine .of_schedule ?_ ?_ h.past true answer
    · exact h.nAr
    · exact h.nCr

theorem Seen.poll_self (g : Seen) (t : ℕ) (τ : Timers) : g.poll t τ τ = g := by
  simp [Seen.poll]

theorem Seen.poll_past (h : g.scheduled ≤ t ∧ g.accepted ≤ t ∧ g.confirmed ≤ t ∧ g.lastCf ≤ t) :
    (g.poll t τ τ').scheduled ≤ t ∧ (g.poll t τ τ').accepted ≤ t ∧ (g.poll t τ τ').confirmed ≤ t ∧
      (g.poll t τ τ').lastCf ≤ t := by
  obtain ⟨h1, h2, h3, h4⟩ := h
  refine ⟨h1, ?_, ?_, h4⟩
  · simp only [Seen.poll]
    split
    · exact Nat.le_refl t
    · exact h2
  · simp only [Seen.poll]
    split
    · exact Nat.le_refl t
    · exact h3

/-- A Flow Control frame found complete by this poll: N_Cr starts now. -/
theorem Tied.of_confirmed (h : Tied τ g t) (hnCr : τ'.nCrMs = τ.nCrMs) (hnAr : τ'.nArMs = τ.nArMs)
    (hflight : τ.fcInFlight = true) (hdone : τ'.fcWaitingEnqueue = false ∧ τ'.fcPending = false)
    (hdeadline : τ'.rxDeadlineMs = tick t + τ'.nCrMs.toUInt32) : Tied τ' (g.poll t τ τ') t := by
  have hdone' : τ'.fcInFlight = false := by
    rw [Timers.fcInFlight, hdone.1, hdone.2]
    rfl
  have hconfirmed : (g.poll t τ τ').confirmed = t := by
    simp [Seen.poll, hflight, hdone']
  have hbase : (g.poll t τ τ').base = t := by
    rw [Seen.base, hconfirmed]
    exact Nat.max_eq_right (Seen.poll_past h.past).2.2.2
  refine ⟨hnAr ▸ h.nAr, hnCr ▸ h.nCr, Seen.poll_past h.past, ?_, ?_, ?_⟩
  · exact fun hw => absurd (hdone.1.symm.trans hw) Bool.false_ne_true
  · exact fun _ _ hp => absurd (hdone.2.symm.trans hp) Bool.false_ne_true
  · intro _ _ _
    rw [hbase]
    exact hdeadline

/-- A Flow Control frame accepted by this poll and still pending: N_Ar starts again. -/
theorem Tied.of_accepted (h : Tied τ g t) (hnCr : τ'.nCrMs = τ.nCrMs) (hnAr : τ'.nArMs = τ.nArMs)
    (hw : τ.fcWaitingEnqueue = true) (hpending : τ'.fcWaitingEnqueue = false ∧ τ'.fcPending = true)
    (hdeadline : τ'.fcDeadlineMs = tick t + τ'.nArMs.toUInt32) : Tied τ' (g.poll t τ τ') t := by
  have haccepted : (g.poll t τ τ').accepted = t := by
    simp [Seen.poll, hw, hpending.1]
  refine ⟨hnAr ▸ h.nAr, hnCr ▸ h.nCr, Seen.poll_past h.past, ?_, ?_, ?_⟩
  · exact fun hw => absurd (hpending.1.symm.trans hw) Bool.false_ne_true
  · intro _ _ _
    rw [haccepted]
    exact hdeadline
  · intro _ _ hp
    rw [hpending.2] at hp
    cases hp

/-- A poll that ends the reception. -/
theorem Tied.of_ended (h : Tied τ g t) (hnCr : τ'.nCrMs = τ.nCrMs) (hnAr : τ'.nArMs = τ.nArMs)
    (hend : τ'.fcWaitingEnqueue = false ∧ τ'.rxInProgress = false) : Tied τ' (g.poll t τ τ') t :=
  .of_idle (hnAr ▸ h.nAr) (hnCr ▸ h.nCr) (Seen.poll_past h.past) hend.2
    fun hw => absurd (hend.1.symm.trans hw) Bool.false_ne_true

theorem Tied.polled {rx : IsotpRx} {c : Channel} (h : Tied rx.timers g t) :
    Tied (rx.poll c (tick t)).2.1.timers
      (g.poll t rx.timers (rx.poll c (tick t)).2.1.timers) t := by
  have hsame : Tied rx.timers (g.poll t rx.timers rx.timers) t := by rw [Seen.poll_self]; exact h
  have hpolled := poll_cases h.nAr h.nCr c (tick t)
  generalize (rx.poll c (tick t)).1 = result at hpolled
  generalize (rx.poll c (tick t)).2.1 = rx' at hpolled ⊢
  cases hpolled with
  | idle | busy | held | listening => exact hsame
  | expired => exact h.of_ended rfl rfl ⟨rfl, rfl⟩
  | unconfirmed hw | silent hw => exact h.of_ended rfl rfl ⟨hw, rfl⟩
  | accepted pending rxDeadlineMs hw hnext =>
    have hflight : rx.timers.fcInFlight = true := by
      rw [Timers.fcInFlight, show rx.timers.fcWaitingEnqueue = true from hw, Bool.true_or]
    cases hp : rx.rxInProgress with
    | false => exact h.of_ended rfl rfl ⟨rfl, rfl⟩
    | true =>
      cases pending with
      | true => exact h.of_accepted rfl rfl hw ⟨rfl, rfl⟩ rfl
      | false => exact h.of_confirmed rfl rfl hflight ⟨rfl, rfl⟩ (hnext hp rfl)
  | confirmed hw _ hpending =>
    refine h.of_confirmed rfl rfl ?_ ⟨hw, rfl⟩ rfl
    rw [Timers.fcInFlight, show rx.timers.fcPending = true from hpending, Bool.or_true]

variable {s : Timed IsotpRx × Seen} {e : ℕ × Op}

/-- A poll that reports TIMEOUT or ends the reception finds a budget run out. -/
theorem Tied.runOut {c : Channel} (h : Tied s.1.state.timers s.2 t)
    (hpoll : (s.1.state.poll c (tick t)).1 = .errTimeout ∨
      (s.1.state.rxInProgress = true ∧ (s.1.state.poll c (tick t)).2.1.rxInProgress = false)) :
    RunOut s c t := by
  rw [RunOut]
  have hpolled := poll_cases h.nAr h.nCr c (tick t)
  generalize (s.1.state.poll c (tick t)).1 = result at hpolled hpoll
  generalize (s.1.state.poll c (tick t)).2.1 = rx' at hpolled hpoll
  have hquiet : result = .ok → rx'.rxInProgress = s.1.state.rxInProgress → False := by
    rintro rfl hp
    rcases hpoll with hpoll | ⟨hp₁, hp₂⟩
    · cases hpoll
    · rw [hp, hp₁] at hp₂
      cases hp₂
  cases hpolled with
  | idle | busy | accepted | held | confirmed | listening => exact (hquiet rfl rfl).elim
  | expired hw hsend hr =>
    rw [if_pos hw]
    have hdeadline := h.waiting hw
    rw [show s.1.state.fcDeadlineMs = _ from hdeadline] at hr
    exact ⟨hsend, over_of_reached h.past.1 hr⟩
  | unconfirmed hw hp hpending hanswer hr =>
    rw [if_neg (by simp [hw]), if_pos hpending]
    rw [show s.1.state.fcDeadlineMs = _ from h.pending hw hp hpending] at hr
    exact ⟨hp, hanswer, over_of_reached h.past.2.1 hr⟩
  | silent hw hp hpending hr =>
    rw [if_neg (by simp [hw]), if_neg (by simp [hpending])]
    rw [show s.1.state.rxDeadlineMs = _ from h.listening hw hp hpending] at hr
    exact ⟨hp, over_of_reached (Nat.max_le.2 ⟨h.past.2.2.2, h.past.2.2.1⟩) hr⟩

/-- Every reachable receiver's deadline in force is tied to the event it is counted from. -/
theorem Tied.step (h : Tied s.1.state.timers s.2 s.1.now) :
    Tied (seenStep s e).1.state.timers (seenStep s e).2 (seenStep s e).1.now := by
  have hlater := h.later (Nat.le_add_right s.1.now e.1)
  obtain ⟨gap, op⟩ := e
  cases op with
  | onFrame c frame =>
    exact hlater.received (onFrame_timers s.1.state h.nAr c (tick (s.1.now + gap)) frame)
  | poll c => exact hlater.polled
  | read outCapacity =>
    have hstill : Tied (s.1.state.read outCapacity).2.2.timers s.2 (s.1.now + gap) :=
      read_timers s.1.state outCapacity ▸ hlater
    exact hstill
  | reset => exact .of_idle h.nAr h.nCr hlater.past rfl fun hw => by cases hw

theorem Tied.init (config : IsotpConfig) (fallbackInUse : Bool) (now : ℕ) :
    Tied (IsotpRx.init config fallbackInUse).1.timers ⟨now, now, now, now⟩ now := by
  refine .of_idle (orDefault_ne_zero (by decide)) (orDefault_ne_zero (by decide)) ?_ rfl ?_
  · exact ⟨Nat.le_refl _, Nat.le_refl _, Nat.le_refl _, Nat.le_refl _⟩
  · exact fun hw => by cases hw

/-- **The receiver's timers are exact**: at every poll of every run, TIMEOUT is reported, and a reception ended,
only when a budget has run out since the event it is counted from. -/
theorem timeout_only_when_run_out (config : IsotpConfig) (fallbackInUse : Bool) (now : ℕ)
    (es : List (ℕ × Op)) :
    AllSteps seenStep (⟨now, (IsotpRx.init config fallbackInUse).1⟩, ⟨now, now, now, now⟩) OnTime es := by
  refine allSteps_of_invariant (I := fun s => Tied s.1.state.timers s.2 s.1.now)
    (Tied.init config fallbackInUse now) (fun s e h => h.step) ?_ es
  intro s e h c hop
  have hlater := h.later (Nat.le_add_right s.1.now e.1)
  refine ⟨fun hto => hlater.runOut (Or.inl hto), fun hout => ⟨fun hto => hout (hlater.runOut (Or.inl hto)), ?_⟩⟩
  intro hp
  cases hp' : (s.1.state.poll c (tick (s.1.now + e.1))).2.1.rxInProgress with
  | true => rfl
  | false => exact (hout (hlater.runOut (Or.inr ⟨hp, hp'⟩))).elim

end IsotpRx

end DualCan.Isotp
