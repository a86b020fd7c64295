import DualCan.Run.Past
import DualCan.Run.Ring
import Mathlib.Data.List.Forall2

/-!
# CAN receive: the queue between the interrupt and the main loop

`CanRxQueue_Push` runs in the receive interrupt, which the main loop cannot interrupt, so it is one step.
`CanRxQueue_Pop` runs in the main loop and is cut at every access to the queue: it reads `head`, reads
`tail`, reads `tail` again, copies the frame a field or a data byte at a time and writes `tail`. A push may
come between any two of these steps.

Beside the queue, a `QueueRun` keeps what happened: the frames pushed with success, the number of failed
pushes and the frames popped. `acceptedPushes` are the successful pushes of a run with their arguments, and
`carried_run` finds them in these frames.
-/

namespace DualCan.Can

open DualCan.Run

/-- `CAN_RX_QUEUE_DEPTH`. -/
abbrev rxQueueDepth : ℕ := 16

/-- `CAN_RX_QUEUE_MAX_DATA`. -/
def rxQueueMaxData : UInt8 := 8

/-- `CanRxFrame_t`. -/
structure CanRxFrame where
  id : UInt32
  length : UInt8
  data : Vector UInt8 8
  deriving DecidableEq

/-- `CanRxQueue_t`. An index of the array is one of its slots. -/
structure CanRxQueue where
  frames : Vector CanRxFrame (rxQueueDepth + 1)
  head : Fin (rxQueueDepth + 1)
  tail : Fin (rxQueueDepth + 1)
  dropped : UInt32
  deriving DecidableEq

namespace CanRxQueue

/-- `CanRxQueue_Init`; the slots keep what they held. -/
def init (frames : Vector CanRxFrame (rxQueueDepth + 1)) : CanRxQueue :=
  { frames := frames, head := 0, tail := 0, dropped := 0 }

/-- The record of a received frame: the data bytes beyond its length are zero. -/
def recordOf (id : UInt32) (data : Vector UInt8 8) (length : UInt8) : CanRxFrame :=
  { id := id
    length := length
    data := Vector.ofFn fun i => if i.val < length.toNat then data[i] else 0 }

/-- `CanRxQueue_Push`; `none` is a null `data`. -/
def push (queue : CanRxQueue) (id : UInt32) (data : Option (Vector UInt8 8)) (length : UInt8) :
    Bool × CanRxQueue :=
  match data with
  | none => (false, { queue with dropped := queue.dropped + 1 })
  | some data =>
    if length > rxQueueMaxData then (false, { queue with dropped := queue.dropped + 1 })
    else
      let index := queue.head
      let next := index + 1
      if next = queue.tail then (false, { queue with dropped := queue.dropped + 1 })
      else
        (true, { queue with
          frames := queue.frames.set index.val (recordOf id data length) index.isLt
          head := next })

end CanRxQueue

/-- The point a call of `CanRxQueue_Pop` has reached; `idle` is between two calls. -/
inductive PopPc where
  | idle
  | headRead (head : Fin (rxQueueDepth + 1))
  | nonEmpty
  | copying (index : Fin (rxQueueDepth + 1)) (copied : ℕ)
  deriving DecidableEq

/-- The memory accesses of `*frame = queue->frames[index]`: the identifier, the length, eight bytes. -/
def copySteps : ℕ := 10

/-- One of them. -/
def copyField (k : ℕ) (source frame : CanRxFrame) : CanRxFrame :=
  match k with
  | 0 => { frame with id := source.id }
  | 1 => { frame with length := source.length }
  | i + 2 => if h : i < 8 then { frame with data := frame.data.set i source.data[i] } else frame

/-- The queue, the main loop's call of `CanRxQueue_Pop` with the frame it fills, and what happened. -/
structure QueueRun where
  queue : CanRxQueue
  pc : PopPc
  frame : CanRxFrame
  accepted : List CanRxFrame
  rejected : ℕ
  popped : List CanRxFrame

namespace QueueRun

/-- A queue after its initialisation. -/
def start (frames : Vector CanRxFrame (rxQueueDepth + 1)) (frame : CanRxFrame) : QueueRun :=
  { queue := .init frames, pc := .idle, frame := frame, accepted := [], rejected := 0, popped := [] }

/-- A push from the interrupt. -/
def push (s : QueueRun) (id : UInt32) (data : Option (Vector UInt8 8)) (length : UInt8) : QueueRun :=
  match s.queue.push id data length, data with
  | (true, queue), some data =>
    { s with queue := queue, accepted := s.accepted ++ [CanRxQueue.recordOf id data length] }
  | (_, queue), _ => { s with queue := queue, rejected := s.rejected + 1 }

/-- One memory step of `CanRxQueue_Pop`, and what the call returns if it returns. -/
def popStep (s : QueueRun) : Option Bool × QueueRun :=
  match s.pc with
  | .idle => (none, { s with pc := .headRead s.queue.head })
  | .headRead head =>
    if head = s.queue.tail then (some false, { s with pc := .idle })
    else (none, { s with pc := .nonEmpty })
  | .nonEmpty => (none, { s with pc := .copying s.queue.tail 0 })
  | .copying index k =>
    if k < copySteps then
      (none, { s with
        frame := copyField k (s.queue.frames.get index) s.frame
        pc := .copying index (k + 1) })
    else
      (some true, { s with
        queue := { s.queue with tail := index + 1 }
        pc := .idle
        popped := s.popped ++ [s.frame] })

@[simp] theorem push_popped (s : QueueRun) (id : UInt32) (data : Option (Vector UInt8 8))
    (length : UInt8) : (s.push id data length).popped = s.popped := by
  unfold push
  split <;> rfl

/-- The log of a push of a frame. -/
theorem push_accepted (s : QueueRun) (id : UInt32) (data : Vector UInt8 8) (length : UInt8) :
    (s.push id (some data) length).accepted =
      if (s.queue.push id (some data) length).1 then
        s.accepted ++ [CanRxQueue.recordOf id data length]
      else s.accepted := by
  unfold push
  rcases s.queue.push id (some data) length with ⟨ok, queue⟩
  cases ok <;> rfl

/-- The logs of a pop: the frame is popped in the step in which the call returns it. -/
theorem popStep_log (s : QueueRun) : s.popStep.2.accepted = s.accepted ∧
    ((s.popStep.1 = some true ∧ s.popStep.2.popped = s.popped ++ [s.popStep.2.frame]) ∨
      (s.popStep.1 ≠ some true ∧ s.popStep.2.popped = s.popped)) := by
  unfold popStep
  cases s.pc with
  | idle => exact ⟨rfl, Or.inr ⟨nofun, rfl⟩⟩
  | headRead head =>
    dsimp only
    split
    · exact ⟨rfl, Or.inr ⟨nofun, rfl⟩⟩
    · exact ⟨rfl, Or.inr ⟨nofun, rfl⟩⟩
  | nonEmpty => exact ⟨rfl, Or.inr ⟨nofun, rfl⟩⟩
  | copying index k =>
    dsimp only
    split
    · exact ⟨rfl, Or.inr ⟨nofun, rfl⟩⟩
    · exact ⟨rfl, Or.inl ⟨rfl, rfl⟩⟩

inductive Event where
  | push (id : UInt32) (data : Option (Vector UInt8 8)) (length : UInt8)
  | pop

def step (s : QueueRun) : Event → QueueRun
  | .push id data length => s.push id data length
  | .pop => s.popStep.2

/-! ## The pushes of a run -/

/-- What the interrupt hands to `CanRxQueue_Push`. -/
structure PushArgs where
  id : UInt32
  data : Vector UInt8 8
  length : UInt8

/-- The frame is what was pushed: its identifier, its length and that many bytes, then zeros. -/
structure PushArgs.Carried (args : PushArgs) (frame : CanRxFrame) : Prop where
  id : frame.id = args.id
  length : frame.length = args.length
  data : ∀ i (h : i < 8), i < args.length.toNat → frame.data[i] = args.data[i]
  zeros : ∀ i (h : i < 8), args.length.toNat ≤ i → frame.data[i] = 0

/-- The push of an event, if it succeeds. -/
def acceptedPush (s : QueueRun) : Event → Option PushArgs
  | .push id (some data) length => if (s.queue.push id (some data) length).1 then some ⟨id, data, length⟩ else none
  | .push _ none _ => none
  | .pop => none

/-- The pushes of a run that succeed, oldest first. -/
def acceptedPushes (s : QueueRun) : List Event → List PushArgs
  | [] => []
  | e :: es => (s.acceptedPush e).toList ++ acceptedPushes (s.step e) es

theorem carried_recordOf (id : UInt32) (data : Vector UInt8 8) (length : UInt8) :
    PushArgs.Carried ⟨id, data, length⟩ (CanRxQueue.recordOf id data length) where
  id := rfl
  length := rfl
  data i h hdata := by
    rw [CanRxQueue.recordOf, Vector.getElem_ofFn, if_pos hdata]
    rfl
  zeros i h hzero := by
    rw [CanRxQueue.recordOf, Vector.getElem_ofFn, if_neg (Nat.not_lt.2 hzero)]

/-- An event adds to the log the push that it makes, if that succeeds. -/
theorem carried_step {s : QueueRun} {pushes : List PushArgs}
    (h : List.Forall₂ PushArgs.Carried pushes s.accepted) (e : Event) :
    List.Forall₂ PushArgs.Carried (pushes ++ (s.acceptedPush e).toList) (s.step e).accepted := by
  cases e with
  | pop =>
    have hsame : (s.step .pop).accepted = s.accepted := (popStep_log s).1
    rw [hsame, acceptedPush, Option.toList_none, List.append_nil]
    exact h
  | push id data length =>
    cases data with
    | none =>
      rw [acceptedPush, Option.toList_none, List.append_nil]
      exact h
    | some data =>
      rw [step, push_accepted, acceptedPush]
      split
      · exact List.rel_append h (.cons (carried_recordOf id data length) .nil)
      · rw [Option.toList_none, List.append_nil]
        exact h

/-- The accepted frames of a run are those of its successful pushes. -/
theorem carried_run {s : QueueRun} {pushes : List PushArgs} (h : List.Forall₂ PushArgs.Carried pushes s.accepted)
    (es : List Event) :
    List.Forall₂ PushArgs.Carried (pushes ++ s.acceptedPushes es) (after step s es).accepted := by
  induction es generalizing s pushes with
  | nil =>
    rw [acceptedPushes, List.append_nil]
    exact h
  | cons e es ih =>
    rw [acceptedPushes, ← List.append_assoc, after_cons]
    exact ih (carried_step h e)

/-! ## The copy -/

/-- `frame` agrees with `source` in what `k` accesses have copied. -/
structure Copied (k : ℕ) (source frame : CanRxFrame) : Prop where
  id : 0 < k → frame.id = source.id
  length : 1 < k → frame.length = source.length
  data : ∀ i (h : i < 8), i + 2 < k → frame.data[i] = source.data[i]

theorem Copied.zero (source frame : CanRxFrame) : Copied 0 source frame :=
  ⟨fun h => absurd h (Nat.lt_irrefl 0), fun h => absurd h (by decide),
    fun i _ h => absurd h (Nat.not_lt_zero _)⟩

theorem Copied.succ {k : ℕ} {source frame : CanRxFrame} (h : Copied k source frame) :
    Copied (k + 1) source (copyField k source frame) := by
  match k with
  | 0 => exact ⟨fun _ => rfl, fun h => absurd h (by decide), fun i _ h => absurd h (by omega)⟩
  | 1 => exact ⟨fun _ => h.id (by decide), fun _ => rfl, fun i _ h => absurd h (by omega)⟩
  | j + 2 =>
    by_cases hj : j < 8
    · simp only [copyField, dif_pos hj]
      refine ⟨fun _ => h.id (by omega), fun _ => h.length (by omega), fun i hi hlt => ?_⟩
      rcases Nat.lt_or_eq_of_le (show i ≤ j by omega) with hold | rfl
      · rw [Vector.getElem_set_ne _ _ (by omega)]
        exact h.data i hi (by omega)
      · exact Vector.getElem_set_self _
    · simp only [copyField, dif_neg hj]
      exact ⟨fun _ => h.id (by omega), fun _ => h.length (by omega), fun i hi _ => h.data i hi (by omega)⟩

/-- All accesses copy the whole frame. -/
theorem Copied.eq {k : ℕ} {source frame : CanRxFrame} (h : Copied k source frame) (hk : copySteps ≤ k) :
    frame = source := by
  unfold copySteps at hk
  obtain ⟨id, length, data⟩ := frame
  obtain rfl : id = source.id := h.id (by omega)
  obtain rfl : length = source.length := h.length (by omega)
  have hdata : data = source.data := by
    apply Vector.ext
    intro i hi
    exact h.data i hi (by omega)
  rw [hdata]

/-! ## The invariant -/

variable {s : QueueRun}

/-- What a call in progress knows. A `head` it has read is a position no push has gone back from. -/
def PcSound (s : QueueRun) : PopPc → Prop
  | .idle => True
  | .headRead head => ∃ n, s.popped.length ≤ n ∧ n ≤ s.accepted.length ∧
      head = Ring.index (rxQueueDepth + 1) n
  | .nonEmpty => s.popped.length < s.accepted.length
  | .copying index k => index = s.queue.tail ∧
      ∃ source, s.accepted[s.popped.length]? = some source ∧ Copied k source s.frame

/-- The ring holds the accepted frames that were not popped, the popped ones are the first accepted. -/
structure Sound (s : QueueRun) : Prop where
  window : Ring.Window s.queue.frames s.accepted s.popped.length
  head : s.queue.head = Ring.index (rxQueueDepth + 1) s.accepted.length
  tail : s.queue.tail = Ring.index (rxQueueDepth + 1) s.popped.length
  inOrder : s.popped = s.accepted.take s.popped.length
  dropped : s.queue.dropped.toNat = s.rejected % 2 ^ 32
  pc : PcSound s s.pc

theorem Sound.start (frames : Vector CanRxFrame (rxQueueDepth + 1)) (frame : CanRxFrame) :
    Sound (start frames frame) :=
  ⟨Ring.Window.empty frames, rfl, rfl, rfl, rfl, trivial⟩

/-- The test of `CanRxQueue_Push` for a full queue. -/
theorem Sound.full_iff (h : Sound s) : s.queue.head + 1 = s.queue.tail ↔
    s.accepted.length = s.popped.length + rxQueueDepth := by
  rw [h.head, h.tail, h.window.full_iff]
  omega

theorem dropped_succ {dropped : UInt32} {rejected : ℕ} (h : dropped.toNat = rejected % 2 ^ 32) :
    (dropped + 1).toNat = (rejected + 1) % 2 ^ 32 := by
  have hone : (1 : UInt32).toNat = 1 := rfl
  rw [UInt32.toNat_add, h, hone]
  omega

/-- A failed push counts, and does nothing else. -/
theorem Sound.reject (h : Sound s) :
    Sound { s with
      queue := { s.queue with dropped := s.queue.dropped + 1 }, rejected := s.rejected + 1 } := by
  refine ⟨h.window, h.head, h.tail, h.inOrder, dropped_succ h.dropped, ?_⟩
  have hpc := h.pc
  simp only
  cases hs : s.pc with
  | idle => trivial
  | headRead head =>
    rw [hs] at hpc
    exact hpc
  | nonEmpty =>
    rw [hs] at hpc
    exact hpc
  | copying index k =>
    rw [hs] at hpc
    exact hpc

/-- A successful push takes the slot at `head`, which no call in progress reads. -/
theorem Sound.accept (h : Sound s) (hroom : s.queue.head + 1 ≠ s.queue.tail) (frame : CanRxFrame) :
    Sound { s with
      queue := { s.queue with
        frames := s.queue.frames.set s.queue.head.val frame s.queue.head.isLt
        head := s.queue.head + 1 }
      accepted := s.accepted ++ [frame] } := by
  have hle := h.window.le
  have hlt : s.accepted.length + 1 < s.popped.length + (rxQueueDepth + 1) := by
    have hne : s.accepted.length ≠ s.popped.length + rxQueueDepth := fun heq => hroom (h.full_iff.2 heq)
    have hmax := h.window.room
    exact Nat.lt_of_le_of_ne hmax (by omega)
  have hlen : (s.accepted ++ [frame]).length = s.accepted.length + 1 := by simp
  refine ⟨?_, ?_, h.tail, ?_, h.dropped, ?_⟩
  · have hpush := h.window.push hlt frame
    simp only [h.head]
    exact hpush
  · simp only [hlen]
    rw [h.head, Ring.index_succ]
  · simp only
    rw [List.take_append_of_le_length hle]
    exact h.inOrder
  · have hpc := h.pc
    simp only
    cases hs : s.pc with
    | idle => trivial
    | headRead head =>
      rw [hs] at hpc
      obtain ⟨n, hfrom, hto, hhead⟩ := hpc
      exact ⟨n, hfrom, by simp only [hlen]; omega, hhead⟩
    | nonEmpty =>
      rw [hs] at hpc
      have hmore : s.popped.length < s.accepted.length := hpc
      show s.popped.length < (s.accepted ++ [frame]).length
      rw [hlen]
      exact Nat.lt_succ_of_lt hmore
    | copying index k =>
      rw [hs] at hpc
      obtain ⟨htail, source, hsource, hcopied⟩ := hpc
      refine ⟨htail, source, ?_, hcopied⟩
      simp only
      rw [List.getElem?_append_left (List.getElem?_eq_some_iff.1 hsource).1]
      exact hsource

theorem Sound.push (h : Sound s) (id : UInt32) (data : Option (Vector UInt8 8)) (length : UInt8) :
    Sound (s.push id data length) := by
  unfold QueueRun.push CanRxQueue.push
  cases data with
  | none => exact h.reject
  | some data =>
    by_cases hlong : length > rxQueueMaxData
    · simp only [if_pos hlong]
      exact h.reject
    · simp only [if_neg hlong]
      by_cases hfull : s.queue.head + 1 = s.queue.tail
      · simp only [if_pos hfull]
        exact h.reject
      · simp only [if_neg hfull]
        exact h.accept hfull _

theorem Sound.popStep (h : Sound s) : Sound s.popStep.2 := by
  have hpc := h.pc
  have hle := h.window.le
  unfold QueueRun.popStep
  cases hs : s.pc with
  | idle => exact ⟨h.window, h.head, h.tail, h.inOrder, h.dropped, _, hle, Nat.le_refl _, h.head⟩
  | headRead head =>
    rw [hs] at hpc
    obtain ⟨n, hfrom, hto, hhead⟩ := hpc
    simp only
    split
    · exact ⟨h.window, h.head, h.tail, h.inOrder, h.dropped, trivial⟩
    · next hne =>
      refine ⟨h.window, h.head, h.tail, h.inOrder, h.dropped, ?_⟩
      show s.popped.length < s.accepted.length
      by_contra hempty
      obtain rfl : n = s.popped.length := by omega
      exact hne (hhead.trans h.tail.symm)
  | nonEmpty =>
    rw [hs] at hpc
    have hmore : s.popped.length < s.accepted.length := hpc
    exact ⟨h.window, h.head, h.tail, h.inOrder, h.dropped, rfl, _, List.getElem?_eq_getElem hmore,
      Copied.zero _ _⟩
  | copying index k =>
    rw [hs] at hpc
    obtain ⟨rfl, source, hsource, hcopied⟩ := hpc
    obtain ⟨hmore, hget⟩ := List.getElem?_eq_some_iff.1 hsource
    simp only
    split
    · refine ⟨h.window, h.head, h.tail, h.inOrder, h.dropped, rfl, source, hsource, ?_⟩
      -- the slot still holds the frame that was first when the call found the queue not empty
      have hslot : s.queue.frames.get s.queue.tail = source := by
        rw [h.tail, h.window.first hmore, hget]
      simp only [hslot]
      exact hcopied.succ
    · next hdone =>
      have hframe : s.frame = source := hcopied.eq (by omega)
      have hlen : (s.popped ++ [s.frame]).length = s.popped.length + 1 := by simp
      refine ⟨?_, h.head, ?_, ?_, h.dropped, trivial⟩
      · simp only [hlen]
        exact h.window.release hmore
      · simp only [hlen]
        rw [h.tail, Ring.index_succ]
      · simp only [hlen]
        rw [List.take_add_one, hsource, ← h.inOrder, hframe]
        rfl

theorem Sound.step (h : Sound s) (e : Event) : Sound (s.step e) := by
  cases e with
  | push id data length => exact h.push id data length
  | pop => exact h.popStep

theorem sound_run (frames : Vector CanRxFrame (rxQueueDepth + 1)) (frame : CanRxFrame)
    (es : List Event) : Sound (after step (start frames frame) es) :=
  after_invariant (I := Sound) (.start frames frame) (fun _ e h => h.step e) es

/-- **The queue under interrupts.** However pushes fall between the memory steps of the pops, the accepted
frames are what the successful pushes were given, the popped frames are the first accepted ones in order, the
others are still in their slots, a push of a frame is rejected exactly when as many accepted frames as the
queue is deep are not popped, and `dropped` counts the rejected pushes. -/
theorem queue_under_interrupts (frames : Vector CanRxFrame (rxQueueDepth + 1)) (frame : CanRxFrame)
    (es : List Event) :
    let s := after step (start frames frame) es
    let pushes := acceptedPushes (start frames frame) es
    List.Forall₂ PushArgs.Carried pushes s.accepted ∧
    List.Forall₂ PushArgs.Carried (pushes.take s.popped.length) s.popped ∧
    s.popped <+: s.accepted ∧
    (∀ i, s.popped.length ≤ i → ∀ h : i < s.accepted.length,
      s.queue.frames.get (Ring.index (rxQueueDepth + 1) i) = s.accepted[i]) ∧
    (∀ id data length, length ≤ rxQueueMaxData →
      ((s.queue.push id (some data) length).1 = false ↔
        s.accepted.length = s.popped.length + rxQueueDepth)) ∧
    s.queue.dropped.toNat = s.rejected % 2 ^ 32 := by
  intro s pushes
  have h : Sound s := sound_run frames frame es
  have hcarried : List.Forall₂ PushArgs.Carried pushes s.accepted := carried_run (s := start frames frame) .nil es
  refine ⟨hcarried, ?_, ?_, h.window.holds, ?_, h.dropped⟩
  · have hfirst := List.forall₂_take s.popped.length hcarried
    rwa [← h.inOrder] at hfirst
  · rw [h.inOrder]
    exact List.take_prefix _ _
  · intro id data length hlength
    have hshort : ¬length > rxQueueMaxData := UInt8.not_lt.2 hlength
    rw [← h.full_iff]
    unfold CanRxQueue.push
    simp only [if_neg hshort]
    split
    · next hfull => simp [hfull]
    · next hfull => simp [hfull]

end QueueRun

end DualCan.Can
