import DualCan.Can.RxQueue

/-!
# CAN receive: from the controller to the transport

The way of a received frame through `can_driver.c` and the default build's `APP_OnCanRx`: the acceptance
filters choose a FIFO, the interrupt handler turns the header into an identifier and pushes it into the
FIFO's queue, `CanDriver_ProcessRx` empties the two queues, and the callback hands frames of eight bytes
under the node's request identifier to `Isotp_RouteFrame`. The interrupt may come between any two memory
steps of the pops.

The header's IDE and RTR bits end in the interrupt handler: `id` is the number of a standard or of an
extended identifier alike, and the queue has no place for RTR. So a frame that only looks like a request
(`looksLikeRequest`) is routed like one, and `routed_iff` says that this is the only difference.
-/

namespace DualCan.Can

open DualCan.Run

/-! ## The controller -/

inductive Identifier where
  | std (id : Fin (2 ^ 11))
  | ext (id : Fin (2 ^ 29))
  deriving DecidableEq

/-- A received frame, as `HAL_CAN_GetRxMessage` returns its header and data. -/
structure RxMessage where
  identifier : Identifier
  rtr : Bool
  dlc : Fin (2 ^ 4)
  data : Vector UInt8 8
  deriving DecidableEq

namespace RxMessage

/-- `(rx_header.IDE == CAN_ID_EXT) ? rx_header.ExtId : rx_header.StdId`. -/
def id (m : RxMessage) : UInt32 :=
  match m.identifier with
  | .std id => UInt32.ofNat id
  | .ext id => UInt32.ofNat id

/-- `(uint8_t)rx_header.DLC`. -/
def length (m : RxMessage) : UInt8 := UInt8.ofNat m.dlc

/-- The identifier register a filter is compared with: STID or EXID from the top, then IDE and RTR. -/
def word (m : RxMessage) : UInt32 :=
  let rtr : UInt32 := if m.rtr then 0x2 else 0
  match m.identifier with
  | .std id => UInt32.ofNat id <<< 21 ||| rtr
  | .ext id => UInt32.ofNat id <<< 3 ||| 0x4 ||| rtr

end RxMessage

inductive Fifo where
  | fifo0
  | fifo1
  deriving DecidableEq

/-- `CAN_FilterTypeDef` of an active bank in 32-bit mask mode. -/
structure CanFilter where
  fifoAssignment : Fifo
  idHigh : UInt32
  idLow : UInt32
  maskIdHigh : UInt32
  maskIdLow : UInt32

/-- Mask mode: the bits set in the mask are equal to the identifier's. -/
def CanFilter.accepts (f : CanFilter) (word : UInt32) : Bool :=
  let mask := (f.maskIdHigh &&& 0xFFFF) <<< 16 ||| (f.maskIdLow &&& 0xFFFF)
  let id := (f.idHigh &&& 0xFFFF) <<< 16 ||| (f.idLow &&& 0xFFFF)
  word &&& mask = id &&& mask

def backgroundId : UInt32 := 0x7F0
def frameLossId : UInt32 := 0x6F0

/-- `CanDriver_ConfigureFilter`: its banks, in their order. -/
def configureFilter : List CanFilter :=
  [{ fifoAssignment := .fifo1, idHigh := backgroundId <<< 5, idLow := 0,
     maskIdHigh := (0x7FF : UInt32) <<< 5, maskIdLow := 0 },
   { fifoAssignment := .fifo1, idHigh := frameLossId <<< 5, idLow := 0,
     maskIdHigh := (0x7FE : UInt32) <<< 5, maskIdLow := 0 },
   { fifoAssignment := .fifo0, idHigh := 0, idLow := 0, maskIdHigh := 0, maskIdLow := 0 }]

/-- The FIFO that gets a frame: that of the first bank that accepts it. -/
def fifoOf (m : RxMessage) : Option Fifo :=
  (configureFilter.find? (·.accepts m.word)).map (·.fifoAssignment)

/-! ## The callback -/

inductive Node where
  | ecuF407
  | ecuF103
  deriving DecidableEq

/-- `APP_CAN_ID`. -/
def appCanId : UInt32 := 0x123

/-- `APP_ISOTP_RX_ID` of a node's default build. -/
def appIsotpRxId : Node → UInt32
  | .ecuF407 => 0x7E0
  | .ecuF103 => 0x7E1

/-- What the callback does with a frame. -/
inductive RxAction where
  | setLed (bit : Bool)
  | routeFrame (data : Vector UInt8 8)
  | ignore
  deriving DecidableEq

theorem first_lt : 0 < 8 := by decide

/-- `APP_OnCanRx` of a default build. -/
def appOnCanRx (node : Node) (frame : CanRxFrame) : RxAction :=
  if frame.id = appCanId ∧ 1 ≤ frame.length then .setLed (getElem frame.data 0 first_lt &&& 0x01 ≠ 0)
  else if frame.id = appIsotpRxId node ∧ frame.length = 8 then .routeFrame frame.data
  else .ignore

/-- The frames handed to `Isotp_RouteFrame`, with one more callback. -/
def routeAction (routed : List (Vector UInt8 8)) : RxAction → List (Vector UInt8 8)
  | .routeFrame data => routed ++ [data]
  | _ => routed

/-! ## The driver -/

/-- The two queues, the loop of `CanDriver_ProcessRx` that the main loop is in (`none` outside), the frames
pushed with success in order, and the frames handed to `Isotp_RouteFrame`. -/
structure RxPath where
  priorityRxQueue : QueueRun
  rxQueue : QueueRun
  loop : Option Fifo
  queued : List RxMessage
  routed : List (Vector UInt8 8)

namespace RxPath

def start (frames frames' : Vector CanRxFrame (rxQueueDepth + 1)) (frame frame' : CanRxFrame) : RxPath :=
  { priorityRxQueue := .start frames frame
    rxQueue := .start frames' frame'
    loop := none
    queued := []
    routed := [] }

/-- The queue a FIFO is emptied into. -/
def queueOf (s : RxPath) : Fifo → QueueRun
  | .fifo0 => s.priorityRxQueue
  | .fifo1 => s.rxQueue

def setQueue (s : RxPath) (queue : QueueRun) : Fifo → RxPath
  | .fifo0 => { s with priorityRxQueue := queue }
  | .fifo1 => { s with rxQueue := queue }

/-- One pass of a loop of `CanDriver_RxIrqHandler`. -/
def receive (fifo : Fifo) (s : RxPath) (m : RxMessage) : RxPath :=
  let accepted := ((s.queueOf fifo).queue.push m.id (some m.data) m.length).1
  let s' := s.setQueue ((s.queueOf fifo).push m.id (some m.data) m.length) fifo
  { s' with queued := if accepted then s.queued ++ [m] else s.queued }

/-- `CanDriver_RxIrqHandler`, for the frames that have arrived since it ran last: FIFO 0, then FIFO 1. -/
def rxIrqHandler (s : RxPath) (arrived : List RxMessage) : RxPath :=
  (arrived.filter (fifoOf · = some .fifo1)).foldl (receive .fifo1)
    ((arrived.filter (fifoOf · = some .fifo0)).foldl (receive .fifo0) s)

/-- What a loop of `CanDriver_ProcessRx` does when its pop has returned: the callback after a frame, the
next loop after an empty queue. -/
def popReturned (node : Node) (fifo : Fifo) (frame : CanRxFrame) (s : RxPath) : Option Bool → RxPath
  | none => s
  | some true => { s with routed := routeAction s.routed (appOnCanRx node frame) }
  | some false => { s with loop := if fifo = .fifo0 then some .fifo1 else none }

/-- One step of `CanDriver_ProcessRx`: enter it, or a memory step of the loop's pop. -/
def processRx (node : Node) (s : RxPath) : RxPath :=
  match s.loop with
  | none => { s with loop := some .fifo0 }
  | some fifo =>
    let (returned, queue) := (s.queueOf fifo).popStep
    popReturned node fifo queue.frame (s.setQueue queue fifo) returned

inductive Event where
  | interrupt (arrived : List RxMessage)
  | process

def step (node : Node) (s : RxPath) : Event → RxPath
  | .interrupt arrived => s.rxIrqHandler arrived
  | .process => s.processRx node

end RxPath

/-! ## Requests and look-alikes -/

/-- A standard data frame of eight bytes under the node's request identifier. -/
def isRequest (node : Node) (m : RxMessage) : Bool :=
  match m.identifier with
  | .std _ => !m.rtr && m.id = appIsotpRxId node && m.dlc = 8
  | .ext _ => false

/-- What is left of that when IDE and RTR are dropped. -/
def looksLikeRequest (node : Node) (m : RxMessage) : Bool :=
  m.id = appIsotpRxId node && m.dlc = 8

variable {node : Node} {m : RxMessage}

theorem looksLikeRequest_of_isRequest (h : isRequest node m = true) : looksLikeRequest node m = true := by
  unfold isRequest at h
  unfold looksLikeRequest
  split at h
  · simp only [Bool.and_eq_true] at h ⊢
    exact ⟨h.1.2, h.2⟩
  · cases h

/-- The identifier registers a frame numbered `n` can have. -/
theorem word_of_id {n : ℕ} (h : m.id = UInt32.ofNat n) :
    m.word = UInt32.ofNat n <<< 21 ∨ m.word = UInt32.ofNat n <<< 21 ||| 0x2 ∨
      m.word = UInt32.ofNat n <<< 3 ||| 0x4 ∨ m.word = UInt32.ofNat n <<< 3 ||| 0x4 ||| 0x2 := by
  unfold RxMessage.id at h
  unfold RxMessage.word
  cases hi : m.identifier with
  | std id =>
    simp only [hi] at h ⊢
    rw [h]
    cases m.rtr with
    | false => exact Or.inl (by simp)
    | true => exact Or.inr (Or.inl rfl)
  | ext id =>
    simp only [hi] at h ⊢
    rw [h]
    cases m.rtr with
    | false => exact Or.inr (Or.inr (Or.inl (by simp)))
    | true => exact Or.inr (Or.inr (Or.inr rfl))

/-- The filters send whatever carries the request identifier to FIFO 0. -/
theorem fifoOf_request (h : m.id = appIsotpRxId node) : fifoOf m = some .fifo0 := by
  unfold fifoOf
  cases node with
  | ecuF407 => rcases word_of_id (n := 0x7E0) h with hw | hw | hw | hw <;> rw [hw] <;> decide
  | ecuF103 => rcases word_of_id (n := 0x7E1) h with hw | hw | hw | hw <;> rw [hw] <;> decide

/-! ## The queue's records -/

/-- The record of a message in its queue. -/
def recordOf (m : RxMessage) : CanRxFrame := CanRxQueue.recordOf m.id m.data m.length

/-- The callback hands the record on. -/
def isRouted (node : Node) (frame : CanRxFrame) : Bool :=
  frame.id = appIsotpRxId node && frame.length = 8

theorem routeAction_appOnCanRx (node : Node) (routed : List (Vector UInt8 8)) (frame : CanRxFrame) :
    routeAction routed (appOnCanRx node frame) =
      routed ++ (([frame].filter (isRouted node)).map (·.data)) := by
  have hdistinct : appIsotpRxId node ≠ appCanId := by
    cases node <;> decide
  unfold appOnCanRx isRouted
  by_cases hled : frame.id = appCanId ∧ 1 ≤ frame.length
  · have hno : frame.id ≠ appIsotpRxId node := fun h => hdistinct (h.symm.trans hled.1)
    simp [if_pos hled, routeAction, hno]
  · rw [if_neg hled]
    by_cases hroute : frame.id = appIsotpRxId node ∧ frame.length = 8
    · simp [routeAction, hroute.1, hroute.2]
    · rw [if_neg hroute]
      have hnone : ([frame].filter fun frame =>
          decide (frame.id = appIsotpRxId node) && decide (frame.length = 8)) = [] := by
        simpa using hroute
      rw [hnone]
      simp [routeAction]

theorem isRouted_recordOf (m : RxMessage) : isRouted node (recordOf m) = looksLikeRequest node m := by
  have hlength : (recordOf m).length = 8 ↔ m.dlc = 8 := by
    have key : ∀ dlc : Fin (2 ^ 4), UInt8.ofNat dlc = 8 ↔ dlc = 8 := by decide
    exact key m.dlc
  unfold isRouted looksLikeRequest
  rw [decide_eq_decide.2 hlength]
  rfl

/-- A full record has all the data bytes. -/
theorem data_recordOf (h : looksLikeRequest node m = true) : (recordOf m).data = m.data := by
  have hdlc : m.dlc = 8 := by
    unfold looksLikeRequest at h
    simp only [Bool.and_eq_true, decide_eq_true_eq] at h
    exact h.2
  have hlength : m.length.toNat = 8 := by
    rw [RxMessage.length, hdlc]
    rfl
  apply Vector.ext
  intro i hi
  simp [recordOf, CanRxQueue.recordOf, hlength]

/-! ## The invariant -/

namespace RxPath

variable {s : RxPath}

@[simp] theorem queueOf_setQueue (s : RxPath) (queue : QueueRun) (fifo : Fifo) :
    (s.setQueue queue fifo).queueOf fifo = queue := by
  cases fifo <;> rfl

theorem queueOf_setQueue_ne (s : RxPath) (queue : QueueRun) {fifo fifo' : Fifo} (h : fifo' ≠ fifo) :
    (s.setQueue queue fifo).queueOf fifo' = s.queueOf fifo' := by
  cases fifo <;> cases fifo' <;> first | rfl | exact absurd rfl h

@[simp] theorem setQueue_queued (s : RxPath) (queue : QueueRun) (fifo : Fifo) :
    (s.setQueue queue fifo).queued = s.queued := by
  cases fifo <;> rfl

@[simp] theorem setQueue_routed (s : RxPath) (queue : QueueRun) (fifo : Fifo) :
    (s.setQueue queue fifo).routed = s.routed := by
  cases fifo <;> rfl

/-- The messages queued behind a FIFO. -/
def queuedBehind (s : RxPath) (fifo : Fifo) : List RxMessage :=
  s.queued.filter (fifoOf · = some fifo)

/-- Each queue has accepted what its FIFO brought; what was routed are the records popped from the priority
queue that the callback hands on. -/
structure Sound (node : Node) (s : RxPath) : Prop where
  queues : ∀ fifo, QueueRun.Sound (s.queueOf fifo)
  accepted : ∀ fifo, (s.queueOf fifo).accepted = (s.queuedBehind fifo).map recordOf
  routed : s.routed = ((s.queueOf .fifo0).popped.filter (isRouted node)).map (·.data)

theorem Sound.start (node : Node) (frames frames' : Vector CanRxFrame (rxQueueDepth + 1))
    (frame frame' : CanRxFrame) : Sound node (start frames frames' frame frame') := by
  refine ⟨?_, ?_, rfl⟩
  · intro fifo
    cases fifo
    · exact .start frames frame
    · exact .start frames' frame'
  · intro fifo
    cases fifo <;> rfl

theorem receive_queueOf (s : RxPath) (fifo : Fifo) (m : RxMessage) :
    (receive fifo s m).queueOf fifo = (s.queueOf fifo).push m.id (some m.data) m.length := by
  cases fifo <;> rfl

theorem receive_queueOf_ne (s : RxPath) {fifo fifo' : Fifo} (h : fifo' ≠ fifo) (m : RxMessage) :
    (receive fifo s m).queueOf fifo' = s.queueOf fifo' := by
  cases fifo <;> cases fifo' <;> first | rfl | exact absurd rfl h

theorem Sound.receive (h : Sound node s) {fifo : Fifo} (hm : fifoOf m = some fifo) :
    Sound node (receive fifo s m) := by
  have hqueued : (RxPath.receive fifo s m).queued =
      if ((s.queueOf fifo).queue.push m.id (some m.data) m.length).1 then s.queued ++ [m]
      else s.queued := rfl
  refine ⟨?_, ?_, ?_⟩
  · intro fifo'
    by_cases hf : fifo' = fifo
    · rw [hf, receive_queueOf]
      exact (h.queues fifo).push _ _ _
    · rw [receive_queueOf_ne s hf]
      exact h.queues fifo'
  · intro fifo'
    by_cases hf : fifo' = fifo
    · rw [hf, receive_queueOf, QueueRun.push_accepted, queuedBehind, hqueued]
      split
      · rw [List.filter_append, List.map_append, h.accepted, queuedBehind]
        simp [hm, recordOf]
      · exact h.accepted fifo
    · rw [receive_queueOf_ne s hf, h.accepted, queuedBehind, queuedBehind, hqueued]
      have hskip : fifoOf m ≠ some fifo' := by
        rw [hm]
        exact fun he => hf (Option.some.inj he).symm
      split
      · simp [hskip]
      · rfl
  · have hpopped : ((RxPath.receive fifo s m).queueOf .fifo0).popped = (s.queueOf .fifo0).popped := by
      by_cases hf : Fifo.fifo0 = fifo
      · rw [← hf, receive_queueOf, QueueRun.push_popped]
      · rw [receive_queueOf_ne s hf]
    have hrouted : (RxPath.receive fifo s m).routed = s.routed := by
      cases fifo <;> rfl
    rw [hpopped, hrouted]
    exact h.routed

theorem Sound.receiveAll (h : Sound node s) {fifo : Fifo} {ms : List RxMessage}
    (hms : ∀ m ∈ ms, fifoOf m = some fifo) : Sound node (ms.foldl (RxPath.receive fifo) s) := by
  induction ms generalizing s with
  | nil => exact h
  | cons m ms ih =>
    rw [List.foldl_cons]
    apply ih (h.receive (hms m List.mem_cons_self))
    exact fun m' hm' => hms m' (List.mem_cons_of_mem _ hm')

theorem Sound.rxIrqHandler (h : Sound node s) (arrived : List RxMessage) :
    Sound node (s.rxIrqHandler arrived) := by
  unfold RxPath.rxIrqHandler
  apply Sound.receiveAll
  · apply h.receiveAll
    intro m hm
    exact of_decide_eq_true (List.mem_filter.1 hm).2
  · intro m hm
    exact of_decide_eq_true (List.mem_filter.1 hm).2

/-- No record of the queue behind FIFO 1 is routed. -/
theorem not_isRouted_fifo1 (node : Node) {frame : CanRxFrame}
    (h : frame ∈ (s.queuedBehind .fifo1).map recordOf) :
    isRouted node frame = false := by
  obtain ⟨m, hm, rfl⟩ := List.mem_map.1 h
  have hfifo : fifoOf m = some .fifo1 := of_decide_eq_true (List.mem_filter.1 hm).2
  by_contra hrouted
  have hlook : looksLikeRequest node m = true := by
    rw [← isRouted_recordOf]
    simpa using hrouted
  unfold looksLikeRequest at hlook
  simp only [Bool.and_eq_true, decide_eq_true_eq] at hlook
  rw [fifoOf_request hlook.1] at hfifo
  cases hfifo

/-- The queues and the frames routed are all that matters. -/
theorem Sound.congr {s' : RxPath} (h : Sound node s) (hqueues : ∀ fifo, s'.queueOf fifo = s.queueOf fifo)
    (hqueued : s'.queued = s.queued) (hrouted : s'.routed = s.routed) : Sound node s' := by
  refine ⟨fun fifo => ?_, fun fifo => ?_, ?_⟩
  · rw [hqueues]
    exact h.queues fifo
  · rw [hqueues, h.accepted, queuedBehind, queuedBehind, hqueued]
  · rw [hqueues, hrouted]
    exact h.routed

/-- A queue after a step of its pop, with the frames routed after it. -/
theorem Sound.popped (h : Sound node s) {fifo : Fifo} {queue : QueueRun} (hsound : queue.Sound)
    (haccepted : queue.accepted = (s.queueOf fifo).accepted) (routed : List (Vector UInt8 8))
    (hrouted : routed = (((s.setQueue queue fifo).queueOf .fifo0).popped.filter
      (isRouted node)).map (·.data)) :
    Sound node { s.setQueue queue fifo with routed := routed } := by
  have hqueues : ∀ fifo', ({ s.setQueue queue fifo with routed := routed } : RxPath).queueOf fifo' =
      (s.setQueue queue fifo).queueOf fifo' := by
    intro fifo'
    cases fifo' <;> rfl
  have hqueued : ({ s.setQueue queue fifo with routed := routed } : RxPath).queued = s.queued :=
    setQueue_queued s queue fifo
  refine ⟨fun fifo' => ?_, fun fifo' => ?_, ?_⟩
  · rw [hqueues]
    by_cases hf : fifo' = fifo
    · rw [hf, queueOf_setQueue]
      exact hsound
    · rw [queueOf_setQueue_ne s queue hf]
      exact h.queues fifo'
  · rw [hqueues, queuedBehind, hqueued]
    by_cases hf : fifo' = fifo
    · rw [hf, queueOf_setQueue, haccepted]
      exact h.accepted fifo
    · rw [queueOf_setQueue_ne s queue hf]
      exact h.accepted fifo'
  · rw [hqueues]
    exact hrouted

/-- A step of a pop that returns no frame. -/
theorem Sound.setQueue (h : Sound node s) {fifo : Fifo} {queue : QueueRun} (hsound : queue.Sound)
    (haccepted : queue.accepted = (s.queueOf fifo).accepted)
    (hpopped : queue.popped = (s.queueOf fifo).popped) : Sound node (s.setQueue queue fifo) := by
  refine (h.popped hsound haccepted s.routed ?_).congr ?_ rfl (setQueue_routed s queue fifo)
  · rw [h.routed]
    by_cases hf : Fifo.fifo0 = fifo
    · subst hf
      rw [queueOf_setQueue, hpopped]
    · rw [queueOf_setQueue_ne s queue hf]
  · intro fifo'
    cases fifo' <;> rfl

/-- The step in which a pop returns a frame, with its callback. -/
theorem Sound.callback (h : Sound node s) {fifo : Fifo} {queue : QueueRun} (hsound : queue.Sound)
    (haccepted : queue.accepted = (s.queueOf fifo).accepted)
    (hpopped : queue.popped = (s.queueOf fifo).popped ++ [queue.frame]) :
    Sound node { s.setQueue queue fifo with
      routed := routeAction s.routed (appOnCanRx node queue.frame) } := by
  refine h.popped hsound haccepted _ ?_
  rw [routeAction_appOnCanRx, h.routed]
  cases fifo with
  | fifo0 => rw [queueOf_setQueue, hpopped, List.filter_append, List.map_append]
  | fifo1 =>
    have hmem : queue.frame ∈ (s.queuedBehind .fifo1).map recordOf := by
      have hin : queue.frame ∈ queue.popped := by
        rw [hpopped]
        exact List.mem_append_right _ List.mem_cons_self
      rw [← h.accepted .fifo1, ← haccepted]
      rw [hsound.inOrder] at hin
      exact List.mem_of_mem_take hin
    have hno := not_isRouted_fifo1 node hmem
    rw [queueOf_setQueue_ne s queue (by decide)]
    simp [hno]

theorem Sound.processRx (h : Sound node s) : Sound node (s.processRx node) := by
  unfold RxPath.processRx
  cases hloop : s.loop with
  | none =>
    refine h.congr ?_ rfl rfl
    intro fifo
    cases fifo <;> rfl
  | some fifo =>
    obtain ⟨haccepted, hlog⟩ := (s.queueOf fifo).popStep_log
    have hsound := (h.queues fifo).popStep
    dsimp only
    generalize (s.queueOf fifo).popStep = result at haccepted hlog hsound ⊢
    obtain ⟨returned, queue⟩ := result
    dsimp only at haccepted hlog hsound ⊢
    rcases hlog with ⟨hret, hpopped⟩ | ⟨hret, hpopped⟩
    · subst hret
      have hcallback := h.callback hsound haccepted hpopped
      unfold popReturned
      rw [setQueue_routed]
      exact hcallback
    · have hquiet := h.setQueue hsound haccepted hpopped
      match returned, hret with
      | none, _ => exact hquiet
      | some true, hret => exact absurd rfl hret
      | some false, _ =>
        refine hquiet.congr ?_ rfl rfl
        intro fifo'
        cases fifo' <;> rfl

theorem Sound.step (h : Sound node s) (e : Event) : Sound node (s.step node e) := by
  cases e with
  | interrupt arrived => exact h.rxIrqHandler arrived
  | process => exact h.processRx

/-! ## What reaches the transport -/

/-- The data of the requests among the queued frames, in order. -/
def requests (node : Node) (s : RxPath) : List (Vector UInt8 8) :=
  (s.queued.filter (isRequest node)).map (·.data)

/-- Every frame queued has been given to the callback. -/
def Drained (s : RxPath) : Prop := ∀ fifo, (s.queueOf fifo).popped = (s.queueOf fifo).accepted

/-- No extended and no remote frame that looks like a request was queued. -/
def OnlyRequests (node : Node) (s : RxPath) : Prop :=
  ∀ m ∈ s.queued, looksLikeRequest node m = true → isRequest node m = true

/-- The look-alikes behind FIFO 0 are all there are. -/
theorem filter_queuedBehind (node : Node) (s : RxPath) :
    ((s.queuedBehind .fifo0).map recordOf).filter (isRouted node) =
      (s.queued.filter (looksLikeRequest node)).map recordOf := by
  have hcomp : (isRouted node ∘ recordOf) = looksLikeRequest node := by
    funext m
    exact isRouted_recordOf m
  rw [List.filter_map, hcomp, queuedBehind, List.filter_filter]
  congr 1
  apply List.filter_congr
  intro m _
  cases hlook : looksLikeRequest node m with
  | false => rfl
  | true =>
    unfold looksLikeRequest at hlook
    simp only [Bool.and_eq_true, decide_eq_true_eq] at hlook
    simp [fifoOf_request hlook.1]

theorem map_data_recordOf (node : Node) (ms : List RxMessage) :
    (((ms.filter (looksLikeRequest node)).map recordOf).map (·.data)) =
      (ms.filter (looksLikeRequest node)).map (·.data) := by
  rw [List.map_map]
  apply List.map_congr_left
  intro m hm
  exact data_recordOf (List.mem_filter.1 hm).2

/-- What was routed, without regard to IDE and RTR: a first part of the look-alikes, and all of them once
the queues are empty. -/
theorem Sound.routed_lookalikes (h : Sound node s) :
    s.routed <+: (s.queued.filter (looksLikeRequest node)).map (·.data) ∧
      (s.Drained → s.routed = (s.queued.filter (looksLikeRequest node)).map (·.data)) := by
  rw [← map_data_recordOf, ← filter_queuedBehind, ← h.accepted, h.routed]
  constructor
  · rw [(h.queues .fifo0).inOrder]
    exact (List.IsPrefix.filter _ (List.take_prefix _ _)).map _
  · intro hdrained
    rw [hdrained .fifo0]

/-- The requests are the look-alikes when no other frame looks like one, and only then. -/
theorem requests_eq_iff (node : Node) (s : RxPath) :
    (s.queued.filter (looksLikeRequest node)).map (·.data) = s.requests node ↔ s.OnlyRequests node := by
  have hsub : (s.queued.filter (looksLikeRequest node)).filter (isRequest node) =
      s.queued.filter (isRequest node) := by
    rw [List.filter_filter]
    apply List.filter_congr
    intro m _
    cases hr : isRequest node m with
    | false => rfl
    | true => rw [looksLikeRequest_of_isRequest hr]; rfl
  constructor
  · intro heq m hm hlook
    have hlen := congrArg List.length heq
    rw [requests, ← hsub, List.length_map, List.length_map, eq_comm,
      List.length_filter_eq_length_iff] at hlen
    exact hlen m (List.mem_filter.2 ⟨hm, hlook⟩)
  · intro honly
    have hself : (s.queued.filter (looksLikeRequest node)).filter (isRequest node) =
        s.queued.filter (looksLikeRequest node) := by
      rw [List.filter_eq_self]
      intro m hm
      exact honly m (List.mem_filter.1 hm).1 (List.mem_filter.1 hm).2
    rw [requests, ← hsub, hself]

/-- **What reaches `Isotp_RouteFrame`.** As long as no extended or remote frame that looks like a request is
queued, the frames routed are the queued requests in order, all of them once the queues are empty; and the
queues never empty on such a frame without a frame too many being routed. -/
theorem routed_iff (node : Node) (frames frames' : Vector CanRxFrame (rxQueueDepth + 1))
    (frame frame' : CanRxFrame) (es : List Event) :
    let s := after (step node) (start frames frames' frame frame') es
    (s.OnlyRequests node → s.routed <+: s.requests node) ∧
      (s.Drained → (s.routed = s.requests node ↔ s.OnlyRequests node)) := by
  intro s
  have h : Sound node s :=
    after_invariant (I := Sound node) (.start node frames frames' frame frame') (fun _ e ht => ht.step e) es
  obtain ⟨hstart, hall⟩ := h.routed_lookalikes
  constructor
  · intro honly
    rw [← (requests_eq_iff node s).2 honly]
    exact hstart
  · intro hdrained
    rw [hall hdrained]
    exact requests_eq_iff node s

/-- An empty record. -/
def blank : CanRxFrame := { id := 0, length := 0, data := Vector.replicate 8 0 }

/-- The data of a Single Frame `10 03`. -/
def sessionRequest : Vector UInt8 8 := #v[0x02, 0x10, 0x03, 0xCC, 0xCC, 0xCC, 0xCC, 0xCC]

/-- One received frame, and the steps that carry it to the callback and find the queue empty. -/
def deliverOne (m : RxMessage) : List Event := .interrupt [m] :: List.replicate 17 .process

/-- An extended frame with identifier `0x000007E0` and a remote frame with identifier `0x7E0` both reach
`Isotp_RouteFrame`, although no request was queued. -/
theorem foreign_frames_routed :
    let s := after (step .ecuF407) (start (.replicate _ blank) (.replicate _ blank) blank blank)
      (deliverOne { identifier := .ext 0x7E0, rtr := false, dlc := 8, data := sessionRequest })
    let t := after (step .ecuF407) (start (.replicate _ blank) (.replicate _ blank) blank blank)
      (deliverOne { identifier := .std 0x7E0, rtr := true, dlc := 8, data := sessionRequest })
    s.routed = [sessionRequest] ∧ s.requests .ecuF407 = [] ∧
      t.routed = [sessionRequest] ∧ t.requests .ecuF407 = [] := by
  decide +kernel

end RxPath

end DualCan.Can
