import DualCan.Run.Bounded
import DualCan.Run.Logged
import Mathlib.Logic.Function.Basic

/-!
# The shared bus of the tools

`shared.py`: one reader thread takes the frames off a CAN device and routes each to the queue of the
endpoint with its identifier. An event is one atomic operation of one thread: the reader's next one, or one
of a caller. `put_nowait`, `get_nowait` and `get` of a queue are operations of their own, so that a `recv` may
fall between any two operations of `_put_latest`.
-/

namespace DualCan.Tools

open DualCan.Run

/-- A `can.Message`. -/
structure Message where
  arbitrationId : ℕ
  data : List UInt8
  deriving DecidableEq, Repr

/-- A `SharedCanBusEndpoint` and the queue it reads. `receiving` is the number of threads inside its `recv`
that have passed the test of `_closed`. -/
structure Endpoint (capacity : ℕ) where
  arbitrationId : ℕ
  route : Bounded Message capacity
  closed : Bool
  receiving : ℕ

/-- The operation the reader thread comes to next. -/
inductive Reader where
  | check
  | receive
  | lookup (message : Message)
  | put (k : ℕ) (message : Message)
  | dropOldest (k : ℕ) (message : Message)
  | putAgain (k : ℕ) (message : Message)
  | finished
  deriving DecidableEq

/-- A `SharedCanBus`. Its endpoints are numbered in the order of their creation; `endpoints` is the
dictionary `_endpoints`, by these numbers. -/
structure SharedCanBus (capacity : ℕ) where
  endpoints : ℕ → Option ℕ
  views : ℕ → Endpoint capacity
  created : ℕ
  closed : Bool
  stop : Bool
  reader : Reader

/-- What an operation did to a frame; `k` is the endpoint concerned. -/
inductive Effect where
  | quiet
  | read (message : Message)
  | routed (k : ℕ) (message : Message)
  | enqueued (k : ℕ) (message : Message)
  | discarded (k : ℕ) (message : Message)
  | lost (k : ℕ) (message : Message)
  | obtained (k : ℕ) (message : Message)
  deriving DecidableEq

namespace SharedCanBus

variable {capacity : ℕ}

/-- An endpoint nobody has created. -/
def noEndpoint : Endpoint capacity where
  arbitrationId := 0
  route := .empty
  closed := true
  receiving := 0

/-- `SharedCanBus.__init__` with a positive capacity, up to the start of the reader. -/
def start (capacity : ℕ) : SharedCanBus capacity where
  endpoints := fun _ => none
  views := fun _ => noEndpoint
  created := 0
  closed := false
  stop := false
  reader := .check

/-- `SharedCanBus.__init__`; an error is the text of the `ValueError`. -/
def create (queueCapacity : Int) (readerTimeoutS : Rat) :
    Except String (SharedCanBus queueCapacity.toNat) :=
  if queueCapacity ≤ 0 then .error "queue_capacity must be positive"
  else if readerTimeoutS ≤ 0 then .error "reader_timeout_s must be positive"
  else .ok (start queueCapacity.toNat)

def setView (bus : SharedCanBus capacity) (k : ℕ) (view : Endpoint capacity) : SharedCanBus capacity :=
  { bus with views := Function.update bus.views k view }

def setRoute (bus : SharedCanBus capacity) (k : ℕ) (route : Bounded Message capacity) :
    SharedCanBus capacity :=
  bus.setView k { bus.views k with route := route }

/-- `SharedCanBus.endpoint`. -/
def endpoint (bus : SharedCanBus capacity) (arbitrationId : ℕ) : Except String (SharedCanBus capacity) :=
  let hex := (String.ofList (Nat.toDigits 16 arbitrationId)).toUpper
  if bus.closed then .error "shared CAN bus is closed"
  else if (bus.endpoints arbitrationId).isSome then .error s!"CAN ID 0x{hex} already has an endpoint"
  else .ok {
    bus.setView bus.created {
      arbitrationId := arbitrationId
      route := .empty
      closed := false
      receiving := 0 } with
    endpoints := Function.update bus.endpoints arbitrationId (some bus.created)
    created := bus.created + 1 }

/-- One operation of the reader thread: `_read_loop` and, from `put` on, `_put_latest`. `answer` is what
`bus.recv` returns. -/
def readStep (bus : SharedCanBus capacity) (answer : Option Message) : Effect × SharedCanBus capacity :=
  match bus.reader with
  | .check => (.quiet, { bus with reader := if bus.stop then .finished else .receive })
  | .receive =>
    match answer with
    | none => (.quiet, { bus with reader := .check })
    | some message => (.read message, { bus with reader := .lookup message })
  | .lookup message =>
    match bus.endpoints message.arbitrationId with
    | none => (.quiet, { bus with reader := .check })
    | some k => (.routed k message, { bus with reader := .put k message })
  | .put k message =>
    match (bus.views k).route.put? message with
    | some route => (.enqueued k message, { bus.setRoute k route with reader := .check })
    | none => (.quiet, { bus with reader := .dropOldest k message })
  | .dropOldest k message =>
    match (bus.views k).route.get? with
    | some (oldest, route) =>
      (.discarded k oldest, { bus.setRoute k route with reader := .putAgain k message })
    | none => (.quiet, { bus with reader := .putAgain k message })
  | .putAgain k message =>
    match (bus.views k).route.put? message with
    | some route => (.enqueued k message, { bus.setRoute k route with reader := .check })
    | none => (.lost k message, { bus with reader := .check })
  | .finished => (.quiet, bus)

/-- The beginning of `SharedCanBusEndpoint.recv`, up to its `get`. -/
def recv (bus : SharedCanBus capacity) (k : ℕ) : SharedCanBus capacity :=
  if (bus.views k).closed then bus
  else bus.setView k { bus.views k with receiving := (bus.views k).receiving + 1 }

/-- The `get` of a `recv`: the oldest frame, or `queue.Empty`. -/
def get (bus : SharedCanBus capacity) (k : ℕ) : Effect × SharedCanBus capacity :=
  if (bus.views k).receiving = 0 then (.quiet, bus)
  else
    let view := { bus.views k with receiving := (bus.views k).receiving - 1 }
    match view.route.get? with
    | some (message, route) => (.obtained k message, bus.setView k { view with route := route })
    | none => (.quiet, bus.setView k view)

/-- `SharedCanBusEndpoint.shutdown` with `_remove_endpoint`. -/
def shutdownEndpoint (bus : SharedCanBus capacity) (k : ℕ) : SharedCanBus capacity :=
  if (bus.views k).closed then bus
  else
    let arbitrationId := (bus.views k).arbitrationId
    { bus.setView k { bus.views k with closed := true } with
      endpoints :=
        if bus.endpoints arbitrationId = some k then Function.update bus.endpoints arbitrationId none
        else bus.endpoints }

/-- `SharedCanBus.shutdown`, without the device below. -/
def shutdown (bus : SharedCanBus capacity) : SharedCanBus capacity :=
  { bus with closed := true, stop := true }

/-! ## Interleavings -/

inductive Event where
  | reader (answer : Option Message)
  | endpoint (arbitrationId : ℕ)
  | recv (k : ℕ)
  | get (k : ℕ)
  | shutdownEndpoint (k : ℕ)
  | shutdown
  deriving DecidableEq

/-- One atomic operation of one thread. -/
def step (bus : SharedCanBus capacity) : Event → Effect × SharedCanBus capacity
  | .reader answer => bus.readStep answer
  | .endpoint arbitrationId =>
    match bus.endpoint arbitrationId with
    | .ok bus => (.quiet, bus)
    | .error _ => (.quiet, bus)
  | .recv k => (.quiet, bus.recv k)
  | .get k => bus.get k
  | .shutdownEndpoint k => (.quiet, bus.shutdownEndpoint k)
  | .shutdown => (.quiet, bus.shutdown)

/-! ## What the effects of a run say -/

def readOf : Effect → Option Message
  | .read message => some message
  | _ => none

def routedTo (k : ℕ) : Effect → Option Message
  | .routed j message => if j = k then some message else none
  | _ => none

def enqueuedFor (k : ℕ) : Effect → Option Message
  | .enqueued j message => if j = k then some message else none
  | _ => none

def obtainedBy (k : ℕ) : Effect → Option Message
  | .obtained j message => if j = k then some message else none
  | _ => none

/-- A frame that left the queue of `k`, obtained or discarded. -/
def departedFrom (k : ℕ) : Effect → Option Message
  | .obtained j message => if j = k then some message else none
  | .discarded j message => if j = k then some message else none
  | _ => none

/-- The frame the reader is routing to `k`. -/
def inHand (k : ℕ) : Reader → List Message
  | .put j message => if j = k then [message] else []
  | .dropOldest j message => if j = k then [message] else []
  | .putAgain j message => if j = k then [message] else []
  | _ => []

/-- The frame with this identifier the reader has read and not yet looked up. -/
def awaiting (arbitrationId : ℕ) : Reader → List Message
  | .lookup message => if message.arbitrationId = arbitrationId then [message] else []
  | _ => []

/-! ## What an operation can do -/

/-- The endpoint and the frame of a routing in progress. -/
def routing : Reader → Option (ℕ × Message)
  | .put k message => some (k, message)
  | .dropOldest k message => some (k, message)
  | .putAgain k message => some (k, message)
  | _ => none

/-- Everything an operation can do, with the states it does it from. -/
inductive Step (bus : SharedCanBus capacity) : Event → Effect → SharedCanBus capacity → Prop
  | turn {answer : Option Message} {reader : Reader} (hfrom : routing bus.reader = none)
      (hto : routing reader = none) (hnone : ∀ id, awaiting id reader = []) :
      Step bus (.reader answer) .quiet { bus with reader := reader }
  | read {message : Message} (hfrom : bus.reader = .receive) :
      Step bus (.reader (some message)) (.read message) { bus with reader := .lookup message }
  | route {answer : Option Message} {k : ℕ} {message : Message} (hfrom : bus.reader = .lookup message)
      (hk : bus.endpoints message.arbitrationId = some k) :
      Step bus (.reader answer) (.routed k message) { bus with reader := .put k message }
  | enqueue {answer : Option Message} {k : ℕ} {message : Message} {route : Bounded Message capacity}
      (hfrom : routing bus.reader = some (k, message))
      (hput : (bus.views k).route.put? message = some route) :
      Step bus (.reader answer) (.enqueued k message) { bus.setRoute k route with reader := .check }
  | full {answer : Option Message} {k : ℕ} {message : Message} (hfrom : bus.reader = .put k message)
      (hput : (bus.views k).route.put? message = none) :
      Step bus (.reader answer) .quiet { bus with reader := .dropOldest k message }
  | drop {answer : Option Message} {k : ℕ} {message oldest : Message} {route : Bounded Message capacity}
      (hfrom : bus.reader = .dropOldest k message)
      (hget : (bus.views k).route.get? = some (oldest, route)) :
      Step bus (.reader answer) (.discarded k oldest)
        { bus.setRoute k route with reader := .putAgain k message }
  | overtaken {answer : Option Message} {k : ℕ} {message : Message}
      (hfrom : bus.reader = .dropOldest k message) (hget : (bus.views k).route.get? = none) :
      Step bus (.reader answer) .quiet { bus with reader := .putAgain k message }
  | lose {answer : Option Message} {k : ℕ} {message : Message} (hfrom : bus.reader = .putAgain k message)
      (hput : (bus.views k).route.put? message = none) :
      Step bus (.reader answer) (.lost k message) { bus with reader := .check }
  | refuse {e : Event} (he : ∀ answer, e ≠ .reader answer) : Step bus e .quiet bus
  | create {id : ℕ} (hid : bus.endpoints id = none) :
      Step bus (.endpoint id) .quiet {
        bus.setView bus.created { arbitrationId := id, route := .empty, closed := false, receiving := 0 } with
        endpoints := Function.update bus.endpoints id (some bus.created)
        created := bus.created + 1 }
  | enter {k : ℕ} (hopen : (bus.views k).closed = false) :
      Step bus (.recv k) .quiet
        (bus.setView k { bus.views k with receiving := (bus.views k).receiving + 1 })
  | obtain {k : ℕ} {message : Message} {route : Bounded Message capacity}
      (hreceiving : (bus.views k).receiving ≠ 0)
      (hget : (bus.views k).route.get? = some (message, route)) :
      Step bus (.get k) (.obtained k message)
        (bus.setView k { bus.views k with route := route, receiving := (bus.views k).receiving - 1 })
  | empty {k : ℕ} (hreceiving : (bus.views k).receiving ≠ 0) :
      Step bus (.get k) .quiet
        (bus.setView k { bus.views k with receiving := (bus.views k).receiving - 1 })
  | close {k : ℕ} {endpoints : ℕ → Option ℕ} (hopen : (bus.views k).closed = false)
      (hsub : ∀ id j, endpoints id = some j → bus.endpoints id = some j) :
      Step bus (.shutdownEndpoint k) .quiet
        { bus.setView k { bus.views k with closed := true } with endpoints := endpoints }
  | shutdown : Step bus .shutdown .quiet bus.shutdown

theorem readStep_spec (bus : SharedCanBus capacity) (answer : Option Message) :
    Step bus (.reader answer) (bus.readStep answer).1 (bus.readStep answer).2 := by
  unfold readStep
  cases hreader : bus.reader with
  | check =>
    refine .turn (by rw [hreader]; rfl) ?_ fun id => ?_
    · split <;> rfl
    · split <;> rfl
  | receive =>
    cases answer with
    | none => exact .turn (by rw [hreader]; rfl) rfl fun id => rfl
    | some message => exact .read hreader
  | lookup message =>
    simp only
    cases hk : bus.endpoints message.arbitrationId with
    | none => exact .turn (by rw [hreader]; rfl) rfl fun id => rfl
    | some k => exact .route hreader hk
  | put k message =>
    simp only
    cases hput : (bus.views k).route.put? message with
    | some route => exact .enqueue (by rw [hreader]; rfl) hput
    | none => exact .full hreader hput
  | dropOldest k message =>
    simp only
    rcases hget : (bus.views k).route.get? with _ | ⟨oldest, route⟩
    · exact .overtaken hreader hget
    · exact .drop hreader hget
  | putAgain k message =>
    simp only
    cases hput : (bus.views k).route.put? message with
    | some route => exact .enqueue (by rw [hreader]; rfl) hput
    | none => exact .lose hreader hput
  | finished =>
    have hturn : Step bus (.reader answer) .quiet { bus with reader := .finished } :=
      .turn (by rw [hreader]; rfl) rfl fun id => rfl
    rw [← hreader] at hturn
    exact hturn

theorem step_spec (bus : SharedCanBus capacity) (e : Event) : Step bus e (bus.step e).1 (bus.step e).2 := by
  cases e with
  | reader answer => exact readStep_spec bus answer
  | endpoint id =>
    simp only [step]
    unfold endpoint
    simp only
    split
    · next he =>
      split at he
      · cases he
      · next hopen =>
        split at he
        · cases he
        · next hid =>
          obtain rfl := Except.ok.inj he
          exact .create (by simpa using hid)
    · exact .refuse (by simp)
  | recv k =>
    simp only [step]
    unfold recv
    split
    · exact .refuse (by simp)
    · next hopen => exact .enter (by simpa using hopen)
  | get k =>
    simp only [step]
    unfold get
    split
    · exact .refuse (by simp)
    · next hreceiving =>
      simp only
      rcases hget : (bus.views k).route.get? with _ | ⟨message, route⟩
      · exact .empty hreceiving
      · exact .obtain hreceiving hget
  | shutdownEndpoint k =>
    simp only [step]
    unfold shutdownEndpoint
    split
    · exact .refuse (by simp)
    · next hopen =>
      refine .close (by simpa using hopen) ?_
      intro id j hj
      split at hj
      · by_cases hid : id = (bus.views k).arbitrationId
        · subst hid
          simp at hj
        · simpa [hid] using hj
      · exact hj
  | shutdown => exact .shutdown

/-! ## What holds at every moment -/

section views
variable (bus : SharedCanBus capacity) {k j : ℕ} (view : Endpoint capacity)

@[simp] theorem setView_same : (bus.setView k view).views k = view := by simp [setView]

theorem setView_other (h : j ≠ k) : (bus.setView k view).views j = bus.views j := by simp [setView, h]

variable {bus view} in
/-- A changed view keeps its identifier. -/
theorem setView_arbitrationId (h : view.arbitrationId = (bus.views k).arbitrationId) :
    ((bus.setView k view).views j).arbitrationId = (bus.views j).arbitrationId := by
  by_cases hj : j = k
  · subst hj
    rw [setView_same, h]
  · rw [setView_other bus view hj]

end views

/-- The dictionary and the reader know created endpoints under their own identifier, and before its second
`put_nowait` the reader has made room. -/
structure Sound (bus : SharedCanBus capacity) : Prop where
  known : ∀ id k, bus.endpoints id = some k → k < bus.created ∧ (bus.views k).arbitrationId = id
  target : ∀ k message, routing bus.reader = some (k, message) →
    k < bus.created ∧ (bus.views k).arbitrationId = message.arbitrationId
  fresh : ∀ k, bus.created ≤ k → bus.views k = noEndpoint
  room : ∀ k message, bus.reader = .putAgain k message →
    (bus.views k).route.items.length < capacity

namespace Sound

variable {bus bus' : SharedCanBus capacity} {e : Event} {o : Effect}

theorem start : (start capacity).Sound where
  known _ _ h := by cases h
  target _ _ h := by cases h
  fresh _ _ := rfl
  room _ _ h := by cases h

/-- The reader moves on to another operation. -/
theorem turn (h : bus.Sound) {reader : Reader}
    (htarget : ∀ k message, routing reader = some (k, message) →
      k < bus.created ∧ (bus.views k).arbitrationId = message.arbitrationId)
    (hroom : ∀ k message, reader = .putAgain k message →
      (bus.views k).route.items.length < capacity) :
    ({ bus with reader := reader } : SharedCanBus capacity).Sound :=
  ⟨h.known, htarget, h.fresh, hroom⟩

/-- A created endpoint changes and keeps its identifier. -/
theorem onView (h : bus.Sound) (k : ℕ) (view : Endpoint capacity) (hk : k < bus.created)
    (hid : view.arbitrationId = (bus.views k).arbitrationId)
    (hlen : view.route.items.length ≤ (bus.views k).route.items.length ∨ routing bus.reader = none) :
    (bus.setView k view).Sound := by
  refine ⟨?_, ?_, ?_, ?_⟩
  · intro id j hj
    rw [setView_arbitrationId hid]
    exact h.known id j hj
  · intro j message hj
    rw [setView_arbitrationId hid]
    exact h.target j message hj
  · intro j hj
    have hcreated : bus.created ≤ j := hj
    rw [setView_other bus view (by omega)]
    exact h.fresh j hcreated
  · intro j message hj
    have hreader : bus.reader = .putAgain j message := hj
    have hroom := h.room j message hreader
    by_cases hjk : j = k
    · subst hjk
      rw [setView_same]
      rcases hlen with hlen | hlen
      · omega
      · rw [hreader] at hlen
        cases hlen
    · rw [setView_other bus view hjk]
      exact hroom

/-- Nobody can use an endpoint nobody has created. -/
theorem created_of_open (h : bus.Sound) {k : ℕ} (hopen : (bus.views k).closed = false) :
    k < bus.created := by
  by_contra hk
  rw [h.fresh k (by omega)] at hopen
  cases hopen

theorem created_of_receiving (h : bus.Sound) {k : ℕ} (hreceiving : (bus.views k).receiving ≠ 0) :
    k < bus.created := by
  by_contra hk
  rw [h.fresh k (by omega)] at hreceiving
  exact hreceiving rfl

theorem create (h : bus.Sound) {id : ℕ} (view : Endpoint capacity) (hid : view.arbitrationId = id) :
    ({ bus.setView bus.created view with
      endpoints := Function.update bus.endpoints id (some bus.created)
      created := bus.created + 1 } : SharedCanBus capacity).Sound := by
  have hold : ∀ j, j < bus.created → (bus.setView bus.created view).views j = bus.views j := by
    intro j hj
    exact setView_other bus view (by omega)
  refine ⟨?_, ?_, ?_, ?_⟩
  · intro id' k hk
    simp only at hk ⊢
    by_cases hsame : id' = id
    · subst hsame
      obtain rfl : bus.created = k := by simpa using hk
      exact ⟨Nat.lt_succ_self _, by rw [setView_same, hid]⟩
    · obtain ⟨hlt, hk'⟩ := h.known id' k (by simpa [hsame] using hk)
      exact ⟨Nat.lt_succ_of_lt hlt, by rw [hold k hlt, hk']⟩
  · intro k message hk
    obtain ⟨hlt, hk'⟩ := h.target k message hk
    exact ⟨Nat.lt_succ_of_lt hlt, by simp only [hold k hlt, hk']⟩
  · intro k hk
    have hlt : bus.created < k := hk
    simp only
    rw [setView_other bus view (by omega)]
    exact h.fresh k (by omega)
  · intro k message hk
    have hreader : bus.reader = .putAgain k message := hk
    have hlt := (h.target k message (by rw [hreader]; rfl)).1
    simp only [hold k hlt]
    exact h.room k message hreader

/-- Every operation; a queue without a frame has room because the capacity is positive. -/
theorem step (h : bus.Sound) (hpos : 0 < capacity) (hstep : Step bus e o bus') : bus'.Sound := by
  cases hstep with
  | turn hfrom hto hnone =>
    refine h.turn ?_ ?_
    · intro k message hk
      rw [hto] at hk
      cases hk
    · rintro k message rfl
      cases hto
  | read hfrom => exact h.turn (by simp [routing]) (by simp)
  | @route _ k message hfrom hk =>
    refine h.turn ?_ (by simp)
    intro j m hj
    obtain ⟨rfl, rfl⟩ : k = j ∧ message = m := by simpa [routing] using hj
    exact h.known _ k hk
  | @enqueue _ k message route hfrom hput =>
    have hidle : ({ bus with reader := .check } : SharedCanBus capacity).Sound :=
      h.turn (by simp [routing]) (by simp)
    exact hidle.onView k _ (h.target k message hfrom).1 rfl (Or.inr rfl)
  | @full _ k message hfrom hput =>
    refine h.turn ?_ (by simp)
    intro j m hj
    exact h.target j m (by rw [hfrom]; exact hj)
  | @drop _ k message oldest route hfrom hget =>
    have hlt := (h.target k message (by rw [hfrom]; rfl)).1
    have hitems := Bounded.get?_eq_some hget
    have hview : (bus.setRoute k route).Sound := by
      refine h.onView k _ hlt rfl (Or.inl ?_)
      rw [hitems, List.length_cons]
      exact Nat.le_succ _
    refine hview.turn ?_ ?_
    · intro j m hj
      exact hview.target j m (by rw [show (bus.setRoute k route).reader = _ from hfrom]; exact hj)
    · intro j m hj
      obtain ⟨rfl, rfl⟩ : k = j ∧ message = m := by simpa using hj
      unfold setRoute
      rw [setView_same]
      exact Bounded.room_of_get? hget
  | @overtaken _ k message hfrom hget =>
    refine h.turn ?_ ?_
    · intro j m hj
      exact h.target j m (by rw [hfrom]; exact hj)
    · intro j m hj
      obtain ⟨rfl, rfl⟩ : k = j ∧ message = m := by simpa using hj
      rw [Bounded.get?_eq_none hget]
      exact hpos
  | lose hfrom hput => exact h.turn (by simp [routing]) (by simp)
  | refuse he => exact h
  | create hid => exact h.create _ rfl
  | enter hopen => exact h.onView _ _ (h.created_of_open hopen) rfl (Or.inl (Nat.le_refl _))
  | obtain hreceiving hget =>
    refine h.onView _ _ (h.created_of_receiving hreceiving) rfl (Or.inl ?_)
    rw [Bounded.get?_eq_some hget, List.length_cons]
    exact Nat.le_succ _
  | empty hreceiving => exact h.onView _ _ (h.created_of_receiving hreceiving) rfl (Or.inl (Nat.le_refl _))
  | @close k endpoints hopen hsub =>
    have hview := h.onView k { bus.views k with closed := true } (h.created_of_open hopen) rfl
      (Or.inl (Nat.le_refl _))
    exact ⟨fun id j hj => hview.known id j (hsub id j hj), hview.target, hview.fresh, hview.room⟩
  | shutdown => exact ⟨h.known, h.target, h.fresh, h.room⟩

/-- Only the reader puts frames into a queue, so the room it made is still there. -/
theorem not_lost (h : bus.Sound) {k : ℕ} {message : Message} : ¬Step bus e (.lost k message) bus' := by
  intro hstep
  cases hstep with
  | lose hfrom hput =>
    have hroom := h.room k message hfrom
    have hfull := Bounded.put?_eq_none hput
    omega

end Sound

/-! ## Where a frame goes -/

section laws
variable {bus bus' : SharedCanBus capacity} {e : Event} {o : Effect} {k j : ℕ} {message : Message}

/-- An operation that leaves the queue of `k` as it is. -/
theorem quiet_line (bus : SharedCanBus capacity) (k : ℕ) (view : Endpoint capacity)
    (hroute : view.route = (bus.views k).route) (j : ℕ) :
    ((bus.setView k view).views j).route.items = (bus.views j).route.items := by
  by_cases hj : j = k
  · subst hj
    rw [setView_same, hroute]
  · rw [setView_other bus view hj]

/-- A `get` of the queue of `k`, whatever is done with the frame. -/
theorem take_line (bus : SharedCanBus capacity) (k : ℕ) (view : Endpoint capacity) {oldest : Message}
    (hitems : (bus.views k).route.items = oldest :: view.route.items) (j : ℕ) :
    (bus.views j).route.items =
      (if k = j then some oldest else none).toList ++ ((bus.setView k view).views j).route.items := by
  by_cases hj : j = k
  · subst hj
    rw [setView_same, hitems, if_pos rfl]
    rfl
  · rw [setView_other bus view hj, if_neg fun hk => hj hk.symm]
    rfl

theorem inHand_of_routing {reader : Reader} (h : routing reader = some (k, message)) :
    inHand j reader = if k = j then [message] else [] := by
  cases reader <;> simp [routing] at h <;> obtain ⟨rfl, rfl⟩ := h <;> rfl

theorem inHand_of_idle {reader : Reader} (h : routing reader = none) : inHand j reader = [] := by
  cases reader <;> first | rfl | cases h

/-- A queue lets out at the front what it let in at the end. -/
theorem Step.line (h : bus.Sound) (hstep : Step bus e o bus') (j : ℕ) :
    (bus.views j).route.items ++ (enqueuedFor j o).toList =
      (departedFrom j o).toList ++ (bus'.views j).route.items := by
  cases hstep with
  | @enqueue _ k message route hfrom hput =>
    have hitems := (Bounded.put?_eq_some hput).2
    by_cases hj : j = k
    · subst hj
      simp [enqueuedFor, departedFrom, setRoute, hitems]
    · have hkj : ¬k = j := fun hk => hj hk.symm
      simp [enqueuedFor, departedFrom, setRoute, setView_other bus _ hj, hkj]
  | @drop _ k message oldest route hfrom hget =>
    have hitems := take_line bus k { bus.views k with route := route } (Bounded.get?_eq_some hget) j
    simp only [enqueuedFor, departedFrom, Option.toList_none, List.append_nil]
    exact hitems
  | @obtain k message route hreceiving hget =>
    have hitems := take_line bus k
      { bus.views k with route := route, receiving := (bus.views k).receiving - 1 }
      (Bounded.get?_eq_some hget) j
    simp only [enqueuedFor, departedFrom, Option.toList_none, List.append_nil]
    exact hitems
  | create hid =>
    have hfresh := h.fresh bus.created (Nat.le_refl _)
    by_cases hj : j = bus.created
    · subst hj
      simp [enqueuedFor, departedFrom, hfresh, noEndpoint, Bounded.empty]
    · simp [enqueuedFor, departedFrom, setView_other bus _ hj]
  | @enter k hopen =>
    have hitems := quiet_line bus k { bus.views k with receiving := (bus.views k).receiving + 1 } rfl j
    simp [enqueuedFor, departedFrom, hitems]
  | @empty k hreceiving =>
    have hitems := quiet_line bus k { bus.views k with receiving := (bus.views k).receiving - 1 } rfl j
    simp [enqueuedFor, departedFrom, hitems]
  | @close k endpoints hopen hsub =>
    have hitems := quiet_line bus k { bus.views k with closed := true } rfl j
    simp [enqueuedFor, departedFrom, hitems]
  | _ => simp [enqueuedFor, departedFrom, SharedCanBus.shutdown]

/-- A frame on its way to `k` is with the reader until it is enqueued. -/
theorem Step.hand (h : bus.Sound) (hstep : Step bus e o bus') (j : ℕ) :
    inHand j bus.reader ++ (routedTo j o).toList = (enqueuedFor j o).toList ++ inHand j bus'.reader := by
  cases hstep with
  | turn hfrom hto hnone => simp [inHand_of_idle hfrom, inHand_of_idle hto, routedTo, enqueuedFor]
  | read hfrom => simp [hfrom, inHand, routedTo, enqueuedFor]
  | route hfrom hk =>
    simp only [hfrom, inHand, routedTo, enqueuedFor]
    split <;> rfl
  | enqueue hfrom hput =>
    simp only [inHand_of_routing hfrom, routedTo, enqueuedFor]
    split <;> rfl
  | full hfrom hput => simp [hfrom, inHand, routedTo, enqueuedFor]
  | drop hfrom hget => simp [hfrom, inHand, routedTo, enqueuedFor]
  | overtaken hfrom hget => simp [hfrom, inHand, routedTo, enqueuedFor]
  | @lose answer k message hfrom hput =>
    have hlost : Step bus (.reader answer) (.lost k message) { bus with reader := .check } :=
      .lose hfrom hput
    exact absurd hlost h.not_lost
  | _ => simp [routedTo, enqueuedFor, setView, SharedCanBus.shutdown]

/-- The identifier of a created endpoint stays. -/
theorem Step.created (hstep : Step bus e o bus') (hj : j < bus.created) :
    j < bus'.created ∧ (bus'.views j).arbitrationId = (bus.views j).arbitrationId := by
  cases hstep with
  | enqueue hfrom hput => exact ⟨hj, setView_arbitrationId rfl⟩
  | drop hfrom hget => exact ⟨hj, setView_arbitrationId rfl⟩
  | enter hopen => exact ⟨hj, setView_arbitrationId rfl⟩
  | obtain hreceiving hget => exact ⟨hj, setView_arbitrationId rfl⟩
  | empty hreceiving => exact ⟨hj, setView_arbitrationId rfl⟩
  | close hopen hsub => exact ⟨hj, setView_arbitrationId rfl⟩
  | create hid =>
    refine ⟨Nat.lt_succ_of_lt hj, ?_⟩
    simp only
    rw [setView_other bus _ (by omega)]
  | _ => exact ⟨hj, rfl⟩

/-- A frame is looked up once, in the order of reading. -/
theorem Step.looked (h : bus.Sound) (hstep : Step bus e o bus') {id : ℕ}
    (hid : j < bus.created → (bus.views j).arbitrationId = id) :
    ((routedTo j o).toList ++ awaiting id bus'.reader).Sublist
      (awaiting id bus.reader ++ (readOf o).toList.filter fun m => m.arbitrationId = id) := by
  cases hstep with
  | turn hfrom hto hnone =>
    simp only [hnone, routedTo]
    exact List.nil_sublist _
  | @read message hfrom =>
    simp only [hfrom, routedTo, awaiting, readOf]
    by_cases hm : message.arbitrationId = id <;> simp [hm]
  | @route _ k message hfrom hk =>
    simp only [hfrom, routedTo, awaiting, readOf]
    by_cases hkj : k = j
    · subst hkj
      obtain ⟨hcreated, hm⟩ := h.known _ k hk
      have heq : message.arbitrationId = id := by rw [← hm, hid hcreated]
      simp [heq]
    · simp [hkj]
  | refuse he => simp [routedTo, readOf]
  | create hid => simp [routedTo, readOf, setView]
  | enter hopen => simp [routedTo, readOf, setView]
  | obtain hreceiving hget => simp [routedTo, readOf, setView]
  | empty hreceiving => simp [routedTo, readOf, setView]
  | close hopen hsub => simp [routedTo, readOf, setView]
  | shutdown => simp [routedTo, readOf, SharedCanBus.shutdown]
  | _ => simp [routedTo, awaiting]

end laws

/-! ## Whole runs -/

section runs
variable {events : List Event} {k : ℕ} {message : Message}

/-- The bus with what happened to the frames so far. -/
abbrev Run (capacity : ℕ) := Logged (SharedCanBus capacity) Effect

/-- A run of a new bus. -/
def run (capacity : ℕ) (events : List Event) : Run capacity :=
  after (logged step) (start capacity, []) events

/-- The frames read from the bus with the identifier of endpoint `k`. -/
def readFor (s : Run capacity) (k : ℕ) : List Message :=
  (s.2.filterMap readOf).filter fun m => m.arbitrationId = (s.1.views k).arbitrationId

theorem run_sound (hpos : 0 < capacity) (events : List Event) : (run capacity events).1.Sound :=
  after_invariant (I := fun (s : Run capacity) => s.1.Sound) Sound.start
    (fun s e hs => hs.step hpos (step_spec s.1 e)) events

theorem run_line (hpos : 0 < capacity) (events : List Event) (k : ℕ) :
    (run capacity events).2.filterMap (enqueuedFor k) =
      (run capacity events).2.filterMap (departedFrom k) ++
        ((run capacity events).1.views k).route.items :=
  conserved (I := Sound) rfl Sound.start (fun s e hs => hs.step hpos (step_spec s e))
    (fun s e hs => (step_spec s e).line hs k) events

theorem run_hand (hpos : 0 < capacity) (events : List Event) (k : ℕ) :
    (run capacity events).2.filterMap (routedTo k) =
      (run capacity events).2.filterMap (enqueuedFor k) ++
        inHand k (run capacity events).1.reader :=
  conserved (I := Sound) rfl Sound.start (fun s e hs => hs.step hpos (step_spec s e))
    (fun s e hs => (step_spec s e).hand hs k) events

theorem run_read (hpos : 0 < capacity) (events : List Event) (k id : ℕ)
    (hid : k < (run capacity events).1.created → ((run capacity events).1.views k).arbitrationId = id) :
    ((run capacity events).2.filterMap (routedTo k) ++
      awaiting id (run capacity events).1.reader).Sublist
        (((run capacity events).2.filterMap readOf).filter fun m => m.arbitrationId = id) := by
  induction events using List.reverseRecOn with
  | nil => exact List.nil_sublist _
  | append_singleton events e ih =>
    have hsound := run_sound hpos events
    unfold run at ih hid hsound ⊢
    rw [after_snoc] at hid ⊢
    generalize after (logged step) (start capacity, []) events = s at ih hid hsound ⊢
    have hold : k < s.1.created → (s.1.views k).arbitrationId = id := by
      intro hk
      obtain ⟨hk', hsame⟩ := (step_spec s.1 e).created hk
      rw [← hsame]
      exact hid hk'
    simp only [logged_fst, logged_snd, filterMap_snoc, List.filter_append]
    have hstep : (s.2.filterMap (routedTo k) ++ (routedTo k (s.1.step e).1).toList ++
        awaiting id (s.1.step e).2.reader).Sublist
          (s.2.filterMap (routedTo k) ++ awaiting id s.1.reader ++
            (readOf (s.1.step e).1).toList.filter fun m => m.arbitrationId = id) := by
      rw [List.append_assoc, List.append_assoc]
      exact ((step_spec s.1 e).looked hsound hold).append_left _
    exact hstep.trans ((ih hold).append_right _)

/-- What the effects of a run say about endpoint `k`. -/
structure Served (s : Run capacity) (k : ℕ) : Prop where
  /-- What `recv` returns comes from the bus, in its order, each frame once. -/
  obtained : (s.2.filterMap (obtainedBy k)).Sublist (readFor s k)
  pending : (s.1.views k).route.items.length ≤ capacity
  /-- A frame routed to `k` is enqueued unless the reader is still at it. -/
  routed : s.2.filterMap (routedTo k) = s.2.filterMap (enqueuedFor k) ++ inHand k s.1.reader
  /-- A frame enqueued for `k` was obtained, was discarded or is pending. -/
  enqueued : s.2.filterMap (enqueuedFor k) =
    s.2.filterMap (departedFrom k) ++ (s.1.views k).route.items

theorem served (hpos : 0 < capacity) (events : List Event) (k : ℕ) : Served (run capacity events) k := by
  have hhand := run_hand hpos events k
  have hline := run_line hpos events k
  refine ⟨?_, ((run capacity events).1.views k).route.bound, hhand, hline⟩
  have hdeparted : ((run capacity events).2.filterMap (obtainedBy k)).Sublist
      ((run capacity events).2.filterMap (departedFrom k)) := by
    apply sublist_filterMap_of
    intro o m ho
    cases o with
    | obtained j m' => exact ho
    | _ => cases ho
  refine hdeparted.trans (List.Sublist.trans ?_ (run_read hpos events k _ fun _ => rfl))
  rw [hhand, hline, List.append_assoc, List.append_assoc]
  exact List.sublist_append_left _ _

/-- The reader's first `put_nowait` of `message` finds the queue of `k` full. -/
def FindsFull (k : ℕ) (message : Message) (s : Run capacity) (e : Event) : Prop :=
  s.1.reader = .put k message ∧ (s.1.views k).route.items.length = capacity ∧
    ∃ answer, e = .reader answer

/-- An operation of another thread than the reader. -/
def OfCaller (_ : Run capacity) (e : Event) : Prop := ∀ answer, e ≠ .reader answer

/-- How the reader comes to take the oldest frame. -/
theorem to_dropOldest {bus bus' : SharedCanBus capacity} {e : Event} {o : Effect}
    (hstep : Step bus e o bus') (h : bus'.reader = .dropOldest k message) :
    (bus.reader = .put k message ∧ (bus.views k).route.items.length = capacity ∧
      ∃ answer, e = .reader answer) ∨
    (bus.reader = .dropOldest k message ∧ ∀ answer, e ≠ .reader answer) := by
  cases hstep with
  | turn hfrom hto hnone =>
    obtain rfl := h
    cases hto
  | full hfrom hput =>
    cases h
    exact Or.inl ⟨hfrom, Bounded.put?_eq_none hput, _, rfl⟩
  | refuse he => exact Or.inr ⟨h, he⟩
  | create hid => exact Or.inr ⟨h, by simp⟩
  | enter hopen => exact Or.inr ⟨h, by simp⟩
  | obtain hreceiving hget => exact Or.inr ⟨h, by simp⟩
  | empty hreceiving => exact Or.inr ⟨h, by simp⟩
  | close hopen hsub => exact Or.inr ⟨h, by simp⟩
  | shutdown => exact Or.inr ⟨h, by simp⟩
  | _ => cases h

theorem since_findsFull (events : List Event)
    (h : (run capacity events).1.reader = .dropOldest k message) :
    Since (logged step) (start capacity, []) (FindsFull k message) OfCaller events := by
  revert h
  refine since_of_state (I := fun (s : Run capacity) => s.1.reader = .dropOldest k message)
    (J := fun _ => True) trivial (fun _ _ _ => trivial) (by simp [start]) ?_ events
  intro s e _ hdrop
  rcases to_dropOldest (step_spec s.1 e) hdrop with hfull | ⟨hbefore, he⟩
  · exact Or.inl hfull
  · exact Or.inr ⟨hbefore, he⟩

/-- What a discarded frame was, and what the reader does next. -/
theorem discarded_oldest {bus bus' : SharedCanBus capacity} {e : Event}
    (hstep : Step bus e (.discarded k message) bus') :
    (bus.views k).route.items.head? = some message ∧
      ∃ routed, bus.reader = .dropOldest k routed ∧ bus'.reader = .putAgain k routed := by
  cases hstep with
  | drop hfrom hget => exact ⟨by rw [Bounded.get?_eq_some hget]; rfl, _, hfrom, rfl⟩

/-- After that the reader enqueues the frame it is routing. -/
theorem put_again {bus : SharedCanBus capacity} (h : bus.Sound) (hreader : bus.reader = .putAgain k message)
    (answer : Option Message) : (bus.step (.reader answer)).1 = .enqueued k message := by
  have hstep := step_spec bus (.reader answer)
  simp only [step, readStep, hreader] at hstep ⊢
  split
  · rfl
  · next hput =>
    rw [hput] at hstep
    exact absurd hstep h.not_lost

/-- **Shared bus routing**, over every interleaving of the reader with the callers. What an endpoint obtains
is an in-order, duplicate-free part of the frames read under its identifier, and no more frames are pending
for it than its queue holds. A frame is discarded only when the routing in progress has found the queue full;
it is the oldest pending one, and the frame being routed is enqueued next. -/
theorem shared_bus_routing (queueCapacity : Int) (readerTimeoutS : Rat)
    (bus : SharedCanBus queueCapacity.toNat) (hcreate : create queueCapacity readerTimeoutS = .ok bus)
    (events : List Event) :
    let s := after (logged step) (bus, []) events
    (∀ k, Served s k) ∧
    (∀ e k message, (s.1.step e).1 = .discarded k message →
      (s.1.views k).route.items.head? = some message ∧
      ∃ routed, s.1.reader = .dropOldest k routed ∧
        Since (logged step) (bus, []) (FindsFull k routed) OfCaller events ∧
        (s.1.step e).2.reader = .putAgain k routed) ∧
    (∀ k message answer, s.1.reader = .putAgain k message →
      (s.1.step (.reader answer)).1 = .enqueued k message) ∧
    ∀ e k message, (s.1.step e).1 ≠ .lost k message := by
  unfold create at hcreate
  split at hcreate
  · cases hcreate
  · next hcapacity =>
    split at hcreate
    · cases hcreate
    · obtain rfl := Except.ok.inj hcreate
      have hpos : 0 < queueCapacity.toNat := by omega
      have hsound := run_sound hpos events
      refine ⟨served hpos events, ?_, ?_, ?_⟩
      · intro e k message hdiscarded
        have hstep := step_spec (run queueCapacity.toNat events).1 e
        rw [show ((run queueCapacity.toNat events).1.step e).1 = _ from hdiscarded] at hstep
        obtain ⟨hhead, routed, hdrop, hagain⟩ := discarded_oldest hstep
        exact ⟨hhead, routed, hdrop, since_findsFull events hdrop, hagain⟩
      · intro k message answer hreader
        exact put_again hsound hreader answer
      · intro e k message hlost
        have hstep := step_spec (run queueCapacity.toNat events).1 e
        rw [show ((run queueCapacity.toNat events).1.step e).1 = _ from hlost] at hstep
        exact hsound.not_lost hstep

/-- Three frames for an endpoint with room for one. The first is obtained while the reader makes room for
the second, and the second is discarded for the third. -/
def raceRun : List Event :=
  [.endpoint 7, .reader none, .reader (some ⟨7, [1]⟩), .reader none, .reader none,
    .reader none, .reader (some ⟨7, [2]⟩), .reader none, .reader none, .recv 0, .get 0, .reader none,
    .reader none, .reader none, .reader (some ⟨7, [3]⟩), .reader none, .reader none, .reader none]

theorem shared_bus_routing_race :
    ((run 1 raceRun).2.filterMap (departedFrom 0) = [⟨7, [1]⟩, ⟨7, [2]⟩] ∧ Served (run 1 raceRun) 0) ∧
      ((run 1 raceRun).1.step (.reader none)).1 = .enqueued 0 ⟨7, [3]⟩ := by
  have hcreate : create 1 (1 / 20) = .ok (start 1) := by
    unfold create
    rw [if_neg (by decide), if_neg (by decide +kernel)]
    rfl
  obtain ⟨hserved, -, hagain, -⟩ := shared_bus_routing 1 (1 / 20) (start 1) hcreate raceRun
  exact ⟨⟨by decide +kernel, hserved 0⟩, hagain 0 ⟨7, [3]⟩ none (by decide +kernel)⟩

end runs

end SharedCanBus

end DualCan.Tools
