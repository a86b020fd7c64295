import DualCan.Uds.Obligation

/-!
# Where pending operations come from

Read backwards: a pending write was put there by a request that was accepted, and has met no poll and no
other accepted write since; a routine that runs was started, and a pending response was asked for while its
routine ran. A request is accepted by the state right after its tick. Which handler a step calls is said once, in
`step_handles`.
-/

namespace DualCan.Uds

open DualCan.Run

namespace UdsServer

variable {σ : Type}

/-- The event is a write of `data` to `did` that is accepted, for the entry `entry`. -/
def AcceptsWrite (s : UdsServer σ × σ) (e : Event) (did : UInt16) (data : List UInt8)
    (entry : Did σ) : Prop :=
  ∃ now high low capacity index,
    e = .process now (sidWriteDataByIdentifier :: high :: low :: data) capacity ∧
    did = word16 high low ∧
    (s.1.tick now).acceptedWrite (high :: low :: data) = some (index, entry, data)

/-- The event is a request with the sub-function `subfunction` for the routine at `index` that is accepted. -/
def AcceptsRoutine (s : UdsServer σ × σ) (e : Event) (index : ℕ) (subfunction : UInt8) : Prop :=
  ∃ now args capacity routine sub data,
    e = .process now (sidRoutineControl :: args) capacity ∧
    (s.1.tick now).acceptedRoutine args = some (index, routine, sub, data) ∧
    sub &&& subfunctionMask = subfunction

/-- The response of a routine is pending only while the routine runs. -/
def PendingRuns (server : UdsServer σ) : Prop :=
  server.pendingRoutineResponse = true → server.routineState server.pendingRoutineIndex = .running

/-! ## Routine requests, field by field -/

/-- The three fields of the pending write. -/
def pendingDid (server : UdsServer σ) : Bool × ℕ × List UInt8 :=
  (server.pendingDidWrite, server.pendingDidIndex, server.pendingDidData)

theorem pendingDid_of_work {server server' : UdsServer σ} (h : server'.work = server.work) :
    server'.pendingDid = server.pendingDid :=
  congrArg (fun work => (work.pendingDidWrite, work.pendingDidIndex, work.pendingDidData)) h

theorem dropPendingRoutine_pendingDid (server : UdsServer σ) (index : ℕ) :
    (server.dropPendingRoutine index).pendingDid = server.pendingDid := by
  unfold dropPendingRoutine
  split <;> rfl

theorem dropPendingRoutine_routineState (server : UdsServer σ) (index : ℕ) :
    (server.dropPendingRoutine index).routineState = server.routineState := by
  unfold dropPendingRoutine
  split <;> rfl

theorem routineControl_pendingDid (server : UdsServer σ) (env : σ) (args : List UInt8)
    (capacity : ℕ) :
    (server.routineControl env args capacity).2.1.pendingDid = server.pendingDid := by
  rcases routineControl_cases server env args capacity with
    ⟨-, reply, next, -, h, rfl | ⟨-, -, -, -, index, -, -, -, rfl⟩⟩ |
    ⟨index, routine, sub, data, haccept, hrun⟩
  · rw [h]
  · rw [h]
    exact dropPendingRoutine_pendingDid ..
  obtain ⟨-, -, -, -, -, -, hsub⟩ := acceptedRoutine_some haccept
  rw [hrun, ← server.dropPendingRoutine_pendingDid index]
  rcases runRoutine_cases (server.dropPendingRoutine index) env data capacity index routine
      (sub &&& subfunctionMask) (sub &&& suppressPositiveResponse ≠ 0) hsub with
    ⟨-, reply, -, h⟩ | ⟨-, ⟨-, h⟩ | ⟨-, h⟩⟩
  all_goals exact congrArg (fun outcome => outcome.2.1.pendingDid) h

/-- After a drop a response that is still pending is another routine's. -/
theorem dropPendingRoutine_pending {server : UdsServer σ} {index : ℕ}
    (h : (server.dropPendingRoutine index).pendingRoutineResponse = true) :
    server.pendingRoutineIndex ≠ index ∧ server.dropPendingRoutine index = server := by
  unfold dropPendingRoutine at h ⊢
  split at h
  · cases h
  · rename_i hne
    exact ⟨fun heq => hne ⟨h, heq⟩, if_neg hne⟩

theorem PendingRuns.dropPendingRoutine {server : UdsServer σ} (h : PendingRuns server) (index : ℕ) :
    PendingRuns (server.dropPendingRoutine index) := by
  intro hpending
  obtain ⟨-, heq⟩ := dropPendingRoutine_pending hpending
  rw [heq] at hpending ⊢
  exact h hpending

theorem PendingRuns.routineControl {server : UdsServer σ} (h : PendingRuns server) (env : σ)
    (args : List UInt8) (capacity : ℕ) :
    PendingRuns (server.routineControl env args capacity).2.1 := by
  rcases routineControl_cases server env args capacity with
    ⟨-, reply, next, -, hreject, rfl | ⟨-, -, -, -, index, -, -, -, rfl⟩⟩ |
    ⟨index, routine, sub, data, haccept, hrun⟩
  · rw [hreject]
    exact h
  · rw [hreject]
    exact h.dropPendingRoutine index
  obtain ⟨-, -, -, -, -, -, hsub⟩ := acceptedRoutine_some haccept
  rw [hrun]
  rcases runRoutine_cases (server.dropPendingRoutine index) env data capacity index routine
      (sub &&& subfunctionMask) (sub &&& suppressPositiveResponse ≠ 0) hsub with
    ⟨-, reply, -, hstep⟩ | ⟨-, ⟨⟨-, hstatus⟩, hstep⟩ | ⟨-, hstep⟩⟩
  · rw [hstep]
    exact h.dropPendingRoutine index
  · rw [hstep]
    intro _
    exact (Function.update_self ..).trans hstatus
  · rw [hstep]
    intro hpending
    obtain ⟨hne, heq⟩ := dropPendingRoutine_pending hpending
    have hbefore := h (by rw [heq] at hpending; exact hpending)
    rw [heq]
    exact (Function.update_of_ne hne ..).trans hbefore

theorem PendingRuns.pollPending {server : UdsServer σ} (h : PendingRuns server) (env : σ)
    (capacity : ℕ) : PendingRuns (server.pollPending env capacity).2.1 := by
  unfold UdsServer.pollPending
  split
  · rcases pollWrite_cases server env capacity with
      hfail | ⟨entry, save, -, -, -, ⟨-, hfail⟩ | ⟨-, hdone⟩⟩
    · rw [hfail]
      exact h
    · rw [hfail]
      exact h
    · rw [hdone]
      exact h
  split
  · unfold pollRoutine
    split
    · exact h
    dsimp only
    split
    · rename_i hstatus
      intro _
      exact (Function.update_self ..).trans hstatus
    · intro hpending
      cases hpending
  · exact h

theorem PendingRuns.congr {server server' : UdsServer σ} (h : PendingRuns server)
    (hwork : server'.work = server.work) : PendingRuns server' := by
  intro hpending
  have hbefore := h ((congrArg Work.pendingRoutineResponse hwork).symm.trans hpending)
  have hstate : server'.routineState = server.routineState := congrArg Work.routineState hwork
  have hindex : server'.pendingRoutineIndex = server.pendingRoutineIndex :=
    congrArg Work.pendingRoutineIndex hwork
  rw [hstate, hindex]
  exact hbefore

theorem PendingRuns.writeDid {server : UdsServer σ} (h : PendingRuns server) (args : List UInt8)
    (capacity : ℕ) : PendingRuns (server.writeDid args capacity).2 := by
  rcases writeDid_cases server args capacity with
    ⟨-, nrc, -, hstep⟩ | ⟨index, entry, data, -, ⟨-, hstep⟩ | ⟨-, high, low, hstep⟩⟩
  all_goals rw [hstep]; exact h

theorem PendingRuns.step {s : UdsServer σ × σ} (h : PendingRuns s.1) (e : Event) :
    PendingRuns (step s e).1 := by
  refine step_keeps ?_ ?_ ?_ ?_ s e h
  · exact fun hwork hserver => hserver.congr hwork
  · exact fun args capacity hserver => hserver.writeDid args capacity
  · exact fun env args capacity hserver => hserver.routineControl env args capacity
  · exact fun env capacity hserver => hserver.pollPending env capacity

/-! ## One step backwards -/

/-- The step neither polls nor leaves another write pending. -/
def SparesWrite (s : UdsServer σ × σ) (e : Event) : Prop :=
  (∀ capacity, e ≠ .pollPending capacity) ∧
    ∀ did data entry, AcceptsWrite s e did data entry → entry.storageSave.isSome = false

theorem AcceptsWrite.asks {s : UdsServer σ × σ} {e : Event} {did : UInt16} {data : List UInt8}
    {entry : Did σ} (h : AcceptsWrite s e did data entry) : e.asks = some (.write did data) := by
  obtain ⟨now, high, low, capacity, index, rfl, rfl, -⟩ := h
  rfl

theorem SparesWrite.of_other {s : UdsServer σ × σ} {e : Event}
    (hpoll : ∀ capacity, e ≠ .pollPending capacity)
    (hasks : ∀ did data, e.asks ≠ some (.write did data)) : SparesWrite s e :=
  ⟨hpoll, fun did data _ h => absurd h.asks (hasks did data)⟩

theorem records_write_congr {server server' : UdsServer σ} {did : UInt16} {data : List UInt8}
    (hpending : server'.pendingDid = server.pendingDid)
    (hids : server'.dids.map Did.did = server.dids.map Did.did)
    (h : server'.work.records (.write did data)) : server.work.records (.write did data) := by
  simp only [pendingDid, Prod.mk.injEq] at hpending
  exact records_of_write h hpending.1.symm hpending.2.2.symm hpending.2.1.symm hids.symm

/-- A write pending after a poll was not pending before it: a poll ends the pending write. -/
theorem pollPending_pendingDidWrite (server : UdsServer σ) (env : σ) (capacity : ℕ) :
    (server.pollPending env capacity).2.1.pendingDidWrite = false := by
  unfold pollPending
  cases hwrite : server.pendingDidWrite with
  | true =>
    rw [if_pos rfl]
    rcases pollWrite_cases server env capacity with
      h | ⟨entry, save, -, -, -, ⟨-, h⟩ | ⟨-, h⟩⟩
    all_goals rw [h]; rfl
  | false =>
    rw [if_neg Bool.false_ne_true]
    split
    · unfold pollRoutine
      split
      · exact hwrite
      dsimp only
      split
      · exact hwrite
      · exact hwrite
    · exact hwrite

theorem asks_of_other {now : UInt32} {service : UInt8} {args : List UInt8} {capacity : ℕ}
    (h : service ≠ sidWriteDataByIdentifier) (did : UInt16) (data : List UInt8) :
    Event.asks (.process now (service :: args) capacity) ≠ some (.write did data) := by
  intro hasks
  obtain ⟨now', high, low, capacity', he, -⟩ := asks_write hasks
  cases he
  exact h rfl

theorem step_pendingDid_of_other (s : UdsServer σ × σ) {now : UInt32} {service : UInt8}
    {args : List UInt8} {capacity : ℕ} (h : service ≠ sidWriteDataByIdentifier) :
    (step s (.process now (service :: args) capacity)).1.pendingDid = s.1.pendingDid := by
  by_cases h31 : service = sidRoutineControl
  · subst h31
    rw [pendingDid_of_work (respond_routine now args capacity s).2.1, routineControl_pendingDid]
    exact pendingDid_of_work (s.1.tick_work now)
  · exact pendingDid_of_work (step_work_of_other now args capacity s h h31).1

/-- A write that is pending after a step was accepted by it, or was pending and spared. -/
theorem records_write_back {s : UdsServer σ × σ} {e : Event} {did : UInt16} {data : List UInt8}
    (hids : (step s e).1.dids.map Did.did = s.1.dids.map Did.did)
    (h : (step s e).1.work.records (.write did data)) :
    (∃ entry, AcceptsWrite s e did data entry) ∨
      (s.1.work.records (.write did data) ∧ SparesWrite s e) := by
  cases e with
  | tick now =>
    rw [show (step s (.tick now)).1.work = s.1.work from s.1.tick_work now] at h
    exact Or.inr ⟨h, .of_other nofun nofun⟩
  | lockSecurity => exact Or.inr ⟨h, .of_other nofun nofun⟩
  | pollPending capacity =>
    have hpending : (s.1.pollPending s.2 capacity).2.1.pendingDidWrite = true := h.1
    rw [pollPending_pendingDidWrite] at hpending
    cases hpending
  | process now request capacity =>
    cases request with
    | nil =>
      rw [show (step s (.process now [] capacity)).1.work = s.1.work from s.1.tick_work now] at h
      exact Or.inr ⟨h, .of_other nofun nofun⟩
    | cons service args =>
      by_cases h2E : service = sidWriteDataByIdentifier
      · subst h2E
        have hwork := (respond_write now args capacity s).2.1
        rcases writeDid_cases (s.1.tick now) args capacity with
          ⟨hreject, nrc, -, hstep⟩ | ⟨index, entry, owed, haccept, ⟨hsave, hstep⟩ |
            ⟨hsave, high, low, hstep⟩⟩
        · rw [hwork, hstep] at h
          refine Or.inr ⟨?_, nofun, ?_⟩
          · rw [← s.1.tick_work now]
            exact h
          · rintro did' data' entry ⟨now', high, low, capacity', index, he, -, haccept⟩
            cases he
            rw [hreject] at haccept
            cases haccept
        · rw [hwork, hstep] at h
          obtain ⟨high, low, hargs, hget, hid, -⟩ := acceptedWrite_some haccept
          have hdata : owed = data := h.2.1
          have hindex : ((s.1.tick now).dids.map Did.did)[index]? = some did := h.2.2
          rw [List.getElem?_map, hget, Option.map_some, Option.some.injEq] at hindex
          subst hdata
          subst hargs
          exact Or.inl ⟨entry, now, high, low, capacity, index, rfl, by rw [← hindex, hid], haccept⟩
        · have hpending : (step s (.process now (sidWriteDataByIdentifier :: args) capacity)).1.pendingDid =
              s.1.pendingDid := by
            have htick : (s.1.tick now).pendingDid = s.1.pendingDid :=
              pendingDid_of_work (s.1.tick_work now)
            rw [hstep] at hwork
            exact (pendingDid_of_work hwork).trans htick
          refine Or.inr ⟨records_write_congr hpending hids h, nofun, ?_⟩
          rintro did' data' entry' ⟨now', high', low', capacity', index', he, -, haccept'⟩
          cases he
          rw [haccept] at haccept'
          cases haccept'
          exact hsave
      · exact Or.inr ⟨records_write_congr (step_pendingDid_of_other s h2E) hids h,
          .of_other nofun (asks_of_other h2E)⟩

/-- The three fields that say which routines run and which response is pending. -/
def routineFlags (server : UdsServer σ) : (ℕ → RoutineStatus) × Bool × ℕ :=
  (server.routineState, server.pendingRoutineResponse, server.pendingRoutineIndex)

theorem routineFlags_of_work {server server' : UdsServer σ} (h : server'.work = server.work) :
    server'.routineFlags = server.routineFlags :=
  congrArg (fun work => (work.routineState, work.pendingRoutineResponse, work.pendingRoutineIndex)) h

theorem step_routineFlags_of_other (s : UdsServer σ × σ) {now : UInt32} {service : UInt8}
    {args : List UInt8} {capacity : ℕ} (h : service ≠ sidRoutineControl) :
    (step s (.process now (service :: args) capacity)).1.routineFlags = s.1.routineFlags := by
  by_cases h2E : service = sidWriteDataByIdentifier
  · subst h2E
    rw [routineFlags_of_work (respond_write now args capacity s).2.1,
      ← routineFlags_of_work (s.1.tick_work now)]
    rcases writeDid_cases (s.1.tick now) args capacity with
      ⟨-, nrc, -, hstep⟩ | ⟨index, entry, data, -, ⟨-, hstep⟩ | ⟨-, high, low, hstep⟩⟩
    all_goals exact congrArg (fun outcome => outcome.2.routineFlags) hstep
  · exact routineFlags_of_work (step_work_of_other now args capacity s h2E h).1

/-! ## Calls of a handler -/

/-- The routine and the sub-function of a request that is accepted and handled: a start of a routine that does not
run, a stop of one that does, or a request for its results while it does. -/
def handledRoutine (server : UdsServer σ) (args : List UInt8) : Option (ℕ × UInt8) :=
  match server.acceptedRoutine args with
  | some (index, _, sub, _) =>
    if server.callsHandler index (sub &&& subfunctionMask) then some (index, sub &&& subfunctionMask) else none
  | none => none

/-- The routine and the sub-function of the request that the event has handled. -/
def handledBy (s : UdsServer σ × σ) : Event → Option (ℕ × UInt8)
  | .process now (service :: args) _ =>
    if service = sidRoutineControl then (s.1.tick now).handledRoutine args else none
  | _ => none

/-- The environment and the states of the routines after a call of the handler of the routine at `index`. -/
def Handles (server : UdsServer σ) (env : σ) (index : ℕ) (subfunction : UInt8) (next : UdsServer σ) (env' : σ) :
    Prop :=
  ∃ routine data, server.routines[index]? = some routine ∧
    env' = (routine.handler subfunction data routineResultMax env server.dids).env ∧
    next.routineState = Function.update server.routineState index
      (routine.handler subfunction data routineResultMax env server.dids).status

theorem Handles.congr {server server' next next' : UdsServer σ} {env env' : σ} {index : ℕ} {subfunction : UInt8}
    (h : Handles server env index subfunction next env') (hroutines : server'.routines = server.routines)
    (hdids : server'.dids = server.dids) (hstate : server'.routineState = server.routineState)
    (hnext : next'.routineState = next.routineState) : Handles server' env index subfunction next' env' := by
  obtain ⟨routine, data, hget, henv, hafter⟩ := h
  refine ⟨routine, data, by rw [hroutines]; exact hget, ?_, ?_⟩
  · rw [henv, hdids]
  · rw [hnext, hafter, hdids, hstate]

theorem dropPendingRoutine_callsHandler (server : UdsServer σ) (named index : ℕ) (subfunction : UInt8) :
    (server.dropPendingRoutine named).callsHandler index subfunction = server.callsHandler index subfunction := by
  unfold callsHandler
  rw [dropPendingRoutine_routineState]

theorem running_of_callsHandler {server : UdsServer σ} {index : ℕ} {subfunction : UInt8}
    (h : server.callsHandler index subfunction = true) (hsub : subfunction ≠ routineStart) :
    server.routineState index = .running := by
  rw [callsHandler, if_neg hsub] at h
  exact of_decide_eq_true h

/-- A routine request calls no handler, or the one of the routine it has handled. -/
theorem routineControl_handles (server : UdsServer σ) (env : σ) (args : List UInt8) (capacity : ℕ) :
    let next := (server.routineControl env args capacity).2
    (server.handledRoutine args = none ∧ next.2 = env ∧ next.1.routineState = server.routineState) ∨
      ∃ index subfunction, server.handledRoutine args = some (index, subfunction) ∧
        (subfunction = routineStart ∨ subfunction = routineStop ∨ subfunction = routineRequestResults) ∧
        server.callsHandler index subfunction = true ∧ Handles server env index subfunction next.1 next.2 := by
  rcases routineControl_cases server env args capacity with
    ⟨hnone, reply, next, -, hreject, rfl | ⟨-, -, -, -, index, -, -, -, rfl⟩⟩ |
    ⟨index, routine, sub, data, haccept, hrun⟩
  · rw [hreject]
    exact Or.inl ⟨by rw [handledRoutine, hnone], rfl, rfl⟩
  · rw [hreject]
    exact Or.inl ⟨by rw [handledRoutine, hnone], rfl, dropPendingRoutine_routineState ..⟩
  obtain ⟨-, -, -, hget, -, -, hsub⟩ := acceptedRoutine_some haccept
  have hcalled : ∀ next : UdsServer σ,
      next.routineState = ((server.dropPendingRoutine index).callRoutine env index routine
        (sub &&& subfunctionMask) data).2.routineState →
      Handles server env index (sub &&& subfunctionMask) next
        ((server.dropPendingRoutine index).callRoutine env index routine (sub &&& subfunctionMask) data).1.env := by
    intro next hnext
    have hdropped : Handles (server.dropPendingRoutine index) env index (sub &&& subfunctionMask) next
        ((server.dropPendingRoutine index).callRoutine env index routine (sub &&& subfunctionMask) data).1.env :=
      ⟨routine, data, by rw [dropPendingRoutine_routines]; exact hget, rfl, hnext⟩
    exact hdropped.congr (server.dropPendingRoutine_routines index).symm (server.dropPendingRoutine_dids index).symm
      (server.dropPendingRoutine_routineState index).symm rfl
  rw [hrun]
  rcases runRoutine_cases (server.dropPendingRoutine index) env data capacity index routine
      (sub &&& subfunctionMask) (sub &&& suppressPositiveResponse ≠ 0) hsub with
    ⟨hcalls, reply, -, hstep⟩ | ⟨hcalls, ⟨-, hstep⟩ | ⟨-, hstep⟩⟩
  · rw [dropPendingRoutine_callsHandler] at hcalls
    have hnone : server.handledRoutine args = none := by simp [handledRoutine, haccept, hcalls]
    rw [hstep]
    exact Or.inl ⟨hnone, rfl, dropPendingRoutine_routineState ..⟩
  all_goals
    rw [dropPendingRoutine_callsHandler] at hcalls
    have hsome : server.handledRoutine args = some (index, sub &&& subfunctionMask) := by
      simp [handledRoutine, haccept, hcalls]
    rw [hstep]
    exact Or.inr ⟨index, _, hsome, hsub, hcalls, hcalled _ rfl⟩

/-- A step calls no handler and leaves the environment; saves the pending write; calls the handler of the routine
whose request it has handled; or that of the routine whose response is pending. -/
theorem step_handles (s : UdsServer σ × σ) (e : Event) :
    let t := step s e
    (handledBy s e = none ∧ t.2 = s.2 ∧ t.1.routineState = s.1.routineState) ∨
      (handledBy s e = none ∧ (∃ entry save, s.1.dids[s.1.pendingDidIndex]? = some entry ∧
        entry.storageSave = some save ∧ t.2 = (save entry.did s.1.pendingDidData s.2).2) ∧
        t.1.routineState = s.1.routineState) ∨
      (∃ index subfunction, handledBy s e = some (index, subfunction) ∧
        (subfunction = routineStart ∨ subfunction = routineStop ∨ subfunction = routineRequestResults) ∧
        s.1.callsHandler index subfunction = true ∧ Handles s.1 s.2 index subfunction t.1 t.2) ∨
      (handledBy s e = none ∧ s.1.pendingRoutineResponse = true ∧
        Handles s.1 s.2 s.1.pendingRoutineIndex routineRequestResults t.1 t.2) := by
  have hstate : ∀ {a b : UdsServer σ}, a.work = b.work → a.routineState = b.routineState :=
    fun hwork => congrArg Work.routineState hwork
  cases e with
  | tick now => exact Or.inl ⟨rfl, rfl, hstate (s.1.tick_work now)⟩
  | lockSecurity => exact Or.inl ⟨rfl, rfl, rfl⟩
  | pollPending capacity =>
    simp only [step, respond, pollPending]
    by_cases hwrite : s.1.pendingDidWrite = true
    · rw [if_pos hwrite]
      rcases pollWrite_cases s.1 s.2 capacity with
        hfail | ⟨entry, save, hget, hsave, -, ⟨-, hstep⟩ | ⟨-, hstep⟩⟩
      · rw [hfail]
        exact Or.inl ⟨rfl, rfl, rfl⟩
      · rw [hstep]
        exact Or.inr (Or.inl ⟨rfl, ⟨entry, save, hget, hsave, rfl⟩, rfl⟩)
      · rw [hstep]
        exact Or.inr (Or.inl ⟨rfl, ⟨entry, save, hget, hsave, rfl⟩, rfl⟩)
    rw [if_neg hwrite]
    by_cases hpending : s.1.pendingRoutineResponse = true
    · rw [if_pos hpending]
      unfold pollRoutine
      cases hget : s.1.routines[s.1.pendingRoutineIndex]? with
      | none => exact Or.inl ⟨rfl, rfl, rfl⟩
      | some routine =>
        dsimp only
        split
        · exact Or.inr (Or.inr (Or.inr ⟨rfl, hpending, routine, _, hget, rfl, rfl⟩))
        · exact Or.inr (Or.inr (Or.inr ⟨rfl, hpending, routine, _, hget, rfl, rfl⟩))
    · rw [if_neg hpending]
      exact Or.inl ⟨rfl, rfl, rfl⟩
  | process now request capacity =>
    cases request with
    | nil => exact Or.inl ⟨rfl, rfl, hstate (s.1.tick_work now)⟩
    | cons service args =>
      by_cases h31 : service = sidRoutineControl
      · subst h31
        obtain ⟨-, hwork, henv⟩ := respond_routine now args capacity s
        have htick : (s.1.tick now).routineState = s.1.routineState := hstate (s.1.tick_work now)
        dsimp only
        rw [henv, hstate hwork]
        rcases routineControl_handles (s.1.tick now) s.2 args capacity with
          ⟨hnone, hsame, hkept⟩ | ⟨index, subfunction, hsome, hsub, hcalls, hhandles⟩
        · exact Or.inl ⟨hnone, hsame, hkept.trans htick⟩
        · refine Or.inr (Or.inr (Or.inl ⟨index, subfunction, hsome, hsub, ?_, ?_⟩))
          · unfold callsHandler at hcalls ⊢
            rw [htick] at hcalls
            exact hcalls
          · exact hhandles.congr (s.1.tick_routines now).symm (s.1.tick_dids now).symm htick.symm (hstate hwork)
      · have hnone : handledBy s (.process now (service :: args) capacity) = none := if_neg h31
        have hflags : (step s (.process now (service :: args) capacity)).1.routineFlags = s.1.routineFlags :=
          step_routineFlags_of_other s h31
        refine Or.inl ⟨hnone, ?_, congrArg Prod.fst hflags⟩
        by_cases h2E : service = sidWriteDataByIdentifier
        · subst h2E
          exact (respond_write now args capacity s).2.2
        · exact (step_work_of_other now args capacity s h2E h31).2

theorem handledBy_accepts {s : UdsServer σ × σ} {e : Event} {index : ℕ} {subfunction : UInt8}
    (h : handledBy s e = some (index, subfunction)) : AcceptsRoutine s e index subfunction := by
  cases e with
  | tick now => cases h
  | lockSecurity => cases h
  | pollPending capacity => cases h
  | process now request capacity =>
    cases request with
    | nil => cases h
    | cons service args =>
      rw [handledBy] at h
      split at h
      · rename_i h31
        subst h31
        unfold handledRoutine at h
        split at h
        · rename_i haccept
          split at h
          · cases h
            exact ⟨now, args, capacity, _, _, _, rfl, haccept, rfl⟩
          · cases h
        · cases h
      · cases h

/-- A routine that runs after a step was started by it, or ran before. -/
theorem running_back {s : UdsServer σ × σ} {e : Event} {index : ℕ} (hruns : PendingRuns s.1)
    (h : (step s e).1.routineState index = .running) :
    AcceptsRoutine s e index routineStart ∨ s.1.routineState index = .running := by
  rcases step_handles s e with
    ⟨-, -, hstate⟩ | ⟨-, -, hstate⟩ | ⟨named, subfunction, hsome, -, hcalls, routine, data, -, -, hstate⟩ |
    ⟨-, hpending, routine, data, -, -, hstate⟩
  · rw [hstate] at h
    exact Or.inr h
  · rw [hstate] at h
    exact Or.inr h
  · by_cases hnamed : index = named
    · subst hnamed
      by_cases hstart : subfunction = routineStart
      · subst hstart
        exact Or.inl (handledBy_accepts hsome)
      · exact Or.inr (running_of_callsHandler hcalls hstart)
    · rw [hstate, Function.update_of_ne hnamed] at h
      exact Or.inr h
  · by_cases hnamed : index = s.1.pendingRoutineIndex
    · rw [hnamed]
      exact Or.inr (hruns hpending)
    · rw [hstate, Function.update_of_ne hnamed] at h
      exact Or.inr h

/-! ## Pending responses -/

/-- The response of the routine at `index` is pending. -/
def PendsRoutine (server : UdsServer σ) (index : ℕ) : Prop :=
  server.pendingRoutineResponse = true ∧ server.pendingRoutineIndex = index

theorem PendsRoutine.congr {server server' : UdsServer σ} {index : ℕ}
    (hflags : server'.routineFlags = server.routineFlags) (h : PendsRoutine server' index) :
    PendsRoutine server index := by
  simp only [routineFlags, Prod.mk.injEq] at hflags
  exact ⟨hflags.2.1.symm.trans h.1, hflags.2.2.symm.trans h.2⟩

theorem pends_back_routineControl {server : UdsServer σ} {env : σ} {args : List UInt8}
    {capacity index : ℕ} (h : PendsRoutine (server.routineControl env args capacity).2.1 index) :
    (∃ routine sub data, server.acceptedRoutine args = some (index, routine, sub, data) ∧
        sub &&& subfunctionMask = routineRequestResults) ∨ PendsRoutine server index := by
  have hdrop : ∀ named, PendsRoutine (server.dropPendingRoutine named) index →
      PendsRoutine server index := by
    intro named hnamed
    rw [(dropPendingRoutine_pending hnamed.1).2] at hnamed
    exact hnamed
  rcases routineControl_cases server env args capacity with
    ⟨-, reply, next, -, hreject, rfl | ⟨-, -, -, -, named, -, -, -, rfl⟩⟩ |
    ⟨named, routine, sub, data, haccept, hrun⟩
  · rw [hreject] at h
    exact Or.inr h
  · rw [hreject] at h
    exact Or.inr (hdrop named h)
  obtain ⟨-, -, -, -, -, -, hsub⟩ := acceptedRoutine_some haccept
  rw [hrun] at h
  rcases runRoutine_cases (server.dropPendingRoutine named) env data capacity named routine
      (sub &&& subfunctionMask) (sub &&& suppressPositiveResponse ≠ 0) hsub with
    ⟨-, reply, -, hstep⟩ | ⟨-, ⟨⟨hresults, -⟩, hstep⟩ | ⟨-, hstep⟩⟩
  · rw [hstep] at h
    exact Or.inr (hdrop named h)
  · rw [hstep] at h
    obtain rfl : named = index := h.2
    exact Or.inl ⟨routine, sub, data, haccept, hresults⟩
  · rw [hstep] at h
    exact Or.inr (hdrop named h)

theorem pends_back_pollPending {server : UdsServer σ} {env : σ} {capacity index : ℕ}
    (h : PendsRoutine (server.pollPending env capacity).2.1 index) : PendsRoutine server index := by
  unfold pollPending at h
  split at h
  · rcases pollWrite_cases server env capacity with
      hstep | ⟨entry, save, -, -, -, ⟨-, hstep⟩ | ⟨-, hstep⟩⟩
    all_goals rw [hstep] at h; exact h
  split at h
  · unfold pollRoutine at h
    split at h
    · exact h
    dsimp only at h
    split at h
    · exact h
    · cases h.1
  · exact h

/-- A response that is pending after a step was asked for by it, or was pending before. -/
theorem pends_back {s : UdsServer σ × σ} {e : Event} {index : ℕ}
    (h : PendsRoutine (step s e).1 index) :
    AcceptsRoutine s e index routineRequestResults ∨ PendsRoutine s.1 index := by
  cases e with
  | tick now => exact Or.inr (h.congr (routineFlags_of_work (s.1.tick_work now)))
  | lockSecurity => exact Or.inr h
  | pollPending capacity => exact Or.inr (pends_back_pollPending h)
  | process now request capacity =>
    cases request with
    | nil => exact Or.inr (h.congr (routineFlags_of_work (s.1.tick_work now)))
    | cons service args =>
      by_cases h31 : service = sidRoutineControl
      · subst h31
        have hstep := h.congr (routineFlags_of_work (respond_routine now args capacity s).2.1)
        rcases pends_back_routineControl hstep with ⟨routine, sub, data, haccept, hsub⟩ | hbefore
        · exact Or.inl ⟨now, args, capacity, routine, sub, data, rfl, haccept, hsub⟩
        · exact Or.inr (hbefore.congr (routineFlags_of_work (s.1.tick_work now)))
      · exact Or.inr (h.congr (step_routineFlags_of_other s h31))

end UdsServer

end DualCan.Uds
