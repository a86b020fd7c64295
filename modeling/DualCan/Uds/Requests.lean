import DualCan.Uds.Step

/-!
# Writes and routine requests, accepted or not

`UdsServer_WriteDid` and `UdsServer_RoutineControl` reject a request in many places and leave the state
alone. `acceptedWrite` and `acceptedRoutine` are what is left when every check passes; the case lemmas say
what happens then, and that nothing happens otherwise.
-/

namespace DualCan.Uds

theorem findIndexed_some {α : Type*} {p : α → Bool} {l : List α} {index : ℕ} {entry : α}
    (h : findIndexed p l = some (index, entry)) : l[index]? = some entry ∧ p entry = true := by
  unfold findIndexed at h
  obtain ⟨i, hi, hmap⟩ := Option.bind_eq_some_iff.1 h
  obtain ⟨x, hx, hpair⟩ := Option.map_eq_some_iff.1 hmap
  cases hpair
  obtain ⟨hlt, hp, -⟩ := List.findIdx?_eq_some_iff_getElem.1 hi
  refine ⟨hx, ?_⟩
  rw [List.getElem?_eq_getElem hlt] at hx
  cases hx
  exact hp

/-- The reply is NRC 0x78. -/
def Reply.pending (reply : Reply) : Bool := reply.result = .responsePending

theorem negative_pending (capacity : ℕ) (service nrc : UInt8) :
    (negative capacity service nrc).pending = false := by
  unfold negative
  split <;> rfl

theorem positive_pending (suppress : Bool) (capacity : ℕ) (bytes : List UInt8) :
    (positive suppress capacity bytes).pending = false := by
  unfold positive
  split
  · rfl
  · split <;> rfl

theorem responsePending_pending (capacity : ℕ) (service : UInt8) :
    (responsePending capacity service).pending = decide (3 ≤ capacity) := by
  unfold responsePending negative
  by_cases h : capacity < 3
  · have hnot : ¬3 ≤ capacity := by omega
    simp [Reply.pending, h, hnot]
  · have hle : 3 ≤ capacity := by omega
    simp [Reply.pending, h, hle]

namespace UdsServer

variable {σ : Type} (server : UdsServer σ) (env : σ) (args data : List UInt8) (capacity index : ℕ)

/-! ## Writes -/

/-- The checks of a write that look at the entry, the session and the lock. -/
def writeAllowed (entry : Did σ) : Bool :=
  entry.hasStorage && entry.writeSessionsMask ≠ 0 &&
    sessionAllowed entry.writeSessionsMask server.session &&
    (!entry.writeRequiresUnlock || server.securityUnlocked) &&
    (entry.writeRequiredSession = 0 || server.session = entry.writeRequiredSession)

/-- The index, the entry and the data of a write that passes every check. -/
def acceptedWrite : List UInt8 → Option (ℕ × Did σ × List UInt8)
  | high :: low :: data =>
    match server.findDid (word16 high low) with
    | none => none
    | some (index, entry) =>
      if server.writeAllowed entry && data.length ≤ entry.storageCapacity &&
          (!entry.storageSave.isSome || data.length ≤ pendingDidDataMax) then
        some (index, entry, data)
      else none
  | _ => none

/-- The server with a write of `data` to the entry at `index` pending. -/
def armPendingDid : UdsServer σ :=
  { server with pendingDidWrite := true, pendingDidIndex := index, pendingDidData := data }

/-- The server with the value of the entry at `index` replaced by `data`. -/
def installDid (entry : Did σ) : UdsServer σ :=
  { server with dids := server.dids.set index { entry with data := data } }

variable {server args index data} in
theorem acceptedWrite_some {entry : Did σ} (h : server.acceptedWrite args = some (index, entry, data)) :
    ∃ high low, args = high :: low :: data ∧ server.dids[index]? = some entry ∧
      entry.did = word16 high low ∧ server.writeAllowed entry = true ∧
      data.length ≤ entry.storageCapacity ∧
      (entry.storageSave.isSome → data.length ≤ pendingDidDataMax) := by
  unfold acceptedWrite at h
  split at h
  · rename_i high low rest
    split at h
    · cases h
    rename_i hfind
    split at h
    · rename_i hok
      cases h
      obtain ⟨hget, hdid⟩ := findIndexed_some hfind
      simp only [Bool.and_eq_true, Bool.or_eq_true, Bool.not_eq_true', decide_eq_true_eq] at hok
      refine ⟨high, low, rfl, hget, by simpa using hdid, hok.1.1, hok.1.2, fun hsave => ?_⟩
      rcases hok.2 with hnone | hlen
      · rw [hsave] at hnone
        cases hnone
      · exact hlen
    · cases h
  · cases h

/-- A write is rejected and changes nothing, is left pending, or is done at once. -/
theorem writeDid_cases :
    (server.acceptedWrite args = none ∧ ∃ nrc, nrc ≠ nrcResponsePending ∧
        server.writeDid args capacity = (negative capacity sidWriteDataByIdentifier nrc, server)) ∨
      ∃ index entry data, server.acceptedWrite args = some (index, entry, data) ∧
        ((entry.storageSave.isSome = true ∧ server.writeDid args capacity =
            (responsePending capacity sidWriteDataByIdentifier, server.armPendingDid data index)) ∨
          (entry.storageSave.isSome = false ∧ ∃ high low, server.writeDid args capacity =
            (positive false capacity [sidWriteDataByIdentifier + 0x40, high, low],
              server.installDid data index entry))) := by
  match args with
  | [] => exact Or.inl ⟨rfl, nrcIncorrectLength, by decide, rfl⟩
  | [_] => exact Or.inl ⟨rfl, nrcIncorrectLength, by decide, rfl⟩
  | high :: low :: data =>
    simp only [writeDid, acceptedWrite]
    cases hfind : server.findDid (word16 high low) with
    | none => exact Or.inl ⟨rfl, nrcRequestOutOfRange, by decide, rfl⟩
    | some found =>
      obtain ⟨index, entry⟩ := found
      simp only
      by_cases hstorage : !entry.hasStorage ∨ entry.writeSessionsMask = 0
      · refine Or.inl ⟨?_, nrcRequestOutOfRange, by decide, if_pos hstorage⟩
        rcases hstorage with h | h <;> simp_all [writeAllowed]
      rw [if_neg hstorage]
      by_cases hsession : !sessionAllowed entry.writeSessionsMask server.session
      · refine Or.inl ⟨?_, nrcSubfunctionNotSupportedInActiveSession, by decide, if_pos hsession⟩
        simp_all [writeAllowed]
      rw [if_neg hsession]
      by_cases hlock : entry.writeRequiresUnlock ∧ !server.securityUnlocked
      · refine Or.inl ⟨?_, nrcSecurityAccessDenied, by decide, if_pos hlock⟩
        simp_all [writeAllowed]
      rw [if_neg hlock]
      by_cases hrequired : entry.writeRequiredSession ≠ 0 ∧
          server.session ≠ entry.writeRequiredSession
      · refine Or.inl ⟨?_, nrcConditionsNotCorrect, by decide, if_pos hrequired⟩
        simp_all [writeAllowed]
      rw [if_neg hrequired]
      by_cases hlength : data.length > entry.storageCapacity
      · refine Or.inl ⟨?_, nrcRequestOutOfRange, by decide, if_pos hlength⟩
        have hnot : ¬data.length ≤ entry.storageCapacity := by omega
        simp [hnot]
      rw [if_neg hlength]
      have hallowed : server.writeAllowed entry = true := by
        simp only [writeAllowed, Bool.and_eq_true, Bool.or_eq_true, Bool.not_eq_true',
          decide_eq_true_eq]
        simp only [Bool.not_eq_true', not_or, Bool.not_eq_false] at hstorage hsession
        refine ⟨⟨⟨⟨hstorage.1, hstorage.2⟩, hsession⟩, ?_⟩, ?_⟩
        · cases hu : server.securityUnlocked with
          | true => exact Or.inr rfl
          | false => exact Or.inl (by simpa [hu] using hlock)
        · tauto
      have hfits : data.length ≤ entry.storageCapacity := by omega
      cases hsave : entry.storageSave.isSome with
      | false =>
        refine Or.inr ⟨index, entry, data, by simp [hallowed, hfits], Or.inr ⟨hsave, high, low, ?_⟩⟩
        rfl
      | true =>
        by_cases hmax : data.length > pendingDidDataMax
        · refine Or.inl ⟨?_, nrcRequestOutOfRange, by decide, ?_⟩
          · have hnot : ¬data.length ≤ pendingDidDataMax := by omega
            simp [hnot]
          · rw [if_pos rfl, if_pos hmax]
        · have hroom : data.length ≤ pendingDidDataMax := by omega
          refine Or.inr ⟨index, entry, data, by simp [hallowed, hfits, hroom], Or.inl ⟨hsave, ?_⟩⟩
          rw [if_pos rfl, if_neg hmax]
          rfl

/-- A poll with a write pending fails before the storage callback, or calls it and answers as it says. -/
theorem pollWrite_cases :
    (server.pollWrite env capacity =
        (negative capacity sidWriteDataByIdentifier nrcGeneralProgrammingFailure,
          server.clearPendingDid, env)) ∨
      ∃ entry save, server.dids[server.pendingDidIndex]? = some entry ∧
        entry.storageSave = some save ∧ server.pendingDidData.length ≤ entry.storageCapacity ∧
        (((save entry.did server.pendingDidData env).1 = false ∧ server.pollWrite env capacity =
            (negative capacity sidWriteDataByIdentifier nrcGeneralProgrammingFailure,
              server.clearPendingDid, (save entry.did server.pendingDidData env).2)) ∨
          ((save entry.did server.pendingDidData env).1 = true ∧ server.pollWrite env capacity =
            (positive false capacity
              [sidWriteDataByIdentifier + 0x40, high16 entry.did, low16 entry.did],
              (server.installDid server.pendingDidData server.pendingDidIndex entry).clearPendingDid,
              (save entry.did server.pendingDidData env).2))) := by
  unfold pollWrite
  cases hentry : server.dids[server.pendingDidIndex]? with
  | none => exact Or.inl rfl
  | some entry =>
    dsimp only
    split
    · exact Or.inl rfl
    rename_i save hsave
    by_cases hbad : !entry.hasStorage ∨ server.pendingDidData.length > entry.storageCapacity
    · exact Or.inl (if_pos hbad)
    · rw [if_neg hbad]
      refine Or.inr ⟨entry, save, rfl, hsave, by omega, ?_⟩
      rcases save entry.did server.pendingDidData env with ⟨_ | _, env'⟩
      · exact Or.inl ⟨rfl, rfl⟩
      · exact Or.inr ⟨rfl, rfl⟩

/-! ## Routines -/

/-- The checks of a routine request that look at the session and the lock. -/
def routineAllowed (routine : Routine σ) : Bool :=
  sessionAllowed routine.sessionsMask server.session &&
    (!routine.requiresUnlock || server.securityUnlocked)

/-- The routine and the sub-function of a request that passes the checks before the routine's state is
looked at. -/
def acceptedRoutine : List UInt8 → Option (ℕ × Routine σ × UInt8 × List UInt8)
  | sub :: high :: low :: data =>
    match server.findRoutine (word16 high low) with
    | none => none
    | some (index, routine) =>
      if (sub &&& subfunctionMask = routineStart || sub &&& subfunctionMask = routineStop ||
          sub &&& subfunctionMask = routineRequestResults) && server.routineAllowed routine then
        some (index, routine, sub, data)
      else none
  | _ => none

/-- The routine's handler is called for an accepted request: a start unless it runs, a stop or a request
for results while it runs. -/
def callsHandler (subfunction : UInt8) : Bool :=
  if subfunction = routineStart then server.routineState index ≠ .running
  else server.routineState index = .running

variable {server args index data} in
theorem acceptedRoutine_some {routine : Routine σ} {sub : UInt8}
    (h : server.acceptedRoutine args = some (index, routine, sub, data)) :
    ∃ high low, args = sub :: high :: low :: data ∧ server.routines[index]? = some routine ∧
      routine.routineId = word16 high low ∧ server.routineAllowed routine = true ∧
      (sub &&& subfunctionMask = routineStart ∨ sub &&& subfunctionMask = routineStop ∨
        sub &&& subfunctionMask = routineRequestResults) := by
  unfold acceptedRoutine at h
  split at h
  · split at h
    · cases h
    rename_i hfind
    split at h
    · rename_i hok
      cases h
      obtain ⟨hget, hid⟩ := findIndexed_some hfind
      simp only [Bool.and_eq_true, Bool.or_eq_true, decide_eq_true_eq] at hok
      exact ⟨_, _, rfl, hget, by simpa using hid, hok.2, by tauto⟩
    · cases h
  · cases h

/-- An accepted request is answered without a call of the handler, or the handler is called; then the
response is left pending exactly when results were asked for and the routine still runs. -/
theorem runRoutine_cases (routine : Routine σ) (subfunction : UInt8) (suppress : Bool)
    (hsub : subfunction = routineStart ∨ subfunction = routineStop ∨
      subfunction = routineRequestResults) :
    (server.callsHandler index subfunction = false ∧ ∃ reply : Reply,
        reply.pending = false ∧
        server.runRoutine env index routine subfunction suppress data capacity =
          (reply, server, env)) ∨
      (server.callsHandler index subfunction = true ∧
        (((subfunction = routineRequestResults ∧
            (server.callRoutine env index routine subfunction data).1.status = .running) ∧
          server.runRoutine env index routine subfunction suppress data capacity =
            (responsePending capacity sidRoutineControl,
              (server.callRoutine env index routine subfunction data).2.armPendingRoutine index
                subfunction suppress data,
              (server.callRoutine env index routine subfunction data).1.env)) ∨
        (¬(subfunction = routineRequestResults ∧
            (server.callRoutine env index routine subfunction data).1.status = .running) ∧
          server.runRoutine env index routine subfunction suppress data capacity =
            (routinePositive subfunction routine.routineId
                (server.callRoutine env index routine subfunction data).1.result suppress capacity,
              (server.callRoutine env index routine subfunction data).2,
              (server.callRoutine env index routine subfunction data).1.env)))) := by
  unfold runRoutine callsHandler
  rcases hsub with rfl | rfl | rfl
  · rw [if_pos rfl, if_pos rfl]
    by_cases hrun : server.routineState index = .running
    · rw [if_pos hrun]
      exact Or.inl ⟨by simp [hrun], _, negative_pending .., rfl⟩
    · rw [if_neg hrun]
      exact Or.inr ⟨by simp [hrun], Or.inr ⟨by simp [routineStart, routineRequestResults], rfl⟩⟩
  · have hne : routineStop ≠ routineStart := by decide
    rw [if_neg hne, if_neg hne, if_pos rfl]
    by_cases hrun : server.routineState index = .running
    · rw [if_neg (not_not.2 hrun)]
      exact Or.inr ⟨by simp [hrun], Or.inr ⟨by simp [routineStop, routineRequestResults], rfl⟩⟩
    · rw [if_pos hrun]
      exact Or.inl ⟨by simp [hrun], _, negative_pending .., rfl⟩
  · have hstart : routineRequestResults ≠ routineStart := by decide
    have hstop : routineRequestResults ≠ routineStop := by decide
    rw [if_neg hstart, if_neg hstart, if_neg hstop]
    cases hstate : server.routineState index with
    | idle => exact Or.inl ⟨by simp, _, negative_pending .., rfl⟩
    | complete => exact Or.inl ⟨by simp, _, positive_pending .., rfl⟩
    | failed => exact Or.inl ⟨by simp, _, positive_pending .., rfl⟩
    | running =>
      refine Or.inr ⟨by simp, ?_⟩
      by_cases hrun :
          (server.callRoutine env index routine routineRequestResults data).1.status = .running
      · exact Or.inl ⟨⟨rfl, hrun⟩, by simp [hrun]⟩
      · exact Or.inr ⟨fun h => hrun h.2, by simp [hrun]⟩

/-- A routine request is rejected, which at most drops the pending response of the routine it names, or
reaches the routine. -/
theorem routineControl_cases :
    (server.acceptedRoutine args = none ∧ ∃ (reply : Reply) (next : UdsServer σ),
        reply.pending = false ∧ server.routineControl env args capacity = (reply, next, env) ∧
        (next = server ∨ ∃ sub high low data index routine, args = sub :: high :: low :: data ∧
          server.findRoutine (word16 high low) = some (index, routine) ∧
          next = server.dropPendingRoutine index)) ∨
      ∃ index routine sub data, server.acceptedRoutine args = some (index, routine, sub, data) ∧
        server.routineControl env args capacity =
          (server.dropPendingRoutine index).runRoutine env index routine (sub &&& subfunctionMask)
            (sub &&& suppressPositiveResponse ≠ 0) data capacity := by
  match args with
  | [] => exact Or.inl ⟨rfl, _, _, negative_pending .., rfl, Or.inl rfl⟩
  | [_] => exact Or.inl ⟨rfl, _, _, negative_pending .., rfl, Or.inl rfl⟩
  | [_, _] => exact Or.inl ⟨rfl, _, _, negative_pending .., rfl, Or.inl rfl⟩
  | sub :: high :: low :: data =>
    simp only [routineControl, acceptedRoutine]
    cases hfind : server.findRoutine (word16 high low) with
    | none => exact Or.inl ⟨rfl, _, _, negative_pending .., rfl, Or.inl rfl⟩
    | some found =>
      obtain ⟨index, routine⟩ := found
      have hdrop : server.dropPendingRoutine index = server ∨
          ∃ sub' high' low' data' index' routine', sub :: high :: low :: data =
            sub' :: high' :: low' :: data' ∧
          server.findRoutine (word16 high' low') = some (index', routine') ∧
          server.dropPendingRoutine index = server.dropPendingRoutine index' :=
        Or.inr ⟨sub, high, low, data, index, routine, rfl, hfind, rfl⟩
      have hsession : (server.dropPendingRoutine index).session = server.session :=
        congrArg Access.session (server.dropPendingRoutine_access index)
      have hunlocked : (server.dropPendingRoutine index).securityUnlocked = server.securityUnlocked :=
        congrArg Access.securityUnlocked (server.dropPendingRoutine_access index)
      simp only [hsession, hunlocked]
      by_cases hsub : sub &&& subfunctionMask ≠ routineStart ∧ sub &&& subfunctionMask ≠ routineStop ∧
          sub &&& subfunctionMask ≠ routineRequestResults
      · rw [if_pos hsub]
        refine Or.inl ⟨?_, _, _, negative_pending .., rfl, hdrop⟩
        simp [hsub]
      rw [if_neg hsub]
      by_cases hallowed : !sessionAllowed routine.sessionsMask server.session
      · rw [if_pos hallowed]
        refine Or.inl ⟨?_, _, _, negative_pending .., rfl, hdrop⟩
        simp_all [routineAllowed]
      rw [if_neg hallowed]
      by_cases hlock : routine.requiresUnlock ∧ !server.securityUnlocked
      · rw [if_pos hlock]
        refine Or.inl ⟨?_, _, _, negative_pending .., rfl, hdrop⟩
        simp_all [routineAllowed]
      rw [if_neg hlock]
      have hok : ((sub &&& subfunctionMask = routineStart || sub &&& subfunctionMask = routineStop ||
          sub &&& subfunctionMask = routineRequestResults) && server.routineAllowed routine) = true := by
        simp only [routineAllowed, Bool.and_eq_true, Bool.or_eq_true, decide_eq_true_eq]
        simp only [Bool.not_eq_true', Bool.not_eq_false] at hallowed
        refine ⟨by tauto, hallowed, ?_⟩
        cases hu : server.securityUnlocked with
        | true => exact Or.inr rfl
        | false => exact Or.inl (by simpa [hu] using hlock)
      exact Or.inr ⟨index, routine, sub, data, if_pos hok, rfl⟩

/-! ## What no step changes -/

@[simp] theorem tick_routines (now : UInt32) : (server.tick now).routines = server.routines :=
  congrArg Work.routines (server.tick_work now)

@[simp] theorem tick_dids (now : UInt32) : (server.tick now).dids = server.dids :=
  congrArg Work.dids (server.tick_work now)

theorem dropPendingRoutine_routines (server : UdsServer σ) (index : ℕ) :
    (server.dropPendingRoutine index).routines = server.routines := by
  unfold dropPendingRoutine
  split <;> rfl

theorem dropPendingRoutine_dids (server : UdsServer σ) (index : ℕ) :
    (server.dropPendingRoutine index).dids = server.dids := by
  unfold dropPendingRoutine
  split <;> rfl

theorem writeDid_routines (server : UdsServer σ) (args : List UInt8) (capacity : ℕ) :
    (server.writeDid args capacity).2.routines = server.routines := by
  rcases writeDid_cases server args capacity with
    ⟨-, nrc, -, h⟩ | ⟨index, entry, data, -, ⟨-, h⟩ | ⟨-, high, low, h⟩⟩
  all_goals exact congrArg (fun outcome => outcome.2.routines) h

theorem routineControl_routines (server : UdsServer σ) (env : σ) (args : List UInt8)
    (capacity : ℕ) : (server.routineControl env args capacity).2.1.routines = server.routines := by
  rcases routineControl_cases server env args capacity with
    ⟨-, reply, next, -, h, rfl | ⟨-, -, -, -, index, -, -, -, rfl⟩⟩ |
    ⟨index, routine, sub, data, haccept, hrun⟩
  · rw [h]
  · rw [h]
    exact dropPendingRoutine_routines ..
  obtain ⟨-, -, -, -, -, -, hsub⟩ := acceptedRoutine_some haccept
  rw [hrun, ← server.dropPendingRoutine_routines index]
  rcases runRoutine_cases (server.dropPendingRoutine index) env data capacity index routine
      (sub &&& subfunctionMask) (sub &&& suppressPositiveResponse ≠ 0) hsub with
    ⟨-, reply, -, h⟩ | ⟨-, ⟨-, h⟩ | ⟨-, h⟩⟩
  all_goals exact congrArg (fun outcome => outcome.2.1.routines) h

theorem pollPending_routines (server : UdsServer σ) (env : σ) (capacity : ℕ) :
    (server.pollPending env capacity).2.1.routines = server.routines := by
  unfold pollPending
  split
  · rcases pollWrite_cases server env capacity with
      h | ⟨entry, save, -, -, -, ⟨-, h⟩ | ⟨-, h⟩⟩
    all_goals exact congrArg (fun outcome => outcome.2.1.routines) h
  split
  · unfold pollRoutine
    split
    · rfl
    dsimp only
    split <;> rfl
  · rfl

theorem step_routines (s : UdsServer σ × σ) (e : Event) : (step s e).1.routines = s.1.routines := by
  refine step_keeps (R := fun server => server.routines = s.1.routines) ?_ ?_ ?_ ?_ s e rfl
  · exact fun hwork h => (congrArg Work.routines hwork).trans h
  · exact fun args capacity h => (writeDid_routines ..).trans h
  · exact fun env args capacity h => (routineControl_routines ..).trans h
  · exact fun env capacity h => (pollPending_routines ..).trans h

/-- What does not depend on the values of a table stays when one is replaced. -/
theorem set_data_map {α : Type*} {f : Did σ → α} (hf : ∀ entry data, f { entry with data := data } = f entry)
    {dids : List (Did σ)} {index : ℕ} {entry : Did σ} (data : List UInt8)
    (hget : dids[index]? = some entry) :
    (dids.set index { entry with data := data }).map f = dids.map f := by
  obtain ⟨hlt, rfl⟩ := List.getElem?_eq_some_iff.1 hget
  have hmap : index < (dids.map f).length := by
    rw [List.length_map]
    exact hlt
  have hsame : f dids[index] = (dids.map f)[index] := (List.getElem_map ..).symm
  rw [List.map_set, hf, hsame]
  exact List.set_getElem_self hmap

/-- The handlers keep `R` of the identifier table. -/
def HandlersKeep (R : List (Did σ) → Prop) (routines : List (Routine σ)) : Prop :=
  ∀ routine ∈ routines, ∀ subfunction data capacity env dids, R dids →
    R (routine.handler subfunction data capacity env dids).dids

section
variable {R : List (Did σ) → Prop}
  (hset : ∀ dids index entry data, dids[index]? = some entry → R dids →
    R (dids.set index { entry with data := data }))
include hset

variable {server} in
theorem writeDid_table (h : R server.dids) : R (server.writeDid args capacity).2.dids := by
  rcases writeDid_cases server args capacity with
    ⟨-, nrc, -, hreject⟩ | ⟨index, entry, data, haccept, ⟨-, harm⟩ | ⟨-, high, low, hdone⟩⟩
  · rw [hreject]
    exact h
  · rw [harm]
    exact h
  · obtain ⟨-, -, -, hget, -⟩ := acceptedWrite_some haccept
    rw [hdone]
    exact hset _ _ _ data hget h

omit hset in
variable {server} in
theorem routineControl_table (hhandlers : HandlersKeep R server.routines) (h : R server.dids) :
    R (server.routineControl env args capacity).2.1.dids := by
  rcases routineControl_cases server env args capacity with
    ⟨-, reply, next, -, hreject, rfl | ⟨-, -, -, -, index, -, -, -, rfl⟩⟩ |
    ⟨index, routine, sub, data, haccept, hrun⟩
  · rw [hreject]
    exact h
  · rw [hreject]
    show R (server.dropPendingRoutine index).dids
    rw [dropPendingRoutine_dids]
    exact h
  obtain ⟨-, -, -, hget, -, -, hsub⟩ := acceptedRoutine_some haccept
  rw [← server.dropPendingRoutine_dids index] at h
  have hcall := hhandlers routine (List.mem_of_getElem? hget) (sub &&& subfunctionMask) data
    routineResultMax env _ h
  rw [hrun]
  rcases runRoutine_cases (server.dropPendingRoutine index) env data capacity index routine
      (sub &&& subfunctionMask) (sub &&& suppressPositiveResponse ≠ 0) hsub with
    ⟨-, reply, -, hstep⟩ | ⟨-, ⟨-, hstep⟩ | ⟨-, hstep⟩⟩
  · rw [hstep]
    exact h
  · rw [hstep]
    exact hcall
  · rw [hstep]
    exact hcall

variable {server} in
theorem pollPending_table (hhandlers : HandlersKeep R server.routines) (h : R server.dids) :
    R (server.pollPending env capacity).2.1.dids := by
  unfold pollPending
  split
  · rcases pollWrite_cases server env capacity with
      hfail | ⟨entry, save, hget, -, -, ⟨-, hfail⟩ | ⟨-, hdone⟩⟩
    · rw [hfail]
      exact h
    · rw [hfail]
      exact h
    · rw [hdone]
      exact hset _ _ _ _ hget h
  split
  · unfold pollRoutine
    split
    · exact h
    rename_i routine hget
    have hcall := hhandlers routine (List.mem_of_getElem? hget) routineRequestResults
      server.pendingRoutineData routineResultMax env _ h
    dsimp only
    split
    · exact hcall
    · exact hcall
  · exact h

/-- **Table rule**: what replacing a value and calling a handler keep of the table, every step keeps. -/
theorem step_table {s : UdsServer σ × σ} {e : Event} (hhandlers : HandlersKeep R s.1.routines)
    (h : R s.1.dids) : R (step s e).1.dids := by
  have hkept := step_keeps (R := fun server => HandlersKeep R server.routines ∧ R server.dids)
    ?_ ?_ ?_ ?_ s e ⟨hhandlers, h⟩
  · exact hkept.2
  · intro server next hwork hserver
    rw [show next.routines = server.routines from congrArg Work.routines hwork,
      show next.dids = server.dids from congrArg Work.dids hwork]
    exact hserver
  · intro server args capacity hserver
    rw [writeDid_routines]
    exact ⟨hserver.1, writeDid_table args capacity hset hserver.2⟩
  · intro server env args capacity hserver
    rw [routineControl_routines]
    exact ⟨hserver.1, routineControl_table env args capacity hserver.1 hserver.2⟩
  · intro server env capacity hserver
    rw [pollPending_routines]
    exact ⟨hserver.1, pollPending_table env capacity hset hserver.1 hserver.2⟩

end

end UdsServer

end DualCan.Uds
