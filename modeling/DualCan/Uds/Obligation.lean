import DualCan.Uds.Requests

/-!
# Requests acknowledged as pending

A write with a storage callback, and a request for the results of a routine that still runs, are answered
with NRC 0x78 and done by a later poll. What the server then owes is an `Obligation`. It keeps one write and
one routine at a time: `obligations_kept` says that it keeps what it owes until it is discharged in every
run whose steps do not put a second obligation in an occupied place and whose polls can send what they find.
-/

namespace DualCan.Uds

open DualCan.Run

theorem word16_high16_low16 (d : UInt16) : word16 (high16 d) (low16 d) = d := by
  apply UInt16.toNat_inj.1
  have hlt := d.toNat_lt
  have hhigh : d.toNat >>> 8 % 256 = d.toNat / 256 := by
    rw [Nat.shiftRight_eq_div_pow]
    omega
  have hlow : (d.toNat &&& 255) % 256 = d.toNat % 256 := by
    rw [Nat.and_two_pow_sub_one_eq_mod _ 8]
    omega
  simp only [word16, high16, low16, UInt16.toNat_or, UInt16.toNat_shiftLeft, UInt8.toNat_toUInt16,
    UInt16.toNat_toUInt8, UInt16.toNat_shiftRight, UInt16.toNat_and, UInt16.reduceToNat,
    Nat.reducePow, Nat.reduceMod]
  rw [hhigh, hlow, Nat.mod_eq_of_lt (by rw [Nat.shiftLeft_eq]; omega),
    ← Nat.shiftLeft_add_eq_or_of_lt (by omega : d.toNat % 256 < 2 ^ 8), Nat.shiftLeft_eq]
  omega

/-- What the server owes after NRC 0x78: a write of `data`, or the results of a routine. -/
inductive Obligation where
  | write (did : UInt16) (data : List UInt8)
  | routine (routineId : UInt16)
  deriving DecidableEq

namespace Obligation

/-- Same service and same identifier or routine. -/
def sameTarget : Obligation → Obligation → Bool
  | write did _, write did' _ => did = did'
  | routine routineId, routine routineId' => routineId = routineId'
  | _, _ => false

/-- The bytes are a final response for the obligation. -/
def answeredBy : Obligation → List UInt8 → Bool
  | write did _, [first, second, third] =>
    (first = sidNegativeResponse && second = sidWriteDataByIdentifier && third ≠ nrcResponsePending) ||
      (first = sidWriteDataByIdentifier + 0x40 && word16 second third = did)
  | routine routineId, first :: _ :: high :: low :: _ =>
    first = sidRoutineControl + 0x40 && word16 high low = routineId
  | routine _, [first, second, third] =>
    first = sidNegativeResponse && second = sidRoutineControl && third ≠ nrcResponsePending
  | _, _ => false

end Obligation

/-- The obligation is held in the server's pending fields. -/
def Work.records {σ : Type} (work : Work σ) : Obligation → Prop
  | .write did data => work.pendingDidWrite = true ∧ work.pendingDidData = data ∧
      (work.dids.map Did.did)[work.pendingDidIndex]? = some did
  | .routine routineId => work.pendingRoutineResponse = true ∧
      (work.routines.map Routine.routineId)[work.pendingRoutineIndex]? = some routineId

namespace UdsServer

variable {σ : Type}

/-- The obligation that a request asks the server to take on. -/
def Event.asks : Event → Option Obligation
  | .process _ (service :: args) _ =>
    if service = sidWriteDataByIdentifier then
      match args with
      | high :: low :: data => some (.write (word16 high low) data)
      | _ => none
    else if service = sidRoutineControl then
      match args with
      | _ :: high :: low :: _ => some (.routine (word16 high low))
      | _ => none
    else none
  | _ => none

/-- The request is answered with NRC 0x78. -/
def acknowledges (s : UdsServer σ × σ) (e : Event) (obligation : Obligation) : Prop :=
  e.asks = some obligation ∧ (respond s e).1.pending = true

/-- A poll sends the final response; or a request for the same target is answered in full, or asks for the
same routine again. -/
def discharges (s : UdsServer σ × σ) (e : Event) (obligation : Obligation) : Bool :=
  match e.asks with
  | some asked => asked.sameTarget obligation &&
      ((respond s e).1.response ≠ [] && !(respond s e).1.pending ||
        asked matches .routine _)
  | none => (e matches .pollPending _) && obligation.answeredBy (respond s e).1.response

/-! ## What discards an obligation -/

/-- A write is accepted over another one that is pending. -/
def overwrites (server : UdsServer σ) (args : List UInt8) : Bool :=
  server.pendingDidWrite &&
    match server.acceptedWrite args with
    | some (index, entry, data) => entry.storageSave.isSome &&
        !(index = server.pendingDidIndex && data = server.pendingDidData)
    | none => false

/-- The results of one routine are asked for while those of another are pending. -/
def displaces (server : UdsServer σ) (env : σ) (args : List UInt8) : Bool :=
  server.pendingRoutineResponse &&
    match server.acceptedRoutine args with
    | some (index, routine, sub, data) => index ≠ server.pendingRoutineIndex &&
        sub &&& subfunctionMask = routineRequestResults && server.callsHandler index routineRequestResults &&
        (server.callRoutine env index routine routineRequestResults data).1.status = .running
    | none => false

/-- A poll finishes what is pending without sending its response: there is no room for it, or it was asked
for with the suppress bit. -/
def silences (server : UdsServer σ) (env : σ) (capacity : ℕ) : Bool :=
  if server.pendingDidWrite then capacity < 3
  else server.pendingRoutineResponse &&
    match server.routines[server.pendingRoutineIndex]? with
    | some routine =>
      let handled := (server.callRoutine env server.pendingRoutineIndex routine routineRequestResults
        server.pendingRoutineData).1
      handled.status ≠ .running &&
        (server.pendingRoutineSuppressPositive || capacity < 4 + handled.result.length)
    | none => false

/-- The step discards no obligation. -/
def keepsObligations (s : UdsServer σ × σ) : Event → Bool
  | .process now (service :: args) _ =>
    !(service = sidWriteDataByIdentifier && (s.1.tick now).overwrites args) &&
      !(service = sidRoutineControl && (s.1.tick now).displaces s.2 args)
  | .pollPending capacity => !s.1.silences s.2 capacity
  | _ => true

/-- The handlers may replace the values in a table with these identifiers, but not the identifiers. -/
def KeepsIdentifiers (identifiers : List UInt16) (routines : List (Routine σ)) : Prop :=
  HandlersKeep (fun dids => dids.map Did.did = identifiers) routines

/-- The table has these identifiers, and the handlers keep them. -/
structure Tabled (ids : List UInt16) (server : UdsServer σ) : Prop where
  identifiers : server.dids.map Did.did = ids
  handlers : KeepsIdentifiers ids server.routines

/-! ## Taking an obligation on -/

theorem asks_write {e : Event} {did : UInt16} {data : List UInt8} (h : e.asks = some (.write did data)) :
    ∃ now high low capacity,
      e = .process now (sidWriteDataByIdentifier :: high :: low :: data) capacity ∧
      did = word16 high low := by
  unfold Event.asks at h
  split at h
  · split at h
    · rename_i hservice
      split at h
      · cases h
        exact ⟨_, _, _, _, by rw [hservice], rfl⟩
      · cases h
    · split at h
      · split at h <;> cases h
      · cases h
  · cases h

theorem asks_routine {e : Event} {routineId : UInt16} (h : e.asks = some (.routine routineId)) :
    ∃ now sub high low data capacity,
      e = .process now (sidRoutineControl :: sub :: high :: low :: data) capacity ∧
      routineId = word16 high low := by
  unfold Event.asks at h
  split at h
  · split at h
    · split at h <;> cases h
    · split at h
      · rename_i hservice
        split at h
        · cases h
          exact ⟨_, _, _, _, _, _, by rw [hservice], rfl⟩
        · cases h
      · cases h
  · cases h

/-- An acknowledged request is recorded. -/
theorem records_of_acknowledges {s : UdsServer σ × σ} {e : Event} {obligation : Obligation}
    (h : acknowledges s e obligation) : (step s e).1.work.records obligation := by
  obtain ⟨hasks, hpending⟩ := h
  cases obligation with
  | write did data =>
    obtain ⟨now, high, low, capacity, rfl, rfl⟩ := asks_write hasks
    obtain ⟨hreply, hwork, -⟩ := respond_write now (high :: low :: data) capacity s
    rw [hreply] at hpending
    rw [hwork]
    rcases writeDid_cases (s.1.tick now) (high :: low :: data) capacity with
      ⟨-, nrc, -, hreject⟩ | ⟨index, entry, data', haccept, ⟨-, harm⟩ | ⟨-, high', low', hdone⟩⟩
    · rw [hreject, negative_pending] at hpending
      cases hpending
    · obtain ⟨high', low', hargs, hget, hdid, -⟩ := acceptedWrite_some haccept
      cases hargs
      rw [harm]
      refine ⟨rfl, rfl, ?_⟩
      show ((s.1.tick now).dids.map Did.did)[index]? = _
      rw [List.getElem?_map, hget, Option.map_some, hdid]
    · rw [hdone, positive_pending] at hpending
      cases hpending
  | routine routineId =>
    obtain ⟨now, sub, high, low, data, capacity, rfl, rfl⟩ := asks_routine hasks
    obtain ⟨hreply, hwork, -⟩ := respond_routine now (sub :: high :: low :: data) capacity s
    rw [hreply] at hpending
    rw [hwork]
    rcases routineControl_cases (s.1.tick now) s.2 (sub :: high :: low :: data) capacity with
      ⟨-, reply, next, hnot, hreject, -⟩ | ⟨index, routine, sub', data', haccept, hrun⟩
    · rw [hreject, hnot] at hpending
      cases hpending
    · obtain ⟨high', low', hargs, hget, hid, -, hsub⟩ := acceptedRoutine_some haccept
      cases hargs
      rw [hrun] at hpending ⊢
      rcases runRoutine_cases ((s.1.tick now).dropPendingRoutine index) s.2 data capacity index
          routine (sub &&& subfunctionMask) (sub &&& suppressPositiveResponse ≠ 0) hsub with
        ⟨-, reply, hnot, hcall⟩ | ⟨-, ⟨-, hcall⟩ | ⟨-, hcall⟩⟩
      · rw [hcall, hnot] at hpending
        cases hpending
      · rw [hcall]
        refine ⟨rfl, ?_⟩
        show (((s.1.tick now).dropPendingRoutine index).routines.map Routine.routineId)[index]? = _
        rw [dropPendingRoutine_routines, List.getElem?_map, hget, Option.map_some, hid]
      · rw [hcall] at hpending
        have hnot : (routinePositive (sub &&& subfunctionMask) routine.routineId
          (((s.1.tick now).dropPendingRoutine index).callRoutine s.2 index routine
            (sub &&& subfunctionMask) data).1.result
          (sub &&& suppressPositiveResponse ≠ 0) capacity).pending = false := positive_pending ..
        rw [hnot] at hpending
        cases hpending

/-! ## Keeping it -/

theorem records_of_write {work work' : Work σ} {did : UInt16} {data : List UInt8}
    (h : work.records (.write did data)) (hpending : work'.pendingDidWrite = work.pendingDidWrite)
    (hdata : work'.pendingDidData = work.pendingDidData)
    (hindex : work'.pendingDidIndex = work.pendingDidIndex)
    (hids : work'.dids.map Did.did = work.dids.map Did.did) :
    work'.records (.write did data) := by
  obtain ⟨h1, h2, h3⟩ := h
  exact ⟨hpending.trans h1, hdata.trans h2, by rw [hids, hindex]; exact h3⟩

theorem records_writeDid {server : UdsServer σ} {args : List UInt8} {capacity : ℕ}
    {obligation : Obligation} (hkeep : server.overwrites args = false)
    (h : server.work.records obligation) :
    (server.writeDid args capacity).2.work.records obligation := by
  rcases writeDid_cases server args capacity with
    ⟨-, nrc, -, hreject⟩ | ⟨index, entry, data, haccept, ⟨hsave, harm⟩ | ⟨-, high, low, hdone⟩⟩
  · rw [hreject]
    exact h
  · rw [harm]
    cases obligation with
    | write did owed =>
      obtain ⟨hpending, hdata, hid⟩ := h
      have hw : server.pendingDidWrite = true := hpending
      simp only [overwrites, hw, haccept, hsave, Bool.true_and, Bool.not_eq_false', Bool.and_eq_true,
        decide_eq_true_eq] at hkeep
      refine ⟨rfl, hkeep.2.trans hdata, ?_⟩
      show (server.dids.map Did.did)[index]? = _
      rw [hkeep.1]
      exact hid
    | routine routineId => exact h
  · obtain ⟨-, -, -, hget, -⟩ := acceptedWrite_some haccept
    rw [hdone]
    cases obligation with
    | write did owed => exact records_of_write h rfl rfl rfl (set_data_map (fun _ _ => rfl) data hget)
    | routine routineId => exact h

theorem records_callRoutine {server : UdsServer σ} {ids : List UInt16} (hids : Tabled ids server)
    (env : σ) {index : ℕ} {routine : Routine σ} (hget : server.routines[index]? = some routine)
    (subfunction : UInt8) (data : List UInt8) {obligation : Obligation}
    (h : server.work.records obligation) :
    (server.callRoutine env index routine subfunction data).2.work.records obligation := by
  cases obligation with
  | write did owed =>
    refine records_of_write h rfl rfl rfl (Eq.trans ?_ hids.identifiers.symm)
    exact hids.handlers routine (List.mem_of_getElem? hget) _ _ _ _ _ hids.identifiers
  | routine routineId => exact h

theorem dropPendingRoutine_eq_self {server : UdsServer σ} {index : ℕ}
    (h : server.pendingRoutineIndex ≠ index) : server.dropPendingRoutine index = server := by
  unfold dropPendingRoutine
  rw [if_neg]
  exact fun hand => h hand.2

theorem records_dropPendingRoutine {server : UdsServer σ} {index : ℕ} {obligation : Obligation}
    (hother : ∀ routineId, obligation = .routine routineId → server.pendingRoutineIndex ≠ index)
    (h : server.work.records obligation) :
    (server.dropPendingRoutine index).work.records obligation := by
  cases obligation with
  | write did owed =>
    unfold dropPendingRoutine
    split
    · exact h
    · exact h
  | routine routineId =>
    rw [dropPendingRoutine_eq_self (hother routineId rfl)]
    exact h

/-- A request for one routine does not discard what is owed for another. -/
theorem records_routineControl {server : UdsServer σ} {env : σ} {args : List UInt8} {capacity : ℕ}
    {obligation : Obligation} {ids : List UInt16} (hids : Tabled ids server)
    (hkeep : server.displaces env args = false)
    (hother : ∀ sub high low data, args = sub :: high :: low :: data →
      obligation ≠ .routine (word16 high low))
    (h : server.work.records obligation) :
    (server.routineControl env args capacity).2.1.work.records obligation := by
  have hindex : ∀ sub high low data index routine, args = sub :: high :: low :: data →
      server.routines[index]? = some routine → routine.routineId = word16 high low →
      ∀ routineId, obligation = .routine routineId → server.pendingRoutineIndex ≠ index := by
    rintro sub high low data index routine hargs hget hid routineId rfl rfl
    have hpending : (server.routines.map Routine.routineId)[server.pendingRoutineIndex]? =
        some routineId := h.2
    rw [List.getElem?_map, hget, Option.map_some, Option.some.injEq, hid] at hpending
    exact hother sub high low data hargs (by rw [hpending])
  rcases routineControl_cases server env args capacity with
    ⟨-, reply, next, -, hreject, rfl | ⟨sub, high, low, data, index, routine, hargs, hfind, rfl⟩⟩ |
    ⟨index, routine, sub, data, haccept, hrun⟩
  · rw [hreject]
    exact h
  · obtain ⟨hget, hid⟩ := findIndexed_some hfind
    rw [hreject]
    exact records_dropPendingRoutine
      (hindex sub high low data index routine hargs hget (by simpa using hid)) h
  obtain ⟨high, low, hargs, hget, hid, -, hsub⟩ := acceptedRoutine_some haccept
  have hne := hindex sub high low data index routine hargs hget hid
  have hdrop := records_dropPendingRoutine hne h
  have hget' : (server.dropPendingRoutine index).routines[index]? = some routine := by
    rw [dropPendingRoutine_routines]
    exact hget
  have hids' : Tabled ids (server.dropPendingRoutine index) :=
    ⟨by rw [dropPendingRoutine_dids]; exact hids.identifiers,
      by rw [dropPendingRoutine_routines]; exact hids.handlers⟩
  have hcalled := records_callRoutine hids' env hget' (sub &&& subfunctionMask) data hdrop
  rw [hrun]
  rcases runRoutine_cases (server.dropPendingRoutine index) env data capacity index routine
      (sub &&& subfunctionMask) (sub &&& suppressPositiveResponse ≠ 0) hsub with
    ⟨-, reply, -, hcall⟩ | ⟨hcalls, ⟨⟨hresults, hrunning⟩, hcall⟩ | ⟨-, hcall⟩⟩
  · rw [hcall]
    exact hdrop
  · rw [hcall]
    cases obligation with
    | write did owed => exact hcalled
    | routine routineId =>
      have hpending : server.pendingRoutineResponse = true := h.1
      rw [dropPendingRoutine_eq_self (hne routineId rfl), hresults] at hrunning hcalls
      simp only [displaces, hpending, haccept, hresults, hcalls, hrunning, Bool.true_and, Bool.and_true,
        decide_true, decide_eq_false_iff_not, not_not] at hkeep
      exact absurd hkeep.symm (hne routineId rfl)
  · rw [hcall]
    exact hcalled

/-- A write that is pending is answered by the next poll, given room for three bytes. -/
theorem answeredBy_pollWrite {server : UdsServer σ} {env : σ} {capacity : ℕ} {did : UInt16}
    {data : List UInt8} (hroom : 3 ≤ capacity) (h : server.work.records (.write did data)) :
    (Obligation.write did data).answeredBy (server.pollWrite env capacity).1.response = true := by
  have hnegative : (Obligation.write did data).answeredBy
      (negative capacity sidWriteDataByIdentifier nrcGeneralProgrammingFailure).response = true := by
    have hnot : ¬capacity < 3 := by omega
    rw [negative, if_neg hnot]
    simp [Obligation.answeredBy, nrcGeneralProgrammingFailure, nrcResponsePending]
  rcases pollWrite_cases server env capacity with
    hfail | ⟨entry, save, hget, -, -, ⟨-, hfail⟩ | ⟨-, hdone⟩⟩
  · rw [hfail]
    exact hnegative
  · rw [hfail]
    exact hnegative
  · have hid : (server.dids.map Did.did)[server.pendingDidIndex]? = some did := h.2.2
    rw [List.getElem?_map, hget, Option.map_some, Option.some.injEq] at hid
    have hnot : ¬capacity < [sidWriteDataByIdentifier + 0x40, high16 entry.did, low16 entry.did].length := by
      simp only [List.length_cons, List.length_nil]
      omega
    rw [hdone, positive, if_neg Bool.false_ne_true, if_neg hnot]
    simp [Obligation.answeredBy, word16_high16_low16, hid]

theorem records_pollWrite {server : UdsServer σ} {env : σ} {capacity : ℕ} {routineId : UInt16}
    (h : server.work.records (.routine routineId)) :
    (server.pollWrite env capacity).2.1.work.records (.routine routineId) := by
  rcases pollWrite_cases server env capacity with
    hfail | ⟨entry, save, -, -, -, ⟨-, hfail⟩ | ⟨-, hdone⟩⟩
  · rw [hfail]
    exact h
  · rw [hfail]
    exact h
  · rw [hdone]
    exact h

/-- A poll of a pending routine answers it or leaves it pending. -/
theorem records_pollRoutine {server : UdsServer σ} {env : σ} {capacity : ℕ} {routineId : UInt16}
    (hwrite : server.pendingDidWrite = false) (hkeep : server.silences env capacity = false)
    (h : server.work.records (.routine routineId)) :
    (Obligation.routine routineId).answeredBy (server.pollRoutine env capacity).1.response = true ∨
      (server.pollRoutine env capacity).2.1.work.records (.routine routineId) := by
  have hpending : server.pendingRoutineResponse = true := h.1
  have hid : (server.routines.map Routine.routineId)[server.pendingRoutineIndex]? =
      some routineId := h.2
  rw [List.getElem?_map, Option.map_eq_some_iff] at hid
  obtain ⟨routine, hget, hid⟩ := hid
  simp only [silences, hwrite, hpending, hget, Bool.false_eq_true, if_false, Bool.true_and] at hkeep
  unfold pollRoutine
  simp only [hget]
  by_cases hrun : (server.callRoutine env server.pendingRoutineIndex routine routineRequestResults
      server.pendingRoutineData).1.status = .running
  · rw [if_pos hrun]
    exact Or.inr h
  · rw [if_neg hrun]
    simp only [hrun, ne_eq, not_false_eq_true, decide_true, Bool.true_and, Bool.or_eq_false_iff,
      decide_eq_false_iff_not] at hkeep
    left
    rw [routinePositive, hkeep.1, positive, if_neg Bool.false_ne_true, if_neg (by
      simp only [List.length_cons]
      omega)]
    simp [Obligation.answeredBy, word16_high16_low16, hid]

/-- A poll keeps what it does not discharge. -/
theorem records_pollPending {s : UdsServer σ × σ} {capacity : ℕ} {obligation : Obligation}
    (hkeep : keepsObligations s (.pollPending capacity) = true) (h : s.1.work.records obligation)
    (hnot : discharges s (.pollPending capacity) obligation = false) :
    (step s (.pollPending capacity)).1.work.records obligation := by
  simp only [keepsObligations, Bool.not_eq_true'] at hkeep
  simp only [discharges, Event.asks, respond, Bool.true_and] at hnot
  show (s.1.pollPending s.2 capacity).2.1.work.records obligation
  unfold pollPending at hnot ⊢
  cases hwrite : s.1.pendingDidWrite with
  | true =>
    rw [hwrite, if_pos rfl] at hnot
    rw [if_pos rfl]
    cases obligation with
    | write did data =>
      have hroom : 3 ≤ capacity := by
        simpa [silences, hwrite] using hkeep
      rw [answeredBy_pollWrite hroom h] at hnot
      cases hnot
    | routine routineId => exact records_pollWrite h
  | false =>
    rw [hwrite, if_neg Bool.false_ne_true] at hnot
    rw [if_neg Bool.false_ne_true]
    cases obligation with
    | write did data =>
      have hpending : s.1.pendingDidWrite = true := h.1
      rw [hwrite] at hpending
      cases hpending
    | routine routineId =>
      have hpending : s.1.pendingRoutineResponse = true := h.1
      rw [if_pos hpending] at hnot ⊢
      rcases records_pollRoutine hwrite hkeep h with hanswer | hrecords
      · rw [hanswer] at hnot
        cases hnot
      · exact hrecords

/-- What a step that discards nothing leaves of an obligation it does not discharge. -/
theorem records_step {s : UdsServer σ × σ} {e : Event} {obligation : Obligation}
    {ids : List UInt16} (hids : Tabled ids s.1) (hkeep : keepsObligations s e = true)
    (h : s.1.work.records obligation) (hnot : discharges s e obligation = false) :
    (step s e).1.work.records obligation := by
  cases e with
  | tick now =>
    rw [show (step s (.tick now)).1.work = s.1.work from s.1.tick_work now]
    exact h
  | lockSecurity => exact h
  | pollPending capacity => exact records_pollPending hkeep h hnot
  | process now request capacity =>
    have htick : (s.1.tick now).work.records obligation := by
      rw [tick_work]
      exact h
    cases request with
    | nil => exact htick
    | cons service args =>
      simp only [keepsObligations, Bool.and_eq_true, Bool.not_eq_true', Bool.and_eq_false_iff,
        decide_eq_false_iff_not] at hkeep
      by_cases h2E : service = sidWriteDataByIdentifier
      · subst h2E
        rw [(respond_write now args capacity s).2.1]
        exact records_writeDid (hkeep.1.resolve_left (not_not.2 rfl)) htick
      by_cases h31 : service = sidRoutineControl
      · subst h31
        rw [(respond_routine now args capacity s).2.1]
        have htickIds : Tabled ids (s.1.tick now) :=
          ⟨by rw [tick_dids]; exact hids.identifiers, by rw [tick_routines]; exact hids.handlers⟩
        refine records_routineControl htickIds (hkeep.2.resolve_left (not_not.2 rfl)) ?_ htick
        rintro sub high low data rfl rfl
        simp [discharges, Event.asks, Obligation.sameTarget, sidRoutineControl,
          sidWriteDataByIdentifier] at hnot
      rw [(step_work_of_other now args capacity s h2E h31).1]
      exact h

/-! ## Runs -/

/-- Every request acknowledged as pending and not discharged since is recorded. -/
def ObligationsKept (s : UdsServer σ × σ) (es : List Event) : Prop :=
  ∀ obligation, Since step s (fun t e => acknowledges t e obligation)
    (fun t e => discharges t e obligation = false) es →
    (after step s es).1.work.records obligation

/-- **No request acknowledged as pending is lost** in a run whose steps discard none, when the routine
handlers keep the identifiers of the table. -/
theorem obligations_kept {config : UdsServerConfig σ} {server : UdsServer σ} (env : σ)
    (hinit : init config = some server)
    (hids : KeepsIdentifiers (config.dids.map Did.did) config.routines) (es : List Event)
    (hkeep : AllSteps step (server, env) (fun t e => keepsObligations t e = true) es) :
    ObligationsKept (server, env) es := by
  intro obligation hsince
  refine state_of_since (C := fun t e => keepsObligations t e = true)
    (J := fun t => Tabled (config.dids.map Did.did) t.1)
    (I := fun t => t.1.work.records obligation) ?_ ?_ ?_ ?_ es hkeep hsince
  · obtain ⟨hdids, hroutines, -⟩ := init_some hinit
    exact ⟨by rw [hdids], by rw [hroutines]; exact hids⟩
  · intro t e ht
    refine ⟨step_table ?_ ht.handlers ht.identifiers, by rw [step_routines]; exact ht.handlers⟩
    intro dids index entry data hget htable
    rw [set_data_map (fun _ _ => rfl) data hget]
    exact htable
  · intro t e _ _ hack
    exact records_of_acknowledges hack
  · intro t e ht hk hrecords hnot
    exact records_step ht hk hrecords hnot

/-! ## A server with two stored identifiers and a routine that goes on running -/

def storedDid (did : UInt16) : Did Unit where
  did := did
  data := []
  hasStorage := true
  storageCapacity := 16
  readSessionsMask := 0
  writeSessionsMask := defaultSessionMask
  writeRequiredSession := 0
  writeRequiresUnlock := false
  storageSave := some fun _ _ env => (true, env)

def runningRoutine : Routine Unit where
  routineId := 0x0203
  sessionsMask := 0
  requiresUnlock := false
  handler := fun _ _ _ env dids => ⟨.running, [], env, dids⟩

def storedConfig : UdsServerConfig Unit where
  dids := [storedDid 0x0100, storedDid 0xF191]
  routines := [runningRoutine]
  p2ServerMs := 0
  p2StarServerMs := 0
  s3ServerMs := 0
  supportedSessionsMask := 0
  securitySalt := 0

def storedServer : UdsServer Unit := (init storedConfig).get rfl

theorem init_storedConfig : init storedConfig = some storedServer := rfl

theorem keepsIdentifiers_storedConfig :
    KeepsIdentifiers (storedConfig.dids.map Did.did) storedConfig.routines := by
  intro routine hmem subfunction data capacity env dids htable
  rw [List.mem_singleton.1 hmem]
  exact htable

def writeEvent (high low byte : UInt8) : Event :=
  .process 0 [sidWriteDataByIdentifier, high, low, byte] 16

def resultsEvent : Event :=
  .process 0 [sidRoutineControl, routineRequestResults, 0x02, 0x03] 16

/-- A pending write stays recorded through a request for the results of a routine. -/
theorem obligations_kept_writeAndResults :
    (after step (storedServer, ())
      [writeEvent 0x01 0x00 0xAA, .process 0 [sidRoutineControl, routineStart, 0x02, 0x03] 16,
        resultsEvent]).1.work.records (.write 0x0100 [0xAA]) := by
  apply obligations_kept () init_storedConfig keepsIdentifiers_storedConfig
  · decide +kernel
  · exact ⟨[], _, _, rfl, ⟨rfl, by decide +kernel⟩, by decide +kernel⟩

/-- A second write is accepted over the first, which is lost with its response. -/
theorem not_obligationsKept_twoWrites :
    ¬ObligationsKept (storedServer, ()) [writeEvent 0x01 0x00 0xAA, writeEvent 0xF1 0x91 0xBB] := by
  intro h
  have hrecords := h (.write 0x0100 [0xAA])
    ⟨[], _, _, rfl, ⟨rfl, by decide +kernel⟩, by decide +kernel⟩
  exact absurd hrecords.2.1 (by decide +kernel)

end UdsServer

end DualCan.Uds
