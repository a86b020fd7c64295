import DualCan.Uds.Authority
import DualCan.Uds.Reply

/-!
# What a rejected request leaves

A read, a write or a routine request that is answered with a negative response other than NRC 0x78 leaves
the server as its tick left it, with one exception: a routine request drops the pending response of the
routine it names before it is checked.
-/

namespace DualCan.Uds

open DualCan.Run

/-- The reply is a negative response other than NRC 0x78. -/
def Reply.rejects (reply : Reply) : Bool :=
  reply.response.head? = some sidNegativeResponse && reply.response[2]? ≠ some nrcResponsePending

theorem positive_rejects {first : UInt8} (hfirst : first ≠ sidNegativeResponse) (suppress : Bool)
    (capacity : ℕ) (bytes : List UInt8) :
    (positive suppress capacity (first :: bytes)).rejects = false := by
  unfold positive Reply.rejects
  split
  · rfl
  split
  · rfl
  · simp [hfirst]

theorem routinePositive_rejects (subfunction : UInt8) (routineId : UInt16) (result : List UInt8)
    (suppress : Bool) (capacity : ℕ) :
    (UdsServer.routinePositive subfunction routineId result suppress capacity).rejects = false :=
  positive_rejects (by decide) ..

theorem responsePending_rejects (capacity : ℕ) (service : UInt8) :
    (responsePending capacity service).rejects = false := by
  unfold responsePending negative
  by_cases h : capacity < 3
  · simp [h, Reply.rejects]
  · simp [h, Reply.rejects]

namespace UdsServer

variable {σ : Type} (server : UdsServer σ) (env : σ) (args : List UInt8) (capacity : ℕ)

/-- The request names the routine whose response is pending. -/
def namesPending : Bool :=
  server.pendingRoutineResponse &&
    match args with
    | _ :: high :: low :: _ =>
      match server.findRoutine (word16 high low) with
      | some (index, _) => index = server.pendingRoutineIndex
      | none => false
    | _ => false

theorem dropNamed_of_not_namesPending (h : server.namesPending args = false) :
    server.dropNamed args = server := by
  unfold dropNamed
  unfold namesPending at h
  split
  · dsimp only at h
    split
    · rename_i index routine hfind
      unfold dropPendingRoutine
      rw [if_neg]
      rintro ⟨hpending, rfl⟩
      simp [hpending, hfind] at h
    · rfl
  · rfl

theorem dropNamed_of_namesPending (h : server.namesPending args = true) :
    server.pendingRoutineResponse = true ∧ server.dropNamed args = server.clearPendingRoutine := by
  unfold namesPending at h
  simp only [Bool.and_eq_true] at h
  obtain ⟨hpending, hnames⟩ := h
  refine ⟨hpending, ?_⟩
  match args, hnames with
  | sub :: high :: low :: data, hnames =>
    simp only [dropNamed]
    cases hfind : server.findRoutine (word16 high low) with
    | none =>
      simp only [hfind] at hnames
      cases hnames
    | some found =>
      simp only [hfind, decide_eq_true_eq] at hnames
      exact if_pos ⟨hpending, hnames.symm⟩

/-- A rejected routine request has called no handler; at most it dropped the pending response. -/
theorem routineControl_of_rejects (h : (server.routineControl env args capacity).1.rejects = true) :
    (server.routineControl env args capacity).2 = (server.dropNamed args, env) := by
  cases haccept : server.acceptedRoutine args with
  | none => rw [routineControl_refused server env haccept]
  | some accepted =>
    obtain ⟨index, routine, sub, data⟩ := accepted
    obtain ⟨-, -, -, -, -, -, hsub⟩ := acceptedRoutine_some haccept
    rw [routineControl_accepted server env haccept] at h ⊢
    rw [dropNamed_accepted haccept]
    rcases runRoutine_cases (server.dropPendingRoutine index) env data capacity index routine
        (sub &&& subfunctionMask) (sub &&& suppressPositiveResponse ≠ 0) hsub with
      ⟨-, reply, -, hstep⟩ | ⟨-, ⟨-, hstep⟩ | ⟨-, hstep⟩⟩
    · rw [hstep]
    · rw [hstep, responsePending_rejects] at h
      cases h
    · rw [hstep, routinePositive_rejects] at h
      cases h

theorem writeDid_of_rejects (h : (server.writeDid args capacity).1.rejects = true) :
    (server.writeDid args capacity).2 = server := by
  rcases writeDid_cases server args capacity with
    ⟨-, nrc, -, hstep⟩ | ⟨index, entry, data, -, ⟨-, hstep⟩ | ⟨-, high, low, hstep⟩⟩
  · rw [hstep]
  · rw [hstep, responsePending_rejects] at h
    cases h
  · rw [hstep, positive_rejects (by decide)] at h
    cases h

@[simp] theorem tick_namesPending (now : UInt32) :
    (server.tick now).namesPending args = server.namesPending args := by
  have hwork := server.tick_work now
  have hpending : (server.tick now).pendingRoutineResponse = server.pendingRoutineResponse :=
    congrArg Work.pendingRoutineResponse hwork
  have hindex : (server.tick now).pendingRoutineIndex = server.pendingRoutineIndex :=
    congrArg Work.pendingRoutineIndex hwork
  simp only [namesPending, findRoutine, hpending, hindex, tick_routines]

/-- The session and security fields, the table, the routines and what is pending are those of `before`. -/
structure Unchanged (before after : UdsServer σ) : Prop where
  access : after.access = before.access
  work : after.work = before.work

variable {server args} in
/-- Dropping a pending response is a change. -/
theorem not_unchanged_clear {after : UdsServer σ} (hpending : server.pendingRoutineResponse = true)
    (h : after.work = server.clearPendingRoutine.work) : ¬Unchanged server after := by
  intro hsame
  have hfield : false = server.pendingRoutineResponse :=
    congrArg Work.pendingRoutineResponse (h.symm.trans hsame.work)
  rw [hpending] at hfield
  cases hfield

/-- **A rejected read, write or routine request changes nothing exactly when it does not name the routine
whose response is pending.** -/
theorem rejected_unchanged_iff (s : UdsServer σ × σ) (now : UInt32) {service : UInt8}
    (hservice : service = sidReadDataByIdentifier ∨ service = sidWriteDataByIdentifier ∨
      service = sidRoutineControl)
    (hreject : (respond s (.process now (service :: args) capacity)).1.rejects = true) :
    Unchanged (s.1.tick now) (step s (.process now (service :: args) capacity)).1 ↔
      ¬(service = sidRoutineControl ∧ s.1.namesPending args = true) := by
  have h10 : service ≠ sidDiagnosticSessionControl := by
    rcases hservice with rfl | rfl | rfl <;> decide
  have h27 : service ≠ sidSecurityAccess := by
    rcases hservice with rfl | rfl | rfl <;> decide
  have haccess : (step s (.process now (service :: args) capacity)).1.access =
      (s.1.tick now).access := by
    rw [process_access, if_neg h10, if_neg h27]
  rcases hservice with rfl | rfl | rfl
  · have hwork := (step_work_of_other now args capacity s (by decide : sidReadDataByIdentifier ≠ _)
      (by decide)).1
    rw [← s.1.tick_work now] at hwork
    exact ⟨fun _ hnot => absurd hnot.1 (by decide), fun _ => ⟨haccess, hwork⟩⟩
  · obtain ⟨hreply, hwork, -⟩ := respond_write now args capacity s
    rw [hreply] at hreject
    rw [writeDid_of_rejects _ args capacity hreject] at hwork
    exact ⟨fun _ hnot => absurd hnot.1 (by decide), fun _ => ⟨haccess, hwork⟩⟩
  · obtain ⟨hreply, hwork, -⟩ := respond_routine now args capacity s
    rw [hreply] at hreject
    rw [routineControl_of_rejects _ s.2 args capacity hreject] at hwork
    rw [← tick_namesPending s.1 args now]
    cases hnames : (s.1.tick now).namesPending args with
    | true =>
      obtain ⟨hpending, hdrop⟩ := dropNamed_of_namesPending _ args hnames
      rw [hdrop] at hwork
      exact ⟨fun hsame => absurd hsame (not_unchanged_clear hpending hwork),
        fun hnot => absurd ⟨rfl, rfl⟩ hnot⟩
    | false =>
      rw [dropNamed_of_not_namesPending _ args hnames] at hwork
      exact ⟨fun _ hnot => absurd hnot.2 Bool.false_ne_true, fun _ => ⟨haccess, hwork⟩⟩

end UdsServer

/-! ## The self test of the ECU -/

open UdsServer

/-- The self test is started and asked for its results, which are left pending. -/
def startSelfTest : List Event :=
  [request [sidDiagnosticSessionControl, sessionExtended],
    request [sidRoutineControl, routineStart, 0x02, 0x03],
    request [sidRoutineControl, routineRequestResults, 0x02, 0x03]]

/-- A rejected read changes nothing, whatever is pending. -/
theorem rejected_unchanged_unknownDid :
    Unchanged ((after step plainEcu startSelfTest).1.tick 0)
      (step (after step plainEcu startSelfTest)
        (.process 0 [sidReadDataByIdentifier, 0xFF, 0xFF] 32)).1 :=
  (rejected_unchanged_iff [0xFF, 0xFF] 32 (after step plainEcu startSelfTest) 0 (Or.inl rfl)
    (by decide +kernel)).2 fun hnot => absurd hnot.1 (by decide)

/-- Every rejected read, write or routine request changes nothing. -/
def RejectsCleanly {σ : Type} (s : UdsServer σ × σ) : Prop :=
  ∀ now service args capacity, service = sidReadDataByIdentifier ∨
      service = sidWriteDataByIdentifier ∨ service = sidRoutineControl →
    (respond s (.process now (service :: args) capacity)).1.rejects = true →
    Unchanged (s.1.tick now) (step s (.process now (service :: args) capacity)).1

/-- A request with an unknown sub-function, answered with NRC 0x12, drops the pending response. -/
theorem not_rejectsCleanly_startSelfTest : ¬RejectsCleanly (after step plainEcu startSelfTest) := by
  intro h
  have hsame := h 0 sidRoutineControl [0x09, 0x02, 0x03] 32 (Or.inr (Or.inr rfl)) (by decide +kernel)
  exact absurd (congrArg Work.pendingRoutineResponse hsame.work) (by decide +kernel)

end DualCan.Uds
