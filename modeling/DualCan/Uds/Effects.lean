import DualCan.Uds.Ecu
import DualCan.Uds.Provenance

/-!
# What a step does to the table and to the storage

The callbacks of the ECU are called in two places: a poll saves the pending write, and the handlers execute
their routine. A step calls none, or one of them once, and changes the table accordingly.
-/

namespace DualCan.Uds

open UdsServer

variable {τ : Type} {variant : UdsEcuVariant} {hooks : UdsEcuHooks τ}

/-! ## The two effects -/

/-- One execution of a routine. -/
structure Executes (variant : UdsEcuVariant) (storage : Option (UdsDidStorage τ)) (hooks : UdsEcuHooks τ)
    (routine : EcuRoutine) (before : τ) (dids : List (Did (EcuEnv τ))) (after : τ)
    (dids' : List (Did (EcuEnv τ))) : Prop where
  world : after = (executeRoutine variant storage hooks routine before dids).2.1
  table : dids' = (executeRoutine variant storage hooks routine before dids).2.2

/-- One call of the save callback for an entry: its value is replaced if the call succeeds. -/
structure Stores (save : UInt16 → List UInt8 → τ → Bool × τ) (index : ℕ) (entry : Did (EcuEnv τ))
    (data : List UInt8) (before : τ) (dids : List (Did (EcuEnv τ))) (after : τ)
    (dids' : List (Did (EcuEnv τ))) : Prop where
  found : dids[index]? = some entry
  fits : data.length ≤ entry.storageCapacity
  world : after = (save entry.did data before).2
  table : dids' = if (save entry.did data before).1 then dids.set index { entry with data := data } else dids

/-! ## Handlers -/

/-- The index of the erase routine. -/
def eraseIndex : ℕ := 1

def EcuRoutine.index : EcuRoutine → ℕ
  | selfTest => 0
  | erase => eraseIndex

section
variable {storage : Option (UdsDidStorage τ)}

theorem Built.routine {server : UdsServer (EcuEnv τ)} (h : Built variant storage hooks server) {index : ℕ}
    {routine : Routine (EcuEnv τ)} (hget : server.routines[index]? = some routine) :
    (index ≠ eraseIndex ∧ routine = selfTestRoutine variant storage hooks) ∨
      (index = eraseIndex ∧ routine = eraseRoutine variant storage hooks) := by
  rw [h.routines] at hget
  match index, hget with
  | 0, hget => exact Or.inl ⟨by decide, (Option.some.inj hget).symm⟩
  | 1, hget => exact Or.inr ⟨rfl, (Option.some.inj hget).symm⟩

theorem Built.handler {server : UdsServer (EcuEnv τ)} (h : Built variant storage hooks server) {index : ℕ}
    {routine : Routine (EcuEnv τ)} (hget : server.routines[index]? = some routine) :
    ∃ which : EcuRoutine, index = which.index ∧
      routine.handler = routineHandler variant storage hooks which := by
  rw [h.routines] at hget
  match index, hget with
  | 0, hget =>
    obtain rfl := Option.some.inj hget
    exact ⟨.selfTest, rfl, rfl⟩
  | 1, hget =>
    obtain rfl := Option.some.inj hget
    exact ⟨.erase, rfl, rfl⟩

/-- A call of a handler executes its routine at most once, and only for results. -/
theorem callRoutine_effects {server : UdsServer (EcuEnv τ)} (env : EcuEnv τ)
    (h : Built variant storage hooks server) {index : ℕ} {routine : Routine (EcuEnv τ)}
    (hget : server.routines[index]? = some routine) (subfunction : UInt8) (data : List UInt8) :
    let called := server.callRoutine env index routine subfunction data
    (called.1.env.world = env.world ∧ called.2.dids = server.dids) ∨
      ∃ which : EcuRoutine, index = which.index ∧ subfunction = routineRequestResults ∧
        Executes variant storage hooks which env.world server.dids called.1.env.world called.2.dids := by
  obtain ⟨which, hindex, hhandler⟩ := h.handler hget
  simp only [callRoutine, hhandler]
  rcases routineHandler_cases variant storage hooks which subfunction data routineResultMax env
      server.dids with ⟨hdids, hworld⟩ | ⟨hsub, -, hworld, hdids⟩
  · exact Or.inl ⟨hworld, hdids⟩
  · exact Or.inr ⟨which, hindex, hsub, hworld, hdids⟩

theorem routineControl_effects {server : UdsServer (EcuEnv τ)} (env : EcuEnv τ)
    (h : Built variant storage hooks server) (args : List UInt8) (capacity : ℕ) :
    let next := (server.routineControl env args capacity).2
    (next.2.world = env.world ∧ next.1.dids = server.dids) ∨
      ∃ which : EcuRoutine,
        (∃ routine sub data, server.acceptedRoutine args = some (which.index, routine, sub, data) ∧
          sub &&& subfunctionMask = routineRequestResults) ∧
        server.routineState which.index = .running ∧
        Executes variant storage hooks which env.world server.dids next.2.world next.1.dids := by
  rcases routineControl_cases server env args capacity with
    ⟨-, reply, next, -, hreject, rfl | ⟨-, -, -, -, index, -, -, -, rfl⟩⟩ |
    ⟨index, routine, sub, data, haccept, hrun⟩
  · rw [hreject]
    exact Or.inl ⟨rfl, rfl⟩
  · rw [hreject]
    exact Or.inl ⟨rfl, dropPendingRoutine_dids ..⟩
  obtain ⟨-, -, -, hget, -, -, hsub⟩ := acceptedRoutine_some haccept
  have hdrop : Built variant storage hooks (server.dropPendingRoutine index) :=
    ⟨(server.dropPendingRoutine_routines index).trans h.routines, by
      rw [server.dropPendingRoutine_dids]
      exact h.table⟩
  have hget' : (server.dropPendingRoutine index).routines[index]? = some routine := by
    rw [dropPendingRoutine_routines]
    exact hget
  -- whatever becomes of the response, the routine is executed for results only, while it runs
  have hcalled : (server.dropPendingRoutine index).callsHandler index (sub &&& subfunctionMask) = true →
      let called := (server.dropPendingRoutine index).callRoutine env index routine
        (sub &&& subfunctionMask) data
      (called.1.env.world = env.world ∧ called.2.dids = server.dids) ∨
        ∃ which : EcuRoutine,
          (∃ routine sub data, server.acceptedRoutine args = some (which.index, routine, sub, data) ∧
            sub &&& subfunctionMask = routineRequestResults) ∧
          server.routineState which.index = .running ∧
          Executes variant storage hooks which env.world server.dids called.1.env.world
            called.2.dids := by
    intro hcalls
    have heffects := callRoutine_effects env hdrop hget' (sub &&& subfunctionMask) data
    rw [dropPendingRoutine_dids] at heffects
    rcases heffects with hquiet | ⟨which, rfl, hresults, hexecutes⟩
    · exact Or.inl hquiet
    · refine Or.inr ⟨which, ⟨routine, sub, data, haccept, hresults⟩, ?_, hexecutes⟩
      rw [hresults, dropPendingRoutine_callsHandler] at hcalls
      exact running_of_callsHandler hcalls (by decide)
  rw [hrun]
  rcases runRoutine_cases (server.dropPendingRoutine index) env data capacity index routine
      (sub &&& subfunctionMask) (sub &&& suppressPositiveResponse ≠ 0) hsub with
    ⟨-, reply, -, hstep⟩ | ⟨hcalls, ⟨-, hstep⟩ | ⟨-, hstep⟩⟩
  · rw [hstep]
    exact Or.inl ⟨rfl, dropPendingRoutine_dids ..⟩
  · rw [hstep]
    exact hcalled hcalls
  · rw [hstep]
    exact hcalled hcalls

end

/-! ## Entries -/

theorem didDbInit_storageSave {base : Did (EcuEnv τ)} (h : base ∈ didDbInit variant) :
    base.storageSave = none := by
  simp only [didDbInit, List.mem_cons, List.not_mem_nil, or_false] at h
  rcases h with rfl | rfl | rfl | rfl | rfl | rfl <;> rfl

theorem didDbInit_writable {base : Did (EcuEnv τ)} (h : base ∈ didDbInit variant)
    (hstorage : base.hasStorage = true) :
    base.writeRequiresUnlock = true ∧ base.writeSessionsMask = extendedProgrammingMask := by
  simp only [didDbInit, List.mem_cons, List.not_mem_nil, or_false] at h
  rcases h with rfl | rfl | rfl | rfl | rfl | rfl
  · exact ⟨rfl, rfl⟩
  · cases hstorage
  · exact ⟨rfl, rfl⟩
  · exact ⟨rfl, rfl⟩
  · cases hstorage
  · cases hstorage

/-- The save callback of an entry is the storage's, and an entry with storage has one. -/
theorem Built.storageSave {storage : UdsDidStorage τ} {server : UdsServer (EcuEnv τ)}
    (h : Built variant (some storage) hooks server) {index : ℕ} {entry : Did (EcuEnv τ)}
    (hget : server.dids[index]? = some entry) :
    entry.storageSave = if entry.hasStorage then storage.save.map liftSave else none := by
  obtain ⟨base, hbase, hspec⟩ := h.entry hget
  change entry.spec.storageSave = if entry.spec.hasStorage then storage.save.map liftSave else none
  rw [hspec]
  unfold attachedSpec
  by_cases hbaseStorage : base.hasStorage = true
  · simp only [if_pos hbaseStorage]
    exact (if_pos hbaseStorage).symm
  · simp only [if_neg hbaseStorage]
    exact (didDbInit_storageSave (List.mem_of_getElem? hbase)).trans (if_neg hbaseStorage).symm

/-! ## Steps -/

section
variable {storage : UdsDidStorage τ} {save : UInt16 → List UInt8 → τ → Bool × τ}
  (hsave : storage.save = some save)
include hsave

theorem pollPending_effects {server : UdsServer (EcuEnv τ)} (env : EcuEnv τ)
    (h : Built variant (some storage) hooks server) (capacity : ℕ) :
    let next := (server.pollPending env capacity).2
    (next.2.world = env.world ∧ next.1.dids = server.dids) ∨
      (∃ entry, server.pendingDidWrite = true ∧
        Stores save server.pendingDidIndex entry server.pendingDidData env.world server.dids
          next.2.world next.1.dids) ∨
      ∃ which : EcuRoutine, PendsRoutine server which.index ∧
        Executes variant (some storage) hooks which env.world server.dids next.2.world next.1.dids := by
  unfold pollPending
  split
  · rename_i hpending
    rcases pollWrite_cases server env capacity with
      hfail | ⟨entry, stored, hget, hstored, hfits, houtcome⟩
    · rw [hfail]
      exact Or.inl ⟨rfl, rfl⟩
    refine Or.inr (Or.inl ⟨entry, hpending, ?_⟩)
    have hentry := h.storageSave hget
    rw [hstored, hsave] at hentry
    obtain rfl : stored = liftSave save := by
      split at hentry
      · exact Option.some.inj hentry
      · cases hentry
    rcases houtcome with ⟨hfail, hstep⟩ | ⟨hdone, hstep⟩
    · have hrefused : ¬(save entry.did server.pendingDidData env.world).1 = true := by
        change (save entry.did server.pendingDidData env.world).1 = false at hfail
        simp [hfail]
      rw [hstep]
      exact ⟨hget, hfits, rfl, (if_neg hrefused).symm⟩
    · have hsaved : (save entry.did server.pendingDidData env.world).1 = true := hdone
      rw [hstep]
      exact ⟨hget, hfits, rfl, (if_pos hsaved).symm⟩
  split
  · rename_i hpending
    unfold pollRoutine
    split
    · exact Or.inl ⟨rfl, rfl⟩
    rename_i routine hget
    have heffects := callRoutine_effects env h hget routineRequestResults server.pendingRoutineData
    dsimp only at heffects ⊢
    split
    · rcases heffects with hquiet | ⟨which, hindex, -, hexecutes⟩
      · exact Or.inl hquiet
      · exact Or.inr (Or.inr ⟨which, ⟨hpending, hindex⟩, hexecutes⟩)
    · rcases heffects with hquiet | ⟨which, hindex, -, hexecutes⟩
      · exact Or.inl hquiet
      · exact Or.inr (Or.inr ⟨which, ⟨hpending, hindex⟩, hexecutes⟩)
  · exact Or.inl ⟨rfl, rfl⟩

/-- What a step does: nothing to the table and the storage; in a poll, the save of the pending write; or one
execution of a routine that runs, for its pending response or for an accepted request for its results. -/
theorem step_effects {s : UdsServer (EcuEnv τ) × EcuEnv τ} (e : Event)
    (h : Built variant (some storage) hooks s.1) (hruns : PendingRuns s.1) :
    let t := step s e
    (t.2.world = s.2.world ∧ t.1.dids = s.1.dids) ∨
      (∃ entry, (∃ capacity, e = .pollPending capacity) ∧ s.1.pendingDidWrite = true ∧
        Stores save s.1.pendingDidIndex entry s.1.pendingDidData s.2.world s.1.dids t.2.world t.1.dids) ∨
      ∃ which : EcuRoutine,
        (((∃ capacity, e = .pollPending capacity) ∧ PendsRoutine s.1 which.index) ∨
          AcceptsRoutine s e which.index routineRequestResults) ∧
        s.1.routineState which.index = .running ∧
        Executes variant (some storage) hooks which s.2.world s.1.dids t.2.world t.1.dids := by
  have hdids : ∀ {a b : UdsServer (EcuEnv τ)}, a.work = b.work → a.dids = b.dids :=
    fun hwork => congrArg Work.dids hwork
  cases e with
  | tick now => exact Or.inl ⟨rfl, tick_dids ..⟩
  | lockSecurity => exact Or.inl ⟨rfl, rfl⟩
  | pollPending capacity =>
    rcases pollPending_effects hsave s.2 h capacity with
      hquiet | ⟨entry, hpending, hstores⟩ | ⟨which, hpends, hexecutes⟩
    · exact Or.inl hquiet
    · exact Or.inr (Or.inl ⟨entry, ⟨capacity, rfl⟩, hpending, hstores⟩)
    · have hrun := hruns hpends.1
      rw [hpends.2] at hrun
      exact Or.inr (Or.inr ⟨which, Or.inl ⟨⟨capacity, rfl⟩, hpends⟩, hrun, hexecutes⟩)
  | process now request capacity =>
    cases request with
    | nil => exact Or.inl ⟨rfl, tick_dids ..⟩
    | cons service args =>
      have htick : Built variant (some storage) hooks (s.1.tick now) :=
        ⟨(s.1.tick_routines now).trans h.routines, by rw [s.1.tick_dids]; exact h.table⟩
      by_cases h2E : service = sidWriteDataByIdentifier
      · subst h2E
        obtain ⟨-, hwork, henv⟩ := respond_write now args capacity s
        refine Or.inl ⟨by rw [henv], (hdids hwork).trans ?_⟩
        rcases writeDid_cases (s.1.tick now) args capacity with
          ⟨-, nrc, -, hstep⟩ | ⟨index, entry, data, haccept, ⟨-, hstep⟩ | ⟨hnone, -⟩⟩
        · rw [hstep]
          exact tick_dids ..
        · rw [hstep]
          exact tick_dids ..
        · -- an entry that can be written has the callback
          obtain ⟨-, -, -, hget, -, hallowed, -⟩ := acceptedWrite_some haccept
          have hstorage : entry.hasStorage = true := by
            simp only [writeAllowed, Bool.and_eq_true] at hallowed
            exact hallowed.1.1.1.1
          rw [htick.storageSave hget, if_pos hstorage, hsave] at hnone
          cases hnone
      by_cases h31 : service = sidRoutineControl
      · subst h31
        obtain ⟨-, hwork, henv⟩ := respond_routine now args capacity s
        dsimp only
        rw [henv, hdids hwork]
        rcases routineControl_effects s.2 htick args capacity with
          ⟨hworld, hsame⟩ | ⟨which, ⟨routine, sub, data, haccept, hsub⟩, hrun, hexecutes⟩
        · exact Or.inl ⟨hworld, hsame.trans (tick_dids ..)⟩
        · rw [tick_dids] at hexecutes
          have hstate : (s.1.tick now).routineState = s.1.routineState :=
            congrArg Work.routineState (s.1.tick_work now)
          rw [hstate] at hrun
          exact Or.inr (Or.inr ⟨which,
            Or.inr ⟨now, args, capacity, routine, sub, data, rfl, haccept, hsub⟩, hrun, hexecutes⟩)
      obtain ⟨hwork, henv⟩ := step_work_of_other now args capacity s h2E h31
      exact Or.inl ⟨by rw [henv], hdids hwork⟩

end

end DualCan.Uds
