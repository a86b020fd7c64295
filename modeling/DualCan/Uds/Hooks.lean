import DualCan.Uds.Authority

/-!
# How often a routine's hook runs

The ECU with hooks and a storage of any kind, whose hooks write down their calls. A handler calls its hook only
for results, while its routine runs, and the run ends with the call; a run begins with an accepted start, and an
accepted stop ends it. So no hook is called more often than its routine was started, and none after a stop.
-/

namespace DualCan.Uds

open DualCan.Run

open UdsServer

/-! ## Hooks that write down their calls -/

/-- What storage and hooks reach, with the hooks called so far. -/
structure Tracked (τ : Type) where
  world : τ
  calls : List EcuRoutine

variable {τ : Type}

def UdsDidStorage.tracked (storage : UdsDidStorage τ) : UdsDidStorage (Tracked τ) where
  load := storage.load.map fun load did capacity tracked => load did capacity tracked.world
  save := storage.save.map fun save did data tracked =>
    let (saved, world) := save did data tracked.world
    (saved, { tracked with world := world })

def UdsEcuHooks.tracked (hooks : UdsEcuHooks τ) : UdsEcuHooks (Tracked τ) where
  selfTest := hooks.selfTest.map fun selfTest tracked =>
    let (result, world) := selfTest tracked.world
    (result, ⟨world, tracked.calls ++ [.selfTest]⟩)
  eraseParams := hooks.eraseParams.map fun eraseParams tracked =>
    let (erased, world) := eraseParams tracked.world
    (erased, ⟨world, tracked.calls ++ [.erase]⟩)

variable {variant : UdsEcuVariant} {storage : Option (UdsDidStorage τ)} {hooks : UdsEcuHooks τ}

/-- The ECU with this storage and these hooks, whose calls are written down. -/
def trackedEcu (variant : UdsEcuVariant) (storage : Option (UdsDidStorage τ)) (hooks : UdsEcuHooks τ) (world : τ) :
    Option (UdsServer (EcuEnv (Tracked τ)) × EcuEnv (Tracked τ)) :=
  initWithHooks variant (storage.map UdsDidStorage.tracked) hooks.tracked ⟨world, []⟩

/-- The hooks called so far. -/
def hookCalls (s : UdsServer (EcuEnv (Tracked τ)) × EcuEnv (Tracked τ)) : List EcuRoutine := s.2.world.calls

/-- The routine runs. -/
def Runs (which : EcuRoutine) (s : UdsServer (EcuEnv (Tracked τ)) × EcuEnv (Tracked τ)) : Prop :=
  s.1.routineState which.index = .running

/-- The event is an accepted start of the routine. -/
def starts (which : EcuRoutine) (s : UdsServer (EcuEnv (Tracked τ)) × EcuEnv (Tracked τ)) (e : Event) : Bool :=
  handledBy s e = some (which.index, routineStart)

/-- The event is an accepted stop of the routine. -/
def stops (which : EcuRoutine) (s : UdsServer (EcuEnv (Tracked τ)) × EcuEnv (Tracked τ)) (e : Event) : Bool :=
  handledBy s e = some (which.index, routineStop)

theorem EcuRoutine.index_injective : Function.Injective EcuRoutine.index := by
  intro a b h
  cases a <;> cases b <;> first | rfl | cases h

/-! ## What one step calls -/

theorem executeRoutine_calls (which : EcuRoutine) (tracked : Tracked τ) (dids : List (Did (EcuEnv (Tracked τ)))) :
    let done := executeRoutine variant (storage.map UdsDidStorage.tracked) hooks.tracked which tracked dids
    done.2.1.calls = tracked.calls ∨ done.2.1.calls = tracked.calls ++ [which] := by
  cases which with
  | selfTest =>
    unfold executeRoutine UdsEcuHooks.tracked
    cases hooks.selfTest with
    | none => exact Or.inl rfl
    | some selfTest => exact Or.inr rfl
  | erase =>
    unfold executeRoutine UdsEcuHooks.tracked
    cases hooks.eraseParams with
    | none => exact Or.inl rfl
    | some eraseParams =>
      dsimp only [Option.map_some]
      split
      · exact Or.inr rfl
      · exact Or.inr rfl

/-- A handler calls its hook only for results, which are complete then; a start leaves the routine running and a
stop idle. -/
theorem routineHandler_calls (variant : UdsEcuVariant) (storage : Option (UdsDidStorage τ)) (hooks : UdsEcuHooks τ)
    (which : EcuRoutine) (subfunction : UInt8) (data : List UInt8) (capacity : ℕ) (env : EcuEnv (Tracked τ))
    (dids : List (Did (EcuEnv (Tracked τ)))) :
    let handled := routineHandler variant (storage.map UdsDidStorage.tracked) hooks.tracked which subfunction data
      capacity env dids
    (handled.env.world.calls = env.world.calls ∨
        (handled.env.world.calls = env.world.calls ++ [which] ∧ subfunction = routineRequestResults ∧
          handled.status = .complete)) ∧
      (subfunction = routineStop → handled.status = .idle) := by
  constructor
  · rcases routineHandler_cases variant (storage.map UdsDidStorage.tracked) hooks.tracked which subfunction data
      capacity env dids with ⟨-, hworld⟩ | ⟨hsub, hstatus, hworld, -⟩
    · exact Or.inl (congrArg Tracked.calls hworld)
    · rw [hworld]
      rcases executeRoutine_calls which env.world dids with hsame | hcalled
      · exact Or.inl hsame
      · exact Or.inr ⟨hcalled, hsub, hstatus⟩
  · rintro rfl
    unfold routineHandler
    rw [if_neg (by decide), if_pos rfl]

/-- The call of a handler of the ECU, by the routine it belongs to. -/
theorem UdsServer.Handles.calls {s t : UdsServer (EcuEnv (Tracked τ)) × EcuEnv (Tracked τ)} {index : ℕ}
    {subfunction : UInt8}
    (hbuilt : Built variant (storage.map UdsDidStorage.tracked) hooks.tracked s.1)
    (h : Handles s.1 s.2 index subfunction t.1 t.2) :
    ∃ which : EcuRoutine, index = which.index ∧
      (∀ other, other ≠ which → (Runs other t ↔ Runs other s)) ∧
      (hookCalls t = hookCalls s ∨
        (hookCalls t = hookCalls s ++ [which] ∧ subfunction = routineRequestResults ∧ ¬Runs which t)) ∧
      (subfunction = routineStop → ¬Runs which t) := by
  obtain ⟨routine, data, hget, henv, hstate⟩ := h
  obtain ⟨which, rfl, hhandler⟩ := hbuilt.handler hget
  rw [hhandler] at henv hstate
  have hstatus : t.1.routineState which.index = (routineHandler variant (storage.map UdsDidStorage.tracked)
      hooks.tracked which subfunction data routineResultMax s.2 s.1.dids).status := by
    rw [hstate]
    exact Function.update_self ..
  obtain ⟨hcalls, hstop⟩ := routineHandler_calls variant storage hooks which subfunction data routineResultMax s.2
    s.1.dids
  refine ⟨which, rfl, ?_, ?_, ?_⟩
  · intro other hother
    have hne : other.index ≠ which.index := fun heq => hother (EcuRoutine.index_injective heq)
    unfold Runs
    rw [hstate, Function.update_of_ne hne]
  · unfold hookCalls
    rw [henv]
    rcases hcalls with hsame | ⟨hcalled, hsub, hcomplete⟩
    · exact Or.inl hsame
    · refine Or.inr ⟨hcalled, hsub, ?_⟩
      unfold Runs
      rw [hstatus, hcomplete]
      decide
  · intro hsub
    unfold Runs
    rw [hstatus, hstop hsub]
    decide

/-- The save callback calls no hook. -/
theorem Built.save_calls {server : UdsServer (EcuEnv (Tracked τ))}
    (h : Built variant (storage.map UdsDidStorage.tracked) hooks.tracked server) {index : ℕ}
    {entry : Did (EcuEnv (Tracked τ))} {save : UInt16 → List UInt8 → EcuEnv (Tracked τ) → Bool × EcuEnv (Tracked τ)}
    (hget : server.dids[index]? = some entry) (hsave : entry.storageSave = some save) (did : UInt16)
    (data : List UInt8) (env : EcuEnv (Tracked τ)) : (save did data env).2.world.calls = env.world.calls := by
  obtain ⟨base, hbase, hspec⟩ := h.entry hget
  have hstored : entry.spec.storageSave = some save := hsave
  have hnone := didDbInit_storageSave (List.mem_of_getElem? hbase)
  rw [hspec, attachedSpec] at hstored
  split at hstored
  · cases hstorage : storage with
    | none => simp [hstorage] at hstored
    | some storage =>
      cases hsaved : storage.save with
      | none => simp [hstorage, UdsDidStorage.tracked, hsaved] at hstored
      | some callback =>
        simp only [hstorage, Option.map_some, Option.bind_some, UdsDidStorage.tracked, hsaved,
          Option.some.injEq] at hstored
        rw [← hstored]
        rfl
  · have hbaseNone : base.spec.storageSave = none := hnone
    rw [hbaseNone] at hstored
    cases hstored

section
variable {s : UdsServer (EcuEnv (Tracked τ)) × EcuEnv (Tracked τ)} {which : EcuRoutine}
  (h : EcuInvariant variant (storage.map UdsDidStorage.tracked) hooks.tracked s)
include h

/-- A step calls no hook, or that of a routine that runs before it and not after it. -/
theorem step_hookCalls (e : Event) :
    hookCalls (step s e) = hookCalls s ∨
      ∃ which, hookCalls (step s e) = hookCalls s ++ [which] ∧ Runs which s ∧ ¬Runs which (step s e) := by
  rcases step_handles s e with
    ⟨-, henv, -⟩ | ⟨-, ⟨entry, save, hget, hsave, henv⟩, -⟩ | ⟨index, subfunction, -, -, hcalls, hhandles⟩ |
    ⟨-, hpending, hhandles⟩
  · exact Or.inl (congrArg (fun env => env.world.calls) henv)
  · refine Or.inl ?_
    unfold hookCalls
    rw [henv]
    exact h.built.save_calls hget hsave ..
  · obtain ⟨which, rfl, -, hsame | ⟨hcalled, hsub, hafter⟩, -⟩ := hhandles.calls h.built
    · exact Or.inl hsame
    · subst hsub
      exact Or.inr ⟨which, hcalled, running_of_callsHandler hcalls (by decide), hafter⟩
  · obtain ⟨which, hindex, -, hsame | ⟨hcalled, -, hafter⟩, -⟩ := hhandles.calls h.built
    · exact Or.inl hsame
    · refine Or.inr ⟨which, hcalled, ?_, hafter⟩
      have hruns := h.runs hpending
      rw [hindex] at hruns
      exact hruns

/-- A routine that runs after a step was started by it, or ran before and was not stopped by it. -/
theorem step_runs (e : Event) (hafter : Runs which (step s e)) :
    starts which s e = true ∨ (Runs which s ∧ stops which s e = false) := by
  have hquiet : handledBy s e = none → stops which s e = false := by
    intro hnone
    simp [stops, hnone]
  rcases step_handles s e with
    ⟨hnone, -, hstate⟩ | ⟨hnone, -, hstate⟩ | ⟨index, subfunction, hsome, hsub, hcalls, hhandles⟩ |
    ⟨hnone, hpending, hhandles⟩
  · unfold Runs at hafter
    rw [hstate] at hafter
    exact Or.inr ⟨hafter, hquiet hnone⟩
  · unfold Runs at hafter
    rw [hstate] at hafter
    exact Or.inr ⟨hafter, hquiet hnone⟩
  · obtain ⟨named, rfl, hothers, -, hstop⟩ := hhandles.calls h.built
    by_cases hnamed : which = named
    · subst hnamed
      rcases hsub with rfl | rfl | rfl
      · exact Or.inl (by simp [starts, hsome])
      · exact absurd hafter (hstop rfl)
      · refine Or.inr ⟨running_of_callsHandler hcalls (by decide), ?_⟩
        simp [stops, hsome, routineStop, routineRequestResults]
    · have hne : named.index ≠ which.index := fun heq => hnamed (EcuRoutine.index_injective heq).symm
      exact Or.inr ⟨(hothers which hnamed).1 hafter, by simp [stops, hsome, hne]⟩
  · obtain ⟨named, hindex, hothers, -, -⟩ := hhandles.calls h.built
    refine Or.inr ⟨?_, hquiet hnone⟩
    by_cases hnamed : which = named
    · have hruns := h.runs hpending
      rw [hindex, ← hnamed] at hruns
      exact hruns
    · exact (hothers which hnamed).1 hafter

/-- The number of calls of a hook grows by one at most, in a step that ends the routine's run. -/
theorem step_count (which : EcuRoutine) (e : Event) :
    (hookCalls (step s e)).count which = (hookCalls s).count which ∨
      ((hookCalls (step s e)).count which = (hookCalls s).count which + 1 ∧ Runs which s ∧
        ¬Runs which (step s e)) := by
  rcases step_hookCalls h e with hsame | ⟨called, hcalled, hbefore, hafter⟩
  · exact Or.inl (by rw [hsame])
  · rw [hcalled, List.count_append, List.count_singleton]
    by_cases heq : called = which
    · subst heq
      exact Or.inr ⟨by rw [if_pos (beq_self_eq_true _)], hbefore, hafter⟩
    · exact Or.inl (by simp [heq])

end

/-! ## Runs of the ECU -/

section
variable {world : τ} {s : UdsServer (EcuEnv (Tracked τ)) × EcuEnv (Tracked τ)}

theorem not_runs_init (hinit : trackedEcu variant storage hooks world = some s) (which : EcuRoutine) :
    ¬Runs which s := by
  obtain ⟨server, hserver, rfl⟩ := Option.map_eq_some_iff.1 hinit
  intro hruns
  rw [Runs, init_routineState hserver] at hruns
  cases hruns

theorem hookCalls_init (hinit : trackedEcu variant storage hooks world = some s) : hookCalls s = [] := by
  obtain ⟨server, -, rfl⟩ := Option.map_eq_some_iff.1 hinit
  rfl

/-- A routine that runs was started, with no call of its hook and no stop since. -/
theorem since_starts (hinit : trackedEcu variant storage hooks world = some s) {which : EcuRoutine}
    (es : List Event) (hruns : Runs which (after step s es)) :
    Since step s (fun t e => starts which t e = true)
      (fun t e => (hookCalls (step t e)).count which = (hookCalls t).count which ∧ stops which t e = false) es := by
  refine since_of_state (J := EcuInvariant variant (storage.map UdsDidStorage.tracked) hooks.tracked)
    (I := Runs which) (EcuInvariant.init hinit) (fun t e ht => ht.step e) (not_runs_init hinit which) ?_ es hruns
  intro t e ht hafter
  rcases step_runs ht e hafter with hstart | ⟨hbefore, hstop⟩
  · exact Or.inl hstart
  · refine Or.inr ⟨hbefore, ?_, hstop⟩
    rcases step_count ht which e with hsame | ⟨-, -, hends⟩
    · exact hsame
    · exact absurd hafter hends

/-- **A hook runs at most once for each start.** A hook has not been called more often than its routine was
started, and every call comes after an accepted start of the routine, with neither a call of the hook nor an
accepted stop of the routine since. -/
theorem hooks_once_per_start (hinit : trackedEcu variant storage hooks world = some s) (es : List Event) :
    (∀ which : EcuRoutine,
        (hookCalls (after step s es)).count which ≤ tally step s (starts which) (fun _ _ => false) es) ∧
      ∀ e, hookCalls (step (after step s es) e) = hookCalls (after step s es) ∨
        ∃ which, hookCalls (step (after step s es) e) = hookCalls (after step s es) ++ [which] ∧
          Since step s (fun t e => starts which t e = true)
            (fun t e => (hookCalls (step t e)).count which = (hookCalls t).count which ∧
              stops which t e = false) es := by
  refine ⟨fun which => ?_, fun e => ?_⟩
  · refine counter_le_tally (J := EcuInvariant variant (storage.map UdsDidStorage.tracked) hooks.tracked)
      (f := fun t => (hookCalls t).count which) (I := Runs which) (EcuInvariant.init hinit)
      (fun t e ht => ht.step e) (not_runs_init hinit which) ?_ ?_ ?_ es
    · rw [hookCalls_init hinit]
      rfl
    · intro t e ht hafter
      rcases step_runs ht e hafter with hstart | ⟨hbefore, -⟩
      · exact Or.inl hstart
      · exact Or.inr hbefore
    · exact fun t e ht => step_count ht which e
  · have hall : EcuInvariant variant (storage.map UdsDidStorage.tracked) hooks.tracked (after step s es) :=
      after_invariant (EcuInvariant.init hinit) (fun t e ht => ht.step e) es
    rcases step_hookCalls hall e with hsame | ⟨which, hcalled, hruns, -⟩
    · exact Or.inl hsame
    · exact Or.inr ⟨which, hcalled, since_starts hinit es hruns⟩

end

/-! ## An ECU with both hooks -/

def plainHooks : UdsEcuHooks Unit where
  selfTest := some fun world => (0x03, world)
  eraseParams := some fun world => (true, world)

def hookedEcu : UdsServer (EcuEnv (Tracked Unit)) × EcuEnv (Tracked Unit) :=
  (trackedEcu .f407 none plainHooks ()).get rfl

theorem init_plainHooks : trackedEcu .f407 none plainHooks () = some hookedEcu := rfl

/-- The self-test is started in the extended session and asked for its results. -/
def askSelfTest : List Event :=
  [request [sidDiagnosticSessionControl, sessionExtended],
    request [sidRoutineControl, routineStart, 0x02, 0x03],
    request [sidRoutineControl, routineRequestResults, 0x02, 0x03]]

/-- The poll that calls the hook goes back to the start. -/
theorem hooks_once_per_start_selfTest :
    Since step hookedEcu (fun t e => starts .selfTest t e = true)
      (fun t e => (hookCalls (step t e)).count .selfTest = (hookCalls t).count .selfTest ∧
        stops .selfTest t e = false) askSelfTest := by
  have hbefore : hookCalls (after step hookedEcu askSelfTest) = [] := by decide +kernel
  have hafter : hookCalls (step (after step hookedEcu askSelfTest) (.pollPending 32)) = [.selfTest] := by
    decide +kernel
  rcases (hooks_once_per_start init_plainHooks askSelfTest).2 (.pollPending 32) with
    hsame | ⟨which, hcalls, hsince⟩
  · rw [hbefore, hafter] at hsame
    cases hsame
  · rw [hbefore, hafter] at hcalls
    cases hcalls
    exact hsince

end DualCan.Uds
