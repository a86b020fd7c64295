import DualCan.Uds.Requests

/-!
# The reference ECU

`uds_did_db.c` and `uds_ecu.c`: the identifier table of the two variants, its storage callbacks, and the two
routines. The storage and hook callbacks act on a state `τ`, what their context pointers reach; the
environment of the server is that state with the contexts of the two routines.
-/

namespace DualCan.Uds

/-! ## Data -/

inductive UdsEcuVariant where
  | f407
  | f103
  deriving DecidableEq, Repr

/-- `UdsDidStorage_t`. Loading a value leaves the state as it is. -/
structure UdsDidStorage (τ : Type) where
  load : Option (UInt16 → ℕ → τ → Option (List UInt8))
  save : Option (UInt16 → List UInt8 → τ → Bool × τ)

/-- `UdsEcuHooks_t`. -/
structure UdsEcuHooks (τ : Type) where
  selfTest : Option (τ → UInt8 × τ)
  eraseParams : Option (τ → Bool × τ)

/-- `UdsEcuRoutineContext_t`. -/
structure UdsEcuRoutineContext where
  polls : UInt8
  executed : Bool
  result : UInt8
  deriving DecidableEq, Repr

inductive EcuRoutine where
  | selfTest
  | erase
  deriving DecidableEq, Repr

/-- What the handlers and callbacks of the ECU reach. -/
structure EcuEnv (τ : Type) where
  context : EcuRoutine → UdsEcuRoutineContext
  world : τ

def EcuEnv.setContext {τ : Type} (env : EcuEnv τ) (routine : EcuRoutine)
    (context : UdsEcuRoutineContext) : EcuEnv τ :=
  { env with context := Function.update env.context routine context }

variable {τ : Type}

/-! ## The identifier table -/

def didVinCapacity : ℕ := 17
def didCustomCapacity : ℕ := 16
def didDtcCapacity : ℕ := 4

def didVin : UInt16 := 0xF190
def didHardware : UInt16 := 0xF193
def didCustom : UInt16 := 0x0100
def didDtc : UInt16 := 0xF191
def didName : UInt16 := 0xF19A
def didSoftware : UInt16 := 0xF19B

def ascii (text : String) : List UInt8 := text.toList.map fun c => c.toNat.toUInt8

def UdsEcuVariant.vin : UdsEcuVariant → List UInt8
  | f407 => ascii "P2F407TESTVIN0001"
  | f103 => ascii "P2F103TESTVIN0001"

def UdsEcuVariant.hardware : UdsEcuVariant → List UInt8
  | f407 => ascii "F407-HW-REV-A"
  | f103 => ascii "F103-HW-REV-A"

def UdsEcuVariant.name : UdsEcuVariant → List UInt8
  | f407 => ascii "ecu1"
  | f103 => ascii "ecu2"

def softwareVersion : List UInt8 := ascii "V1.0"

def customDefault : List UInt8 := [0x00, 0x01]

def dtcDefault : List UInt8 := [0x00, 0x00, 0x00, 0x00]

/-- An identifier with storage, written in the extended and programming sessions once unlocked. -/
def writableDid (did : UInt16) (data : List UInt8) (storageCapacity : ℕ)
    (writeRequiredSession : UInt8) : Did (EcuEnv τ) where
  did := did
  data := data
  hasStorage := true
  storageCapacity := storageCapacity
  readSessionsMask := 0
  writeSessionsMask := extendedProgrammingMask
  writeRequiredSession := writeRequiredSession
  writeRequiresUnlock := true
  storageSave := none

def readOnlyDid (did : UInt16) (data : List UInt8) : Did (EcuEnv τ) where
  did := did
  data := data
  hasStorage := false
  storageCapacity := 0
  readSessionsMask := 0
  writeSessionsMask := 0
  writeRequiredSession := 0
  writeRequiresUnlock := false
  storageSave := none

/-- `UdsDidDb_Init`. -/
def didDbInit (variant : UdsEcuVariant) : List (Did (EcuEnv τ)) :=
  [writableDid didVin variant.vin didVinCapacity sessionProgramming,
    readOnlyDid didHardware variant.hardware,
    writableDid didCustom customDefault didCustomCapacity 0,
    writableDid didDtc dtcDefault didDtcCapacity 0,
    readOnlyDid didName variant.name,
    readOnlyDid didSoftware softwareVersion]

/-- A save callback, called with the ECU's environment. -/
def liftSave (save : UInt16 → List UInt8 → τ → Bool × τ) (did : UInt16) (data : List UInt8)
    (env : EcuEnv τ) : Bool × EcuEnv τ :=
  let (saved, world) := save did data env.world
  (saved, { env with world := world })

/-- The body of the loop of `UdsDidDb_AttachStorage`. -/
def attachDid (storage : UdsDidStorage τ) (world : τ) (entry : Did (EcuEnv τ)) : Did (EcuEnv τ) :=
  if entry.writeSessionsMask = 0 ∨ !entry.hasStorage ∨ entry.storageCapacity = 0 then entry
  else
    let entry := { entry with storageSave := storage.save.map liftSave }
    match storage.load.bind fun load => load entry.did didVinCapacity world with
    | some loaded =>
      if loaded.length ≤ entry.storageCapacity then { entry with data := loaded } else entry
    | none => entry

/-- `UdsDidDb_AttachStorage`. -/
def attachStorage (storage : Option (UdsDidStorage τ)) (world : τ) (dids : List (Did (EcuEnv τ))) :
    List (Did (EcuEnv τ)) :=
  match storage with
  | some storage => dids.map (attachDid storage world)
  | none => dids

/-- The table `UdsEcu_ResetDids` copies to the server. -/
def resetDids (variant : UdsEcuVariant) (storage : Option (UdsDidStorage τ)) (world : τ) :
    List (Did (EcuEnv τ)) :=
  attachStorage storage world (didDbInit variant)

/-! ## The routines -/

def routineIdSelfTest : UInt16 := 0x0203
def routineIdErase : UInt16 := 0xFF00

/-- What `UdsEcu_RoutineHandler` executes: the result and what it leaves. -/
def executeRoutine (variant : UdsEcuVariant) (storage : Option (UdsDidStorage τ))
    (hooks : UdsEcuHooks τ) (routine : EcuRoutine) (world : τ) (dids : List (Did (EcuEnv τ))) :
    UInt8 × τ × List (Did (EcuEnv τ)) :=
  match routine with
  | .selfTest =>
    match hooks.selfTest with
    | none => (0, world, dids)
    | some selfTest =>
      let (result, world) := selfTest world
      (result, world, dids)
  | .erase =>
    let (erased, world) :=
      match hooks.eraseParams with
      | none => (true, world)
      | some eraseParams => eraseParams world
    if erased then (0, world, resetDids variant storage world) else (1, world, dids)

/-- `UdsEcu_RoutineHandler`. -/
def routineHandler (variant : UdsEcuVariant) (storage : Option (UdsDidStorage τ))
    (hooks : UdsEcuHooks τ) (routine : EcuRoutine) (subfunction : UInt8) (_data : List UInt8)
    (capacity : ℕ) (env : EcuEnv τ) (dids : List (Did (EcuEnv τ))) : Handled (EcuEnv τ) :=
  let context := env.context routine
  if subfunction = routineStart then
    ⟨.running, [], env.setContext routine { context with polls := 0, executed := false }, dids⟩
  else if subfunction = routineStop then
    ⟨.idle, [], env.setContext routine { context with polls := 0, executed := false }, dids⟩
  else if subfunction ≠ routineRequestResults then ⟨.failed, [], env, dids⟩
  else if context.executed then
    ⟨.complete, if 0 < capacity then [context.result] else [], env, dids⟩
  else if context.polls = 0 then
    ⟨.running, [], env.setContext routine { context with polls := 1 }, dids⟩
  else
    let (result, world, dids) := executeRoutine variant storage hooks routine env.world dids
    let context := { context with executed := true, result := result }
    ⟨.complete, if 0 < capacity then [result] else [],
      { env with world := world }.setContext routine context, dids⟩

def selfTestRoutine (variant : UdsEcuVariant) (storage : Option (UdsDidStorage τ))
    (hooks : UdsEcuHooks τ) : Routine (EcuEnv τ) where
  routineId := routineIdSelfTest
  sessionsMask := extendedProgrammingMask
  requiresUnlock := false
  handler := routineHandler variant storage hooks .selfTest

def eraseRoutine (variant : UdsEcuVariant) (storage : Option (UdsDidStorage τ))
    (hooks : UdsEcuHooks τ) : Routine (EcuEnv τ) where
  routineId := routineIdErase
  sessionsMask := extendedProgrammingMask
  requiresUnlock := true
  handler := routineHandler variant storage hooks .erase

/-- The configuration built by `UdsEcu_InitWithHooks`. -/
def ecuConfig (variant : UdsEcuVariant) (storage : Option (UdsDidStorage τ))
    (hooks : UdsEcuHooks τ) (world : τ) : UdsServerConfig (EcuEnv τ) where
  dids := resetDids variant storage world
  routines := [selfTestRoutine variant storage hooks, eraseRoutine variant storage hooks]
  p2ServerMs := defaultP2ServerMs
  p2StarServerMs := defaultP2StarServerMs
  s3ServerMs := defaultS3ServerMs
  supportedSessionsMask := defaultSessionMask
  securitySalt := defaultSecuritySalt

def freshEnv (world : τ) : EcuEnv τ where
  context := fun _ => { polls := 0, executed := false, result := 0 }
  world := world

/-- `UdsEcu_InitWithHooks`. -/
def initWithHooks (variant : UdsEcuVariant) (storage : Option (UdsDidStorage τ))
    (hooks : UdsEcuHooks τ) (world : τ) : Option (UdsServer (EcuEnv τ) × EcuEnv τ) :=
  (UdsServer.init (ecuConfig variant storage hooks world)).map (·, freshEnv world)

/-! ## What no step changes -/

/-- An entry without its value. -/
def Did.spec {σ : Type} (entry : Did σ) : Did σ := { entry with data := [] }

/-- An entry with the storage's callback, without its value. -/
def attachedSpec (storage : Option (UdsDidStorage τ)) (entry : Did (EcuEnv τ)) : Did (EcuEnv τ) :=
  if entry.hasStorage then
    { entry.spec with storageSave := (storage.bind UdsDidStorage.save).map liftSave }
  else entry.spec

theorem attachDid_spec (storage : UdsDidStorage τ) (world : τ) (entry : Did (EcuEnv τ)) :
    (attachDid storage world entry).spec =
      if entry.writeSessionsMask = 0 ∨ !entry.hasStorage ∨ entry.storageCapacity = 0 then entry.spec
      else { entry.spec with storageSave := storage.save.map liftSave } := by
  unfold attachDid
  split
  · rfl
  · dsimp only
    split
    · split <;> rfl
    · rfl

/-- Resetting the table changes its values only. -/
theorem resetDids_spec (variant : UdsEcuVariant) (storage : Option (UdsDidStorage τ)) (world : τ) :
    (resetDids variant storage world).map Did.spec =
      (didDbInit variant).map (attachedSpec storage) := by
  cases storage with
  | none => rfl
  | some storage =>
    simp only [resetDids, attachStorage, didDbInit, List.map_cons, List.map_nil, attachDid_spec]
    rfl

/-- The routines, and the table but for its values, are those that initialisation builds. -/
structure Built (variant : UdsEcuVariant) (storage : Option (UdsDidStorage τ))
    (hooks : UdsEcuHooks τ) (server : UdsServer (EcuEnv τ)) : Prop where
  routines : server.routines =
    [selfTestRoutine variant storage hooks, eraseRoutine variant storage hooks]
  table : server.dids.map Did.spec = (didDbInit variant).map (attachedSpec storage)

variable {variant : UdsEcuVariant} {storage : Option (UdsDidStorage τ)} {hooks : UdsEcuHooks τ}

/-- A call of the handler executes the routine, or leaves the table and the state as they are. -/
theorem routineHandler_cases (variant : UdsEcuVariant) (storage : Option (UdsDidStorage τ))
    (hooks : UdsEcuHooks τ) (routine : EcuRoutine) (subfunction : UInt8) (data : List UInt8)
    (capacity : ℕ) (env : EcuEnv τ) (dids : List (Did (EcuEnv τ))) :
    let handled := routineHandler variant storage hooks routine subfunction data capacity env dids
    (handled.dids = dids ∧ handled.env.world = env.world) ∨
      (subfunction = routineRequestResults ∧ handled.status = .complete ∧
        handled.env.world = (executeRoutine variant storage hooks routine env.world dids).2.1 ∧
        handled.dids = (executeRoutine variant storage hooks routine env.world dids).2.2) := by
  unfold routineHandler
  by_cases hstart : subfunction = routineStart
  · rw [if_pos hstart]
    exact Or.inl ⟨rfl, rfl⟩
  by_cases hstop : subfunction = routineStop
  · rw [if_neg hstart, if_pos hstop]
    exact Or.inl ⟨rfl, rfl⟩
  by_cases hresults : subfunction ≠ routineRequestResults
  · rw [if_neg hstart, if_neg hstop, if_pos hresults]
    exact Or.inl ⟨rfl, rfl⟩
  rw [if_neg hstart, if_neg hstop, if_neg hresults]
  by_cases hexecuted : (env.context routine).executed = true
  · rw [if_pos hexecuted]
    exact Or.inl ⟨rfl, rfl⟩
  by_cases hpolls : (env.context routine).polls = 0
  · rw [if_neg hexecuted, if_pos hpolls]
    exact Or.inl ⟨rfl, rfl⟩
  rw [if_neg hexecuted, if_neg hpolls]
  exact Or.inr ⟨not_not.1 hresults, rfl, rfl, rfl⟩

theorem executeRoutine_dids (routine : EcuRoutine) (world : τ) (dids : List (Did (EcuEnv τ))) :
    (executeRoutine variant storage hooks routine world dids).2.2 = dids ∨
      ∃ world', (executeRoutine variant storage hooks routine world dids).2.2 =
        resetDids variant storage world' := by
  cases routine with
  | selfTest =>
    unfold executeRoutine
    dsimp only
    split <;> exact Or.inl rfl
  | erase =>
    unfold executeRoutine
    dsimp only
    split
    · exact Or.inr ⟨_, rfl⟩
    · split
      · exact Or.inr ⟨_, rfl⟩
      · exact Or.inl rfl

/-- A property of the table that a reset has is kept by the handlers. -/
theorem handlersKeep_of_reset {R : List (Did (EcuEnv τ)) → Prop}
    (hreset : ∀ world, R (resetDids variant storage world)) : UdsServer.HandlersKeep R
      [selfTestRoutine variant storage hooks, eraseRoutine variant storage hooks] := by
  have hkeep : ∀ routine subfunction data capacity env dids, R dids →
      R (routineHandler variant storage hooks routine subfunction data capacity env dids).dids := by
    intro routine subfunction data capacity env dids hdids
    rcases routineHandler_cases variant storage hooks routine subfunction data capacity env dids with
      ⟨hsame, -⟩ | ⟨-, -, -, hexec⟩
    · rw [hsame]
      exact hdids
    · rw [hexec]
      rcases executeRoutine_dids routine env.world dids with hsame | ⟨world, hworld⟩
      · rw [hsame]
        exact hdids
      · rw [hworld]
        exact hreset world
  intro routine hmem subfunction data capacity env dids hdids
  simp only [List.mem_cons, List.not_mem_nil, or_false] at hmem
  rcases hmem with rfl | rfl
  · exact hkeep .selfTest subfunction data capacity env dids hdids
  · exact hkeep .erase subfunction data capacity env dids hdids

theorem Built.step {s : UdsServer (EcuEnv τ) × EcuEnv τ} {e : UdsServer.Event}
    (h : Built variant storage hooks s.1) :
    Built variant storage hooks (UdsServer.step s e).1 := by
  refine ⟨(UdsServer.step_routines s e).trans h.routines, ?_⟩
  refine UdsServer.step_table
    (R := fun dids => dids.map Did.spec = (didDbInit variant).map (attachedSpec storage)) ?_ ?_ h.table
  · intro dids index entry data hget htable
    rw [UdsServer.set_data_map (fun _ _ => rfl) data hget]
    exact htable
  · rw [h.routines]
    exact handlersKeep_of_reset (resetDids_spec variant storage)

theorem Built.init {world : τ} {s : UdsServer (EcuEnv τ) × EcuEnv τ}
    (h : initWithHooks variant storage hooks world = some s) : Built variant storage hooks s.1 := by
  obtain ⟨server, hinit, rfl⟩ := Option.map_eq_some_iff.1 h
  obtain ⟨hdids, hroutines, -⟩ := UdsServer.init_some hinit
  refine ⟨hroutines, ?_⟩
  rw [hdids]
  exact resetDids_spec variant storage world

theorem Built.after {s : UdsServer (EcuEnv τ) × EcuEnv τ} (h : Built variant storage hooks s.1)
    (es : List UdsServer.Event) : Built variant storage hooks (Run.after UdsServer.step s es).1 :=
  Run.after_invariant (I := fun t : UdsServer (EcuEnv τ) × EcuEnv τ => Built variant storage hooks t.1)
    h (fun _ _ ht => ht.step) es

/-- An entry of the server is one of the initial entries, but for its value. -/
theorem Built.entry {server : UdsServer (EcuEnv τ)} (h : Built variant storage hooks server)
    {index : ℕ} {entry : Did (EcuEnv τ)} (hget : server.dids[index]? = some entry) :
    ∃ base, (didDbInit variant)[index]? = some base ∧ entry.spec = attachedSpec storage base := by
  have hspec : (server.dids.map Did.spec)[index]? = some entry.spec := by
    rw [List.getElem?_map, hget]
    rfl
  rw [h.table, List.getElem?_map, Option.map_eq_some_iff] at hspec
  obtain ⟨base, hbase, heq⟩ := hspec
  exact ⟨base, hbase, heq.symm⟩

/-- The identifiers of the table. -/
def ecuIdentifiers : List UInt16 := [didVin, didHardware, didCustom, didDtc, didName, didSoftware]

theorem resetDids_identifiers (variant : UdsEcuVariant) (storage : Option (UdsDidStorage τ))
    (world : τ) : (resetDids variant storage world).map Did.did = ecuIdentifiers := by
  have hspec := congrArg (List.map Did.did) (resetDids_spec variant storage world)
  rw [List.map_map] at hspec
  exact hspec

/-- `UdsEcu_InitWithHooks` always builds an ECU. -/
theorem initWithHooks_isSome (variant : UdsEcuVariant) (storage : Option (UdsDidStorage τ))
    (hooks : UdsEcuHooks τ) (world : τ) :
    ∃ s, initWithHooks variant storage hooks world = some s := by
  have hids := resetDids_identifiers variant storage world
  have hlength : (resetDids variant storage world).length = 6 := by
    rw [← List.length_map Did.did, hids]
    rfl
  have hstored : (resetDids variant storage world).any
      (fun entry => 0 < entry.storageCapacity && !entry.hasStorage) = false := by
    have hspec : ((resetDids variant storage world).map Did.spec).any
        (fun entry => 0 < entry.storageCapacity && !entry.hasStorage) = false := by
      rw [resetDids_spec]
      rfl
    rw [List.any_map] at hspec
    exact hspec
  have hnodup : ecuIdentifiers.Nodup := by decide
  have hroutines : [routineIdSelfTest, routineIdErase].Nodup := by decide
  simp [initWithHooks, UdsServer.init, ecuConfig, hlength, hids, hnodup, maxDids, maxRoutines, hstored,
    selfTestRoutine, eraseRoutine, hroutines]

end DualCan.Uds
