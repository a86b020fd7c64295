import DualCan.Uds.Effects

/-!
# Who may change protected data

The ECU with storage and erase callbacks that write down their calls. Which step calls one, and which
earlier request it goes back to: a save call carries an accepted write, an erase call follows an accepted
start of the erase routine, and both were accepted unlocked and in a session their entry allows. The check
is made when a request is accepted and not repeated by the poll that does the work.
-/

namespace DualCan.Uds

open DualCan.Run

/-- A call of a storage or erase callback. -/
inductive HookCall where
  | save (did : UInt16) (data : List UInt8)
  | erase
  deriving DecidableEq, Repr

/-- The callbacks of an ECU: the storage's, and the two hooks. -/
structure Callbacks (τ : Type) where
  load : Option (UInt16 → ℕ → τ → Option (List UInt8))
  save : UInt16 → List UInt8 → τ → Bool × τ
  selfTest : Option (τ → UInt8 × τ)
  eraseParams : τ → Bool × τ

/-- What the callbacks reach, with the calls made so far. -/
structure Logged (τ : Type) where
  world : τ
  calls : List HookCall

namespace Callbacks

variable {τ : Type} (callbacks : Callbacks τ)

def storage : UdsDidStorage (Logged τ) where
  load := callbacks.load.map fun load did capacity logged => load did capacity logged.world
  save := some fun did data logged =>
    let (saved, world) := callbacks.save did data logged.world
    (saved, ⟨world, logged.calls ++ [.save did data]⟩)

def hooks : UdsEcuHooks (Logged τ) where
  selfTest := callbacks.selfTest.map fun selfTest logged =>
    let (result, world) := selfTest logged.world
    (result, { logged with world := world })
  eraseParams := some fun logged =>
    let (erased, world) := callbacks.eraseParams logged.world
    (erased, ⟨world, logged.calls ++ [.erase]⟩)

end Callbacks

open UdsServer

variable {τ : Type} {variant : UdsEcuVariant} {callbacks : Callbacks τ}

/-- The ECU with these callbacks, whose calls are written down. -/
def Callbacks.init (callbacks : Callbacks τ) (variant : UdsEcuVariant) (world : τ) :
    Option (UdsServer (EcuEnv (Logged τ)) × EcuEnv (Logged τ)) :=
  initWithHooks variant (some callbacks.storage) callbacks.hooks ⟨world, []⟩

/-- The ECU's routines with these callbacks keep the identifiers, so what it owes it does not lose by
them. -/
theorem keepsIdentifiers_ecu (storage : Option (UdsDidStorage τ)) (hooks : UdsEcuHooks τ) :
    KeepsIdentifiers ecuIdentifiers
      [selfTestRoutine variant storage hooks, eraseRoutine variant storage hooks] :=
  handlersKeep_of_reset (resetDids_identifiers variant storage)

/-! ## What one step calls -/

/-- One call of the erase callback: the table is reset if it succeeds. -/
structure Erases (variant : UdsEcuVariant) (callbacks : Callbacks τ) (before : Logged τ)
    (dids : List (Did (EcuEnv (Logged τ)))) (after : Logged τ)
    (dids' : List (Did (EcuEnv (Logged τ)))) : Prop where
  calls : after.calls = before.calls ++ [.erase]
  outcome : ((callbacks.eraseParams before.world).1 = false ∧ dids' = dids) ∨
    ((callbacks.eraseParams before.world).1 = true ∧
      dids' = resetDids variant (some callbacks.storage) after)

/-- One call of the save callback: the entry's value is replaced if it succeeds. -/
structure Saves (callbacks : Callbacks τ) (did : UInt16) (data : List UInt8) (before : Logged τ)
    (dids : List (Did (EcuEnv (Logged τ)))) (after : Logged τ)
    (dids' : List (Did (EcuEnv (Logged τ)))) : Prop where
  calls : after.calls = before.calls ++ [.save did data]
  outcome : ((callbacks.save did data before.world).1 = false ∧ dids' = dids) ∨
    ((callbacks.save did data before.world).1 = true ∧ ∃ index entry,
      dids[index]? = some entry ∧ entry.did = did ∧
      dids' = dids.set index { entry with data := data })

theorem executeRoutine_logged (variant : UdsEcuVariant) (routine : EcuRoutine) (logged : Logged τ)
    (dids : List (Did (EcuEnv (Logged τ)))) :
    let done := executeRoutine variant (some callbacks.storage) callbacks.hooks routine logged dids
    (done.2.1.calls = logged.calls ∧ done.2.2 = dids) ∨
      (routine = .erase ∧ Erases variant callbacks logged dids done.2.1 done.2.2) := by
  cases routine with
  | selfTest =>
    unfold executeRoutine Callbacks.hooks
    cases callbacks.selfTest with
    | none => exact Or.inl ⟨rfl, rfl⟩
    | some selfTest => exact Or.inl ⟨rfl, rfl⟩
  | erase =>
    refine Or.inr ⟨rfl, ?_⟩
    unfold executeRoutine Callbacks.hooks
    cases herased : (callbacks.eraseParams logged.world).1 with
    | true =>
      simp only [herased, if_true]
      exact ⟨rfl, Or.inr ⟨herased, rfl⟩⟩
    | false =>
      simp only [herased, Bool.false_eq_true, if_false]
      exact ⟨rfl, Or.inl ⟨herased, rfl⟩⟩

/-- What a step calls: nothing; the save callback, in a poll, for the pending write; or the erase callback,
while the erase routine runs, for its pending response or for an accepted request for its results. -/
theorem step_logged {s : UdsServer (EcuEnv (Logged τ)) × EcuEnv (Logged τ)} (e : Event)
    (h : Built variant (some callbacks.storage) callbacks.hooks s.1) (hruns : PendingRuns s.1) :
    let t := step s e
    (t.2.world.calls = s.2.world.calls ∧ t.1.dids = s.1.dids) ∨
      (∃ did data, (∃ capacity, e = .pollPending capacity) ∧ s.1.work.records (.write did data) ∧
        Saves callbacks did data s.2.world s.1.dids t.2.world t.1.dids) ∨
      ((((∃ capacity, e = .pollPending capacity) ∧ PendsRoutine s.1 eraseIndex) ∨
          AcceptsRoutine s e eraseIndex routineRequestResults) ∧
        s.1.routineState eraseIndex = .running ∧
        Erases variant callbacks s.2.world s.1.dids t.2.world t.1.dids) := by
  intro t
  have hsave : callbacks.storage.save = some fun did data logged =>
      ((callbacks.save did data logged.world).1,
        ⟨(callbacks.save did data logged.world).2, logged.calls ++ [.save did data]⟩) := rfl
  rcases step_effects hsave e h hruns with
    ⟨hworld, hdids⟩ | ⟨entry, hpoll, hpending, hstores⟩ | ⟨which, hcause, hrun, hexecutes⟩
  · exact Or.inl ⟨congrArg Logged.calls hworld, hdids⟩
  · refine Or.inr (Or.inl ⟨entry.did, s.1.pendingDidData, hpoll, ⟨hpending, rfl, ?_⟩, ?_, ?_⟩)
    · change (s.1.dids.map Did.did)[s.1.pendingDidIndex]? = some entry.did
      rw [List.getElem?_map, hstores.found]
      rfl
    · exact congrArg Logged.calls hstores.world
    · have htable := hstores.table
      cases hsaved : (callbacks.save entry.did s.1.pendingDidData s.2.world.world).1 with
      | false => exact Or.inl ⟨rfl, htable.trans (if_neg (by simp [hsaved]))⟩
      | true =>
        exact Or.inr ⟨rfl, s.1.pendingDidIndex, entry, hstores.found, rfl, htable.trans (if_pos hsaved)⟩
  · rw [hexecutes.world, hexecutes.table]
    rcases executeRoutine_logged variant which s.2.world s.1.dids with hquiet | ⟨rfl, herases⟩
    · exact Or.inl hquiet
    · exact Or.inr (Or.inr ⟨hcause, hrun, herases⟩)

/-! ## Authorised requests -/

/-- A 0x2E request with exactly this identifier and data, served unlocked, in a session that the entry of
the identifier allows and in the session it requires, if any. -/
def AuthorisedWrite (variant : UdsEcuVariant) (did : UInt16) (data : List UInt8)
    (s : UdsServer (EcuEnv τ) × EcuEnv τ) (e : Event) : Prop :=
  ∃ now high low capacity, ∃ entry : Did (EcuEnv τ), entry ∈ didDbInit variant ∧
    e = .process now (sidWriteDataByIdentifier :: high :: low :: data) capacity ∧
    word16 high low = did ∧ entry.did = did ∧ (s.1.tick now).securityUnlocked = true ∧
    sessionAllowed entry.writeSessionsMask (s.1.tick now).session = true ∧
    (entry.writeRequiredSession = 0 ∨ (s.1.tick now).session = entry.writeRequiredSession)

/-- A 0x31 request for the erase routine with this sub-function, served unlocked and in a session that the
routine allows. -/
def AuthorisedErase (subfunction : UInt8) (s : UdsServer (EcuEnv τ) × EcuEnv τ) (e : Event) : Prop :=
  ∃ now sub high low data capacity,
    e = .process now (sidRoutineControl :: sub :: high :: low :: data) capacity ∧
    word16 high low = routineIdErase ∧ sub &&& subfunctionMask = subfunction ∧
    (s.1.tick now).securityUnlocked = true ∧
    sessionAllowed extendedProgrammingMask (s.1.tick now).session = true

theorem UdsServer.AcceptsWrite.authorised {storage : Option (UdsDidStorage τ)} {hooks : UdsEcuHooks τ}
    {s : UdsServer (EcuEnv τ) × EcuEnv τ} {e : Event} {did : UInt16} {data : List UInt8}
    {entry : Did (EcuEnv τ)} (hbuilt : Built variant storage hooks s.1)
    (h : AcceptsWrite s e did data entry) : AuthorisedWrite variant did data s e := by
  obtain ⟨now, high, low, capacity, index, he, hdid, haccept⟩ := h
  obtain ⟨high', low', hargs, hget, hword, hallowed, -⟩ := acceptedWrite_some haccept
  cases hargs
  rw [tick_dids] at hget
  obtain ⟨base, hbase, hspec⟩ := hbuilt.entry hget
  have hmem := List.mem_of_getElem? hbase
  have hfields : entry.did = base.did ∧ entry.hasStorage = base.hasStorage ∧
      entry.writeSessionsMask = base.writeSessionsMask ∧
      entry.writeRequiresUnlock = base.writeRequiresUnlock ∧
      entry.writeRequiredSession = base.writeRequiredSession := by
    change entry.spec.did = base.did ∧ entry.spec.hasStorage = base.hasStorage ∧
      entry.spec.writeSessionsMask = base.writeSessionsMask ∧
      entry.spec.writeRequiresUnlock = base.writeRequiresUnlock ∧
      entry.spec.writeRequiredSession = base.writeRequiredSession
    rw [hspec]
    unfold attachedSpec
    split <;> exact ⟨rfl, rfl, rfl, rfl, rfl⟩
  obtain ⟨hid, hstorage, hmask, hunlock, hrequired⟩ := hfields
  simp only [writeAllowed, Bool.and_eq_true, Bool.or_eq_true, Bool.not_eq_true', decide_eq_true_eq,
    hstorage, hmask, hunlock, hrequired] at hallowed
  obtain ⟨⟨⟨⟨hstored, -⟩, hsession⟩, hlock⟩, hneeds⟩ := hallowed
  have hunlocked : (s.1.tick now).securityUnlocked = true := by
    rcases hlock with hopen | hunlocked
    · rw [(didDbInit_writable hmem hstored).1] at hopen
      cases hopen
    · exact hunlocked
  exact ⟨now, high, low, capacity, base, hmem, he, hdid.symm, by rw [← hid, hword, hdid], hunlocked,
    hsession, hneeds⟩

theorem UdsServer.AcceptsRoutine.authorised {storage : Option (UdsDidStorage τ)} {hooks : UdsEcuHooks τ}
    {s : UdsServer (EcuEnv τ) × EcuEnv τ} {e : Event} {subfunction : UInt8}
    (hbuilt : Built variant storage hooks s.1) (h : AcceptsRoutine s e eraseIndex subfunction) :
    AuthorisedErase subfunction s e := by
  obtain ⟨now, args, capacity, routine, sub, data, he, haccept, hsub⟩ := h
  obtain ⟨high, low, rfl, hget, hid, hallowed, -⟩ := acceptedRoutine_some haccept
  rw [tick_routines] at hget
  obtain ⟨hindex, -⟩ | ⟨-, rfl⟩ := hbuilt.routine hget
  · exact absurd rfl hindex
  simp only [routineAllowed, Bool.and_eq_true] at hallowed
  exact ⟨now, sub, high, low, data, capacity, he, hid.symm, hsub, hallowed.2, hallowed.1⟩

/-! ## Back to the request -/

/-- What every state of the ECU satisfies: the tables it was built with, and no response pending of a
routine that does not run. -/
structure EcuInvariant (variant : UdsEcuVariant) (storage : Option (UdsDidStorage τ))
    (hooks : UdsEcuHooks τ) (s : UdsServer (EcuEnv τ) × EcuEnv τ) : Prop where
  built : Built variant storage hooks s.1
  runs : PendingRuns s.1

section
variable {storage : Option (UdsDidStorage τ)} {hooks : UdsEcuHooks τ} {world : τ}
  {s : UdsServer (EcuEnv τ) × EcuEnv τ}

theorem EcuInvariant.init (h : initWithHooks variant storage hooks world = some s) :
    EcuInvariant variant storage hooks s := by
  refine ⟨Built.init h, ?_⟩
  obtain ⟨server, hinit, rfl⟩ := Option.map_eq_some_iff.1 h
  obtain ⟨-, -, -, -, -, -, -, -, -, -, hpending⟩ := init_some hinit
  intro htrue
  rw [hpending] at htrue
  cases htrue

theorem EcuInvariant.step (h : EcuInvariant variant storage hooks s) (e : Event) :
    EcuInvariant variant storage hooks (step s e) :=
  ⟨h.built.step, h.runs.step e⟩

theorem Built.identifiers {server : UdsServer (EcuEnv τ)} (h : Built variant storage hooks server) :
    server.dids.map Did.did = ecuIdentifiers := by
  have hspec := congrArg (List.map Did.did) h.table
  rw [List.map_map] at hspec
  exact hspec

/-- A pending write goes back to its authorised request: no poll, and no other write, came after it. -/
theorem since_authorisedWrite (hinit : initWithHooks variant storage hooks world = some s)
    {did : UInt16} {data : List UInt8} (es : List Event)
    (h : (after UdsServer.step s es).1.work.records (.write did data)) :
    Since UdsServer.step s (AuthorisedWrite variant did data) SparesWrite es := by
  refine since_of_state (J := EcuInvariant variant storage hooks)
    (I := fun t => t.1.work.records (.write did data)) (EcuInvariant.init hinit)
    (fun t e ht => ht.step e) ?_ ?_ es h
  · obtain ⟨server, hserver, rfl⟩ := Option.map_eq_some_iff.1 hinit
    obtain ⟨-, -, -, -, -, -, -, -, -, hpending, -⟩ := init_some hserver
    intro hrecords
    have htrue : server.pendingDidWrite = true := hrecords.1
    rw [hpending] at htrue
    cases htrue
  · intro t e ht hrecords
    have hids := (ht.built.step (e := e)).identifiers
    rw [← ht.built.identifiers] at hids
    rcases records_write_back hids hrecords with ⟨entry, haccept⟩ | hbefore
    · exact Or.inl (haccept.authorised ht.built)
    · exact Or.inr hbefore

/-- The erase routine runs only after an authorised start of it. -/
theorem once_authorisedStart (hinit : initWithHooks variant storage hooks world = some s)
    (es : List Event) (h : (after UdsServer.step s es).1.routineState eraseIndex = .running) :
    Once UdsServer.step s (AuthorisedErase routineStart) es := by
  refine Since.once (since_of_state (J := EcuInvariant variant storage hooks) (Q := fun _ _ => True)
    (I := fun t => t.1.routineState eraseIndex = .running) (EcuInvariant.init hinit)
    (fun t e ht => ht.step e) ?_ ?_ es h)
  · obtain ⟨server, hserver, rfl⟩ := Option.map_eq_some_iff.1 hinit
    intro hrun
    rw [init_routineState hserver] at hrun
    cases hrun
  · intro t e ht hrun
    rcases running_back ht.runs hrun with haccept | hbefore
    · exact Or.inl (haccept.authorised ht.built)
    · exact Or.inr ⟨hbefore, trivial⟩

/-- A pending response of the erase routine goes back to an authorised request for its results, and has been
pending ever since. -/
theorem since_authorisedResults (hinit : initWithHooks variant storage hooks world = some s)
    (es : List Event) (h : PendsRoutine (after UdsServer.step s es).1 eraseIndex) :
    Since UdsServer.step s (AuthorisedErase routineRequestResults)
      (fun t e => PendsRoutine (UdsServer.step t e).1 eraseIndex) es := by
  refine since_of_state (J := EcuInvariant variant storage hooks)
    (I := fun t => PendsRoutine t.1 eraseIndex) (EcuInvariant.init hinit)
    (fun t e ht => ht.step e) ?_ ?_ es h
  · obtain ⟨server, hserver, rfl⟩ := Option.map_eq_some_iff.1 hinit
    obtain ⟨-, -, -, -, -, -, -, -, -, -, hpending⟩ := init_some hserver
    intro hpends
    have htrue : server.pendingRoutineResponse = true := hpends.1
    rw [hpending] at htrue
    cases htrue
  · intro t e ht hpends
    rcases pends_back hpends with haccept | hbefore
    · exact Or.inl (haccept.authorised ht.built)
    · exact Or.inr ⟨hbefore, hpends⟩

end

/-! ## Values -/

/-- The value a table has for an identifier. -/
def didValue {σ : Type} (dids : List (Did σ)) (did : UInt16) : Option (List UInt8) :=
  (dids.find? fun entry => entry.did = did).map Did.data

theorem didValue_cons {σ : Type} (entry : Did σ) (dids : List (Did σ)) (did : UInt16) :
    didValue (entry :: dids) did = if entry.did = did then some entry.data else didValue dids did := by
  unfold didValue
  rw [List.find?_cons]
  by_cases h : entry.did = did
  · simp [h]
  · simp [h]

/-- Replacing a value changes the value of its identifier only. -/
theorem didValue_set {σ : Type} {dids : List (Did σ)} (hids : (dids.map Did.did).Nodup) {index : ℕ}
    {entry : Did σ} (data : List UInt8) (hget : dids[index]? = some entry) (did : UInt16) :
    didValue (dids.set index { entry with data := data }) did =
      if entry.did = did then some data else didValue dids did := by
  induction dids generalizing index with
  | nil => cases hget
  | cons first rest ih =>
    rw [List.map_cons, List.nodup_cons] at hids
    cases index with
    | zero =>
      obtain rfl : first = entry := Option.some.inj hget
      rw [List.set_cons_zero, didValue_cons, didValue_cons]
      by_cases h : first.did = did
      · simp [h]
      · simp [h]
    | succ index =>
      have hrest : rest[index]? = some entry := hget
      have hne : first.did ≠ entry.did := fun heq =>
        hids.1 (heq ▸ List.mem_map_of_mem (List.mem_of_getElem? hrest))
      rw [List.set_cons_succ, didValue_cons, didValue_cons, ih hids.2 hrest]
      by_cases h : first.did = did
      · have hother : entry.did ≠ did := fun heq => hne (h.trans heq.symm)
        simp [h, hother]
      · simp [h]

/-- What a call of the save callback changes: at most the value of its identifier, and only to its data. -/
theorem Saves.value {did : UInt16} {data : List UInt8} {before after : Logged τ}
    {dids dids' : List (Did (EcuEnv (Logged τ)))} (h : Saves callbacks did data before dids after dids')
    (hids : (dids.map Did.did).Nodup) {did' : UInt16} (hne : didValue dids' did' ≠ didValue dids did') :
    did' = did ∧ didValue dids' did = some data ∧ (callbacks.save did data before.world).1 = true := by
  rcases h.outcome with ⟨-, rfl⟩ | ⟨hsaved, index, entry, hget, hdid, rfl⟩
  · exact absurd rfl hne
  · rw [didValue_set hids data hget, hdid] at hne
    have heq : did = did' := by
      by_contra hother
      exact hne (if_neg hother)
    subst heq
    refine ⟨rfl, ?_, hsaved⟩
    rw [didValue_set hids data hget, if_pos hdid]

/-! ## The results -/

variable {world : τ} {s : UdsServer (EcuEnv (Logged τ)) × EcuEnv (Logged τ)}

/-- **Every change of protected data has its request.** The step after any run calls no callback and changes
no value; or calls the save callback with the identifier and the data of an authorised write, and changes
that value to that data or nothing; or calls the erase callback after an authorised start of the erase
routine, and changes nothing unless it succeeds, when the table is the reset one. -/
theorem protected_provenance (hinit : callbacks.init variant world = some s) (es : List Event)
    (e : Event) :
    let t := after step s es
    let t' := step t e
    (t'.2.world.calls = t.2.world.calls ∧
        ∀ did, didValue t'.1.dids did = didValue t.1.dids did) ∨
      (∃ did data, t'.2.world.calls = t.2.world.calls ++ [.save did data] ∧
        Once step s (AuthorisedWrite variant did data) es ∧
        ∀ did', didValue t'.1.dids did' ≠ didValue t.1.dids did' →
          did' = did ∧ didValue t'.1.dids did' = some data) ∨
      (t'.2.world.calls = t.2.world.calls ++ [.erase] ∧
        Once step s (AuthorisedErase routineStart) es ∧
        ∀ did, didValue t'.1.dids did ≠ didValue t.1.dids did →
          (callbacks.eraseParams t.2.world.world).1 = true ∧
          t'.1.dids = resetDids variant (some callbacks.storage) t'.2.world) := by
  have hall : EcuInvariant variant (some callbacks.storage) callbacks.hooks (after step s es) :=
    after_invariant (EcuInvariant.init hinit) (fun t e ht => ht.step e) es
  have hnodup : ((after step s es).1.dids.map Did.did).Nodup := by
    rw [hall.built.identifiers]
    decide
  rcases step_logged e hall.built hall.runs with
    ⟨hcalls, hdids⟩ | ⟨did, data, -, hrecords, hsaves⟩ | ⟨-, hrun, herases⟩
  · exact Or.inl ⟨hcalls, fun did => by rw [hdids]⟩
  · refine Or.inr (Or.inl ⟨did, data, hsaves.calls, (since_authorisedWrite hinit es hrecords).once, ?_⟩)
    intro did' hne
    obtain ⟨rfl, hvalue, -⟩ := hsaves.value hnodup hne
    exact ⟨rfl, hvalue⟩
  · refine Or.inr (Or.inr ⟨herases.calls, once_authorisedStart hinit es hrun, ?_⟩)
    intro did hne
    rcases herases.outcome with ⟨-, hsame⟩ | ⟨herased, hreset⟩
    · rw [hsame] at hne
      exact absurd rfl hne
    · exact ⟨herased, hreset⟩

/-- **Authority is checked when a request is accepted.** The save callback is called only by a poll, for the
latest accepted write, with no poll since; the erase callback is called only by an authorised request for
the results of the erase routine, or by a poll for a response that such a request left pending and that has
been pending since. -/
theorem hooks_authorised (hinit : callbacks.init variant world = some s) (es : List Event) (e : Event) :
    let t := after step s es
    let t' := step t e
    t'.2.world.calls = t.2.world.calls ∨
      (∃ did data, t'.2.world.calls = t.2.world.calls ++ [.save did data] ∧
        (∃ capacity, e = .pollPending capacity) ∧
        Since step s (AuthorisedWrite variant did data) SparesWrite es) ∨
      (t'.2.world.calls = t.2.world.calls ++ [.erase] ∧
        (AuthorisedErase routineRequestResults t e ∨
          ((∃ capacity, e = .pollPending capacity) ∧
            Since step s (AuthorisedErase routineRequestResults)
              (fun u e => PendsRoutine (step u e).1 eraseIndex) es))) := by
  have hall : EcuInvariant variant (some callbacks.storage) callbacks.hooks (after step s es) :=
    after_invariant (EcuInvariant.init hinit) (fun t e ht => ht.step e) es
  rcases step_logged e hall.built hall.runs with
    ⟨hcalls, -⟩ | ⟨did, data, hpoll, hrecords, hsaves⟩ | ⟨hcause, -, herases⟩
  · exact Or.inl hcalls
  · exact Or.inr (Or.inl ⟨did, data, hsaves.calls, hpoll, since_authorisedWrite hinit es hrecords⟩)
  · refine Or.inr (Or.inr ⟨herases.calls, ?_⟩)
    rcases hcause with ⟨hpoll, hpends⟩ | haccept
    · exact Or.inr ⟨hpoll, since_authorisedResults hinit es hpends⟩
    · exact Or.inl (haccept.authorised hall.built)

/-! ## An ECU whose callbacks always succeed -/

def plainCallbacks : Callbacks Unit where
  load := none
  save := fun _ _ world => (true, world)
  selfTest := none
  eraseParams := fun world => (true, world)

def plainEcu : UdsServer (EcuEnv (Logged Unit)) × EcuEnv (Logged Unit) :=
  (plainCallbacks.init .f407 ()).get rfl

theorem init_plainCallbacks : plainCallbacks.init .f407 () = some plainEcu := rfl

def request (bytes : List UInt8) : Event := .process 0 bytes 32

/-- An unlock in the programming session, with the key of the first seed. -/
def unlockProgramming : List Event :=
  [request [sidDiagnosticSessionControl, sessionProgramming],
    request [sidSecurityAccess, securityRequestSeed],
    request [sidSecurityAccess, securitySendKey, 0xE1, 0x74, 0xF5, 0xDA]]

/-- The write of the custom identifier is accepted, and the session left before it is done. -/
def writeThenLeave : List Event :=
  unlockProgramming ++
    [request [sidWriteDataByIdentifier, 0x01, 0x00, 0xAA],
      request [sidDiagnosticSessionControl, sessionDefault]]

/-- The erase routine is started and asked for its results. -/
def startErase : List Event :=
  unlockProgramming ++
    [request [sidRoutineControl, routineStart, 0xFF, 0x00],
      request [sidRoutineControl, routineRequestResults, 0xFF, 0x00]]

/-- The poll that erases goes back to an authorised start. -/
theorem protected_provenance_startErase :
    Once step plainEcu (AuthorisedErase routineStart) startErase := by
  have hbefore : (after step plainEcu startErase).2.world.calls = [] := by decide +kernel
  have hafter : (step (after step plainEcu startErase) (.pollPending 32)).2.world.calls = [.erase] := by
    decide +kernel
  rcases protected_provenance init_plainCallbacks startErase (.pollPending 32) with
    ⟨hsame, -⟩ | ⟨did, data, hcalls, -⟩ | ⟨-, honce, -⟩
  · rw [hbefore, hafter] at hsame
    cases hsame
  · rw [hbefore, hafter] at hcalls
    cases hcalls
  · exact honce

/-- Every call of a callback finds the server unlocked, in a session that allows changes. -/
def CallsUnlocked (s : UdsServer (EcuEnv (Logged τ)) × EcuEnv (Logged τ)) : Prop :=
  ∀ es e, (step (after step s es) e).2.world.calls ≠ (after step s es).2.world.calls →
    (after step s es).1.securityUnlocked = true ∧
      sessionAllowed extendedProgrammingMask (after step s es).1.session = true

/-- The write accepted before the default session is saved in it, when the server is locked. -/
theorem not_callsUnlocked_writeThenLeave : ¬CallsUnlocked plainEcu := by
  intro h
  have hcalls := h writeThenLeave (.pollPending 32) (by decide +kernel)
  exact absurd hcalls.1 (by decide +kernel)

/-- That save goes back to the write, which was accepted unlocked. -/
theorem hooks_authorised_writeThenLeave :
    Since step plainEcu (AuthorisedWrite .f407 didCustom [0xAA]) SparesWrite writeThenLeave := by
  have hbefore : (after step plainEcu writeThenLeave).2.world.calls = [] := by decide +kernel
  have hafter : (step (after step plainEcu writeThenLeave) (.pollPending 32)).2.world.calls =
      [.save didCustom [0xAA]] := by
    decide +kernel
  rcases hooks_authorised init_plainCallbacks writeThenLeave (.pollPending 32) with
    hsame | ⟨did, data, hcalls, -, hsince⟩ | ⟨hcalls, -⟩
  · rw [hbefore, hafter] at hsame
    cases hsame
  · rw [hbefore, hafter] at hcalls
    cases hcalls
    exact hsince
  · rw [hbefore, hafter] at hcalls
    cases hcalls

end DualCan.Uds
