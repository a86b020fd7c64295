import DualCan.Param.Recovery
import DualCan.Uds.Answered
import Mathlib.Data.List.Nodup

/-!
# The reference ECU over the parameter log

`app_param_storage.c` and the hooks of `main.c`: the storage callbacks and the erase hook act on the log in RAM
and on its flash region. The values that the server holds in RAM, those of the log in RAM and those of the
flash stay in step, whichever record writes fail, and so a reboot is not noticed.
-/

namespace DualCan.Param

open DualCan.Run DualCan.Uds

/-! ## Storage and hooks -/

/-- `AppParamStorage_t` with its flash region. The environment limits the `n`-th record write from now on to
`faults n` operations, and the `n`-th self test from now on finds the CAN and watchdog failures `probes n`. -/
structure AppParamStorage where
  log : ParamLog
  valid : Bool
  bytes : ℕ → UInt8
  faults : ℕ → Option ℕ
  probes : ℕ → UInt8

def selfTestParamFailure : UInt8 := 0x01

section
variable (size slotCount : ℕ)

/-- A call of `ParamLog_Set` or `ParamLog_Clear` on the storage. -/
def AppParamStorage.call (call : LogCall) (storage : AppParamStorage) : Bool × AppParamStorage :=
  let (ok, system) := call.run size slotCount (storage.faults 0) ⟨storage.log, storage.bytes⟩
  (ok, { storage with log := system.log, bytes := system.bytes, faults := fun n => storage.faults (n + 1) })

/-- `app_param_load`. -/
def appParamLoad (did : UInt16) (capacity : ℕ) (storage : AppParamStorage) : Option (List UInt8) :=
  storage.log.get did capacity

/-- `app_param_save`. -/
def appParamSave (did : UInt16) (data : List UInt8) (storage : AppParamStorage) : Bool × AppParamStorage :=
  storage.call size slotCount (.set did data)

/-- `AppParamStorage_Clear`. -/
def appParamClear (storage : AppParamStorage) : Bool × AppParamStorage :=
  let (cleared, storage) := storage.call size slotCount .clear
  (cleared, if cleared then { storage with valid := true } else storage)

/-- `AppParamStorage_Init`, with flash operations that succeed. -/
def appParamInit (storage : AppParamStorage) : AppParamStorage :=
  let (valid, system) := LogCall.load.run size slotCount none ⟨ParamLog.init, storage.bytes⟩
  { storage with log := system.log, valid := valid, bytes := system.bytes }

/-- `APP_UdsSelfTest`. -/
def appUdsSelfTest (storage : AppParamStorage) : UInt8 × AppParamStorage :=
  ((if storage.valid then 0 else selfTestParamFailure) ||| storage.probes 0,
    { storage with probes := fun n => storage.probes (n + 1) })

def paramStorage : UdsDidStorage AppParamStorage := ⟨some appParamLoad, some (appParamSave size slotCount)⟩

def paramHooks : UdsEcuHooks AppParamStorage := ⟨some appUdsSelfTest, some (appParamClear size slotCount)⟩

/-! ## The ECU -/

abbrev EcuState : Type := UdsServer (EcuEnv AppParamStorage) × EcuEnv AppParamStorage

variable (variant : UdsEcuVariant)

/-- The start of the firmware: the log is loaded, then the ECU is built over it. -/
def boot (storage : AppParamStorage) : Option EcuState :=
  initWithHooks variant (some (paramStorage size slotCount)) (paramHooks size slotCount)
    (appParamInit size slotCount storage)

/-- A call of the server's entry points, or a reboot, which keeps the flash only. -/
inductive EcuOp where
  | call (e : UdsServer.Event)
  | reboot

/-- `boot` always builds an ECU (`initWithHooks_isSome`). -/
def EcuOp.step (s : EcuState) : EcuOp → EcuState
  | .call e => UdsServer.step s e
  | .reboot => (boot size slotCount variant s.2.world).getD s

/-- A record write that fails after it has changed the flash leaves no record. -/
def EcuOp.TearsUnreadable (s : EcuState) (op : EcuOp) : Prop :=
  let before := s.2.world
  let after := (op.step size slotCount variant s).2.world
  op ≠ .reboot → after.log.nextSlot = before.log.nextSlot → after.bytes ≠ before.bytes →
    ParamStore.decode (slotBytes after.bytes before.log.nextSlot) = none

end

/-! ## The storage in step with its flash -/

/-- The defaults of the variant. -/
abbrev defaultDids (variant : UdsEcuVariant) : List (Did (EcuEnv AppParamStorage)) := didDbInit variant

/-- The log and the flash hold these values, each within the capacity of its identifier. -/
structure Holds (slotCount : ℕ) (variant : UdsEcuVariant) (storage : AppParamStorage) (values : Values) :
    Prop where
  log : ∃ count, Records slotCount storage.bytes count values ∧
    storage.log = ⟨ParamStore.ofValues values, count, slotCount⟩
  fits : ∀ entry ∈ defaultDids variant, ∀ value, values.lookup entry.did = some value →
    value.length ≤ entry.storageCapacity

/-- The table shows these values, and the defaults for the identifiers without one. -/
def Shows (variant : UdsEcuVariant) (dids : List (Did (EcuEnv AppParamStorage))) (values : Values) : Prop :=
  ∀ did, knownDid did = true → didValue dids did = (values.lookup did).or (didValue (defaultDids variant) did)

section
variable {size slotCount : ℕ} {variant : UdsEcuVariant} {storage : AppParamStorage} {values : Values}

theorem Holds.packed (h : Holds slotCount variant storage values) : Packed values :=
  let ⟨_, hrecords, _⟩ := h.log
  hrecords.packed

theorem Holds.short (h : Holds slotCount variant storage values) {did : UInt16} {value : List UInt8}
    (hlookup : values.lookup did = some value) : value.length ≤ didVinCapacity := by
  obtain ⟨front, rest, rfl, -⟩ := List.lookup_eq_some_iff.1 hlookup
  exact (h.packed.sized (did, value) (by simp)).2

/-- What the log returns is the value, if there is one. -/
theorem Holds.get (h : Holds slotCount variant storage values) {did : UInt16} (hknown : knownDid did = true) :
    storage.log.get did didVinCapacity = values.lookup did := by
  obtain ⟨count, hrecords, hlog⟩ := h.log
  rw [hlog]
  refine (get_ofValues hknown values didVinCapacity).trans ?_
  cases hlookup : values.lookup did with
  | none => rfl
  | some value =>
    have hshort := h.short hlookup
    simp [hshort]

/-- A failed call leaves what is held, unless a write that it tore reads as a record; an accepted one leaves
what it records. -/
theorem Holds.call (h : Holds slotCount variant storage values) (hsize : slotOffset slotCount ≤ size)
    (call : LogCall) (hcall : call ≠ .load) :
    let result := storage.call size slotCount call
    (result.1 = false → result.2.log = storage.log ∧
        ((result.2.bytes ≠ storage.bytes →
            ParamStore.decode (slotBytes result.2.bytes storage.log.nextSlot) = none) →
          Holds slotCount variant result.2 values)) ∧
      (result.1 = true → ∃ values', call.record values = some values' ∧
        ((∀ entry ∈ defaultDids variant, ∀ value, values'.lookup entry.did = some value →
          value.length ≤ entry.storageCapacity) → Holds slotCount variant result.2 values')) := by
  intro result
  obtain ⟨count, hrecords, hlog⟩ := h.log
  have houtcome := LogCall.run_outcome hrecords hsize (Or.inl hlog) hcall (storage.faults 0)
  constructor
  · intro hno
    obtain ⟨hsame, hkept⟩ := houtcome.1 hno
    exact ⟨hsame, fun htears => ⟨⟨count, hkept htears, hsame.trans hlog⟩, h.fits⟩⟩
  · intro hok
    obtain ⟨values', hrecord, hrecords', hlog'⟩ := houtcome.2 hok
    exact ⟨values', hrecord, fun hfits => ⟨⟨count + 1, hrecords', hlog'⟩, hfits⟩⟩

/-! ## The table in step with the storage -/

theorem knownDid_iff {did : UInt16} : knownDid did = true ↔ did = didVin ∨ did = didDtc ∨ did = didCustom := by
  simp [knownDid, paramStoreDids, didVin, didDtc, didCustom]

/-- A known identifier is one that the table stores. -/
theorem defaultDids_stored (variant : UdsEcuVariant) {did : UInt16} (hknown : knownDid did = true) :
    ∃ entry ∈ defaultDids variant, (defaultDids variant).find? (fun entry => entry.did = did) = some entry ∧
      entry.did = did ∧ ¬(entry.writeSessionsMask = 0 ∨ !entry.hasStorage ∨ entry.storageCapacity = 0) := by
  rcases knownDid_iff.1 hknown with rfl | rfl | rfl
  · exact ⟨_, List.mem_of_getElem? (i := 0) rfl, rfl, rfl, by
      simp [writableDid, extendedProgrammingMask, didVinCapacity]⟩
  · exact ⟨_, List.mem_of_getElem? (i := 3) rfl, rfl, rfl, by
      simp [writableDid, extendedProgrammingMask, didDtcCapacity]⟩
  · exact ⟨_, List.mem_of_getElem? (i := 2) rfl, rfl, rfl, by
      simp [writableDid, extendedProgrammingMask, didCustomCapacity]⟩

theorem defaultDids_value (variant : UdsEcuVariant) {did : UInt16} (hknown : knownDid did = true) :
    ∃ value, didValue (defaultDids variant) did = some value ∧ value.length ≤ didVinCapacity := by
  rcases knownDid_iff.1 hknown with rfl | rfl | rfl
  · exact ⟨variant.vin, rfl, by cases variant <;> decide⟩
  · exact ⟨dtcDefault, rfl, by decide⟩
  · exact ⟨customDefault, rfl, by decide⟩

/-- A table built over what is held shows it. -/
theorem Holds.shows_reset (h : Holds slotCount variant storage values) :
    Shows variant (resetDids variant (some (paramStorage size slotCount)) storage) values := by
  intro did hknown
  obtain ⟨entry, hmem, hfind, rfl, hstored⟩ := defaultDids_stored variant hknown
  have hget : (paramStorage size slotCount).load.bind (fun load => load entry.did didVinCapacity storage) =
      values.lookup entry.did := h.get hknown
  have hdata : (attachDid (paramStorage size slotCount) storage entry).data =
      (values.lookup entry.did).getD entry.data := by
    unfold attachDid
    rw [if_neg hstored]
    dsimp only
    rw [hget]
    cases hlookup : values.lookup entry.did with
    | none => rfl
    | some value =>
      dsimp only
      rw [if_pos (h.fits entry hmem value hlookup)]
      rfl
  have hsame : ((fun other : Did (EcuEnv AppParamStorage) => decide (other.did = entry.did)) ∘
      attachDid (paramStorage size slotCount) storage) = fun other => decide (other.did = entry.did) := by
    funext other
    have hdid : (attachDid (paramStorage size slotCount) storage other).did = other.did := by
      have hspec := congrArg Did.did (attachDid_spec (paramStorage size slotCount) storage other)
      refine hspec.trans ?_
      split <;> rfl
    rw [Function.comp_apply, hdid]
  unfold didValue
  change ((List.map (attachDid (paramStorage size slotCount) storage) (defaultDids variant)).find? _).map _ = _
  rw [List.find?_map, hsame, hfind, Option.map_some, Option.map_some, Option.map_some, hdata]
  cases values.lookup entry.did <;> rfl

/-! ## Steps -/

/-- The server, the log in RAM and the flash agree on the values. -/
structure InStep (size slotCount : ℕ) (variant : UdsEcuVariant) (s : EcuState) (values : Values) : Prop where
  ecu : EcuInvariant variant (some (paramStorage size slotCount)) (paramHooks size slotCount) s
  holds : Holds slotCount variant s.2.world values
  shows : Shows variant s.1.dids values

variable {s : EcuState}

/-- A start finds the values of the flash. -/
theorem inStep_boot {count : ℕ} (hrecords : Records slotCount storage.bytes count values)
    (hfits : ∀ entry ∈ defaultDids variant, ∀ value, values.lookup entry.did = some value →
      value.length ≤ entry.storageCapacity)
    (hcount : 0 < slotCount) (hmax : slotCount ≤ maxSlots) (hsize : slotOffset slotCount ≤ size)
    (hboot : boot size slotCount variant storage = some s) :
    s.2.world.valid = true ∧ InStep size slotCount variant s values := by
  obtain ⟨bytes', count', hload, hrecords'⟩ :=
    LogCall.run_load_found hrecords hcount hmax hsize ParamLog.init
  have hinit : appParamInit size slotCount storage = { storage with
      log := ⟨ParamStore.ofValues values, count', slotCount⟩, valid := true, bytes := bytes' } := by
    unfold appParamInit
    rw [hload]
  have hholds : Holds slotCount variant (appParamInit size slotCount storage) values := by
    rw [hinit]
    exact ⟨⟨count', hrecords', rfl⟩, hfits⟩
  have hecu := EcuInvariant.init hboot
  obtain ⟨server, hserver, rfl⟩ := Option.map_eq_some_iff.1 hboot
  obtain ⟨hdids, -⟩ := UdsServer.init_some hserver
  refine ⟨congrArg AppParamStorage.valid hinit, hecu, hholds, ?_⟩
  change Shows variant server.dids values
  rw [hdids]
  exact hholds.shows_reset

/-- The save of a pending write: its value is replaced everywhere, or nowhere. -/
theorem InStep.stores (h : InStep size slotCount variant s values) (hsize : slotOffset slotCount ≤ size)
    {index : ℕ} {entry : Did (EcuEnv AppParamStorage)} {data : List UInt8} {storage' : AppParamStorage}
    {dids' : List (Did (EcuEnv AppParamStorage))}
    (hstores : Stores (appParamSave size slotCount) index entry data s.2.world s.1.dids storage' dids')
    (htears : storage'.log.nextSlot = s.2.world.log.nextSlot → storage'.bytes ≠ s.2.world.bytes →
      ParamStore.decode (slotBytes storage'.bytes s.2.world.log.nextSlot) = none) :
    ∃ values', Holds slotCount variant storage' values' ∧ Shows variant dids' values' := by
  have hcall := h.holds.call hsize (.set entry.did data) nofun
  rw [hstores.world] at htears ⊢
  rw [hstores.table]
  cases hok : (appParamSave size slotCount entry.did data s.2.world).1 with
  | false =>
    obtain ⟨hlog, hkept⟩ := hcall.1 hok
    refine ⟨values, hkept (htears (congrArg ParamLog.nextSlot hlog)), ?_⟩
    rw [if_neg Bool.false_ne_true]
    exact h.shows
  | true =>
    obtain ⟨values', hrecord, hkept⟩ := hcall.2 hok
    obtain ⟨-, -, hknown, rfl⟩ := LogCall.record_set hrecord
    obtain ⟨base, hbase, hspec⟩ := h.ecu.built.entry hstores.found
    have hsame : entry.did = base.did ∧ entry.storageCapacity = base.storageCapacity := by
      change entry.spec.did = base.did ∧ entry.spec.storageCapacity = base.storageCapacity
      rw [hspec]
      unfold attachedSpec
      split <;> exact ⟨rfl, rfl⟩
    refine ⟨setValue entry.did data values, hkept ?_, ?_⟩
    · intro other hother value hlookup
      rw [lookup_setValue] at hlookup
      split at hlookup
      · -- the identifiers of the table are distinct
        rename_i heq
        have hnodup : ((defaultDids variant).map Did.did).Nodup := by cases variant <;> decide
        obtain rfl : other = base := List.inj_on_of_nodup_map hnodup hother
          (List.mem_of_getElem? hbase) (heq.trans hsame.1)
        obtain rfl := Option.some.inj hlookup
        rw [← hsame.2]
        exact hstores.fits
      · exact h.holds.fits other hother value hlookup
    · intro did hdid
      have hnodup : (s.1.dids.map Did.did).Nodup := by
        rw [h.ecu.built.identifiers]
        decide
      rw [if_pos rfl, didValue_set hnodup data hstores.found, lookup_setValue]
      by_cases heq : entry.did = did
      · rw [if_pos heq, if_pos heq.symm]
        rfl
      · rw [if_neg heq, if_neg (Ne.symm heq)]
        exact h.shows did hdid

/-- An execution of a routine: an erase that succeeds resets everything, and any other one changes nothing. -/
theorem InStep.executes (h : InStep size slotCount variant s values) (hsize : slotOffset slotCount ≤ size)
    {which : EcuRoutine} {storage' : AppParamStorage} {dids' : List (Did (EcuEnv AppParamStorage))}
    (hexecutes : Executes variant (some (paramStorage size slotCount)) (paramHooks size slotCount) which
      s.2.world s.1.dids storage' dids')
    (htears : storage'.log.nextSlot = s.2.world.log.nextSlot → storage'.bytes ≠ s.2.world.bytes →
      ParamStore.decode (slotBytes storage'.bytes s.2.world.log.nextSlot) = none) :
    ∃ values', Holds slotCount variant storage' values' ∧ Shows variant dids' values' := by
  rw [hexecutes.world] at htears ⊢
  rw [hexecutes.table]
  cases which with
  | selfTest => exact ⟨values, ⟨h.holds.log, h.holds.fits⟩, h.shows⟩
  | erase =>
    have hcall := h.holds.call hsize .clear nofun
    cases hok : (s.2.world.call size slotCount .clear).1 with
    | false =>
      obtain ⟨hlog, hkept⟩ := hcall.1 hok
      simp only [executeRoutine, paramHooks, appParamClear, hok, Bool.false_eq_true, if_false] at htears ⊢
      exact ⟨values, hkept (htears (congrArg ParamLog.nextSlot hlog)), h.shows⟩
    | true =>
      obtain ⟨values', hrecord, hkept⟩ := hcall.2 hok
      obtain rfl : [] = values' := Option.some.inj hrecord
      have hholds := hkept nofun
      simp only [executeRoutine, paramHooks, appParamClear, hok, if_true]
      have hvalid : Holds slotCount variant
          { (s.2.world.call size slotCount .clear).2 with valid := true } [] := ⟨hholds.log, hholds.fits⟩
      exact ⟨[], hvalid, hvalid.shows_reset⟩

/-- One step: the values may change, and then everywhere. -/
theorem InStep.step (h : InStep size slotCount variant s values) (hcount : 0 < slotCount)
    (hmax : slotCount ≤ maxSlots) (hsize : slotOffset slotCount ≤ size) {op : EcuOp}
    (htears : op.TearsUnreadable size slotCount variant s) :
    ∃ values', InStep size slotCount variant (op.step size slotCount variant s) values' := by
  cases op with
  | reboot =>
    obtain ⟨t, hboot⟩ : ∃ t, boot size slotCount variant s.2.world = some t := initWithHooks_isSome ..
    obtain ⟨count, hrecords, -⟩ := h.holds.log
    refine ⟨values, ?_⟩
    change InStep size slotCount variant ((boot size slotCount variant s.2.world).getD s) values
    rw [hboot]
    exact (inStep_boot hrecords h.holds.fits hcount hmax hsize hboot).2
  | call e =>
    have hecu := h.ecu.step e
    rcases step_effects rfl e h.ecu.built h.ecu.runs with
      ⟨hworld, hdids⟩ | ⟨entry, -, -, hstores⟩ | ⟨which, -, -, hexecutes⟩
    · refine ⟨values, hecu, ?_, ?_⟩
      · rw [EcuOp.step, hworld]
        exact h.holds
      · rw [EcuOp.step, hdids]
        exact h.shows
    · obtain ⟨values', hholds, hshows⟩ := h.stores hsize hstores (htears nofun)
      exact ⟨values', hecu, hholds, hshows⟩
    · obtain ⟨values', hholds, hshows⟩ := h.executes hsize hexecutes (htears nofun)
      exact ⟨values', hecu, hholds, hshows⟩

/-- A reboot keeps the values, and its load succeeds. -/
theorem InStep.reboot (h : InStep size slotCount variant s values) (hcount : 0 < slotCount)
    (hmax : slotCount ≤ maxSlots) (hsize : slotOffset slotCount ≤ size) :
    let t := EcuOp.step size slotCount variant s .reboot
    t.2.world.valid = true ∧ InStep size slotCount variant t values := by
  obtain ⟨t, hboot⟩ : ∃ t, boot size slotCount variant s.2.world = some t := initWithHooks_isSome ..
  obtain ⟨count, hrecords, -⟩ := h.holds.log
  have hstep : EcuOp.step size slotCount variant s .reboot = t := by
    change (boot size slotCount variant s.2.world).getD s = t
    rw [hboot]
    rfl
  rw [hstep]
  exact inStep_boot hrecords h.holds.fits hcount hmax hsize hboot

/-! ## Reads -/

/-- A read of one identifier with service 0x22. -/
def readRequest (did : UInt16) (now : UInt32) (capacity : ℕ) : UdsServer.Event :=
  .process now [sidReadDataByIdentifier, high16 did, low16 did] capacity

theorem readDid_single {σ : Type} {server : UdsServer σ} {did : UInt16} {value : List UInt8} {capacity : ℕ}
    (h : server.readable did = some value) (hroom : 4 + value.length ≤ capacity) :
    server.readDid [high16 did, low16 did] capacity =
      ⟨.response, (sidReadDataByIdentifier + 0x40) :: high16 did :: low16 did :: value⟩ := by
  unfold UdsServer.readable at h
  obtain ⟨found, hfind, hvalue⟩ := Option.bind_eq_some_iff.1 h
  split at hvalue
  · rename_i hallowed
    obtain rfl := Option.some.inj hvalue
    have hentries : server.readEntries [high16 did, low16 did] =
        .ok [(high16 did, low16 did, found.2)] := by
      unfold UdsServer.readEntries
      rw [word16_high16_low16, hfind]
      simp only [hallowed, Bool.not_true, Bool.false_eq_true, if_false]
      rfl
    have hfits : ¬1 + ([(high16 did, low16 did, found.2)].map fun e => 3 + e.2.2.data.length).sum >
        capacity := by
      simp only [List.map_cons, List.map_nil, List.sum_cons, List.sum_nil]
      omega
    have hlength : ¬([high16 did, low16 did].length < 2 ∨ [high16 did, low16 did].length % 2 ≠ 0) := by simp
    unfold UdsServer.readDid
    rw [if_neg hlength, hentries]
    dsimp only
    rw [if_neg hfits]
    simp
  · cases hvalue

/-- A read returns the value held, or the default. -/
theorem InStep.read (h : InStep size slotCount variant s values) {did : UInt16} (hknown : knownDid did = true) :
    ∃ value, (s.2.world.log.get did didVinCapacity).or (didValue (defaultDids variant) did) = some value ∧
      (values.lookup did).or (didValue (defaultDids variant) did) = some value ∧
      ∀ now capacity, 4 + didVinCapacity ≤ capacity →
        (UdsServer.respond s (readRequest did now capacity)).1 =
          ⟨.response, (sidReadDataByIdentifier + 0x40) :: high16 did :: low16 did :: value⟩ := by
  obtain ⟨value, hvalue, hshort⟩ : ∃ value,
      (values.lookup did).or (didValue (defaultDids variant) did) = some value ∧
        value.length ≤ didVinCapacity := by
    cases hlookup : values.lookup did with
    | some value => exact ⟨value, rfl, h.holds.short hlookup⟩
    | none => exact defaultDids_value variant hknown
  refine ⟨value, (congrArg (Option.or · _) (h.holds.get hknown)).trans hvalue, hvalue, ?_⟩
  intro now capacity hroom
  have htick : Built variant (some (paramStorage size slotCount)) (paramHooks size slotCount)
      (s.1.tick now) := h.ecu.built.step (e := .tick now)
  have hread : (s.1.tick now).readable did = some value := by
    rw [htick.readable, UdsServer.tick_dids, h.shows did hknown, hvalue]
  have hreply := readDid_single hread (Nat.le_trans (Nat.add_le_add_left hshort 4) hroom)
  change (UdsServer.finish now ((s.1.tick now).readDid [high16 did, low16 did] capacity, s.1.tick now, s.2)).1 = _
  rw [UdsServer.finish_reply]
  exact hreply

/-! ## Runs -/

/-- **A reboot is not noticed.** On a region that starts blank, after every run of requests, polls, ticks and
reboots in which record writes succeed or tear without leaving a record, a read of a writable identifier
returns the value of `ParamLog_Get`, or the variant's default if there is none, and after a reboot it returns
the same. -/
theorem reads_survive_reboot (hcount : 0 < slotCount) (hmax : slotCount ≤ maxSlots)
    (hsize : slotOffset slotCount ≤ size) (hblank : storage.bytes = blankBytes)
    (hboot : boot size slotCount variant storage = some s) (ops : List EcuOp)
    (htears : AllSteps (EcuOp.step size slotCount variant) s (EcuOp.TearsUnreadable size slotCount variant) ops)
    {did : UInt16} (hdid : did = didVin ∨ did = didDtc ∨ did = didCustom) :
    let t := after (EcuOp.step size slotCount variant) s ops
    let rebooted := EcuOp.step size slotCount variant t .reboot
    rebooted.2.world.valid = true ∧
      ∃ value, (t.2.world.log.get did didVinCapacity).or (didValue (defaultDids variant) did) = some value ∧
        ∀ now capacity, 4 + didVinCapacity ≤ capacity →
          let response : Reply :=
            ⟨.response, (sidReadDataByIdentifier + 0x40) :: high16 did :: low16 did :: value⟩
          (UdsServer.respond t (readRequest did now capacity)).1 = response ∧
            (UdsServer.respond rebooted (readRequest did now capacity)).1 = response := by
  intro t rebooted
  have hstart : InStep size slotCount variant s [] := by
    have hrecords : Records slotCount storage.bytes 0 [] := by
      rw [hblank]
      exact Records.blankRegion slotCount
    exact (inStep_boot hrecords nofun hcount hmax hsize hboot).2
  obtain ⟨values, hvalues⟩ : ∃ values, InStep size slotCount variant t values :=
    after_invariant_of (I := fun t => ∃ values, InStep size slotCount variant t values) ⟨[], hstart⟩
      (fun _ _ ⟨_, hinStep⟩ hop => hinStep.step hcount hmax hsize hop) ops htears
  obtain ⟨hvalid, hrebooted⟩ := hvalues.reboot hcount hmax hsize
  have hknown := knownDid_iff.2 hdid
  obtain ⟨value, hheld, hvalue, hread⟩ := hvalues.read hknown
  obtain ⟨value', -, hvalue', hread'⟩ := hrebooted.read hknown
  obtain rfl : value = value' := Option.some.inj (hvalue.symm.trans hvalue')
  exact ⟨hvalid, value, hheld, fun now capacity hroom => ⟨hread now capacity hroom, hread' now capacity hroom⟩⟩

/-- A blank region of two slots, on which the second record write tears after five words. -/
def tornStorage : AppParamStorage where
  log := ParamLog.init
  valid := false
  bytes := blankBytes
  faults := fun n => if n = 1 then some 5 else none
  probes := fun _ => 0

def tornEcu : EcuState := (boot 160 2 .f407 tornStorage).get (by decide +kernel)

/-- Two writes of the custom identifier, of which the second is lost. -/
def tornWrites : List EcuOp :=
  (unlockProgramming ++ [request [sidWriteDataByIdentifier, 0x01, 0x00, 0xAA], .pollPending 32,
    request [sidWriteDataByIdentifier, 0x01, 0x00, 0xBB], .pollPending 32]).map .call

set_option maxRecDepth 20000 in
/-- The reboot after them compacts the log, and the read still returns the first value. -/
theorem reads_survive_reboot_tornWrites :
    let t := after (EcuOp.step 160 2 .f407) tornEcu tornWrites
    (UdsServer.respond (EcuOp.step 160 2 .f407 t .reboot) (readRequest didCustom 0 32)).1 =
      ⟨.response, [0x62, 0x01, 0x00, 0xAA]⟩ := by
  have hboot : boot 160 2 .f407 tornStorage = some tornEcu := (Option.some_get _).symm
  have htears : AllSteps (EcuOp.step 160 2 .f407) tornEcu (EcuOp.TearsUnreadable 160 2 .f407) tornWrites := by
    unfold tornWrites unlockProgramming
    simp only [List.cons_append, List.nil_append, List.map_cons, List.map_nil, allSteps_cons]
    refine ⟨?_, ?_, ?_, ?_, ?_, ?_, ?_, allSteps_nil⟩
    · exact fun _ _ _ => by decide +kernel
    · exact fun _ _ _ => by decide +kernel
    · exact fun _ _ _ => by decide +kernel
    · exact fun _ _ _ => by decide +kernel
    · exact fun _ hslot => absurd hslot (by decide +kernel)
    · exact fun _ _ _ => by decide +kernel
    · exact fun _ _ _ => by decide +kernel
  obtain ⟨-, value, hheld, hread⟩ := reads_survive_reboot (by decide) (by decide) (by decide) rfl hboot
    tornWrites htears (Or.inr (Or.inr rfl))
  have hvalue : ((after (EcuOp.step 160 2 .f407) tornEcu tornWrites).2.world.log.get didCustom
      didVinCapacity).or (didValue (defaultDids .f407) didCustom) = some [0xAA] := by decide +kernel
  obtain rfl : value = [0xAA] := Option.some.inj (hheld.symm.trans hvalue)
  exact (hread 0 32 (by decide)).2

end

end DualCan.Param
