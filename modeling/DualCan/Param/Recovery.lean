import DualCan.Param.Records
import DualCan.Run.Past

/-!
# What a reboot finds

Runs of `ParamLog_Load`, `ParamLog_Set` and `ParamLog_Clear` on a region that starts blank. Record writes may
tear after any word. Each load finds what the last accepted call committed.
-/

namespace DualCan.Param

open DualCan.Run

/-! ## Calls -/

/-- The log in RAM and the bytes of its region. -/
structure LogSystem where
  log : ParamLog
  bytes : ℕ → UInt8

inductive LogCall where
  | load
  | set (did : UInt16) (value : List UInt8)
  | clear

namespace LogCall

/-- A call of which `limit` physical operations succeed, all of them if there is no limit: what it returns and
leaves. -/
def run (size slotCount : ℕ) (call : LogCall) (limit : Option ℕ) (s : LogSystem) : Bool × LogSystem :=
  let result :=
    match call with
    | load => s.log.load (Nor.io size) slotCount ⟨s.bytes, limit⟩
    | set did value => s.log.set (Nor.io size) did value ⟨s.bytes, limit⟩
    | clear => s.log.clear (Nor.io size) ⟨s.bytes, limit⟩
  (result.1, ⟨result.2.1, result.2.2.bytes⟩)

/-- What the call makes of the store. -/
def apply (store : ParamStore) : LogCall → ParamStore
  | load => store
  | set did value => (store.update did value).getD store
  | clear => ParamStore.init

/-- The values of the record that the call writes, if it writes one. -/
def record (values : Values) : LogCall → Option Values
  | load => none
  | set did value =>
    if 0 < value.length ∧ value.length ≤ valueMax ∧ knownDid did = true then
      some (setValue did value values)
    else none
  | clear => some []

variable {size slotCount count : ℕ} {values values' : Values} {bytes : ℕ → UInt8}

theorem record_set {did : UInt16} {value : List UInt8}
    (h : (set did value).record values = some values') :
    0 < value.length ∧ value.length ≤ valueMax ∧ knownDid did = true ∧ setValue did value values = values' := by
  by_cases hvalid : 0 < value.length ∧ value.length ≤ valueMax ∧ knownDid did = true
  · have heq : some (setValue did value values) = some values' := (if_pos hvalid).symm.trans h
    exact ⟨hvalid.1, hvalid.2.1, hvalid.2.2, Option.some.inj heq⟩
  · have hnone : none = some values' := (if_neg hvalid).symm.trans h
    cases hnone

theorem record_packed {call : LogCall} (h : Packed values) (hrecord : call.record values = some values') :
    Packed values' := by
  cases call with
  | load => cases hrecord
  | clear =>
    cases hrecord
    exact packed_nil
  | set did value =>
    obtain ⟨hpositive, hshort, hknown, rfl⟩ := record_set hrecord
    exact h.setValue hknown ⟨hpositive, hshort⟩

theorem record_apply {call : LogCall} (h : Packed values) (hrecord : call.record values = some values') :
    call.apply (ParamStore.ofValues values) = ParamStore.ofValues values' := by
  cases call with
  | load => cases hrecord
  | clear =>
    cases hrecord
    rfl
  | set did value =>
    obtain ⟨hpositive, hshort, hknown, rfl⟩ := record_set hrecord
    have hupdate := update_ofValues h did value
    rw [if_pos ⟨hpositive, hshort, hknown⟩] at hupdate
    change ((ParamStore.ofValues values).update did value).getD _ = _
    rw [hupdate]
    rfl

/-- A full log refuses both calls. -/
theorem run_full (log : ParamLog) (hfull : log.nextSlot ≥ log.slotCount) {call : LogCall} (hcall : call ≠ load)
    (limit : Option ℕ) : call.run size slotCount limit ⟨log, bytes⟩ = (false, ⟨log, bytes⟩) := by
  cases call with
  | load => exact absurd rfl hcall
  | set did value =>
    unfold run ParamLog.set
    simp only [if_pos hfull]
  | clear =>
    unfold run ParamLog.clear
    simp only [if_pos hfull]

/-- A call with nothing to record leaves everything. -/
theorem run_refused (h : Packed values) {call : LogCall} (hcall : call ≠ load)
    (hrecord : call.record values = none) (limit : Option ℕ) :
    let s : LogSystem := ⟨⟨ParamStore.ofValues values, count, slotCount⟩, bytes⟩
    call.run size slotCount limit s = (false, s) := by
  intro s
  cases call with
  | load => exact absurd rfl hcall
  | clear => cases hrecord
  | set did value =>
    have hinvalid : ¬(0 < value.length ∧ value.length ≤ valueMax ∧ knownDid did = true) := by
      intro hvalid
      have hsome : (set did value).record values = some (setValue did value values) := if_pos hvalid
      rw [hrecord] at hsome
      cases hsome
    have hupdate := update_ofValues h did value
    rw [if_neg hinvalid] at hupdate
    unfold run ParamLog.set
    simp only [s, hupdate]
    split <;> rfl

/-- A call with something to record writes it after the records. -/
theorem run_record (h : Packed values) (hsize : slotOffset slotCount ≤ size) (hroom : count < slotCount)
    {call : LogCall} (hrecord : call.record values = some values') (limit : Option ℕ) :
    let s : LogSystem := ⟨⟨ParamStore.ofValues values, count, slotCount⟩, bytes⟩
    let written := (⟨bytes, limit⟩ : Nor).programWords (slotOffset count) (imageOf values')
    call.run size slotCount limit s =
      if written.1 then (true, ⟨⟨ParamStore.ofValues values', count + 1, slotCount⟩, written.2.bytes⟩)
      else (false, ⟨s.log, written.2.bytes⟩) := by
  intro s written
  have happend := append_eq hsize hroom (record_packed h hrecord) (ParamStore.ofValues values) ⟨bytes, limit⟩
  have hopen : ¬count ≥ slotCount := Nat.not_le.2 hroom
  have hresult : call.run size slotCount limit s =
      let result := ParamLog.append (Nor.io size) s.log (ParamStore.ofValues values') ⟨bytes, limit⟩
      (result.1, ⟨result.2.1, result.2.2.bytes⟩) := by
    cases call with
    | load => cases hrecord
    | clear =>
      cases hrecord
      unfold run ParamLog.clear
      simp only [s, if_neg hopen]
      rfl
    | set did value =>
      obtain ⟨hpositive, hshort, hknown, rfl⟩ := record_set hrecord
      have hupdate := update_ofValues h did value
      rw [if_pos ⟨hpositive, hshort, hknown⟩] at hupdate
      unfold run ParamLog.set
      simp only [s, if_neg hopen, hupdate]
  rw [hresult, happend]
  split <;> rfl

/-- What `ParamLog_Set` and `ParamLog_Clear` do on records: nothing, or one write after them. -/
theorem run_cases (h : Records slotCount bytes count values) (hsize : slotOffset slotCount ≤ size)
    {log : ParamLog} (hlog : log = ⟨ParamStore.ofValues values, count, slotCount⟩ ∨ log = ParamLog.init)
    {call : LogCall} (hcall : call ≠ load) (limit : Option ℕ) :
    call.run size slotCount limit ⟨log, bytes⟩ = (false, ⟨log, bytes⟩) ∨
      ∃ values', count < slotCount ∧ log = ⟨ParamStore.ofValues values, count, slotCount⟩ ∧
        call.record values = some values' ∧
        let written := (⟨bytes, limit⟩ : Nor).programWords (slotOffset count) (imageOf values')
        call.run size slotCount limit ⟨log, bytes⟩ =
          if written.1 then (true, ⟨⟨ParamStore.ofValues values', count + 1, slotCount⟩, written.2.bytes⟩)
          else (false, ⟨log, written.2.bytes⟩) := by
  rcases hlog with rfl | rfl
  case inr => exact Or.inl (run_full ParamLog.init (Nat.le_refl 0) hcall limit)
  cases hrecord : call.record values with
  | none => exact Or.inl (run_refused h.packed hcall hrecord limit)
  | some values' =>
    by_cases hroom : count < slotCount
    · exact Or.inr ⟨values', hroom, rfl, rfl, run_record h.packed hsize hroom hrecord limit⟩
    · exact Or.inl (run_full _ (Nat.not_lt.1 hroom) hcall limit)

/-- A call that fails leaves the records, unless a write that it tore reads as one; a call that succeeds has
added its record. -/
theorem run_outcome (h : Records slotCount bytes count values) (hsize : slotOffset slotCount ≤ size)
    {log : ParamLog} (hlog : log = ⟨ParamStore.ofValues values, count, slotCount⟩ ∨ log = ParamLog.init)
    {call : LogCall} (hcall : call ≠ load) (limit : Option ℕ) :
    let result := call.run size slotCount limit ⟨log, bytes⟩
    (result.1 = false → result.2.log = log ∧
        ((result.2.bytes ≠ bytes → ParamStore.decode (slotBytes result.2.bytes log.nextSlot) = none) →
          Records slotCount result.2.bytes count values)) ∧
      (result.1 = true → ∃ values', call.record values = some values' ∧
        Records slotCount result.2.bytes (count + 1) values' ∧
        result.2.log = ⟨ParamStore.ofValues values', count + 1, slotCount⟩) := by
  intro result
  have hresult : result = call.run size slotCount limit ⟨log, bytes⟩ := rfl
  rcases run_cases h hsize hlog hcall limit with hrun | ⟨values', hroom, hloaded, hrecord, hrun⟩
  · rw [hrun] at hresult
    rw [hresult]
    exact ⟨fun _ => ⟨rfl, fun _ => h⟩, fun hok => absurd hok Bool.false_ne_true⟩
  have hpacked := record_packed h.packed hrecord
  have hlength := imageOf_length hpacked
  have hother : ∀ slot, slot ≠ count → slotBytes ((⟨bytes, limit⟩ : Nor).programWords (slotOffset count)
      (imageOf values')).2.bytes slot = slotBytes bytes slot :=
    fun slot hslot => programWords_other hlength hslot
  by_cases hok : ((⟨bytes, limit⟩ : Nor).programWords (slotOffset count) (imageOf values')).1 = true
  · rw [hrun.trans (if_pos hok)] at hresult
    rw [hresult]
    exact ⟨fun hno => absurd hno.symm Bool.false_ne_true, fun _ => ⟨values', hrecord,
      h.appended hroom hother hpacked (written_slot hlength hok), rfl⟩⟩
  · rw [hrun.trans (if_neg hok)] at hresult
    rw [hresult]
    refine ⟨fun _ => ⟨rfl, fun htears => h.torn hother fun _ => ?_⟩, fun hyes => absurd hyes Bool.false_ne_true⟩
    -- a write that changed nothing leaves what was there, and any other one leaves no record
    by_cases hsame : ((⟨bytes, limit⟩ : Nor).programWords (slotOffset count) (imageOf values')).2.bytes = bytes
    · rw [hsame]
      exact h.next hroom
    · have hslot : log.nextSlot = count := congrArg ParamLog.nextSlot hloaded
      rw [hslot] at htears
      exact htears hsame

/-- `ParamLog_Load` on records: it takes them over, or erases the region and writes the latest back. -/
theorem run_load (h : Records slotCount bytes count values) (hcount : 0 < slotCount)
    (hmax : slotCount ≤ maxSlots) (hsize : slotOffset slotCount ≤ size) (log : ParamLog)
    (limit : Option ℕ) :
    let result := load.run size slotCount limit ⟨log, bytes⟩
    let erased : Nor := ⟨blankBytes, limit.map (· - 1)⟩
    (¬Compacts slotCount bytes ∧ result = (true, ⟨⟨ParamStore.ofValues values, count, slotCount⟩, bytes⟩)) ∨
      (Compacts slotCount bytes ∧
        ((limit = some 0 ∧ result = (false, ⟨ParamLog.init, bytes⟩)) ∨
        (limit ≠ some 0 ∧ count = 0 ∧
          result = (true, ⟨⟨ParamStore.ofValues values, 0, slotCount⟩, blankBytes⟩)) ∨
        ∃ last, limit ≠ some 0 ∧ count = last + 1 ∧
          let written := erased.programWords (slotOffset 0) (slotBytes bytes last)
          result = if written.1 then (true, ⟨⟨ParamStore.ofValues values, 1, slotCount⟩, written.2.bytes⟩)
            else (false, ⟨ParamLog.init, written.2.bytes⟩))) := by
  intro result erased
  have hload := h.load hcount hmax hsize log limit
  have hcompacts := h.compacts_iff
  by_cases hblank : count < slotCount ∧ imageIsErased (slotBytes bytes count) = true
  · rw [if_pos hblank] at hload
    refine Or.inl ⟨fun hyes => hcompacts.1 hyes hblank, ?_⟩
    unfold result run
    simp only [hload]
  rw [if_neg hblank] at hload
  refine Or.inr ⟨hcompacts.2 hblank, ?_⟩
  by_cases hlimit : limit = some 0
  · refine Or.inl ⟨hlimit, ?_⟩
    have herase : (Nor.io size).erase ⟨bytes, limit⟩ = (false, ⟨bytes, limit⟩) := if_pos hlimit
    unfold result run
    simp only [hload, ParamLog.compact, herase]
  cases hlast : count with
  | zero =>
    refine Or.inr (Or.inl ⟨hlimit, rfl, ?_⟩)
    have herase : (Nor.io size).erase ⟨bytes, limit⟩ = (true, erased) := if_neg hlimit
    unfold result run
    simp only [hload, hlast, ParamLog.compact, herase, latestImage]
    rfl
  | succ last =>
    refine Or.inr (Or.inr ⟨last, hlimit, rfl, ?_⟩)
    intro written
    have hcompact := compact_eq bytes hsize hcount
      ⟨ParamStore.ofValues values, count, slotCount⟩ hlimit (region_length bytes (slotOffset last) imageSize)
    change _ = if written.1 = true then _ else _ at hcompact
    rw [hlast] at hload hcompact
    have himage : latestImage bytes (last + 1) = some (region bytes (slotOffset last) imageSize) := rfl
    rw [himage, hcompact] at hload
    unfold result run
    simp only [hload]
    by_cases hok : written.1 = true
    · rw [if_pos hok, if_pos hok]
      rfl
    · rw [if_neg hok, if_neg hok]
      rfl

/-- A load whose flash operations succeed finds the store of the latest record. -/
theorem run_load_found (h : Records slotCount bytes count values) (hcount : 0 < slotCount)
    (hmax : slotCount ≤ maxSlots) (hsize : slotOffset slotCount ≤ size) (log : ParamLog) :
    ∃ bytes' count', load.run size slotCount none ⟨log, bytes⟩ =
        (true, ⟨⟨ParamStore.ofValues values, count', slotCount⟩, bytes'⟩) ∧
      Records slotCount bytes' count' values := by
  rcases run_load h hcount hmax hsize log none with
    ⟨-, hresult⟩ | ⟨-, ⟨hlimit, -⟩ | ⟨-, rfl, hresult⟩ | ⟨last, -, rfl, hresult⟩⟩
  · exact ⟨bytes, count, hresult, h⟩
  · cases hlimit
  · exact ⟨blankBytes, 0, hresult, h.erased⟩
  · have himage : (slotBytes bytes last).length = imageSize := region_length ..
    have hwritten : ((⟨blankBytes, none⟩ : Nor).programWords (slotOffset 0) (slotBytes bytes last)).1 = true :=
      programWords_blank (by rw [himage]; rfl) (blank_erased ..)
    refine ⟨_, 1, hresult.trans (if_pos hwritten), h.rewritten ?_ (written_slot himage hwritten)⟩
    intro slot hslot
    exact programWords_other himage hslot

end LogCall

/-! ## Runs -/

/-- A call of a run. Only record writes are limited. -/
inductive LogOp where
  | load
  | set (did : UInt16) (value : List UInt8) (limit : Option ℕ)
  | clear (limit : Option ℕ)

namespace LogOp

def call : LogOp → LogCall
  | load => .load
  | set did value _ => .set did value
  | clear _ => .clear

def limit : LogOp → Option ℕ
  | load => none
  | set _ _ limit => limit
  | clear limit => limit

variable (size slotCount : ℕ)

/-- What the call returns. -/
def accepted (s : LogSystem) (op : LogOp) : Bool := (op.call.run size slotCount op.limit s).1

def step (s : LogSystem) (op : LogOp) : LogSystem := (op.call.run size slotCount op.limit s).2

/-- The store that the accepted calls of `ParamLog_Set` and `ParamLog_Clear` make, beside the system. -/
def commit (t : LogSystem × ParamStore) (op : LogOp) : LogSystem × ParamStore :=
  (step size slotCount t.1 op, if accepted size slotCount t.1 op then op.call.apply t.2 else t.2)

/-- A record write that fails after it has changed the flash leaves no record. -/
def TearsUnreadable (t : LogSystem × ParamStore) (op : LogOp) : Prop :=
  op.call ≠ .load → accepted size slotCount t.1 op = false →
    (step size slotCount t.1 op).bytes ≠ t.1.bytes →
    ParamStore.decode (slotBytes (step size slotCount t.1 op).bytes t.1.log.nextSlot) = none

end LogOp

/-- The region is blank and nothing is loaded yet. -/
def freshLog : LogSystem × ParamStore := (⟨ParamLog.init, blankBytes⟩, ParamStore.init)

/-- The region holds the committed store, and so does the log once it is loaded. -/
def Recoverable (slotCount : ℕ) (t : LogSystem × ParamStore) : Prop :=
  ∃ count values, Records slotCount t.1.bytes count values ∧ t.2 = ParamStore.ofValues values ∧
    (t.1.log = ⟨ParamStore.ofValues values, count, slotCount⟩ ∨ t.1.log = ParamLog.init)

section

variable {size slotCount : ℕ} {t : LogSystem × ParamStore}

theorem recoverable_fresh (slotCount : ℕ) : Recoverable slotCount freshLog :=
  ⟨0, [], Records.blankRegion slotCount, rfl, Or.inr rfl⟩

open LogOp

/-- One call: what it commits is recoverable. -/
theorem Recoverable.commit (h : Recoverable slotCount t) (hcount : 0 < slotCount) (hmax : slotCount ≤ maxSlots)
    (hsize : slotOffset slotCount ≤ size) {op : LogOp} (htears : TearsUnreadable size slotCount t op) :
    Recoverable slotCount (commit size slotCount t op) := by
  obtain ⟨⟨log, bytes⟩, store⟩ := t
  obtain ⟨count, values, hrecords, rfl, hlog⟩ := h
  by_cases hload : op.call = .load
  · obtain rfl : op = .load := by
      cases op with
      | load => rfl
      | set => cases hload
      | clear => cases hload
    obtain ⟨bytes', count', hrun, hrecords'⟩ := LogCall.run_load_found hrecords hcount hmax hsize log
    refine ⟨count', values, ?_, ?_, Or.inl ?_⟩
    · change Records slotCount (LogCall.load.run size slotCount none ⟨log, bytes⟩).2.bytes count' values
      rw [hrun]
      exact hrecords'
    · change (if _ then _ else _) = _
      exact ite_self _
    · change (LogCall.load.run size slotCount none ⟨log, bytes⟩).2.log = _
      rw [hrun]
  have hresult := LogCall.run_outcome hrecords hsize hlog hload op.limit
  cases hok : (op.call.run size slotCount op.limit ⟨log, bytes⟩).1 with
  | false =>
    obtain ⟨hsame, hkept⟩ := hresult.1 hok
    refine ⟨count, values, hkept fun hchanged => ?_, if_neg ?_, ?_⟩
    · exact htears hload hok hchanged
    · rw [LogOp.accepted, hok]
      exact Bool.false_ne_true
    · exact hlog.imp hsame.trans hsame.trans
  | true =>
    obtain ⟨values', hrecord, hrecords', hlog'⟩ := hresult.2 hok
    exact ⟨count + 1, values', hrecords',
      (if_pos hok).trans (LogCall.record_apply hrecords.packed hrecord), Or.inl hlog'⟩

theorem recoverable_after (hcount : 0 < slotCount) (hmax : slotCount ≤ maxSlots)
    (hsize : slotOffset slotCount ≤ size) (ops : List LogOp)
    (htears : AllSteps (commit size slotCount) freshLog (TearsUnreadable size slotCount) ops) :
    Recoverable slotCount (after (commit size slotCount) freshLog ops) := by
  induction ops using List.reverseRecOn with
  | nil => exact recoverable_fresh slotCount
  | append_singleton ops op ih =>
    rw [allSteps_snoc] at htears
    rw [after_snoc]
    exact (ih htears.1).commit hcount hmax hsize htears.2

/-- A call of `ParamLog_Set` or `ParamLog_Clear` writes at most the slot after the records. -/
theorem Recoverable.slot_kept (h : Recoverable slotCount t) (hsize : slotOffset slotCount ≤ size) {op : LogOp}
    (hload : op.call ≠ .load) {slot : ℕ} (hslot : slot < slotCount)
    (hrecord : (ParamStore.decode (slotBytes t.1.bytes slot)).isSome = true) :
    slotBytes (step size slotCount t.1 op).bytes slot = slotBytes t.1.bytes slot := by
  obtain ⟨⟨log, bytes⟩, store⟩ := t
  obtain ⟨count, values, hrecords, rfl, hlog⟩ := h
  have hbefore : slot < count := by
    by_contra hnot
    rcases Nat.lt_or_eq_of_le (Nat.not_lt.1 hnot) with hafter | rfl
    · rw [erased_no_record (hrecords.blank slot hafter hslot)] at hrecord
      cases hrecord
    · rw [hrecords.next hslot] at hrecord
      cases hrecord
  unfold LogOp.step
  rcases LogCall.run_cases hrecords hsize hlog hload op.limit with
    hrun | ⟨values', -, -, hwrite, hrun⟩
  · rw [hrun]
  · have hlength := imageOf_length (LogCall.record_packed hrecords.packed hwrite)
    rw [hrun]
    dsimp only
    split
    · exact programWords_other hlength (Nat.ne_of_lt hbefore)
    · exact programWords_other hlength (Nat.ne_of_lt hbefore)

/-- An accepted call leaves the log with the store that it was asked for. -/
theorem Recoverable.accepted_store (h : Recoverable slotCount t) (hsize : slotOffset slotCount ≤ size)
    {op : LogOp} (hload : op.call ≠ .load) (hok : accepted size slotCount t.1 op = true) :
    (step size slotCount t.1 op).log.store = op.call.apply t.2 := by
  obtain ⟨⟨log, bytes⟩, store⟩ := t
  obtain ⟨count, values, hrecords, rfl, hlog⟩ := h
  unfold LogOp.accepted at hok
  unfold LogOp.step
  rcases LogCall.run_cases hrecords hsize hlog hload op.limit with
    hrun | ⟨values', -, -, hwrite, hrun⟩
  · rw [hrun] at hok
    cases hok
  · rw [hrun] at hok ⊢
    dsimp only at hok ⊢
    split at hok
    · rename_i hwritten
      rw [if_pos hwritten, LogCall.record_apply hrecords.packed hwrite]
    · cases hok

/-- **A reboot recovers what was committed.** After every run of loads, sets and clears whose record writes
succeed or tear without leaving a record, a load yields the store that the accepted calls have made, the
position of the log is within its slots, before the load and after it, and a set or clear changes no committed
record; what it is accepted for is the new store. -/
theorem load_recovers (hcount : 0 < slotCount) (hmax : slotCount ≤ maxSlots)
    (hsize : slotOffset slotCount ≤ size) (ops : List LogOp)
    (htears : AllSteps (commit size slotCount) freshLog (TearsUnreadable size slotCount) ops) :
    let t := after (commit size slotCount) freshLog ops
    let loaded := LogCall.load.run size slotCount none t.1
    loaded.1 = true ∧ loaded.2.log.store = t.2 ∧
      t.1.log.nextSlot ≤ slotCount ∧ loaded.2.log.nextSlot ≤ slotCount ∧
      ∀ op : LogOp, op.call ≠ .load →
        (∀ slot < slotCount, (ParamStore.decode (slotBytes t.1.bytes slot)).isSome = true →
          slotBytes (step size slotCount t.1 op).bytes slot = slotBytes t.1.bytes slot) ∧
        (accepted size slotCount t.1 op = true →
          (step size slotCount t.1 op).log.store = op.call.apply t.2) := by
  intro t loaded
  have hrecoverable := recoverable_after hcount hmax hsize ops htears
  obtain ⟨count, values, hrecords, hstore, hlog⟩ := id hrecoverable
  obtain ⟨bytes', count', hrun, hrecords'⟩ := LogCall.run_load_found hrecords hcount hmax hsize t.1.log
  have hloaded : loaded = (true, ⟨⟨ParamStore.ofValues values, count', slotCount⟩, bytes'⟩) := hrun
  refine ⟨?_, ?_, ?_, ?_, ?_⟩
  · rw [hloaded]
  · rw [hloaded]
    exact hstore.symm
  · rcases hlog with hlog | hlog
    · rw [hlog]
      exact hrecords.le
    · rw [hlog]
      exact Nat.zero_le _
  · rw [hloaded]
    exact hrecords'.le
  · intro op hload
    exact ⟨fun slot hslot hrecord => hrecoverable.slot_kept hsize hload hslot hrecord,
      hrecoverable.accepted_store hsize hload⟩

/-- A region of two slots: the second write tears after five words, and the load that follows compacts. -/
def tornSecond : List LogOp :=
  [.load, .set 0x0100 [0x11, 0x22] none, .set 0x0100 [0x33] (some 5), .load, .set 0xF191 [0x44] none]

set_option maxRecDepth 20000 in
theorem load_recovers_tornSecond :
    let t := after (commit 160 2) freshLog tornSecond
    (LogCall.load.run 160 2 none t.1).2.log.store = t.2 ∧ t.2.get 0x0100 17 = some [0x11, 0x22] ∧
      t.2.get 0xF191 17 = some [0x44] := by
  refine ⟨(load_recovers (by decide) (by decide) (by decide) tornSecond ?_).2.1, by decide +kernel,
    by decide +kernel⟩
  unfold tornSecond
  simp only [allSteps_cons]
  refine ⟨?_, ?_, ?_, ?_, ?_, allSteps_nil⟩
  · exact fun hload => absurd rfl hload
  · exact fun _ hrefused => absurd hrefused (by decide +kernel)
  · exact fun _ _ _ => by decide +kernel
  · exact fun hload => absurd rfl hload
  · exact fun _ hrefused => absurd hrefused (by decide +kernel)

end

end DualCan.Param
