import DualCan.Param.Recovery

/-!
# Power cuts

A call is interrupted after any of its erases and word programs, and the next load finds what is in the region
then. An append never harms the records before it; the compaction at start-up erases them first.
-/

namespace DualCan.Param

open DualCan.Run LogOp

section

variable (size slotCount : ℕ) (t : LogSystem × ParamStore) (call : LogCall) (cut : ℕ)

/-- The bytes of the region when the power fails after `cut` physical operations of the call. -/
def bytesAtCut : ℕ → UInt8 := (call.run size slotCount (some cut) t.1).2.bytes

/-- The call is over before the power fails, as far as its return value can tell. -/
def completed : Bool := (call.run size slotCount (some cut) t.1).1

/-- A record that is partially programmed does not decode. A load programs slot 0 once it has erased the region,
the others program the slot after the records. -/
def PartialUnreadable : Prop :=
  completed size slotCount t call cut = false →
    match call with
    | .load => 0 < cut → ParamStore.decode (slotBytes (bytesAtCut size slotCount t call cut) 0) = none
    | .set _ _ | .clear => bytesAtCut size slotCount t call cut ≠ t.1.bytes →
      ParamStore.decode (slotBytes (bytesAtCut size slotCount t call cut) t.1.log.nextSlot) = none

/-- The load after the reboot succeeds, with the store from before the call or the one it was to commit. -/
def Restores : Prop :=
  let loaded := LogCall.load.run size slotCount none ⟨ParamLog.init, bytesAtCut size slotCount t call cut⟩
  loaded.1 = true ∧ (loaded.2.log.store = t.2 ∨ loaded.2.log.store = call.apply t.2)

/-- The power fails inside a compaction: the region is erased and the record of a store that has values not
yet complete. -/
def CutInCompaction : Prop :=
  call = .load ∧ Compacts slotCount t.1.bytes ∧ t.2 ≠ ParamStore.init ∧ 0 < cut ∧ cut ≤ imageSize / 4

end

variable {size slotCount count : ℕ} {t : LogSystem × ParamStore} {call : LogCall} {cut : ℕ} {values : Values}

theorem restores_of_records (hcount : 0 < slotCount) (hmax : slotCount ≤ maxSlots)
    (hsize : slotOffset slotCount ≤ size)
    (h : Records slotCount (bytesAtCut size slotCount t call cut) count values)
    (hstore : ParamStore.ofValues values = t.2 ∨ ParamStore.ofValues values = call.apply t.2) :
    Restores size slotCount t call cut := by
  obtain ⟨bytes', count', hrun, -⟩ := LogCall.run_load_found h hcount hmax hsize ParamLog.init
  unfold Restores
  rw [hrun]
  exact ⟨rfl, hstore⟩

/-- What an append leaves at any time restores the store before it or the one it adds. -/
theorem restores_of_append (hcount : 0 < slotCount) (hmax : slotCount ≤ maxSlots)
    (hsize : slotOffset slotCount ≤ size) (h : Recoverable slotCount t) (hload : call ≠ .load)
    (hprefixes : PartialUnreadable size slotCount t call cut) : Restores size slotCount t call cut := by
  obtain ⟨⟨log, bytes⟩, store⟩ := t
  obtain ⟨count, values, hrecords, rfl, hlog⟩ := h
  rcases LogCall.run_cases hrecords hsize hlog hload (some cut) with
    hrun | ⟨values', hroom, hloaded, hrecord, hrun⟩
  · have hsame : bytesAtCut size slotCount (⟨log, bytes⟩, ParamStore.ofValues values) call cut = bytes := by
      unfold bytesAtCut
      rw [hrun]
    exact restores_of_records hcount hmax hsize (hsame ▸ hrecords) (Or.inl rfl)
  have hpacked := LogCall.record_packed hrecords.packed hrecord
  have hlength := imageOf_length hpacked
  have hbytes : bytesAtCut size slotCount (⟨log, bytes⟩, ParamStore.ofValues values) call cut =
      ((⟨bytes, some cut⟩ : Nor).programWords (slotOffset count) (imageOf values')).2.bytes := by
    unfold bytesAtCut
    rw [hrun]
    dsimp only
    split <;> rfl
  have hother : ∀ slot, slot ≠ count → slotBytes (bytesAtCut size slotCount
      (⟨log, bytes⟩, ParamStore.ofValues values) call cut) slot = slotBytes bytes slot := by
    intro slot hslot
    rw [hbytes]
    exact programWords_other hlength hslot
  by_cases hok : ((⟨bytes, some cut⟩ : Nor).programWords (slotOffset count) (imageOf values')).1 = true
  · refine restores_of_records hcount hmax hsize (hrecords.appended hroom hother hpacked ?_)
      (Or.inr (LogCall.record_apply hrecords.packed hrecord).symm)
    rw [hbytes]
    exact written_slot hlength hok
  · refine restores_of_records hcount hmax hsize (hrecords.torn hother fun _ => ?_) (Or.inl rfl)
    by_cases hsame : bytesAtCut size slotCount (⟨log, bytes⟩, ParamStore.ofValues values) call cut = bytes
    · rw [hsame]
      exact hrecords.next hroom
    · have hslot : log.nextSlot = count := congrArg ParamLog.nextSlot hloaded
      have hfailed : completed size slotCount (⟨log, bytes⟩, ParamStore.ofValues values) call cut = false := by
        unfold completed
        rw [hrun]
        exact congrArg Prod.fst (if_neg hok)
      have hnone := hprefixes hfailed
      cases call with
      | load => exact absurd rfl hload
      | set did value => exact hslot ▸ hnone hsame
      | clear => exact hslot ▸ hnone hsame

/-- A load restores the store unless the power fails inside a compaction, and then it does not. -/
theorem restores_of_load (hcount : 0 < slotCount) (hmax : slotCount ≤ maxSlots)
    (hsize : slotOffset slotCount ≤ size) (h : Recoverable slotCount t)
    (hprefixes : PartialUnreadable size slotCount t .load cut) :
    Restores size slotCount t .load cut ↔ ¬CutInCompaction slotCount t .load cut := by
  obtain ⟨⟨log, bytes⟩, store⟩ := t
  obtain ⟨count, values, hrecords, rfl, -⟩ := h
  let t : LogSystem × ParamStore := (⟨log, bytes⟩, ParamStore.ofValues values)
  have hboth : ∀ count', Records slotCount (bytesAtCut size slotCount t .load cut) count' values →
      ¬CutInCompaction slotCount t .load cut →
      (Restores size slotCount t .load cut ↔ ¬CutInCompaction slotCount t .load cut) :=
    fun count' hrecords' hno => iff_of_true (restores_of_records hcount hmax hsize hrecords' (Or.inl rfl)) hno
  rcases LogCall.run_load hrecords hcount hmax hsize log (some cut) with
    ⟨hplace, hrun⟩ | ⟨hcompacts, ⟨hzero, hrun⟩ | ⟨hpositive, rfl, hrun⟩ | ⟨last, hpositive, rfl, hrun⟩⟩
  · have hsame : bytesAtCut size slotCount t .load cut = bytes := congrArg (fun r => r.2.bytes) hrun
    exact hboth count (hsame ▸ hrecords) fun hcut => hplace hcut.2.1
  · have hsame : bytesAtCut size slotCount t .load cut = bytes := congrArg (fun r => r.2.bytes) hrun
    have hcut : cut = 0 := Option.some.inj hzero
    exact hboth count (hsame ▸ hrecords) fun h => Nat.ne_of_gt h.2.2.2.1 hcut
  · have hblank : bytesAtCut size slotCount t .load cut = blankBytes := congrArg (fun r => r.2.bytes) hrun
    exact hboth 0 (hblank ▸ hrecords.erased) fun h => h.2.2.1 (Option.some.inj hrecords.latest).symm
  -- the region is erased; what of the latest record is back depends on the cut
  have himage : (slotBytes bytes last).length = imageSize := region_length ..
  have hcut : 0 < cut := Nat.pos_of_ne_zero fun hzero => hpositive (congrArg some hzero)
  have hok : ((⟨blankBytes, some (cut - 1)⟩ : Nor).programWords (slotOffset 0) (slotBytes bytes last)).1 =
      decide (imageSize / 4 ≤ cut - 1) :=
    (programWords_blank (by rw [himage]; rfl) (blank_erased ..)).trans (by rw [himage]; rfl)
  have hother : ∀ slot, slot ≠ 0 → slotBytes ((⟨blankBytes, some (cut - 1)⟩ : Nor).programWords (slotOffset 0)
      (slotBytes bytes last)).2.bytes slot = slotBytes blankBytes slot :=
    fun slot hslot => programWords_other himage hslot
  have hbytes : bytesAtCut size slotCount t .load cut =
      ((⟨blankBytes, some (cut - 1)⟩ : Nor).programWords (slotOffset 0) (slotBytes bytes last)).2.bytes := by
    refine (congrArg (fun r => r.2.bytes) hrun).trans ?_
    dsimp only
    split <;> rfl
  by_cases hdone : imageSize / 4 ≤ cut - 1
  · rw [decide_eq_true hdone] at hok
    refine hboth 1 ?_ fun h => by have := h.2.2.2.2; omega
    rw [hbytes]
    exact hrecords.rewritten hother (written_slot himage hok)
  · rw [decide_eq_false hdone] at hok
    have hfailed : completed size slotCount t .load cut = false := by
      refine (congrArg Prod.fst hrun).trans ?_
      dsimp only
      exact congrArg Prod.fst (if_neg fun htrue => Bool.false_ne_true (hok.symm.trans htrue))
    have hnone := hprefixes hfailed hcut
    rw [← hbytes] at hother
    have hlost : Records slotCount (bytesAtCut size slotCount t .load cut) 0 [] :=
      (Records.blankRegion slotCount).torn hother fun _ => hnone
    constructor
    · rintro ⟨-, hstore⟩ ⟨-, -, hne, -⟩
      obtain ⟨bytes', count', hload, -⟩ := LogCall.run_load_found hlost hcount hmax hsize ParamLog.init
      rw [hload] at hstore
      exact hne (hstore.elim Eq.symm Eq.symm)
    · intro hno
      by_cases hinit : ParamStore.ofValues values = ParamStore.init
      · exact restores_of_records hcount hmax hsize hlost (Or.inl hinit.symm)
      · exact absurd ⟨rfl, hcompacts, hinit, hcut, by omega⟩ hno

/-- **What a power cut leaves.** From every state that a run reaches, and for every call and every point of it at
which the power fails without a readable partial record, the next load restores the store from before the call
or the one it was to commit, unless the call is a load whose compaction has erased the region and not yet written
back the record of a store with values: then it never does. -/
theorem restores_iff (hcount : 0 < slotCount) (hmax : slotCount ≤ maxSlots)
    (hsize : slotOffset slotCount ≤ size) (ops : List LogOp)
    (htears : AllSteps (commit size slotCount) freshLog (TearsUnreadable size slotCount) ops)
    (call : LogCall) (cut : ℕ)
    (hprefixes : PartialUnreadable size slotCount (after (commit size slotCount) freshLog ops) call cut) :
    Restores size slotCount (after (commit size slotCount) freshLog ops) call cut ↔
      ¬CutInCompaction slotCount (after (commit size slotCount) freshLog ops) call cut := by
  have hrecoverable := recoverable_after hcount hmax hsize ops htears
  cases call with
  | load => exact restores_of_load hcount hmax hsize hrecoverable hprefixes
  | set did value =>
    exact iff_of_true (restores_of_append hcount hmax hsize hrecoverable nofun hprefixes) nofun
  | clear => exact iff_of_true (restores_of_append hcount hmax hsize hrecoverable nofun hprefixes) nofun

/-- One value is stored, which fills a region of one slot. -/
def fullLog : List LogOp := [.load, .set 0x0100 [0x11, 0x22] none]

set_option maxRecDepth 20000 in
theorem allSteps_fullLog : AllSteps (commit 80 1) freshLog (TearsUnreadable 80 1) fullLog := by
  unfold fullLog
  rw [allSteps_cons, allSteps_cons]
  refine ⟨fun hload => absurd rfl hload, ?_, allSteps_nil⟩
  exact fun _ hrefused => absurd hrefused (by decide +kernel)

set_option maxRecDepth 20000 in
/-- The power fails after the first word of a second record. -/
theorem restores_iff_secondRecord :
    Restores 160 2 (after (commit 160 2) freshLog fullLog) (.set 0x0100 [0x33]) 1 := by
  have hsteps : AllSteps (commit 160 2) freshLog (TearsUnreadable 160 2) fullLog := by
    unfold fullLog
    rw [allSteps_cons, allSteps_cons]
    refine ⟨fun hload => absurd rfl hload, ?_, allSteps_nil⟩
    exact fun _ hrefused => absurd hrefused (by decide +kernel)
  refine (restores_iff (by decide) (by decide) (Nat.le_refl 160) fullLog hsteps _ _ ?_).2 nofun
  exact fun _ _ => by decide +kernel

/-- Crash safety of a region of `slotCount` slots, for every call and every cut. -/
def CrashSafe (size slotCount : ℕ) : Prop :=
  ∀ ops, AllSteps (commit size slotCount) freshLog (TearsUnreadable size slotCount) ops → ∀ call cut,
    PartialUnreadable size slotCount (after (commit size slotCount) freshLog ops) call cut →
      Restores size slotCount (after (commit size slotCount) freshLog ops) call cut

set_option maxRecDepth 20000 in
/-- The power fails right after the erase of a compaction. -/
theorem not_crashSafe_fullLog : ¬CrashSafe 80 1 := by
  intro h
  have hrestores := h fullLog allSteps_fullLog .load 1 fun _ _ => by decide +kernel
  have hvalue : (LogCall.load.run 80 1 none ⟨ParamLog.init, bytesAtCut 80 1
      (after (commit 80 1) freshLog fullLog) .load 1⟩).2.log.store.get 0x0100 17 = some [0x11, 0x22] := by
    rcases hrestores.2 with hstore | hstore
    · rw [hstore]
      decide +kernel
    · rw [hstore]
      decide +kernel
  exact absurd hvalue (by decide +kernel)

end DualCan.Param
