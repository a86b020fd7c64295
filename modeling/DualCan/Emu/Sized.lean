import DualCan.Emu.VirtualEcu

/-!
# What the virtual ECU sends fits into a message

A response of `_handle` has 1 to 4095 bytes, and so has every deferred one, when the configured DID values
and routine results leave room for their headers (`Sized`). A write keeps that: its value comes from a
request, which is not longer than a message.
-/

namespace DualCan.Emu

open DualCan.Uds

namespace VirtualEcu

/-- The stored values leave room for a response's header, and the deferred responses fit. -/
structure Sized (ecu : VirtualEcu) : Prop where
  dids : ∀ did value, ecu.dids did = some value → value.length ≤ 4092
  routines : ∀ routineId routine, ecu.routines routineId = some routine → routine.result.length ≤ 4091
  deferred : ∀ entry ∈ ecu.deferred, 1 ≤ entry.2.length ∧ entry.2.length ≤ 4095

/-- An answer of 1 to 4095 bytes, or none. -/
structure Fits (outcome : Option (List UInt8) × VirtualEcu) : Prop where
  sized : outcome.2.Sized
  length : ∀ response, outcome.1 = some response → 1 ≤ response.length ∧ response.length ≤ 4095

variable {ecu ecu' : VirtualEcu} {now : ℕ}

theorem Sized.congr (h : ecu.Sized) (hdids : ecu'.dids = ecu.dids) (hroutines : ecu'.routines = ecu.routines)
    (hdeferred : ecu'.deferred = ecu.deferred) : ecu'.Sized :=
  ⟨by rw [hdids]; exact h.dids, by rw [hroutines]; exact h.routines, by rw [hdeferred]; exact h.deferred⟩

/-- A stored value is replaced by one that leaves room. -/
theorem Sized.store (h : ecu.Sized) (did : UInt16) (value : List UInt8) (hvalue : value.length ≤ 4092)
    (hdids : ecu'.dids = Function.update ecu.dids did (some value)) (hroutines : ecu'.routines = ecu.routines)
    (hdeferred : ecu'.deferred = ecu.deferred) : ecu'.Sized := by
  refine ⟨fun other stored hstored => ?_, by rw [hroutines]; exact h.routines,
    by rw [hdeferred]; exact h.deferred⟩
  rw [hdids] at hstored
  by_cases hother : other = did
  · rw [hother, Function.update_self] at hstored
    rw [← Option.some.inj hstored]
    exact hvalue
  · rw [Function.update_of_ne hother] at hstored
    exact h.dids other stored hstored

/-- A routine changes its state, not its result. -/
theorem Sized.routine (h : ecu.Sized) (routineId : UInt16) (routine : VirtualRoutine)
    (hroutine : routine.result.length ≤ 4091) (hdids : ecu'.dids = ecu.dids)
    (hroutines : ecu'.routines = Function.update ecu.routines routineId (some routine))
    (hdeferred : ecu'.deferred = ecu.deferred) : ecu'.Sized := by
  refine ⟨by rw [hdids]; exact h.dids, fun other stored hstored => ?_, by rw [hdeferred]; exact h.deferred⟩
  rw [hroutines] at hstored
  by_cases hother : other = routineId
  · rw [hother, Function.update_self] at hstored
    rw [← Option.some.inj hstored]
    exact hroutine
  · rw [Function.update_of_ne hother] at hstored
    exact h.routines other stored hstored

theorem Fits.negative (h : ecu.Sized) (service nrc : UInt8) : Fits (VirtualEcu.negative service nrc, ecu) := by
  refine ⟨h, ?_⟩
  rintro response ⟨⟩
  exact ⟨Nat.succ_pos _, by simp⟩

theorem Fits.silent (h : ecu.Sized) : Fits (none, ecu) := ⟨h, nofun⟩

theorem Fits.bytes {response : List UInt8} (h : ecu.Sized) (h1 : 1 ≤ response.length)
    (hmax : response.length ≤ 4095) : Fits (some response, ecu) := by
  refine ⟨h, ?_⟩
  rintro response' ⟨⟩
  exact ⟨h1, hmax⟩

theorem Fits.unless {response : List UInt8} (h : ecu.Sized) (suppress : Bool) (h1 : 1 ≤ response.length)
    (hmax : response.length ≤ 4095) : Fits (if suppress then none else some response, ecu) := by
  cases suppress with
  | true => exact .silent h
  | false => exact .bytes h h1 hmax

theorem sized_keepSessionAlive (h : ecu.Sized) (now : ℕ) : (ecu.keepSessionAlive now).Sized := by
  unfold keepSessionAlive
  split
  · exact h.congr rfl rfl rfl
  · exact h

theorem sized_expireSession (h : ecu.Sized) (now : ℕ) : (ecu.expireSession now).Sized := by
  unfold expireSession
  split
  · exact h
  · split
    · exact h.congr rfl rfl rfl
    · exact h

theorem sessionControl_fits (h : ecu.Sized) (args : List UInt8) (now : ℕ) :
    Fits (ecu.sessionControl args now) := by
  unfold sessionControl
  split
  · exact .negative h _ _
  · dsimp only
    split
    · exact .negative h _ _
    · next subfunction rest hsupported =>
      have hentered : ∀ deadline, Sized
          { (if subfunction &&& 0x7F ≠ ecu.session then ecu.lockSecurity else ecu) with
            session := subfunction &&& 0x7F, s3Deadline := deadline } := by
        intro deadline
        split
        · exact h.congr rfl rfl rfl
        · exact h.congr rfl rfl rfl
      split
      · exact .silent (hentered _)
      · exact .bytes (hentered _) (Nat.succ_pos _) (by simp)

theorem testerPresent_fits (h : ecu.Sized) (args : List UInt8) (now : ℕ) :
    Fits (ecu.testerPresent args now) := by
  unfold testerPresent
  split
  · exact .negative h _ _
  · split
    · exact .negative h _ _
    · dsimp only
      split
      · exact .silent (sized_keepSessionAlive h now)
      · exact .bytes (sized_keepSessionAlive h now) (Nat.succ_pos _) (by simp)

theorem compareKey_fits (h : ecu.Sized) (seed : ℕ) (data : List UInt8) (suppress : Bool) (now : ℕ) :
    Fits (ecu.compareKey seed data suppress now) := by
  unfold compareKey
  dsimp only
  split
  · split
    · refine .negative ?_ _ _
      exact h.congr rfl rfl rfl
    · refine .negative ?_ _ _
      exact h.congr rfl rfl rfl
  · refine .unless ?_ suppress (Nat.succ_pos _) (by simp)
    exact h.congr rfl rfl rfl

theorem securityAccess_fits (h : ecu.Sized) (args : List UInt8) (now : ℕ) :
    Fits (ecu.securityAccess args now) := by
  unfold securityAccess
  split
  · exact .negative h _ _
  · dsimp only
    split
    · exact .negative h _ _
    · split
      · exact .negative h _ _
      · split
        · exact .negative h _ _
        · split
          · split
            · exact .unless h _ (Nat.succ_pos _) (by simp)
            · refine .unless ?_ _ (Nat.succ_pos _) (by simp [toBytes4])
              exact h.congr rfl rfl rfl
          · split
            · exact .negative h _ _
            · split
              · exact .negative h _ _
              · exact compareKey_fits h _ _ _ now

theorem readDid_fits (h : ecu.Sized) (args : List UInt8) : Fits (ecu.readDid args, ecu) := by
  unfold readDid
  split
  · next high low rest =>
    split
    · exact .negative h _ _
    · next stored hstored =>
      have hlength := h.dids _ _ hstored
      refine .bytes h (by simp) ?_
      split
      · simp [healthPayload]
      · simp only [List.length_cons]
        omega
  · exact .negative h _ _

theorem applyFault_sized (h : ecu.Sized) (value : List UInt8) (now : ℕ) : (ecu.applyFault value now).Sized := by
  unfold applyFault
  split
  · exact h
  · split
    · exact h.congr rfl rfl rfl
    · split
      · next mode rest hmode hdtc =>
        refine h.store didDtc (rest.take 4) ?_ rfl rfl rfl
        rw [List.length_take]
        omega
      · split
        · exact h.congr rfl rfl rfl
        · split
          · exact h.congr rfl rfl rfl
          · split
            · exact h.congr rfl rfl rfl
            · exact h

theorem writeDid_fits (h : ecu.Sized) (args : List UInt8) (now : ℕ) (hargs : args.length ≤ 4094) :
    Fits (ecu.writeDid args now) := by
  unfold writeDid
  split
  · next high low value =>
    dsimp only
    split
    · exact .negative h _ _
    · split
      · exact .negative h _ _
      · split
        · exact .negative h _ _
        · split
          · exact .negative h _ _
          · split
            · exact .negative h _ _
            · have hvalue : value.length ≤ 4092 := by
                simp only [List.length_cons] at hargs
                omega
              refine .bytes ?_ (Nat.succ_pos _) (by simp)
              split
              · exact (applyFault_sized h value now).store _ value hvalue rfl rfl rfl
              · exact h.store _ value hvalue rfl rfl rfl
  · exact .negative h _ _

/-- A poll gives at most the routine's result, and keeps it. -/
theorem requestResults_sized {routine : VirtualRoutine} (h : routine.result.length ≤ 4091) :
    routine.requestResults.1.2.length ≤ 4091 ∧ routine.requestResults.2.result = routine.result := by
  unfold VirtualRoutine.requestResults
  split
  · exact ⟨h, rfl⟩
  · exact ⟨Nat.zero_le _, rfl⟩
  · dsimp only
    split
    · exact ⟨h, rfl⟩
    · exact ⟨Nat.zero_le _, rfl⟩

theorem routineControl_fits (h : ecu.Sized) (args : List UInt8) (now : ℕ) :
    Fits (ecu.routineControl args now) := by
  unfold routineControl
  split
  · next sub high low rest =>
    dsimp only
    split
    · exact .negative h _ _
    · next routine hroutine =>
      have hresult := h.routines _ _ hroutine
      have hanswer : ∀ {stored : VirtualEcu}, stored.Sized → ∀ (suppress : Bool) (code : UInt8)
          (payload : List UInt8), payload.length ≤ 4091 →
          Fits (if suppress then none else some ([0x71, code, high, low] ++ payload), stored) := by
        intro stored hstored suppress code payload hpayload
        refine .unless hstored suppress (Nat.succ_pos _) ?_
        rw [List.length_append]
        simp only [List.length_cons, List.length_nil]
        omega
      have hstore : ∀ routine' : VirtualRoutine, routine'.result.length ≤ 4091 → Sized
          { ecu with routines := Function.update ecu.routines (word16 high low) (some routine') } :=
        fun routine' hroutine' => h.routine _ routine' hroutine' rfl rfl rfl
      split
      · exact .negative h _ _
      · split
        · exact .negative h _ _
        · split
          · exact .negative h _ _
          · split
            · split
              · exact .negative h _ _
              · exact hanswer (hstore routine.start.2 hresult) _ _ _ (Nat.zero_le _)
            · split
              · split
                · exact .negative h _ _
                · exact hanswer (hstore routine.stop.2 hresult) _ _ _ (by simp [VirtualRoutine.stop])
              · split
                · exact .negative h _ _
                · obtain ⟨hpayload, hkept⟩ := requestResults_sized hresult
                  split
                  · refine .negative ?_ _ _
                    have hcomplete := hstore { routine.requestResults.2 with state := .complete }
                      (by dsimp only; rwa [hkept])
                    refine ⟨h.dids, hcomplete.routines, fun entry hentry => ?_⟩
                    rcases List.mem_append.1 hentry with hold | hnew
                    · exact h.deferred entry hold
                    · obtain rfl := List.mem_singleton.1 hnew
                      refine ⟨Nat.succ_pos _, ?_⟩
                      rw [List.length_append, hkept]
                      simp only [List.length_cons, List.length_nil]
                      omega
                  · exact hanswer (hstore _ (by rw [hkept]; exact hresult)) _ _ _ hpayload
  · exact .negative h _ _

theorem finish_fits {outcome : Option (List UInt8) × VirtualEcu} (h : Fits outcome) (now : ℕ) :
    Fits (finish now outcome) := by
  unfold finish
  split
  · exact ⟨sized_keepSessionAlive h.sized now, h.length⟩
  · exact h

theorem serve_fits (h : ecu.Sized) (service : UInt8) (args : List UInt8) (now : ℕ) (hargs : args.length ≤ 4094) :
    Fits (ecu.serve service args now) := by
  refine finish_fits ?_ now
  split
  · exact testerPresent_fits h args now
  · split
    · exact readDid_fits h args
    · split
      · exact securityAccess_fits h args now
      · split
        · exact writeDid_fits h args now hargs
        · split
          · exact routineControl_fits h args now
          · exact .negative h _ _

/-- **Every answer to a request that fits into a message does so too.** -/
theorem handle_fits (h : ecu.Sized) (request : List UInt8) (now : ℕ) (hrequest : request.length ≤ 4095) :
    Fits (ecu.handle request now) := by
  have hexpired := sized_expireSession h now
  unfold handle
  generalize ecu.expireSession now = ecu' at hexpired
  dsimp only
  split
  · exact .silent hexpired
  · have hrecovered : Sized (if ecu'.fault.busOffUntil ≠ 0 then
        { ecu' with
          fault := { ecu'.fault with busOffUntil := 0 }
          health := ecu'.health.markRecovered }
      else ecu') := by
      split
      · exact hexpired.congr rfl rfl rfl
      · exact hexpired
    split
    · exact .negative hrecovered _ _
    · next service args =>
      have hargs : args.length ≤ 4094 := by
        simp only [List.length_cons] at hrequest
        omega
      split
      · exact .negative hrecovered _ _
      · split
        · exact sessionControl_fits hrecovered args now
        · exact serve_fits hrecovered service args now hargs

/-- The default values leave room, if the name does. -/
theorem defaultDids_length {name : String} (hname : (ascii name).length ≤ 4092) {did : UInt16}
    {value : List UInt8} (h : defaultDids name did = some value) : value.length ≤ 4092 := by
  have hvin : ((vinByEcu name).getD defaultVin).length ≤ 4092 := by
    unfold vinByEcu
    split
    · decide
    · split <;> decide
  have hhardware : ((hardwareVersionByEcu name).getD defaultHardwareVersion).length ≤ 4092 := by
    unfold hardwareVersionByEcu
    split
    · decide
    · split <;> decide
  unfold defaultDids at h
  split at h
  · rwa [← Option.some.inj h]
  · split at h
    · rwa [← Option.some.inj h]
    · split at h
      · rw [← Option.some.inj h]
        decide
      · split at h
        · rw [← Option.some.inj h]
          decide
        · split at h
          · rw [← Option.some.inj h]
            decide
          · split at h
            · rwa [← Option.some.inj h]
            · split at h
              · rw [← Option.some.inj h]
                decide
              · cases h

theorem defaultRoutines_length {routineId : UInt16} {routine : VirtualRoutine}
    (h : defaultRoutines routineId = some routine) : routine.result.length ≤ 4091 := by
  unfold defaultRoutines at h
  split at h
  · rw [← Option.some.inj h]
    decide
  · split at h
    · rw [← Option.some.inj h]
      decide
    · split at h
      · rw [← Option.some.inj h]
        decide
      · cases h

/-- The default configuration leaves room. -/
theorem init_sized (name : String) (hname : (ascii name).length ≤ 4092) : (init name).Sized := by
  refine ⟨fun did value hvalue => ?_, fun routineId routine hroutine => defaultRoutines_length hroutine, nofun⟩
  unfold init at hvalue
  dsimp only at hvalue
  split at hvalue
  · obtain rfl := Option.some.inj hvalue
    cases hdefault : defaultDids name did with
    | none => decide
    | some stored => exact defaultDids_length hname hdefault
  · exact defaultDids_length hname hvalue

end VirtualEcu

end DualCan.Emu
