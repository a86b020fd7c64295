import Mathlib.Logic.Function.Basic

/-!
# The CAN health monitor

`can_health.c`, and the error interrupt of `can_driver.c` that feeds it. The controller is seen through its
error status register; the interrupt gets the error code that the HAL has accumulated.
-/

namespace DualCan.Can

/-! ## Data -/

inductive CanHealthErrorKind where
  | bit
  | stuff
  | ack
  | crc
  | form
  | other
  deriving DecidableEq, Repr

inductive CanHealthState where
  | errorActive
  | errorPassive
  | busOff
  deriving DecidableEq, Repr

/-- `CanHealthConfig_t`. -/
structure CanHealthConfig where
  passiveThreshold : UInt16
  busOffThreshold : UInt16
  maxRecoveryFailures : UInt8
  deriving DecidableEq, Repr

/-- `CanHealth_t`; `recCounter` is its field `rec`. -/
structure CanHealth where
  config : CanHealthConfig
  state : CanHealthState
  tec : UInt16
  recCounter : UInt16
  errorCounts : CanHealthErrorKind → UInt32
  busOffEvents : UInt32
  recoveryAttempts : UInt32
  recoverySuccesses : UInt32
  recoveryFailures : UInt32
  consecutiveRecoveryFailures : UInt8
  resetRequests : UInt32

/-- `CanHealthSnapshot_t`; `recCounter` is its field `rec`. -/
structure CanHealthSnapshot where
  state : CanHealthState
  tec : UInt16
  recCounter : UInt16
  errorCounts : CanHealthErrorKind → UInt32
  busOffEvents : UInt32
  recoveryAttempts : UInt32
  recoverySuccesses : UInt32
  recoveryFailures : UInt32
  consecutiveRecoveryFailures : UInt8
  resetRequests : UInt32

def errorCounterStep : UInt16 := 8

def flagStuff : UInt32 := 0x00000008
def flagForm : UInt32 := 0x00000010
def flagAck : UInt32 := 0x00000020
def flagBitRecessive : UInt32 := 0x00000040
def flagBitDominant : UInt32 := 0x00000080
def flagCrc : UInt32 := 0x00000100

/-- `CanHealth_SaturatingAdd`. -/
def saturatingAdd (value delta : UInt16) : UInt16 :=
  if value.toUInt32 + delta.toUInt32 > 0xFFFF then 0xFFFF else value + delta

/-- `CanHealth_ConfigIsValid`. -/
def CanHealthConfig.isValid (config : CanHealthConfig) : Bool :=
  config.passiveThreshold > 0 && config.busOffThreshold > config.passiveThreshold &&
    config.maxRecoveryFailures > 0

/-- `CanHealth_DefaultConfig`. -/
def defaultConfig : CanHealthConfig where
  passiveThreshold := 128
  busOffThreshold := 256
  maxRecoveryFailures := 3

/-- `CanHealth_KindFromErrorFlags`. -/
def kindFromErrorFlags (flags : UInt32) : CanHealthErrorKind :=
  if flags &&& (flagBitRecessive ||| flagBitDominant) ≠ 0 then .bit
  else if flags &&& flagStuff ≠ 0 then .stuff
  else if flags &&& flagAck ≠ 0 then .ack
  else if flags &&& flagCrc ≠ 0 then .crc
  else if flags &&& flagForm ≠ 0 then .form
  else .other

namespace CanHealth

/-- `CanHealth_Init`; no configuration, or an invalid one, gives the default. -/
def init (config : Option CanHealthConfig) : CanHealth where
  config := (config.filter CanHealthConfig.isValid).getD defaultConfig
  state := .errorActive
  tec := 0
  recCounter := 0
  errorCounts := fun _ => 0
  busOffEvents := 0
  recoveryAttempts := 0
  recoverySuccesses := 0
  recoveryFailures := 0
  consecutiveRecoveryFailures := 0
  resetRequests := 0

/-- `CanHealth_EnterBusOff`. -/
def enterBusOff (health : CanHealth) : CanHealth :=
  let health :=
    if health.state ≠ .busOff then { health with busOffEvents := health.busOffEvents + 1 } else health
  let health := { health with state := .busOff }
  if health.tec < health.config.busOffThreshold then { health with tec := health.config.busOffThreshold }
  else health

/-- `CanHealth_UpdateErrorState`. -/
def updateErrorState (health : CanHealth) : CanHealth :=
  if health.state = .busOff then health
  else if health.tec ≥ health.config.busOffThreshold then health.enterBusOff
  else
    let worst := if health.tec > health.recCounter then health.tec else health.recCounter
    { health with state := if worst ≥ health.config.passiveThreshold then .errorPassive else .errorActive }

/-- `CanHealth_RecordError`. -/
def recordError (health : CanHealth) (kind : CanHealthErrorKind) (transmit : Bool) : CanHealth :=
  let health := { health with
    errorCounts := Function.update health.errorCounts kind (health.errorCounts kind + 1) }
  let health :=
    if transmit then { health with tec := saturatingAdd health.tec errorCounterStep }
    else { health with recCounter := saturatingAdd health.recCounter errorCounterStep }
  health.updateErrorState

/-- `CanHealth_RecordSuccess`. -/
def recordSuccess (health : CanHealth) (transmit : Bool) : CanHealth :=
  if health.state = .busOff then health
  else
    let health :=
      if transmit && health.tec > 0 then { health with tec := health.tec - 1 }
      else if !transmit && health.recCounter > 0 then { health with recCounter := health.recCounter - 1 }
      else health
    health.updateErrorState

/-- `CanHealth_SyncHardwareCounters`. -/
def syncHardwareCounters (health : CanHealth) (tec rec : UInt16) (busOffActive : Bool) : CanHealth :=
  let health := { health with tec := tec, recCounter := rec }
  if busOffActive then health.enterBusOff else health.updateErrorState

/-- `CanHealth_MarkRecovered`. -/
def markRecovered (health : CanHealth) : CanHealth :=
  { health with
    state := .errorActive
    tec := 0
    recCounter := 0
    recoverySuccesses := health.recoverySuccesses + 1
    consecutiveRecoveryFailures := 0 }

/-- The end of `CanHealth_AttemptRecovery`, where the attempt has failed. -/
def countFailure (health : CanHealth) : CanHealth :=
  let health := { health with recoveryFailures := health.recoveryFailures + 1 }
  let health :=
    if health.consecutiveRecoveryFailures < 0xFF then
      { health with consecutiveRecoveryFailures := health.consecutiveRecoveryFailures + 1 }
    else health
  if health.consecutiveRecoveryFailures ≥ health.config.maxRecoveryFailures then
    { health with resetRequests := health.resetRequests + 1 }
  else health

/-- `CanHealth_AttemptRecovery`. -/
def attemptRecovery (health : CanHealth) (recovered : Bool) : Bool × CanHealth :=
  let health := { health with recoveryAttempts := health.recoveryAttempts + 1 }
  if recovered then (true, health.markRecovered) else (false, health.countFailure)

/-- `CanHealth_ResetRequested`. -/
def resetRequested (health : CanHealth) : Bool := health.resetRequests > 0

/-- `CanHealth_GetSnapshot`. -/
def getSnapshot (health : CanHealth) : CanHealthSnapshot where
  state := health.state
  tec := health.tec
  recCounter := health.recCounter
  errorCounts := health.errorCounts
  busOffEvents := health.busOffEvents
  recoveryAttempts := health.recoveryAttempts
  recoverySuccesses := health.recoverySuccesses
  recoveryFailures := health.recoveryFailures
  consecutiveRecoveryFailures := health.consecutiveRecoveryFailures
  resetRequests := health.resetRequests

end CanHealth

/-! ## The controller -/

def halErrorNone : UInt32 := 0x00000000
def halErrorEwg : UInt32 := 0x00000001
def halErrorEpv : UInt32 := 0x00000002
def halErrorBof : UInt32 := 0x00000004

/-- The fields of the error status register that `CanDriver_GetErrorCounters` reads: TEC, REC and BOFF. -/
def getErrorCounters (esr : UInt32) : UInt16 × UInt16 × Bool :=
  (((esr >>> 16) &&& 0xFF).toUInt16, ((esr >>> 24) &&& 0xFF).toUInt16, esr &&& 0x00000004 ≠ 0)

/-- The register has BOFF set. -/
def busOffActive (esr : UInt32) : Bool := (getErrorCounters esr).2.2

/-- `CanDriver_OnErrorIsr`. -/
def onErrorIsr (health : CanHealth) (errorCode esr : UInt32) : CanHealth :=
  if errorCode = halErrorNone then health
  else
    let (tec, rec, busOff) := getErrorCounters esr
    if busOff ∨ errorCode &&& halErrorBof ≠ 0 then (health.syncHardwareCounters tec rec true).enterBusOff
    else if errorCode &&& ~~~(halErrorEwg ||| halErrorEpv) = 0 then health.syncHardwareCounters tec rec false
    else
      let transmit := if tec > health.tec then true else if rec > health.recCounter then false else true
      (health.recordError (kindFromErrorFlags errorCode) transmit).syncHardwareCounters tec rec false

/-- The interrupt reports a Bus-Off entry. -/
def reportsBusOff (errorCode esr : UInt32) : Bool :=
  errorCode ≠ halErrorNone && (busOffActive esr || errorCode &&& halErrorBof ≠ 0)

/-! ## Bus-Off is left by a recovery only -/

namespace CanHealth

variable {health : CanHealth}

theorem enterBusOff_state (health : CanHealth) : health.enterBusOff.state = .busOff := by
  unfold enterBusOff
  generalize (if health.state ≠ .busOff then _ else _ : CanHealth) = counted
  dsimp only
  split <;> rfl

theorem enterBusOff_events (h : health.state = .busOff) :
    health.enterBusOff.busOffEvents = health.busOffEvents := by
  unfold enterBusOff
  have hnot : ¬health.state ≠ .busOff := not_not.2 h
  rw [if_neg hnot]
  dsimp only
  split <;> rfl

theorem updateErrorState_of_busOff (h : health.state = .busOff) : health.updateErrorState = health := if_pos h

/-- In Bus-Off a new entry is not an event. -/
theorem syncHardwareCounters_of_busOff (h : health.state = .busOff) (tec rec : UInt16) (active : Bool) :
    (health.syncHardwareCounters tec rec active).state = .busOff ∧
      (health.syncHardwareCounters tec rec active).busOffEvents = health.busOffEvents := by
  unfold syncHardwareCounters
  have hsame : ({ health with tec := tec, recCounter := rec } : CanHealth).state = .busOff := h
  cases active with
  | true => exact ⟨enterBusOff_state _, enterBusOff_events hsame⟩
  | false =>
    dsimp only
    rw [if_neg Bool.false_ne_true, updateErrorState_of_busOff hsame]
    exact ⟨h, rfl⟩

theorem recordError_of_busOff (h : health.state = .busOff) (kind : CanHealthErrorKind) (transmit : Bool) :
    (health.recordError kind transmit).state = .busOff ∧
      (health.recordError kind transmit).busOffEvents = health.busOffEvents := by
  have hstays : ∀ next : CanHealth, next.state = .busOff → next.busOffEvents = health.busOffEvents →
      next.updateErrorState.state = .busOff ∧ next.updateErrorState.busOffEvents = health.busOffEvents := by
    intro next hstate hevents
    rw [updateErrorState_of_busOff hstate]
    exact ⟨hstate, hevents⟩
  cases transmit with
  | true => exact hstays _ h rfl
  | false => exact hstays _ h rfl

/-- Nor does an error interrupt leave Bus-Off, or count an entry in it. -/
theorem onErrorIsr_of_busOff (h : health.state = .busOff) (errorCode esr : UInt32) :
    (onErrorIsr health errorCode esr).state = .busOff ∧
      (onErrorIsr health errorCode esr).busOffEvents = health.busOffEvents := by
  unfold onErrorIsr
  split
  · exact ⟨h, rfl⟩
  dsimp only
  split
  · obtain ⟨hstate, hevents⟩ := syncHardwareCounters_of_busOff h (getErrorCounters esr).1
      (getErrorCounters esr).2.1 true
    exact ⟨enterBusOff_state _, (enterBusOff_events hstate).trans hevents⟩
  split
  · exact syncHardwareCounters_of_busOff h ..
  · obtain ⟨hstate, hevents⟩ := recordError_of_busOff h (kindFromErrorFlags errorCode)
      (if (getErrorCounters esr).1 > health.tec then true
        else if (getErrorCounters esr).2.1 > health.recCounter then false else true)
    obtain ⟨hstate', hevents'⟩ := syncHardwareCounters_of_busOff hstate (getErrorCounters esr).1
      (getErrorCounters esr).2.1 false
    exact ⟨hstate', hevents'.trans hevents⟩

/-! ## The recovery counters -/

/-- The fields that count recovery attempts. -/
def recovery (health : CanHealth) : UInt32 × UInt32 × UInt32 × UInt8 × UInt32 :=
  (health.recoveryAttempts, health.recoverySuccesses, health.recoveryFailures,
    health.consecutiveRecoveryFailures, health.resetRequests)

theorem enterBusOff_recovery (health : CanHealth) : health.enterBusOff.recovery = health.recovery := by
  have hclamp : ∀ next : CanHealth, (if next.tec < next.config.busOffThreshold then
      { next with tec := next.config.busOffThreshold } else next).recovery = next.recovery := by
    intro next
    split <;> rfl
  unfold enterBusOff
  refine (hclamp _).trans ?_
  split <;> rfl

theorem updateErrorState_recovery (health : CanHealth) :
    health.updateErrorState.recovery = health.recovery := by
  unfold updateErrorState
  split
  · rfl
  split
  · exact enterBusOff_recovery health
  · rfl

theorem syncHardwareCounters_recovery (health : CanHealth) (tec rec : UInt16) (active : Bool) :
    (health.syncHardwareCounters tec rec active).recovery = health.recovery := by
  unfold syncHardwareCounters
  cases active with
  | true => exact enterBusOff_recovery _
  | false => exact updateErrorState_recovery _

theorem recordError_recovery (health : CanHealth) (kind : CanHealthErrorKind) (transmit : Bool) :
    (health.recordError kind transmit).recovery = health.recovery := by
  unfold recordError
  refine (updateErrorState_recovery _).trans ?_
  cases transmit <;> rfl

/-- An error interrupt counts no attempt. -/
theorem onErrorIsr_recovery (health : CanHealth) (errorCode esr : UInt32) :
    (onErrorIsr health errorCode esr).recovery = health.recovery := by
  unfold onErrorIsr
  split
  · rfl
  dsimp only
  split
  · exact (enterBusOff_recovery _).trans (syncHardwareCounters_recovery ..)
  split
  · exact syncHardwareCounters_recovery ..
  · exact (syncHardwareCounters_recovery ..).trans (recordError_recovery ..)

theorem countFailure_counters (health : CanHealth) :
    health.countFailure.recoverySuccesses = health.recoverySuccesses ∧
      health.countFailure.recoveryFailures = health.recoveryFailures + 1 := by
  unfold countFailure
  dsimp only
  split
  · split <;> exact ⟨rfl, rfl⟩
  · split <;> exact ⟨rfl, rfl⟩

end CanHealth

end DualCan.Can
