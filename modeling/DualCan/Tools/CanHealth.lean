import DualCan.Can.Health
import DualCan.Emu.VirtualEcu
import DualCan.Run.Past
import Mathlib.Data.Fintype.Defs
import Mathlib.Data.Finset.Insert

/-!
# The bus-health model of the tools

`CanHealthMonitor` of `can_health.py`, the Python counterpart of `CanHealth_t`. Its integers are natural
numbers and have no width. The values of a `CanHealth_t` are read as such a monitor (`CanHealth.monitor`), and
every operation of one is that operation of the other as long as the numbers fit.
-/

namespace DualCan.Tools

open DualCan.Can DualCan.Run
open DualCan.Emu (CanBusState)

/-! ## `can_health.py` -/

inductive CanErrorKind where
  | bit
  | stuff
  | ack
  | crc
  | form
  | other
  deriving DecidableEq, Repr

instance : Fintype CanErrorKind where
  elems := {.bit, .stuff, .ack, .crc, .form, .other}
  complete kind := by cases kind <;> decide

/-- `CanHealthSnapshot`; `recCount` is its field `rec`, and `error_counts` is the function of its entries. -/
structure CanHealthSnapshot where
  state : CanBusState
  tec : ℕ
  recCount : ℕ
  errorCounts : CanErrorKind → ℕ
  busOffEvents : ℕ
  recoveryAttempts : ℕ
  recoverySuccesses : ℕ
  recoveryFailures : ℕ
  consecutiveRecoveryFailures : ℕ
  resetRequests : ℕ

/-- `CanHealthMonitor`. -/
structure CanHealthMonitor where
  passiveThreshold : ℕ
  busOffThreshold : ℕ
  maxRecoveryFailures : ℕ
  tec : ℕ
  recCount : ℕ
  state : CanBusState
  errorCounts : CanErrorKind → ℕ
  busOffEvents : ℕ
  recoveryAttempts : ℕ
  recoverySuccesses : ℕ
  recoveryFailures : ℕ
  consecutiveRecoveryFailures : ℕ
  resetRequests : ℕ

namespace CanHealthMonitor

/-- `CanHealthMonitor.__init__`; an error is the text of the `ValueError`. -/
def create (passiveThreshold busOffThreshold maxRecoveryFailures : ℕ) : Except String CanHealthMonitor :=
  if passiveThreshold ≤ 0 then .error "passive_threshold must be positive"
  else if busOffThreshold ≤ passiveThreshold then .error "bus_off_threshold must exceed passive_threshold"
  else if maxRecoveryFailures ≤ 0 then .error "max_recovery_failures must be positive"
  else .ok {
    passiveThreshold := passiveThreshold
    busOffThreshold := busOffThreshold
    maxRecoveryFailures := maxRecoveryFailures
    tec := 0
    recCount := 0
    state := .errorActive
    errorCounts := fun _ => 0
    busOffEvents := 0
    recoveryAttempts := 0
    recoverySuccesses := 0
    recoveryFailures := 0
    consecutiveRecoveryFailures := 0
    resetRequests := 0 }

/-- `CanHealthMonitor.enter_bus_off`. -/
def enterBusOff (monitor : CanHealthMonitor) : CanHealthMonitor :=
  let monitor :=
    if monitor.state ≠ .busOff then { monitor with busOffEvents := monitor.busOffEvents + 1 } else monitor
  { monitor with
    state := .busOff
    tec := max monitor.tec monitor.busOffThreshold }

/-- `CanHealthMonitor._update_error_state`. -/
def updateErrorState (monitor : CanHealthMonitor) : CanHealthMonitor :=
  if monitor.state = .busOff then monitor
  else if monitor.tec ≥ monitor.busOffThreshold then monitor.enterBusOff
  else if max monitor.tec monitor.recCount ≥ monitor.passiveThreshold then
    { monitor with state := .errorPassive }
  else { monitor with state := .errorActive }

/-- `CanHealthMonitor.record_error`. -/
def recordError (monitor : CanHealthMonitor) (kind : CanErrorKind) (tx : Bool) : CanHealthMonitor :=
  let monitor := { monitor with
    errorCounts := Function.update monitor.errorCounts kind (monitor.errorCounts kind + 1) }
  let monitor :=
    if tx then { monitor with tec := monitor.tec + 8 } else { monitor with recCount := monitor.recCount + 8 }
  monitor.updateErrorState

/-- `CanHealthMonitor.record_success`. -/
def recordSuccess (monitor : CanHealthMonitor) (tx : Bool) : CanHealthMonitor :=
  if monitor.state = .busOff then monitor
  else
    let monitor :=
      if tx && monitor.tec > 0 then { monitor with tec := monitor.tec - 1 }
      else if !tx && monitor.recCount > 0 then { monitor with recCount := monitor.recCount - 1 }
      else monitor
    monitor.updateErrorState

/-- `CanHealthMonitor.mark_recovered`. -/
def markRecovered (monitor : CanHealthMonitor) : CanHealthMonitor :=
  { monitor with
    state := .errorActive
    tec := 0
    recCount := 0
    recoverySuccesses := monitor.recoverySuccesses + 1
    consecutiveRecoveryFailures := 0 }

/-- The end of `CanHealthMonitor.attempt_recovery`, where the attempt has failed. -/
def countFailure (monitor : CanHealthMonitor) : CanHealthMonitor :=
  let monitor := { monitor with
    recoveryFailures := monitor.recoveryFailures + 1
    consecutiveRecoveryFailures := monitor.consecutiveRecoveryFailures + 1 }
  if monitor.consecutiveRecoveryFailures ≥ monitor.maxRecoveryFailures then
    { monitor with resetRequests := monitor.resetRequests + 1 }
  else monitor

/-- `CanHealthMonitor.attempt_recovery`; `none` is a callback that raises. The reset that may be
requested is outside the monitor. -/
def attemptRecovery (monitor : CanHealthMonitor) (reinit : Option Bool) : Bool × CanHealthMonitor :=
  let monitor := { monitor with recoveryAttempts := monitor.recoveryAttempts + 1 }
  let recovered := reinit.getD false
  if recovered then (true, monitor.markRecovered) else (false, monitor.countFailure)

/-- `CanHealthMonitor.snapshot`. -/
def snapshot (monitor : CanHealthMonitor) : CanHealthSnapshot where
  state := monitor.state
  tec := monitor.tec
  recCount := monitor.recCount
  errorCounts := monitor.errorCounts
  busOffEvents := monitor.busOffEvents
  recoveryAttempts := monitor.recoveryAttempts
  recoverySuccesses := monitor.recoverySuccesses
  recoveryFailures := monitor.recoveryFailures
  consecutiveRecoveryFailures := monitor.consecutiveRecoveryFailures
  resetRequests := monitor.resetRequests

end CanHealthMonitor

/-! ## Events -/

/-- The calls that both models take. -/
inductive HealthEvent where
  | recordError (kind : CanErrorKind) (transmit : Bool)
  | recordSuccess (transmit : Bool)
  | enterBusOff
  | attemptRecovery (recovered : Bool)
  | markRecovered
  deriving DecidableEq, Repr

/-- The C enumerator of a kind. -/
def CanErrorKind.code : CanErrorKind → CanHealthErrorKind
  | .bit => .bit
  | .stuff => .stuff
  | .ack => .ack
  | .crc => .crc
  | .form => .form
  | .other => .other

theorem CanErrorKind.code_bijective : Function.Bijective CanErrorKind.code := by
  constructor
  · intro kind kind' h
    cases kind <;> cases kind' <;> first | rfl | cases h
  · intro code
    cases code with
    | bit => exact ⟨.bit, rfl⟩
    | stuff => exact ⟨.stuff, rfl⟩
    | ack => exact ⟨.ack, rfl⟩
    | crc => exact ⟨.crc, rfl⟩
    | form => exact ⟨.form, rfl⟩
    | other => exact ⟨.other, rfl⟩

def healthStep (health : CanHealth) : HealthEvent → CanHealth
  | .recordError kind transmit => health.recordError kind.code transmit
  | .recordSuccess transmit => health.recordSuccess transmit
  | .enterBusOff => health.enterBusOff
  | .attemptRecovery recovered => (health.attemptRecovery recovered).2
  | .markRecovered => health.markRecovered

/-- The callback of an attempt only returns its outcome. -/
def monitorStep (monitor : CanHealthMonitor) : HealthEvent → CanHealthMonitor
  | .recordError kind transmit => monitor.recordError kind transmit
  | .recordSuccess transmit => monitor.recordSuccess transmit
  | .enterBusOff => monitor.enterBusOff
  | .attemptRecovery recovered => (monitor.attemptRecovery (some recovered)).2
  | .markRecovered => monitor.markRecovered

/-! ## Reading a `CanHealth_t` as a monitor -/

def busState : CanHealthState → CanBusState
  | .errorActive => .errorActive
  | .errorPassive => .errorPassive
  | .busOff => .busOff

/-- The numbers a snapshot of the firmware holds. -/
def snapshotNumbers (snapshot : Can.CanHealthSnapshot) : CanHealthSnapshot where
  state := busState snapshot.state
  tec := snapshot.tec.toNat
  recCount := snapshot.recCounter.toNat
  errorCounts kind := (snapshot.errorCounts kind.code).toNat
  busOffEvents := snapshot.busOffEvents.toNat
  recoveryAttempts := snapshot.recoveryAttempts.toNat
  recoverySuccesses := snapshot.recoverySuccesses.toNat
  recoveryFailures := snapshot.recoveryFailures.toNat
  consecutiveRecoveryFailures := snapshot.consecutiveRecoveryFailures.toNat
  resetRequests := snapshot.resetRequests.toNat

/-- The monitor with the numbers of `health`. -/
def monitorOf (health : CanHealth) : CanHealthMonitor where
  passiveThreshold := health.config.passiveThreshold.toNat
  busOffThreshold := health.config.busOffThreshold.toNat
  maxRecoveryFailures := health.config.maxRecoveryFailures.toNat
  tec := health.tec.toNat
  recCount := health.recCounter.toNat
  state := busState health.state
  errorCounts kind := (health.errorCounts kind.code).toNat
  busOffEvents := health.busOffEvents.toNat
  recoveryAttempts := health.recoveryAttempts.toNat
  recoverySuccesses := health.recoverySuccesses.toNat
  recoveryFailures := health.recoveryFailures.toNat
  consecutiveRecoveryFailures := health.consecutiveRecoveryFailures.toNat
  resetRequests := health.resetRequests.toNat

theorem monitorOf_snapshot (health : CanHealth) :
    (monitorOf health).snapshot = snapshotNumbers health.getSnapshot := rfl

theorem monitorOf_busOff {health : CanHealth} :
    (monitorOf health).state = .busOff ↔ health.state = .busOff := by
  unfold monitorOf
  dsimp only
  cases health.state <;> decide

/-- The numbers of a monitor fit the fields of a `CanHealth_t`. -/
structure InRange (monitor : CanHealthMonitor) : Prop where
  tec : monitor.tec ≤ 65535
  recCount : monitor.recCount ≤ 65535
  consecutive : monitor.consecutiveRecoveryFailures ≤ 255
  errorCounts : ∀ kind, monitor.errorCounts kind < 2 ^ 32
  busOffEvents : monitor.busOffEvents < 2 ^ 32
  attempts : monitor.recoveryAttempts < 2 ^ 32
  successes : monitor.recoverySuccesses < 2 ^ 32
  failures : monitor.recoveryFailures < 2 ^ 32
  resetRequests : monitor.resetRequests < 2 ^ 32

instance (monitor : CanHealthMonitor) : Decidable (InRange monitor) :=
  decidable_of_iff
    (monitor.tec ≤ 65535 ∧ monitor.recCount ≤ 65535 ∧ monitor.consecutiveRecoveryFailures ≤ 255 ∧
      (∀ kind, monitor.errorCounts kind < 2 ^ 32) ∧ monitor.busOffEvents < 2 ^ 32 ∧
      monitor.recoveryAttempts < 2 ^ 32 ∧ monitor.recoverySuccesses < 2 ^ 32 ∧
      monitor.recoveryFailures < 2 ^ 32 ∧ monitor.resetRequests < 2 ^ 32)
    ⟨fun ⟨h₁, h₂, h₃, h₄, h₅, h₆, h₇, h₈, h₉⟩ => ⟨h₁, h₂, h₃, h₄, h₅, h₆, h₇, h₈, h₉⟩,
      fun ⟨h₁, h₂, h₃, h₄, h₅, h₆, h₇, h₈, h₉⟩ => ⟨h₁, h₂, h₃, h₄, h₅, h₆, h₇, h₈, h₉⟩⟩

/-- The two constructors accept the same configurations. -/
theorem create_ok_iff (config : CanHealthConfig) :
    (∃ monitor, CanHealthMonitor.create config.passiveThreshold.toNat config.busOffThreshold.toNat
      config.maxRecoveryFailures.toNat = .ok monitor) ↔ config.isValid := by
  have hC : config.isValid ↔ 0 < config.passiveThreshold.toNat ∧
      config.passiveThreshold.toNat < config.busOffThreshold.toNat ∧
      0 < config.maxRecoveryFailures.toNat := by
    unfold CanHealthConfig.isValid
    rw [Bool.and_eq_true, Bool.and_eq_true, decide_eq_true_eq, decide_eq_true_eq, decide_eq_true_eq,
      gt_iff_lt, gt_iff_lt, gt_iff_lt, UInt16.lt_iff_toNat_lt, UInt16.lt_iff_toNat_lt,
      UInt8.lt_iff_toNat_lt, and_assoc]
    rfl
  rw [hC]
  unfold CanHealthMonitor.create
  constructor
  · rintro ⟨monitor, h⟩
    split at h
    · cases h
    split at h
    · cases h
    split at h
    · cases h
    omega
  · rintro ⟨hpassive, hbusOff, hfailures⟩
    rw [if_neg (Nat.not_le.2 hpassive), if_neg (Nat.not_le.2 hbusOff), if_neg (Nat.not_le.2 hfailures)]
    exact ⟨_, rfl⟩

theorem create_ok {config : CanHealthConfig} {monitor : CanHealthMonitor}
    (h : CanHealthMonitor.create config.passiveThreshold.toNat config.busOffThreshold.toNat
      config.maxRecoveryFailures.toNat = .ok monitor) :
    monitor = monitorOf (CanHealth.init (some config)) := by
  have hvalid := (create_ok_iff config).1 ⟨monitor, h⟩
  have hinit : CanHealth.init (some config) = { CanHealth.init none with config := config } := by
    unfold CanHealth.init
    rw [Option.filter_some, if_pos hvalid]
    rfl
  unfold CanHealthMonitor.create at h
  split at h
  · cases h
  split at h
  · cases h
  split at h
  · cases h
  rw [hinit]
  exact (Except.ok.inj h).symm

theorem toNat_succ {count : UInt32} (h : count.toNat + 1 < 2 ^ 32) :
    (count + 1).toNat = count.toNat + 1 := by
  rw [UInt32.toNat_add]
  exact Nat.mod_eq_of_lt h

/-- The saturating step is the plain one where its result fits. -/
theorem saturatingAdd_toNat {value : UInt16} (h : value.toNat + 8 ≤ 65535) :
    (saturatingAdd value errorCounterStep).toNat = value.toNat + 8 := by
  have hwide : (value.toUInt32 + errorCounterStep.toUInt32).toNat = value.toNat + 8 := by
    rw [UInt32.toNat_add, UInt16.toNat_toUInt32]
    exact Nat.mod_eq_of_lt (Nat.lt_of_le_of_lt h (by decide))
  have hfits : ¬value.toUInt32 + errorCounterStep.toUInt32 > 0xFFFF := by
    rw [gt_iff_lt, UInt32.lt_iff_toNat_lt, hwide]
    exact Nat.not_lt.2 h
  unfold saturatingAdd
  rw [if_neg hfits, UInt16.toNat_add]
  exact Nat.mod_eq_of_lt (Nat.lt_succ_of_le h)

theorem monitorOf_enterBusOff {health : CanHealth} (h : InRange (monitorOf health).enterBusOff) :
    monitorOf health.enterBusOff = (monitorOf health).enterBusOff := by
  have hclamp : ∀ next : CanHealth, monitorOf (if next.tec < next.config.busOffThreshold then
      { next with tec := next.config.busOffThreshold } else next) =
        { monitorOf next with tec := max next.tec.toNat next.config.busOffThreshold.toNat } := by
    intro next
    split
    · next hlow => rw [max_eq_right (Nat.le_of_lt (UInt16.lt_iff_toNat_lt.1 hlow))]; rfl
    · next hhigh => rw [max_eq_left (Nat.not_lt.1 (mt UInt16.lt_iff_toNat_lt.2 hhigh))]; rfl
  have hevents := h.busOffEvents
  unfold CanHealth.enterBusOff CanHealthMonitor.enterBusOff at *
  by_cases hoff : health.state = .busOff
  · rw [if_neg (not_not.2 hoff), if_neg (not_not.2 (monitorOf_busOff.2 hoff))]
    exact hclamp _
  · have hoff' : (monitorOf health).state ≠ .busOff := mt monitorOf_busOff.1 hoff
    rw [if_pos hoff'] at hevents ⊢
    rw [if_pos hoff]
    refine (hclamp _).trans ?_
    unfold monitorOf
    dsimp only
    rw [toNat_succ hevents]
    rfl

theorem monitorOf_updateErrorState {health : CanHealth} (h : InRange (monitorOf health).updateErrorState) :
    monitorOf health.updateErrorState = (monitorOf health).updateErrorState := by
  unfold CanHealth.updateErrorState CanHealthMonitor.updateErrorState at *
  by_cases hoff : health.state = .busOff
  · rw [if_pos hoff, if_pos (monitorOf_busOff.2 hoff)]
  have hoff' : (monitorOf health).state ≠ .busOff := mt monitorOf_busOff.1 hoff
  rw [if_neg hoff'] at h ⊢
  rw [if_neg hoff]
  by_cases hhigh : health.tec ≥ health.config.busOffThreshold
  · have hhigh' : (monitorOf health).tec ≥ (monitorOf health).busOffThreshold := UInt16.le_iff_toNat_le.1 hhigh
    rw [if_pos hhigh'] at h ⊢
    rw [if_pos hhigh]
    exact monitorOf_enterBusOff h
  have hhigh' : ¬(monitorOf health).tec ≥ (monitorOf health).busOffThreshold :=
    mt UInt16.le_iff_toNat_le.2 hhigh
  rw [if_neg hhigh', if_neg hhigh]
  have hworst : (if health.tec > health.recCounter then health.tec else health.recCounter).toNat =
      max (monitorOf health).tec (monitorOf health).recCount := by
    split
    · next hlt => exact (max_eq_left (Nat.le_of_lt (UInt16.lt_iff_toNat_lt.1 hlt))).symm
    · next hle => exact (max_eq_right (Nat.not_lt.1 (mt UInt16.lt_iff_toNat_lt.2 hle))).symm
  rw [← hworst]
  dsimp only
  generalize (if health.tec > health.recCounter then health.tec else health.recCounter) = worst
  have hpassive : worst ≥ health.config.passiveThreshold ↔
      worst.toNat ≥ (monitorOf health).passiveThreshold := UInt16.le_iff_toNat_le
  by_cases hworst : worst ≥ health.config.passiveThreshold
  · rw [if_pos hworst, if_pos (hpassive.1 hworst)]
    rfl
  · rw [if_neg hworst, if_neg (mt hpassive.2 hworst)]
    rfl

theorem monitorOf_updated {health : CanHealth} {monitor : CanHealthMonitor} (hof : monitorOf health = monitor)
    (h : InRange monitor.updateErrorState) : monitorOf health.updateErrorState = monitor.updateErrorState := by
  subst hof
  exact monitorOf_updateErrorState h

namespace CanHealthMonitor

/-- The error counters are not touched by the update, as Bus-Off is only entered above its threshold. -/
theorem updateErrorState_counters (monitor : CanHealthMonitor) :
    monitor.updateErrorState.tec = monitor.tec ∧ monitor.updateErrorState.recCount = monitor.recCount ∧
      monitor.updateErrorState.errorCounts = monitor.errorCounts := by
  unfold updateErrorState
  split
  · exact ⟨rfl, rfl, rfl⟩
  split
  · next hhigh =>
    unfold enterBusOff
    split
    · exact ⟨max_eq_left hhigh, rfl, rfl⟩
    · exact ⟨max_eq_left hhigh, rfl, rfl⟩
  split <;> exact ⟨rfl, rfl, rfl⟩

theorem recordError_counters (monitor : CanHealthMonitor) (kind : CanErrorKind) (tx : Bool) :
    (monitor.recordError kind tx).tec = monitor.tec + (if tx then 8 else 0) ∧
      (monitor.recordError kind tx).recCount = monitor.recCount + (if tx then 0 else 8) ∧
      (monitor.recordError kind tx).errorCounts kind = monitor.errorCounts kind + 1 := by
  unfold recordError
  cases tx with
  | true =>
    obtain ⟨htec, hrec, hcounts⟩ := updateErrorState_counters { monitor with
      errorCounts := Function.update monitor.errorCounts kind (monitor.errorCounts kind + 1)
      tec := monitor.tec + 8 }
    exact ⟨htec, hrec, (congrFun hcounts kind).trans (Function.update_self ..)⟩
  | false =>
    obtain ⟨htec, hrec, hcounts⟩ := updateErrorState_counters { monitor with
      errorCounts := Function.update monitor.errorCounts kind (monitor.errorCounts kind + 1)
      recCount := monitor.recCount + 8 }
    exact ⟨htec, hrec, (congrFun hcounts kind).trans (Function.update_self ..)⟩

theorem countFailure_counters (monitor : CanHealthMonitor) :
    monitor.countFailure.recoveryAttempts = monitor.recoveryAttempts ∧
      monitor.countFailure.recoveryFailures = monitor.recoveryFailures + 1 ∧
      monitor.countFailure.consecutiveRecoveryFailures = monitor.consecutiveRecoveryFailures + 1 := by
  unfold countFailure
  dsimp only
  split <;> exact ⟨rfl, rfl, rfl⟩

end CanHealthMonitor

theorem monitorOf_recordError {health : CanHealth} {kind : CanErrorKind} {transmit : Bool}
    (h : InRange ((monitorOf health).recordError kind transmit)) :
    monitorOf (health.recordError kind.code transmit) = (monitorOf health).recordError kind transmit := by
  obtain ⟨htec, hrec, hkind⟩ := (monitorOf health).recordError_counters kind transmit
  have hsucc := toNat_succ (hkind ▸ h.errorCounts kind)
  have hcounts : (fun kind' : CanErrorKind => (Function.update health.errorCounts kind.code
      (health.errorCounts kind.code + 1) kind'.code).toNat) =
        Function.update (monitorOf health).errorCounts kind ((monitorOf health).errorCounts kind + 1) := by
    funext kind'
    by_cases hsame : kind' = kind
    · subst hsame
      rw [Function.update_self, Function.update_self]
      exact hsucc
    · rw [Function.update_of_ne hsame, Function.update_of_ne (CanErrorKind.code_bijective.1.ne hsame)]
      rfl
  cases transmit with
  | true =>
    have hfits := saturatingAdd_toNat (htec ▸ h.tec)
    refine monitorOf_updated ?_ h
    rw [if_pos rfl, if_pos rfl, ← hcounts]
    unfold monitorOf
    dsimp only
    rw [hfits]
  | false =>
    have hfits := saturatingAdd_toNat (hrec ▸ h.recCount)
    refine monitorOf_updated ?_ h
    rw [if_neg Bool.false_ne_true, if_neg Bool.false_ne_true, ← hcounts]
    unfold monitorOf
    dsimp only
    rw [hfits]

theorem monitorOf_recordSuccess {health : CanHealth} {transmit : Bool}
    (h : InRange ((monitorOf health).recordSuccess transmit)) :
    monitorOf (health.recordSuccess transmit) = (monitorOf health).recordSuccess transmit := by
  unfold CanHealth.recordSuccess CanHealthMonitor.recordSuccess at *
  by_cases hoff : health.state = .busOff
  · rw [if_pos hoff, if_pos (monitorOf_busOff.2 hoff)]
  have hoff' : (monitorOf health).state ≠ .busOff := mt monitorOf_busOff.1 hoff
  rw [if_neg hoff'] at h ⊢
  rw [if_neg hoff]
  refine monitorOf_updated ?_ h
  have hpred : ∀ {count : UInt16}, count > 0 → (count - 1).toNat = count.toNat - 1 := by
    intro count hpos
    exact UInt16.toNat_sub_of_le _ _ (UInt16.le_iff_toNat_le.2 (UInt16.lt_iff_toNat_lt.1 hpos))
  have htec : health.tec > 0 ↔ (monitorOf health).tec > 0 := UInt16.lt_iff_toNat_lt
  have hrec : health.recCounter > 0 ↔ (monitorOf health).recCount > 0 := UInt16.lt_iff_toNat_lt
  cases transmit with
  | true =>
    simp only [Bool.true_and, decide_eq_true_eq, Bool.not_true, Bool.false_and, Bool.false_eq_true, if_false]
    by_cases hpos : health.tec > 0
    · rw [if_pos hpos, if_pos (htec.1 hpos)]
      unfold monitorOf
      dsimp only
      rw [hpred hpos]
    · rw [if_neg hpos, if_neg (mt htec.2 hpos)]
  | false =>
    simp only [Bool.false_and, Bool.not_false, Bool.true_and, decide_eq_true_eq, Bool.false_eq_true, if_false]
    by_cases hpos : health.recCounter > 0
    · rw [if_pos hpos, if_pos (hrec.1 hpos)]
      unfold monitorOf
      dsimp only
      rw [hpred hpos]
    · rw [if_neg hpos, if_neg (mt hrec.2 hpos)]

theorem monitorOf_markRecovered {health : CanHealth} (h : InRange (monitorOf health).markRecovered) :
    monitorOf health.markRecovered = (monitorOf health).markRecovered := by
  have hcount := toNat_succ h.successes
  unfold CanHealth.markRecovered CanHealthMonitor.markRecovered monitorOf
  dsimp only
  rw [hcount]
  rfl

theorem monitorOf_countFailure {health : CanHealth} (h : InRange (monitorOf health).countFailure) :
    monitorOf health.countFailure = (monitorOf health).countFailure := by
  obtain ⟨-, hfailures, hconsecutive⟩ := (monitorOf health).countFailure_counters
  have hfailure := toNat_succ (hfailures ▸ h.failures)
  have hroom : health.consecutiveRecoveryFailures.toNat + 1 ≤ 255 := hconsecutive ▸ h.consecutive
  have hbelow : health.consecutiveRecoveryFailures < 0xFF := UInt8.lt_iff_toNat_lt.2 hroom
  have hone : (health.consecutiveRecoveryFailures + 1).toNat =
      health.consecutiveRecoveryFailures.toNat + 1 := by
    rw [UInt8.toNat_add]
    exact Nat.mod_eq_of_lt (Nat.lt_succ_of_le hroom)
  have hresets := h.resetRequests
  unfold CanHealth.countFailure CanHealthMonitor.countFailure at *
  dsimp only at hresets ⊢
  rw [if_pos hbelow]
  have hreached : health.consecutiveRecoveryFailures + 1 ≥ health.config.maxRecoveryFailures ↔
      (monitorOf health).consecutiveRecoveryFailures + 1 ≥ (monitorOf health).maxRecoveryFailures := by
    rw [ge_iff_le, UInt8.le_iff_toNat_le, hone]
    rfl
  by_cases hmax : health.consecutiveRecoveryFailures + 1 ≥ health.config.maxRecoveryFailures
  · rw [if_pos (hreached.1 hmax)] at hresets ⊢
    rw [if_pos hmax]
    unfold monitorOf
    dsimp only
    rw [hfailure, hone, toNat_succ hresets]
  · rw [if_neg hmax, if_neg (mt hreached.2 hmax)]
    unfold monitorOf
    dsimp only
    rw [hfailure, hone]

theorem monitorOf_attemptRecovery {health : CanHealth} {recovered : Bool}
    (h : InRange ((monitorOf health).attemptRecovery (some recovered)).2) :
    monitorOf (health.attemptRecovery recovered).2 =
      ((monitorOf health).attemptRecovery (some recovered)).2 := by
  have hattempt : (monitorOf health).recoveryAttempts + 1 < 2 ^ 32 := by
    cases recovered with
    | true => exact h.attempts
    | false =>
      have hattempts := { monitorOf health with
        recoveryAttempts := (monitorOf health).recoveryAttempts + 1 : CanHealthMonitor }.countFailure_counters.1
      exact Nat.lt_of_le_of_lt (Nat.le_of_eq hattempts.symm) h.attempts
  have hcount : monitorOf { health with recoveryAttempts := health.recoveryAttempts + 1 } =
      { monitorOf health with recoveryAttempts := (monitorOf health).recoveryAttempts + 1 } := by
    unfold monitorOf
    dsimp only
    rw [toNat_succ hattempt]
  cases recovered with
  | true =>
    refine (monitorOf_markRecovered ?_).trans ?_
    · rw [hcount]
      exact h
    · rw [hcount]
      rfl
  | false =>
    refine (monitorOf_countFailure ?_).trans ?_
    · rw [hcount]
      exact h
    · rw [hcount]
      rfl

/-- **A step of the firmware's model is a step of the monitor**, where its numbers fit. -/
theorem monitorOf_step (health : CanHealth) (event : HealthEvent)
    (h : InRange (monitorStep (monitorOf health) event)) :
    monitorOf (healthStep health event) = monitorStep (monitorOf health) event := by
  cases event with
  | recordError kind transmit => exact monitorOf_recordError h
  | recordSuccess transmit => exact monitorOf_recordSuccess h
  | enterBusOff => exact monitorOf_enterBusOff h
  | attemptRecovery recovered => exact monitorOf_attemptRecovery h
  | markRecovered => exact monitorOf_markRecovered h

/-! ## Runs -/

/-- **The two bus-health models agree**: from a configuration that both accept, and as long as the numbers of
the monitor fit, the snapshots are equal after every step of every sequence of events. -/
theorem snapshots_agree {config : CanHealthConfig} {monitor : CanHealthMonitor}
    (hcreate : CanHealthMonitor.create config.passiveThreshold.toNat config.busOffThreshold.toNat
      config.maxRecoveryFailures.toNat = .ok monitor) {events : List HealthEvent}
    (hrange : AllSteps monitorStep monitor (fun m event => InRange (monitorStep m event)) events)
    {seen : List HealthEvent} (hseen : seen <+: events) :
    snapshotNumbers (after healthStep (CanHealth.init (some config)) seen).getSnapshot =
      (after monitorStep monitor seen).snapshot := by
  obtain rfl := create_ok hcreate
  obtain ⟨rest, rfl⟩ := hseen
  have hsame := after_translate (fun health event => monitorOf_step health event) seen
    (allSteps_append.1 hrange).1
  rw [← hsame, monitorOf_snapshot]

/-- A Bus-Off entry, two failed attempts, the second of which asks for a reset, and a recovery. -/
def busOffRun : List HealthEvent :=
  [.recordError .ack true, .recordError .ack true, .recordError .ack true, .recordSuccess true,
    .attemptRecovery false, .enterBusOff, .attemptRecovery false, .attemptRecovery true, .recordError .crc false,
    .recordSuccess false]

theorem snapshots_agree_busOffRun :
    snapshotNumbers (after healthStep (CanHealth.init (some ⟨16, 24, 2⟩)) busOffRun).getSnapshot =
        (after monitorStep (monitorOf (CanHealth.init (some ⟨16, 24, 2⟩))) busOffRun).snapshot ∧
      (after monitorStep (monitorOf (CanHealth.init (some ⟨16, 24, 2⟩))) busOffRun).resetRequests = 1 ∧
      (after monitorStep (monitorOf (CanHealth.init (some ⟨16, 24, 2⟩))) busOffRun).recCount = 7 := by
  refine ⟨snapshots_agree rfl ?_ List.prefix_rfl, ?_, ?_⟩
  · decide +kernel
  · decide +kernel
  · decide +kernel

end DualCan.Tools
