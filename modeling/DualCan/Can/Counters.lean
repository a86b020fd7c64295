import DualCan.Can.Health
import DualCan.Run.Past

/-!
# The error state and the counters

The operations of `can_health.c` in any order. Each leaves the error state that its counters stand for, but
for one: in Bus-Off `CanHealth_UpdateErrorState` returns at once, and `CanHealth_SyncHardwareCounters` may
have written a transmit counter below the threshold, which only `CanHealth_EnterBusOff` raises.
-/

namespace DualCan.Can

open DualCan.Run

/-- A call of one of the operations that write the counters. -/
inductive CounterEvent where
  | recordError (kind : CanHealthErrorKind) (transmit : Bool)
  | recordSuccess (transmit : Bool)
  | syncHardwareCounters (tec recCounter : UInt16) (busOffActive : Bool)
  | enterBusOff
  | attemptRecovery (recovered : Bool)
  | markRecovered
  deriving DecidableEq, Repr

namespace CanHealth

def counterStep (health : CanHealth) : CounterEvent → CanHealth
  | .recordError kind transmit => health.recordError kind transmit
  | .recordSuccess transmit => health.recordSuccess transmit
  | .syncHardwareCounters tec recCounter busOffActive => health.syncHardwareCounters tec recCounter busOffActive
  | .enterBusOff => health.enterBusOff
  | .attemptRecovery recovered => (health.attemptRecovery recovered).2
  | .markRecovered => health.markRecovered

/-- The error state is the one the counters stand for. -/
structure Consistent (health : CanHealth) : Prop where
  active : health.state = .errorActive ↔
    health.tec < health.config.passiveThreshold ∧ health.recCounter < health.config.passiveThreshold
  passive : health.state = .errorPassive ↔
    (health.config.passiveThreshold ≤ health.tec ∨ health.config.passiveThreshold ≤ health.recCounter) ∧
      health.tec < health.config.busOffThreshold
  busOff : health.state = .busOff ↔ health.config.busOffThreshold ≤ health.tec

/-- The call marks the controller recovered. -/
def recovers : CounterEvent → Bool
  | .attemptRecovery recovered => recovered
  | .markRecovered => true
  | _ => false

/-- What the call may leave: a consistent state, and Bus-Off left by a recovery only. -/
structure Sound (health : CanHealth) (event : CounterEvent) : Prop where
  consistent : (health.counterStep event).Consistent
  leaves : health.state = .busOff → (health.counterStep event).state ≠ .busOff → recovers event = true

/-- The call does not write a transmit counter below the threshold while the state stays Bus-Off. -/
def keepsThreshold (health : CanHealth) : CounterEvent → Prop
  | .syncHardwareCounters tec _ busOffActive =>
    ¬(health.state = .busOff ∧ busOffActive = false ∧ tec < health.config.busOffThreshold)
  | _ => True

variable {health : CanHealth}

/-! ## One operation -/

theorem init_isValid (config : Option CanHealthConfig) : (init config).config.isValid = true := by
  unfold init
  cases hfilter : config.filter CanHealthConfig.isValid with
  | none => decide
  | some kept => exact (Option.filter_eq_some_iff.1 hfilter).2

theorem thresholds (h : health.config.isValid = true) :
    0 < health.config.passiveThreshold.toNat ∧
      health.config.passiveThreshold.toNat < health.config.busOffThreshold.toNat := by
  unfold CanHealthConfig.isValid at h
  simp only [Bool.and_eq_true, decide_eq_true_eq, gt_iff_lt, UInt16.lt_iff_toNat_lt] at h
  exact h.1

theorem consistent_of_busOff (hvalid : health.config.isValid = true) (hstate : health.state = .busOff) :
    health.Consistent ↔ health.config.busOffThreshold ≤ health.tec := by
  have hthresholds := thresholds hvalid
  refine ⟨fun h => h.busOff.1 hstate, fun h => ⟨?_, ?_, ?_⟩⟩
  all_goals
    simp only [hstate, reduceCtorEq, false_iff, true_iff, UInt16.lt_iff_toNat_lt, UInt16.le_iff_toNat_le] at h ⊢
    omega

/-- No counter has reached its threshold. -/
theorem consistent_of_zero (hvalid : health.config.isValid = true) (hstate : health.state = .errorActive)
    (htec : health.tec = 0) (hrec : health.recCounter = 0) : health.Consistent := by
  have hthresholds := thresholds hvalid
  refine ⟨?_, ?_, ?_⟩
  all_goals
    simp only [hstate, htec, hrec, reduceCtorEq, false_iff, true_iff, UInt16.lt_iff_toNat_lt,
      UInt16.le_iff_toNat_le, UInt16.toNat_zero]
    omega

theorem enterBusOff_fields (health : CanHealth) :
    health.enterBusOff.config = health.config ∧
      health.config.busOffThreshold ≤ health.enterBusOff.tec := by
  unfold enterBusOff
  generalize hcounted : (if health.state ≠ .busOff then
    { health with busOffEvents := health.busOffEvents + 1 } else health : CanHealth) = counted
  have hsame : counted.config = health.config ∧ counted.tec = health.tec := by
    rw [← hcounted]
    split <;> exact ⟨rfl, rfl⟩
  rw [← hsame.1]
  dsimp only
  split
  · exact ⟨rfl, UInt16.le_refl _⟩
  · rename_i hreached
    exact ⟨rfl, UInt16.not_lt.1 hreached⟩

theorem consistent_enterBusOff (hvalid : health.config.isValid = true) : health.enterBusOff.Consistent := by
  obtain ⟨hconfig, htec⟩ := enterBusOff_fields health
  rw [consistent_of_busOff (hconfig ▸ hvalid) (enterBusOff_state health), hconfig]
  exact htec

theorem updateErrorState_config (health : CanHealth) : health.updateErrorState.config = health.config := by
  unfold updateErrorState
  split
  · rfl
  split
  · exact (enterBusOff_fields health).1
  · rfl

/-- The error state is determined anew, except in Bus-Off. -/
theorem consistent_updateErrorState (hvalid : health.config.isValid = true) (hstate : health.state ≠ .busOff) :
    health.updateErrorState.Consistent := by
  have hthresholds := thresholds hvalid
  unfold updateErrorState
  rw [if_neg hstate]
  split
  · exact consistent_enterBusOff hvalid
  rename_i htec
  have hbelow : health.tec.toNat < health.config.busOffThreshold.toNat :=
    UInt16.lt_iff_toNat_lt.1 (UInt16.not_le.1 htec)
  have hworst : (if health.tec > health.recCounter then health.tec else health.recCounter) ≥
      health.config.passiveThreshold ↔ health.config.passiveThreshold.toNat ≤ health.tec.toNat ∨
        health.config.passiveThreshold.toNat ≤ health.recCounter.toNat := by
    split
    all_goals
      simp only [gt_iff_lt, ge_iff_le, UInt16.lt_iff_toNat_lt, UInt16.le_iff_toNat_le] at *
      omega
  dsimp only
  by_cases hreached : health.config.passiveThreshold.toNat ≤ health.tec.toNat ∨
      health.config.passiveThreshold.toNat ≤ health.recCounter.toNat
  · rw [if_pos (hworst.2 hreached)]
    refine ⟨?_, ?_, ?_⟩
    all_goals
      simp only [reduceCtorEq, false_iff, true_iff, UInt16.lt_iff_toNat_lt, UInt16.le_iff_toNat_le]
      omega
  · rw [if_neg (mt hworst.1 hreached)]
    refine ⟨?_, ?_, ?_⟩
    all_goals
      simp only [reduceCtorEq, false_iff, true_iff, UInt16.lt_iff_toNat_lt, UInt16.le_iff_toNat_le]
      omega

theorem le_saturatingAdd (value delta : UInt16) : value ≤ saturatingAdd value delta := by
  have hvalue := value.toNat_lt
  have hdelta := delta.toNat_lt
  unfold saturatingAdd
  rw [UInt16.le_iff_toNat_le]
  split
  · exact Nat.le_of_lt_succ hvalue
  · rename_i hfits
    have hmax : (0xFFFF : UInt32).toNat = 65535 := rfl
    rw [gt_iff_lt, UInt32.lt_iff_toNat_lt, UInt32.toNat_add, UInt16.toNat_toUInt32, UInt16.toNat_toUInt32,
      hmax] at hfits
    rw [UInt16.toNat_add]
    omega

theorem countFailure_fields (health : CanHealth) :
    health.countFailure.config = health.config ∧ health.countFailure.state = health.state ∧
      health.countFailure.tec = health.tec ∧ health.countFailure.recCounter = health.recCounter := by
  unfold countFailure
  dsimp only
  split
  · split <;> exact ⟨rfl, rfl, rfl, rfl⟩
  · split <;> exact ⟨rfl, rfl, rfl, rfl⟩

theorem counterStep_config (health : CanHealth) (event : CounterEvent) :
    (health.counterStep event).config = health.config := by
  cases event with
  | recordError kind transmit =>
    refine (updateErrorState_config _).trans ?_
    cases transmit <;> rfl
  | recordSuccess transmit =>
    rw [counterStep, recordSuccess]
    split
    · rfl
    · refine (updateErrorState_config _).trans ?_
      split
      · rfl
      · split <;> rfl
  | syncHardwareCounters tec recCounter busOffActive =>
    cases busOffActive with
    | true => exact (enterBusOff_fields _).1
    | false => exact updateErrorState_config _
  | enterBusOff => exact (enterBusOff_fields _).1
  | attemptRecovery recovered =>
    cases recovered with
    | true => rfl
    | false => exact (countFailure_fields _).1
  | markRecovered => rfl

/-! ## Every operation -/

/-- An operation that writes the counters and then re-evaluates the state is judged by the counters alone:
in Bus-Off the transmit counter must have stayed at the threshold. -/
theorem consistent_updated (hvalid : health.config.isValid = true) : health.updateErrorState.Consistent ↔
    (health.state = .busOff → health.config.busOffThreshold ≤ health.tec) := by
  by_cases hstate : health.state = .busOff
  · rw [updateErrorState_of_busOff hstate, consistent_of_busOff hvalid hstate]
    exact ⟨fun h _ => h, fun h => h hstate⟩
  · exact ⟨fun _ h => absurd h hstate, fun _ => consistent_updateErrorState hvalid hstate⟩

theorem consistent_recordError (hvalid : health.config.isValid = true) (h : health.Consistent)
    (kind : CanHealthErrorKind) (transmit : Bool) : (health.recordError kind transmit).Consistent := by
  unfold recordError
  dsimp only
  cases transmit with
  | true =>
    rw [if_pos rfl]
    apply (consistent_updated ?_).2
    · exact fun hstate => UInt16.le_trans (h.busOff.1 hstate) (le_saturatingAdd _ _)
    · exact hvalid
  | false =>
    rw [if_neg Bool.false_ne_true]
    apply (consistent_updated ?_).2
    · exact h.busOff.1
    · exact hvalid

theorem consistent_recordSuccess (hvalid : health.config.isValid = true) (h : health.Consistent)
    (transmit : Bool) : (health.recordSuccess transmit).Consistent := by
  unfold recordSuccess
  split
  · exact h
  rename_i hstate
  have hupdated : ∀ next : CanHealth, next.config = health.config → next.state = health.state →
      next.updateErrorState.Consistent := by
    intro next hconfig hsame
    exact consistent_updateErrorState (hconfig ▸ hvalid) (hsame ▸ hstate)
  dsimp only
  split
  · exact hupdated _ rfl rfl
  split
  · exact hupdated _ rfl rfl
  · exact hupdated _ rfl rfl

theorem consistent_syncHardwareCounters (hvalid : health.config.isValid = true) (tec recCounter : UInt16)
    (busOffActive : Bool) : (health.syncHardwareCounters tec recCounter busOffActive).Consistent ↔
      health.keepsThreshold (.syncHardwareCounters tec recCounter busOffActive) := by
  unfold syncHardwareCounters keepsThreshold
  cases busOffActive with
  | true => exact ⟨fun _ => by simp, fun _ => consistent_enterBusOff hvalid⟩
  | false =>
    dsimp only
    rw [if_neg Bool.false_ne_true, consistent_updated]
    · simp only [true_and, not_and, UInt16.not_lt]
    · exact hvalid

theorem consistent_attemptRecovery (hvalid : health.config.isValid = true) (h : health.Consistent)
    (recovered : Bool) : (health.attemptRecovery recovered).2.Consistent := by
  cases recovered with
  | true => exact consistent_of_zero hvalid rfl rfl rfl
  | false =>
    obtain ⟨hconfig, hstate, htec, hrec⟩ :=
      countFailure_fields { health with recoveryAttempts := health.recoveryAttempts + 1 }
    rw [attemptRecovery, if_neg Bool.false_ne_true]
    refine ⟨?_, ?_, ?_⟩
    · rw [hconfig, hstate, htec, hrec]
      exact h.active
    · rw [hconfig, hstate, htec, hrec]
      exact h.passive
    · rw [hconfig, hstate, htec]
      exact h.busOff

/-- From a consistent state every call but one leads to a consistent state. -/
theorem consistent_counterStep (hvalid : health.config.isValid = true) (h : health.Consistent)
    (event : CounterEvent) : (health.counterStep event).Consistent ↔ health.keepsThreshold event := by
  cases event with
  | recordError kind transmit => exact iff_of_true (consistent_recordError hvalid h kind transmit) trivial
  | recordSuccess transmit => exact iff_of_true (consistent_recordSuccess hvalid h transmit) trivial
  | syncHardwareCounters tec recCounter busOffActive => exact consistent_syncHardwareCounters hvalid ..
  | enterBusOff => exact iff_of_true (consistent_enterBusOff hvalid) trivial
  | attemptRecovery recovered => exact iff_of_true (consistent_attemptRecovery hvalid h recovered) trivial
  | markRecovered => exact iff_of_true (consistent_of_zero hvalid rfl rfl rfl) trivial

/-- Whatever the counters are, Bus-Off is left by a recovery only. -/
theorem recovers_of_leaves (hstate : health.state = .busOff) {event : CounterEvent}
    (hleft : (health.counterStep event).state ≠ .busOff) : recovers event = true := by
  cases event with
  | recordError kind transmit => exact absurd (recordError_of_busOff hstate kind transmit).1 hleft
  | recordSuccess transmit =>
    have hsame : health.counterStep (.recordSuccess transmit) = health := if_pos hstate
    exact absurd hstate (hsame ▸ hleft)
  | syncHardwareCounters tec recCounter busOffActive =>
    exact absurd (syncHardwareCounters_of_busOff hstate tec recCounter busOffActive).1 hleft
  | enterBusOff => exact absurd (enterBusOff_state health) hleft
  | attemptRecovery recovered =>
    cases recovered with
    | true => rfl
    | false =>
      have hsame := (countFailure_fields { health with recoveryAttempts := health.recoveryAttempts + 1 }).2.1
      exact absurd (hsame.trans hstate) hleft
  | markRecovered => rfl

/-! ## Runs -/

theorem consistent_init (config : Option CanHealthConfig) : (init config).Consistent :=
  consistent_of_zero (init_isValid config) rfl rfl rfl

theorem isValid_after (config : Option CanHealthConfig) (events : List CounterEvent) :
    (after counterStep (init config) events).config.isValid = true := by
  induction events using List.reverseRecOn with
  | nil => exact init_isValid config
  | append_singleton events event ih =>
    rw [after_snoc, counterStep_config]
    exact ih

/-- A run of sound steps ends in a consistent state. -/
theorem consistent_after {config : Option CanHealthConfig} {events : List CounterEvent}
    (h : AllSteps counterStep (init config) Sound events) :
    (after counterStep (init config) events).Consistent := by
  induction events using List.reverseRecOn with
  | nil => exact consistent_init config
  | append_singleton events event ih =>
    rw [after_snoc]
    exact (allSteps_snoc.1 h).2.consistent

/-- **State and counters**: the error state is that of the counters after every call of a run, and Bus-Off is
left by recoveries only, exactly if no call of the run writes a transmit counter below the threshold in
Bus-Off. -/
theorem sound_iff_keepsThreshold (config : Option CanHealthConfig) (events : List CounterEvent) :
    (init config).Consistent ∧ AllSteps counterStep (init config) Sound events ↔
      AllSteps counterStep (init config) keepsThreshold events := by
  rw [and_iff_right (consistent_init config)]
  induction events using List.reverseRecOn with
  | nil => exact iff_of_true allSteps_nil allSteps_nil
  | append_singleton events event ih =>
    rw [allSteps_snoc, allSteps_snoc, ← ih]
    refine and_congr_right fun hsound => ?_
    rw [← consistent_counterStep (isValid_after config events) (consistent_after hsound)]
    exact ⟨fun h => h.consistent, fun h => ⟨h, fun hstate hleft => recovers_of_leaves hstate hleft⟩⟩

/-- The registers of a controller that has restarted, read in Bus-Off: the state stays, the counter goes to
zero. -/
theorem not_sound_syncInBusOff : ¬AllSteps counterStep (init (some defaultConfig)) Sound
    [.enterBusOff, .syncHardwareCounters 0 0 false] := by
  intro h
  have hlast := (allSteps_snoc.1 (show AllSteps counterStep (init (some defaultConfig)) Sound
    ([.enterBusOff] ++ [.syncHardwareCounters 0 0 false]) from h)).2
  have hbusOff := hlast.consistent.busOff.1 (by decide)
  exact absurd hbusOff (by decide)

end CanHealth

end DualCan.Can
