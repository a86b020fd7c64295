import DualCan.Uds.Ecu
import DualCan.Uds.Provenance
import DualCan.Uds.Security
import DualCan.Uds.Timer

/-!
# What holds in every state of the server

The session is one the server supports, its timer runs outside the default session only, and so do the
security fields; a pending operation is one that a poll can finish. Every handler exit keeps each of it, and
every run from initialisation then does.
-/

namespace DualCan.Uds

open DualCan.Run UdsServer

/-- The session and security fields fit together. -/
structure Access.Sound (access : Access) : Prop where
  session : access.session = sessionDefault ∨ access.session = sessionProgramming ∨
    access.session = sessionExtended
  supported : access.session ≠ sessionDefault →
    access.supportedSessionsMask &&& (1 <<< access.session) ≠ 0
  secured : access.securityUnlocked = true ∨ access.seedPending = true →
    access.session ≠ sessionDefault
  exclusive : ¬(access.securityUnlocked = true ∧ access.seedPending = true)
  attempts : access.securityAttempts < securityMaxAttempts
  mask : access.supportedSessionsMask ≠ 0

/-- The timer runs exactly outside the default session. -/
def Timer.Sound (timer : Timer) : Prop := timer.s3Active = true ↔ timer.session ≠ sessionDefault

/-- What is pending is at hand: a routine that runs, a value that the entry and the buffer have room for. -/
structure Work.Sound {σ : Type} (work : Work σ) : Prop where
  routine : work.pendingRoutineResponse = true → work.pendingRoutineIndex < work.routines.length ∧
    work.routineState work.pendingRoutineIndex = .running
  write : work.pendingDidWrite = true → ∃ entry, work.dids[work.pendingDidIndex]? = some entry ∧
    work.pendingDidData.length ≤ entry.storageCapacity ∧
    work.pendingDidData.length ≤ pendingDidDataMax

/-! ## Session and security -/

theorem zero_lt_securityMaxAttempts : 0 < securityMaxAttempts := by decide

namespace Access.Sound

variable {access : Access}

/-- A locked server may be in any session it supports. -/
theorem enter (h : access.Sound) {session : UInt8} (hsession : session = sessionDefault ∨
      session = sessionProgramming ∨ session = sessionExtended)
    (hsupported : session ≠ sessionDefault → access.supportedSessionsMask &&& (1 <<< session) ≠ 0) :
    Access.Sound { access.lock with session := session } where
  session := hsession
  supported := hsupported
  secured := by
    intro hor
    rcases hor with hfalse | hfalse
    · cases hfalse
    · cases hfalse
  exclusive := fun hboth => Bool.false_ne_true hboth.1
  attempts := zero_lt_securityMaxAttempts
  mask := h.mask

theorem lock (h : access.Sound) : access.lock.Sound := h.enter h.session h.supported

theorem expireDelay (h : access.Sound) (now : UInt32) : (access.expireDelay now).Sound := by
  unfold Access.expireDelay
  split
  · exact ⟨h.session, h.supported, h.secured, h.exclusive, zero_lt_securityMaxAttempts, h.mask⟩
  · exact h

theorem evaluate (h : access.Sound) (hsession : access.session ≠ sessionDefault)
    (now seed key : UInt32) : (access.evaluate now seed key).Sound := by
  unfold Access.evaluate
  dsimp only
  split
  · exact ⟨h.session, h.supported, fun _ => hsession, fun hboth => Bool.false_ne_true hboth.2,
      zero_lt_securityMaxAttempts, h.mask⟩
  split
  · exact ⟨h.session, h.supported, fun _ => hsession, fun hboth => Bool.false_ne_true hboth.2,
      zero_lt_securityMaxAttempts, h.mask⟩
  · rename_i hfew
    exact ⟨h.session, h.supported, fun _ => hsession, fun hboth => Bool.false_ne_true hboth.2,
      UInt8.not_le.1 hfew, h.mask⟩

theorem serve (h : access.Sound) (now : UInt32) (args : List UInt8) : (access.serve now args).Sound := by
  rcases serve_cases access now args with ⟨-, hsame | hexpired⟩ | ⟨hact, -, hserve⟩
  · rw [hsame]
    exact h
  · rw [hexpired]
    exact h.expireDelay now
  · have hsession : access.session ≠ sessionDefault := by
      intro hdefault
      exact hact (serve_of_default hdefault now args).2
    have hexp := h.expireDelay now
    have hexpSession : (access.expireDelay now).session ≠ sessionDefault := by
      rw [expireDelay_session]
      exact hsession
    rw [hserve]
    cases hcase : access.securityAct now args with
    | nothing => exact hexp
    | zeroSeed => exact hexp
    | newSeed seed =>
      have hlocked := (securityAct_newSeed hcase).1
      refine ⟨hexp.session, hexp.supported, fun _ => hexpSession, ?_, hexp.attempts, hexp.mask⟩
      rintro ⟨hunlocked, -⟩
      have hboth : access.securityUnlocked = true :=
        (expireDelay_securityUnlocked access now).symm.trans hunlocked
      rw [hlocked] at hboth
      cases hboth
    | evaluate seed key => exact hexp.evaluate hexpSession now seed key

end Access.Sound

namespace UdsServer

variable {σ : Type} {server : UdsServer σ}

/-- A session that session control enters is supported. -/
theorem requestedSession_some {args : List UInt8} {session : UInt8}
    (hmask : server.supportedSessionsMask ≠ 0) (h : server.requestedSession args = some session) :
    (session = sessionDefault ∨ session = sessionProgramming ∨ session = sessionExtended) ∧
      server.supportedSessionsMask &&& (1 <<< session) ≠ 0 := by
  unfold requestedSession at h
  split at h
  · rename_i subfunction
    dsimp only at h
    split at h
    · cases h
    rename_i hbad
    cases h
    simp only [not_or, Bool.not_eq_true', Bool.not_eq_false] at hbad
    obtain ⟨hlow, hhigh, hallowed⟩ := hbad
    generalize subfunction &&& subfunctionMask = session at hlow hhigh hallowed
    constructor
    · simp only [sessionDefault, sessionProgramming, sessionExtended, UInt8.not_lt, UInt8.le_iff_toNat_le,
        ← UInt8.toNat_inj, UInt8.reduceToNat] at hlow hhigh ⊢
      omega
    · unfold sessionAllowed at hallowed
      rw [if_neg hmask] at hallowed
      split at hallowed
      · cases hallowed
      · simpa using hallowed
  · cases h

theorem tick_sound (h : server.access.Sound) (now : UInt32) : (server.tick now).access.Sound := by
  rw [tick_access]
  split
  · exact h.enter (Or.inl rfl) (fun hne => absurd rfl hne)
  · exact h

theorem access_sound_step {s : UdsServer σ × σ} (h : s.1.access.Sound) (e : Event) :
    (step s e).1.access.Sound := by
  cases e with
  | pollPending capacity =>
    change (s.1.pollPending s.2 capacity).2.1.access.Sound
    rw [pollPending_access]
    exact h
  | lockSecurity => exact h.lock
  | tick now => exact tick_sound h now
  | process now request capacity =>
    have htick := tick_sound h now
    cases request with
    | nil => exact htick
    | cons service args =>
      rw [process_access]
      split
      · rw [sessionControl_snd]
        split
        · rename_i session hrequested
          obtain ⟨hsession, hsupported⟩ := requestedSession_some htick.mask hrequested
          rw [setSession_access]
          split
          · exact htick.enter hsession fun _ => hsupported
          · exact htick
        · exact htick
      split
      · exact htick.serve now args
      · exact htick

/-! ## The timer -/

end UdsServer

namespace Timer.Sound

variable {timer : Timer}

theorem tick (h : timer.Sound) (now : UInt32) : (timer.tick now).Sound := by
  unfold Timer.tick
  split
  · exact ⟨fun hactive => absurd hactive Bool.false_ne_true, fun hne => absurd rfl hne⟩
  · exact h

theorem perform (h : timer.Sound) (now : UInt32) (act : TimerAct) : (timer.perform now act).Sound := by
  cases act with
  | nothing => exact h
  | refresh =>
    change (timer.refresh now).Sound
    unfold Timer.refresh
    split
    · exact h
    · exact h
  | enter session =>
    change (timer.enter session now).Sound
    unfold Timer.enter
    split
    · rename_i hdefault
      exact ⟨fun hactive => absurd hactive Bool.false_ne_true, fun hne => absurd hdefault hne⟩
    · rename_i hother
      exact ⟨fun _ => hother, fun _ => rfl⟩

end Timer.Sound

namespace UdsServer

variable {σ : Type} {server : UdsServer σ}

theorem timer_sound_step {s : UdsServer σ × σ} (h : s.1.timer.Sound) (e : Event) :
    (step s e).1.timer.Sound := by
  cases e with
  | pollPending capacity =>
    change (s.1.pollPending s.2 capacity).2.1.timer.Sound
    rw [pollPending_timer]
    exact h
  | lockSecurity => exact h
  | tick now =>
    change (s.1.tick now).timer.Sound
    rw [tick_timer]
    exact h.tick now
  | process now request capacity =>
    cases request with
    | nil =>
      change (s.1.tick now).timer.Sound
      rw [tick_timer]
      exact h.tick now
    | cons service args =>
      rw [step_timer]
      exact (h.tick now).perform now _

/-! ## What is pending -/

/-- The handlers may replace the values in a table with these capacities, but not the capacities. -/
def KeepsCapacities (capacities : List ℕ) (routines : List (Routine σ)) : Prop :=
  HandlersKeep (fun dids => dids.map Did.storageCapacity = capacities) routines

/-- A write that is pending after a step was accepted by it, or was pending as it is. -/
theorem pendingDid_back {s : UdsServer σ × σ} {e : Event}
    (h : (step s e).1.pendingDidWrite = true) :
    (∃ entry, s.1.dids[(step s e).1.pendingDidIndex]? = some entry ∧
        (step s e).1.pendingDidData.length ≤ entry.storageCapacity ∧
        (step s e).1.pendingDidData.length ≤ pendingDidDataMax) ∨
      (step s e).1.pendingDid = s.1.pendingDid := by
  cases e with
  | tick now => exact Or.inr (pendingDid_of_work (s.1.tick_work now))
  | lockSecurity => exact Or.inr rfl
  | pollPending capacity =>
    have hnone : (step s (.pollPending capacity)).1.pendingDidWrite = false :=
      pollPending_pendingDidWrite s.1 s.2 capacity
    rw [hnone] at h
    cases h
  | process now request capacity =>
    cases request with
    | nil => exact Or.inr (pendingDid_of_work (s.1.tick_work now))
    | cons service args =>
      by_cases h2E : service = sidWriteDataByIdentifier
      · subst h2E
        have hwork := (respond_write now args capacity s).2.1
        rcases writeDid_cases (s.1.tick now) args capacity with
          ⟨-, nrc, -, hstep⟩ | ⟨index, entry, data, haccept, ⟨hsave, hstep⟩ | ⟨-, high, low, hstep⟩⟩
        · rw [hstep] at hwork
          exact Or.inr (pendingDid_of_work (hwork.trans (s.1.tick_work now)))
        · rw [hstep] at hwork
          have hpending : (step s (.process now (sidWriteDataByIdentifier :: args) capacity)).1.pendingDid =
              (true, index, data) := pendingDid_of_work hwork
          simp only [pendingDid, Prod.mk.injEq] at hpending
          obtain ⟨-, -, -, hget, -, -, hfits, hroom⟩ := acceptedWrite_some haccept
          rw [tick_dids] at hget
          rw [hpending.2.1, hpending.2.2]
          exact Or.inl ⟨entry, hget, hfits, hroom hsave⟩
        · rw [hstep] at hwork
          have htick : (s.1.tick now).pendingDid = s.1.pendingDid := pendingDid_of_work (s.1.tick_work now)
          exact Or.inr ((pendingDid_of_work hwork).trans htick)
      · exact Or.inr (step_pendingDid_of_other s h2E)

/-- An entry keeps its capacity when the capacities of the table stay. -/
theorem capacity_congr {dids dids' : List (Did σ)}
    (h : dids'.map Did.storageCapacity = dids.map Did.storageCapacity) {index : ℕ} {entry : Did σ}
    (hget : dids[index]? = some entry) :
    ∃ entry', dids'[index]? = some entry' ∧ entry'.storageCapacity = entry.storageCapacity := by
  have hcapacity : (dids'.map Did.storageCapacity)[index]? = some entry.storageCapacity := by
    rw [h, List.getElem?_map, hget]
    rfl
  rw [List.getElem?_map, Option.map_eq_some_iff] at hcapacity
  exact hcapacity

theorem work_sound_step {s : UdsServer σ × σ} (h : s.1.work.Sound) {e : Event}
    (hcapacities : (step s e).1.dids.map Did.storageCapacity = s.1.dids.map Did.storageCapacity) :
    (step s e).1.work.Sound := by
  constructor
  · intro hpending
    have hruns : PendingRuns s.1 := fun htrue => (h.routine htrue).2
    refine ⟨?_, hruns.step e hpending⟩
    change (step s e).1.pendingRoutineIndex < (step s e).1.routines.length
    rw [step_routines]
    rcases pends_back (s := s) (e := e) ⟨hpending, rfl⟩ with
      ⟨now, args, capacity, routine, sub, data, -, haccept, -⟩ | ⟨hbefore, hindex⟩
    · obtain ⟨-, -, -, hget, -⟩ := acceptedRoutine_some haccept
      rw [tick_routines] at hget
      exact (List.getElem?_eq_some_iff.1 hget).1
    · rw [← hindex]
      exact (h.routine hbefore).1
  · intro hpending
    have hfits : ∃ entry, s.1.dids[(step s e).1.pendingDidIndex]? = some entry ∧
        (step s e).1.pendingDidData.length ≤ entry.storageCapacity ∧
        (step s e).1.pendingDidData.length ≤ pendingDidDataMax := by
      rcases pendingDid_back hpending with haccepted | hsame
      · exact haccepted
      · simp only [pendingDid, Prod.mk.injEq] at hsame
        obtain ⟨hwrite, hindex, hdata⟩ := hsame
        rw [hindex, hdata]
        exact h.write (hwrite.symm.trans hpending)
    obtain ⟨entry, hget, hentry, hbuffer⟩ := hfits
    obtain ⟨entry', hget', hcapacity⟩ := capacity_congr hcapacities hget
    exact ⟨entry', hget', hcapacity.symm ▸ hentry, hbuffer⟩

/-! ## Every state -/

/-- What holds in every state of a server. -/
structure Sound (server : UdsServer σ) : Prop where
  access : server.access.Sound
  timer : server.timer.Sound
  work : server.work.Sound

theorem init_sound {config : UdsServerConfig σ} (h : init config = some server) : server.Sound := by
  obtain ⟨-, -, -, -, hsession, hseed, hunlocked, hattempts, -, hwrite, hroutine⟩ := init_some h
  refine ⟨⟨Or.inl hsession, fun hne => absurd hsession hne, ?_, ?_, ?_, init_mask h⟩, ?_, ?_, ?_⟩
  · intro hor
    rcases hor with htrue | htrue
    · exact absurd (hunlocked.symm.trans htrue) Bool.false_ne_true
    · exact absurd (hseed.symm.trans htrue) Bool.false_ne_true
  · rintro ⟨htrue, -⟩
    exact absurd (hunlocked.symm.trans htrue) Bool.false_ne_true
  · change server.securityAttempts < securityMaxAttempts
    rw [hattempts]
    exact zero_lt_securityMaxAttempts
  · change server.s3Active = true ↔ server.session ≠ sessionDefault
    rw [init_s3Active h, hsession]
    exact ⟨fun hfalse => absurd hfalse Bool.false_ne_true, fun hne => absurd rfl hne⟩
  · intro htrue
    exact absurd (hroutine.symm.trans htrue) Bool.false_ne_true
  · intro htrue
    exact absurd (hwrite.symm.trans htrue) Bool.false_ne_true

/-- A run from a sound state stays in sound states. -/
theorem Sound.after {s : UdsServer σ × σ} (h : s.1.Sound) {capacities : List ℕ}
    (htable : s.1.dids.map Did.storageCapacity = capacities)
    (hhandlers : KeepsCapacities capacities s.1.routines) (es : List Event) :
    (after step s es).1.Sound := by
  refine And.left (after_invariant (I := fun t : UdsServer σ × σ => t.1.Sound ∧
    t.1.routines = s.1.routines ∧ t.1.dids.map Did.storageCapacity = capacities)
    ⟨h, rfl, htable⟩ ?_ es)
  rintro t e ⟨hsound, hroutines, hbefore⟩
  have hafter : (step t e).1.dids.map Did.storageCapacity = capacities := by
    refine step_table (R := fun dids => dids.map Did.storageCapacity = capacities) ?_ ?_ hbefore
    · intro dids index entry data hget hdids
      rw [set_data_map (fun _ _ => rfl) data hget]
      exact hdids
    · rw [hroutines]
      exact hhandlers
  exact ⟨⟨access_sound_step hsound.access e, timer_sound_step hsound.timer e,
    work_sound_step hsound.work (hafter.trans hbefore.symm)⟩,
    (step_routines t e).trans hroutines, hafter⟩

/-- **Every state of a server is sound**, when the routine handlers keep the capacities of the table. -/
theorem after_sound {config : UdsServerConfig σ} (env : σ) (hinit : init config = some server)
    (hhandlers : KeepsCapacities (config.dids.map Did.storageCapacity) config.routines)
    (es : List Event) : (after step (server, env) es).1.Sound := by
  obtain ⟨hdids, hroutines, -⟩ := init_some hinit
  apply Sound.after (init_sound hinit)
  · rw [hdids]
  · rw [hroutines]
    exact hhandlers

theorem keepsCapacities_storedConfig :
    KeepsCapacities (storedConfig.dids.map Did.storageCapacity) storedConfig.routines := by
  intro routine hmem subfunction data capacity env dids htable
  rw [List.mem_singleton.1 hmem]
  exact htable

/-- A write and a response pending at once. -/
theorem after_sound_writeAndResults :
    (after step (storedServer, ())
      [writeEvent 0x01 0x00 0xAA, .process 0 [sidRoutineControl, routineStart, 0x02, 0x03] 16,
        resultsEvent]).1.Sound :=
  after_sound () init_storedConfig keepsCapacities_storedConfig _

end UdsServer

/-! ## The ECU -/

section
variable {τ : Type} {variant : UdsEcuVariant} {storage : Option (UdsDidStorage τ)}
  {hooks : UdsEcuHooks τ} {world : τ} {s : UdsServer (EcuEnv τ) × EcuEnv τ}

theorem resetDids_capacities (variant : UdsEcuVariant) (storage : Option (UdsDidStorage τ)) (world : τ) :
    (resetDids variant storage world).map Did.storageCapacity =
      [didVinCapacity, 0, didCustomCapacity, didDtcCapacity, 0, 0] := by
  have hspec := congrArg (List.map Did.storageCapacity) (resetDids_spec variant storage world)
  rw [List.map_map] at hspec
  exact hspec

/-- Every state of the ECU is sound. -/
theorem ecu_sound (h : initWithHooks variant storage hooks world = some s) (es : List Event) :
    (after UdsServer.step s es).1.Sound := by
  have hbuilt := Built.init h
  obtain ⟨server, hinit, rfl⟩ := Option.map_eq_some_iff.1 h
  obtain ⟨hdids, hroutines, -⟩ := init_some hinit
  have htable : server.dids.map Did.storageCapacity =
      [didVinCapacity, 0, didCustomCapacity, didDtcCapacity, 0, 0] := by
    rw [hdids]
    exact resetDids_capacities variant storage world
  refine UdsServer.Sound.after (init_sound hinit) htable ?_ es
  rw [hbuilt.routines]
  exact handlersKeep_of_reset (resetDids_capacities variant storage)

end

end DualCan.Uds
