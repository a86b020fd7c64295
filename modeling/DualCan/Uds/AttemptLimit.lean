import DualCan.Uds.Security

/-!
# The limit on wrong keys

The count of wrong keys is a property of a run: those compared since the server started, since the last
right key, or since a delay last started. The server's counter falls behind it where a lock wipes it, and a
delay whose deadline falls on the value 0 does not count as running. In a run without these two the counter
is the count, and the third wrong key closes security access for the whole delay.
-/

namespace DualCan.Uds

open DualCan.Clock DualCan.Run

namespace UdsServer

variable {σ : Type}

/-- The event reads no clock, or one less than the security delay after `start`. -/
def Event.within (start : UInt32) : Event → Bool
  | .process now _ _ => now - start < securityDelayMs
  | _ => true

/-- A delay started by the event has the deadline 0. -/
def Event.zeroDeadline : Event → Bool
  | .process now _ _ => now + securityDelayMs = 0
  | _ => false

def wrongKey (s : UdsServer σ × σ) (e : Event) : Bool := (act s e).wrong s.1.securitySalt

def rightKey (s : UdsServer σ × σ) (e : Event) : Bool := (act s e).right s.1.securitySalt

/-- The wrong key that starts the delay. -/
def startsDelay (s : UdsServer σ × σ) : Event → Bool
  | .process now request capacity =>
    wrongKey s (.process now request capacity) &&
      (s.1.access.expireDelay now).securityAttempts + 1 ≥ securityMaxAttempts
  | _ => false

/-- The wrong keys compared since the start of the run, the last right key and the last start of a
delay. -/
def wrongKeys (s : UdsServer σ × σ) (es : List Event) : ℕ :=
  tally step s wrongKey (fun t e => rightKey t e || startsDelay t e) es

/-- The step issues no seed, compares no key and is not answered with a positive response to one of
these. -/
def closed (s : UdsServer σ × σ) (e : Event) : Bool :=
  !(act s e).issues && !(act s e).evaluates && !(respond s e).1.grants

/-- After the third wrong key, security access stays closed until the delay is over. -/
def AttemptLimit (s : UdsServer σ × σ) (es : List Event) : Prop :=
  ∀ a now request capacity b f c, es = a ++ .process now request capacity :: (b ++ f :: c) →
    wrongKey (after step s a) (.process now request capacity) = true →
    wrongKeys s a + 1 = securityMaxAttempts.toNat →
    (∀ e ∈ b ++ [f], e.within now = true) →
    closed (after step s (a ++ .process now request capacity :: b)) f = true

/-- The step wipes no running count, and starts no delay with the deadline 0. -/
def keepsCount (s : UdsServer σ × σ) (e : Event) : Bool :=
  (!locks s e || s.1.securityAttempts = 0) && !(startsDelay s e && e.zeroDeadline)

/-- The counter holds the count, and a delay runs only with the counter at 0. -/
structure Counted (access : Access) (count : ℕ) : Prop where
  attempts : access.securityAttempts.toNat = count
  delay : access.securityDelayUntilMs ≠ 0 → access.securityAttempts = 0
  lt : count < 3

theorem Counted.expireDelay {access : Access} {count : ℕ} (h : Counted access count) (now : UInt32) :
    Counted (access.expireDelay now) count ∧
      (access.expireDelay now).securityAttempts = access.securityAttempts := by
  unfold Access.expireDelay
  split
  · rename_i hover
    have hzero := h.delay hover.1
    refine ⟨⟨?_, fun h => absurd rfl h, h.lt⟩, hzero.symm⟩
    rw [← h.attempts, hzero]
  · exact ⟨h, rfl⟩

theorem expireDelay_of_inactive {access : Access} {now : UInt32}
    (h : access.delayActive now = false) :
    (access.expireDelay now).securityDelayUntilMs = 0 := by
  unfold Access.expireDelay
  unfold Access.delayActive at h
  split
  · rfl
  · simp_all

/-- A step that compares no key counts nothing. -/
theorem not_key_of_not_evaluates {s : UdsServer σ × σ} {e : Event} (h : (act s e).evaluates = false) :
    wrongKey s e = false ∧ rightKey s e = false ∧ startsDelay s e = false := by
  have hwrong : wrongKey s e = false := by
    unfold wrongKey
    cases hact : act s e with
    | evaluate seed key => rw [hact] at h; cases h
    | _ => rfl
  refine ⟨hwrong, ?_, ?_⟩
  · unfold rightKey
    cases hact : act s e with
    | evaluate seed key => rw [hact] at h; cases h
    | _ => rfl
  · cases e with
    | process now request capacity => simp [startsDelay, hwrong]
    | _ => rfl

/-- A step that compares no key keeps the count, unless it wipes a counter that is not 0. -/
theorem Counted.step_other {s : UdsServer σ × σ} {count : ℕ} {e : Event} (h : Counted s.1.access count)
    (hwiped : locks s e = false ∨ s.1.securityAttempts = 0) (hev : (act s e).evaluates = false) :
    Counted (step s e).1.access count := by
  rcases step_cases s e with ⟨-, hlock, session, ha⟩ | ⟨-, -, ha | ⟨now, -, -, -, ha⟩⟩ |
    ⟨hact, -, now, args, capacity, -, -, -, ha⟩
  · have hzero : s.1.access.securityAttempts = 0 := by
      rcases hwiped with h | h
      · rw [hlock] at h
        cases h
      · exact h
    rw [ha]
    refine ⟨?_, fun _ => rfl, h.lt⟩
    rw [← h.attempts, hzero]
    rfl
  · rw [ha]
    exact h
  · rw [ha]
    exact (h.expireDelay now).1
  · have hcounted := (h.expireDelay now).1
    rw [ha]
    cases hstep : act s e with
    | evaluate seed key => rw [hstep] at hev; cases hev
    | newSeed seed => exact ⟨hcounted.attempts, hcounted.delay, hcounted.lt⟩
    | _ => exact hcounted

/-- A running delay has the counter at 0, so the third wrong key meets none. -/
theorem Counted.step_key {s : UdsServer σ × σ} {count : ℕ} {e : Event} (h : Counted s.1.access count)
    (hev : (act s e).evaluates = true) :
    Counted (step s e).1.access (if (rightKey s e || startsDelay s e) = true then 0
      else if wrongKey s e = true then count + 1 else count) := by
  obtain ⟨seed, key, hact⟩ : ∃ seed key, act s e = .evaluate seed key := by
    cases hact : act s e with
    | evaluate seed key => exact ⟨seed, key, rfl⟩
    | _ => rw [hact] at hev; cases hev
  obtain ⟨-, -, -, -, now, sub, k0, k1, k2, k3, capacity, rfl, -, -, hdelay, ha⟩ := act_evaluate hact
  have hcounted := h.expireDelay now
  rw [ha]
  have hsalt : (s.1.access.expireDelay now).securitySalt = s.1.securitySalt :=
    expireDelay_securitySalt ..
  rcases evaluate_cases (s.1.access.expireDelay now) now seed key with
    ⟨hkey, he⟩ | ⟨hkey, hlast, he⟩ | ⟨hkey, hlast, he⟩
  · rw [hsalt] at hkey
    have hright : rightKey s (.process now [sidSecurityAccess, sub, k0, k1, k2, k3] capacity) =
        true := by
      simp [rightKey, hact, SecurityAct.right, hkey]
    rw [he, hright, Bool.true_or, if_pos rfl]
    exact ⟨rfl, fun h => absurd rfl h, by omega⟩
  · rw [hsalt] at hkey
    have hstart : startsDelay s (.process now [sidSecurityAccess, sub, k0, k1, k2, k3] capacity) =
        true := by
      simp only [startsDelay, wrongKey, hact, SecurityAct.wrong, Bool.and_eq_true,
        decide_eq_true_eq]
      exact ⟨hkey, hlast⟩
    rw [he, hstart, Bool.or_true, if_pos rfl]
    exact ⟨rfl, fun _ => rfl, by omega⟩
  · rw [hsalt] at hkey
    have hright : rightKey s (.process now [sidSecurityAccess, sub, k0, k1, k2, k3] capacity) =
        false := by
      simp [rightKey, hact, SecurityAct.right, hkey]
    have hstart : startsDelay s (.process now [sidSecurityAccess, sub, k0, k1, k2, k3] capacity) =
        false := by
      simp only [startsDelay, Bool.and_eq_false_iff, decide_eq_false_iff_not]
      exact Or.inr hlast
    have hwrong : wrongKey s (.process now [sidSecurityAccess, sub, k0, k1, k2, k3] capacity) =
        true := by
      simp [wrongKey, hact, SecurityAct.wrong, hkey]
    rw [he, hright, hstart, hwrong, Bool.or_false, if_neg Bool.false_ne_true, if_pos rfl]
    have hcount := hcounted.1.attempts
    have hlt := hcounted.1.lt
    have hadd : ((s.1.access.expireDelay now).securityAttempts + 1).toNat = count + 1 := by
      rw [UInt8.toNat_add, hcount]
      simp only [UInt8.reduceToNat]
      omega
    refine ⟨hadd, fun hne => absurd (expireDelay_of_inactive hdelay) hne, ?_⟩
    rw [ge_iff_le, UInt8.le_iff_toNat_le, hadd] at hlast
    simp only [securityMaxAttempts, UInt8.reduceToNat] at hlast
    omega

theorem Counted.step {s : UdsServer σ × σ} {count : ℕ} {e : Event} (h : Counted s.1.access count)
    (hkeep : keepsCount s e = true) :
    Counted (step s e).1.access (if (rightKey s e || startsDelay s e) = true then 0
      else if wrongKey s e = true then count + 1 else count) := by
  simp only [keepsCount, Bool.and_eq_true, Bool.or_eq_true, Bool.not_eq_true', decide_eq_true_eq] at hkeep
  cases hev : (act s e).evaluates with
  | false =>
    obtain ⟨hwrong, hright, hstart⟩ := not_key_of_not_evaluates hev
    rw [hwrong, hright, hstart, Bool.or_false, if_neg Bool.false_ne_true, if_neg Bool.false_ne_true]
    exact h.step_other hkeep.1 hev
  | true => exact h.step_key hev

/-- In a run that wipes no running count, the counter is the count. -/
theorem counted {config : UdsServerConfig σ} {server : UdsServer σ} (env : σ)
    (hinit : init config = some server) (es : List Event)
    (hkeep : AllSteps step (server, env) (fun t e => keepsCount t e = true) es) :
    Counted (after step (server, env) es).1.access (wrongKeys (server, env) es) := by
  induction es using List.reverseRecOn with
  | nil =>
    obtain ⟨-, -, -, -, -, -, -, hattempts, hdelay, -⟩ := init_some hinit
    refine ⟨?_, fun h => absurd hdelay h, Nat.zero_lt_succ 2⟩
    show server.securityAttempts.toNat = 0
    rw [hattempts]
    rfl
  | append_singleton es e ih =>
    rw [allSteps_snoc] at hkeep
    unfold wrongKeys
    rw [tally_snoc, after_snoc]
    exact (ih hkeep.1).step hkeep.2

theorem wrongKey_act {s : UdsServer σ × σ} {e : Event} (h : wrongKey s e = true) :
    ∃ seed key, act s e = .evaluate seed key ∧ key ≠ computeKey seed s.1.securitySalt := by
  unfold wrongKey at h
  cases hact : act s e with
  | evaluate seed key =>
    rw [hact] at h
    exact ⟨seed, key, rfl, by simpa [SecurityAct.wrong] using h⟩
  | _ => rw [hact] at h; cases h

/-- A started delay has its deadline recorded. -/
theorem startsDelay_delay {s : UdsServer σ × σ} {now : UInt32} {request : List UInt8} {capacity : ℕ}
    (h : startsDelay s (.process now request capacity) = true) :
    (step s (.process now request capacity)).1.access.securityDelayUntilMs = now + securityDelayMs := by
  simp only [startsDelay, Bool.and_eq_true, decide_eq_true_eq] at h
  obtain ⟨hwrong, hlast⟩ := h
  obtain ⟨seed, key, hact, hne⟩ := wrongKey_act hwrong
  obtain ⟨-, -, -, -, t, sub, k0, k1, k2, k3, c, he, -, -, -, ha⟩ := act_evaluate hact
  cases he
  rw [ha]
  rcases evaluate_cases (s.1.access.expireDelay now) now seed key with
    ⟨hkey, -⟩ | ⟨-, -, hev⟩ | ⟨-, hnot, -⟩
  · rw [expireDelay_securitySalt] at hkey
    exact absurd hkey hne
  · rw [hev]
  · exact absurd hlast hnot

/-- The third wrong key starts the delay. -/
theorem third_starts_delay {s : UdsServer σ × σ} {now : UInt32} {request : List UInt8} {capacity : ℕ}
    (h : Counted s.1.access 2) (hkeep : keepsCount s (.process now request capacity) = true)
    (hwrong : wrongKey s (.process now request capacity) = true) :
    (step s (.process now request capacity)).1.access.securityDelayUntilMs = now + securityDelayMs ∧
      now + securityDelayMs ≠ 0 := by
  have hlast : (s.1.access.expireDelay now).securityAttempts + 1 ≥ securityMaxAttempts := by
    rw [(h.expireDelay now).2, ge_iff_le, UInt8.le_iff_toNat_le, UInt8.toNat_add, h.attempts]
    decide
  have hstart : startsDelay s (.process now request capacity) = true := by
    simp [startsDelay, hwrong, hlast]
  refine ⟨startsDelay_delay hstart, ?_⟩
  simp only [keepsCount, hstart, Event.zeroDeadline, Bool.true_and, Bool.and_eq_true,
    Bool.not_eq_true', decide_eq_false_iff_not] at hkeep
  exact hkeep.2

theorem not_reached_of_within {now start : UInt32} (h : now - start < securityDelayMs) :
    reached now (start + securityDelayMs) = false := by
  have hnow := now.toNat_lt
  have hstart := start.toNat_lt
  simp only [securityDelayMs, reached, decide_eq_false_iff_not, UInt32.lt_iff_toNat_lt,
    UInt32.toNat_sub, UInt32.toNat_add, UInt32.reduceToNat] at h ⊢
  omega

/-- While the delay runs no step performs a security access or ends the delay. -/
theorem delay_kept {s : UdsServer σ × σ} {start : UInt32} {e : Event}
    (hne : start + securityDelayMs ≠ 0)
    (h : s.1.access.securityDelayUntilMs = start + securityDelayMs) (hwithin : e.within start = true) :
    act s e = .nothing ∧
      (step s e).1.access.securityDelayUntilMs = start + securityDelayMs := by
  have hrunning : ∀ now request capacity, e = .process now request capacity →
      reached now s.1.access.securityDelayUntilMs = false := by
    rintro now request capacity rfl
    rw [h]
    exact not_reached_of_within (by simpa [Event.within] using hwithin)
  rcases step_cases s e with ⟨hact, -, session, ha⟩ |
    ⟨hact, -, ha | ⟨now, request, capacity, he, ha⟩⟩ |
    ⟨-, -, now, args, capacity, he, -, hdelay, -⟩
  · exact ⟨hact, by rw [ha]; exact h⟩
  · exact ⟨hact, by rw [ha]; exact h⟩
  · refine ⟨hact, ?_⟩
    rw [ha, Access.expireDelay, if_neg]
    · exact h
    · rintro ⟨-, hover⟩
      rw [hrunning _ _ _ he] at hover
      cases hover
  · have hactive : s.1.access.delayActive now = true := by
      unfold Access.delayActive
      rw [hrunning _ _ _ he, h]
      simpa using hne
    rw [hactive] at hdelay
    cases hdelay

theorem delay_kept_run {s : UdsServer σ × σ} {start : UInt32} (hne : start + securityDelayMs ≠ 0)
    (h : s.1.access.securityDelayUntilMs = start + securityDelayMs) (es : List Event)
    (hwithin : ∀ e ∈ es, e.within start = true) :
    (after step s es).1.access.securityDelayUntilMs = start + securityDelayMs := by
  induction es generalizing s with
  | nil => exact h
  | cons e es ih =>
    rw [after_cons]
    exact ih (delay_kept hne h (hwithin e List.mem_cons_self)).2
      (fun x hx => hwithin x (List.mem_cons_of_mem e hx))

/-- **The limit on wrong keys** holds in every run whose steps wipe no running count and start no delay
with the deadline 0. -/
theorem attemptLimit_of_kept {config : UdsServerConfig σ} {server : UdsServer σ} (env : σ)
    (hinit : init config = some server) (es : List Event)
    (hkeep : AllSteps step (server, env) (fun t e => keepsCount t e = true) es) :
    AttemptLimit (server, env) es := by
  rintro a now request capacity b f c rfl hwrong hcount hwithin
  rw [allSteps_append, allSteps_cons] at hkeep
  have hcounted := counted env hinit a hkeep.1
  rw [Nat.succ.inj hcount] at hcounted
  obtain ⟨hdelay, hne⟩ := third_starts_delay hcounted hkeep.2.1 hwrong
  have hkept := delay_kept_run hne hdelay b (fun e he => hwithin e (List.mem_append_left _ he))
  have hact := (delay_kept hne hkept (hwithin f (List.mem_append_right _ List.mem_cons_self))).1
  have hreply := respond_grants hact
  rw [after_append, after_cons, closed, hact, hreply]
  rfl

/-! ## Three wrong keys -/

def badKeyEvent : Event := .process 0 [sidSecurityAccess, securitySendKey, 0, 0, 0, 0] 16

def twoBadKeys : List Event :=
  [enterSession sessionExtended, requestSeedEvent, badKeyEvent, requestSeedEvent, badKeyEvent]

/-- Three wrong keys in one session close security access. -/
theorem attemptLimit_threeBadKeys :
    closed (after step (bareServer, ()) (twoBadKeys ++ [requestSeedEvent, badKeyEvent]))
      requestSeedEvent = true :=
  attemptLimit_of_kept () init_bareConfig
    (twoBadKeys ++ [requestSeedEvent, badKeyEvent, requestSeedEvent]) (by decide +kernel)
    (twoBadKeys ++ [requestSeedEvent]) 0 _ _ [] requestSeedEvent [] rfl (by decide +kernel)
    (by decide +kernel) (by decide +kernel)

/-- A change of session after two wrong keys wipes the count: the third is answered like a first, and a
seed goes out at once. -/
theorem not_attemptLimit_sessionChange : ¬AttemptLimit (bareServer, ())
    (twoBadKeys ++
      [enterSession sessionProgramming, requestSeedEvent, badKeyEvent, requestSeedEvent]) := by
  intro h
  have hclosed := h (twoBadKeys ++ [enterSession sessionProgramming, requestSeedEvent]) 0 _ _ []
    requestSeedEvent [] rfl (by decide +kernel) (by decide +kernel) (by decide +kernel)
  exact absurd hclosed (by decide +kernel)

end UdsServer

end DualCan.Uds
