import DualCan.Uds.Invariant

/-!
# The S3 timeout

When a session ends by timeout, in real time. An observer of the calls notes the session last asked for and
the times of its refreshes; the session lasts as long as no two of these times, and no last one and now, are
`s3ServerMs` or more apart. The server keeps one wrapped deadline instead and looks at it only when it is
called, which is the same while it is called often enough.
-/

namespace DualCan.Uds

open DualCan.Clock DualCan.Run

/-! ## The observer -/

/-- Each of the times, newest first, is less than `limit` after the one before it. -/
def Unbroken (limit : ℕ) (times : List ℕ) : Prop :=
  times.IsChain fun later earlier => later < earlier + limit

instance (limit : ℕ) (times : List ℕ) : Decidable (Unbroken limit times) :=
  inferInstanceAs (Decidable (times.IsChain _))

/-- A session that was asked for, with the times of that request and of the refreshes since, newest first. -/
structure Selection where
  session : UInt8
  refreshed : List ℕ
  deriving DecidableEq

/-- The session that what was selected amounts to at the time `t`. -/
def sessionAt (limit t : ℕ) : Option Selection → UInt8
  | none => sessionDefault
  | some selection =>
    if selection.session = sessionDefault ∨ Unbroken limit (t :: selection.refreshed) then
      selection.session
    else sessionDefault

/-- What an act on the timer at the time `t` makes of what was selected. -/
def select (t : ℕ) (selection : Option Selection) : TimerAct → Option Selection
  | .nothing => selection
  | .enter session => some ⟨session, [t]⟩
  | .refresh => selection.map fun selection => { selection with refreshed := t :: selection.refreshed }

/-- A server, what was selected so far, and the time of the last call that read the clock. -/
structure Watched (σ : Type) where
  state : UdsServer σ × σ
  selection : Option Selection
  last : Option ℕ

namespace Watched

variable {σ : Type}

/-- The selection after a call. Accepted session control selects; accepted tester present refreshes, and so
do the requests for services 0x22, 0x27, 0x2E and 0x31 that are answered positively or with NRC 0x78. -/
def observe (w : Watched σ) (c : Call) : Option Selection :=
  match c with
  | .process time (service :: args) _ =>
    select time w.selection
      (w.state.1.timerAct args (UdsServer.respond w.state c.event).1 service)
  | _ => w.selection

def step (w : Watched σ) (c : Call) : Watched σ where
  state := UdsServer.step w.state c.event
  selection := w.observe c
  last := c.time.or w.last

/-- The calls that read the clock follow each other in time, less than half its range minus the S3 time
apart. -/
def Paced (w : Watched σ) (c : Call) : Prop :=
  ∀ last ∈ w.last, ∀ time ∈ c.time,
    last ≤ time ∧ time < last + (2 ^ 31 - w.state.1.s3ServerMs.toNat)

/-- The call is the first to find that the session last selected has gone too long without a refresh. -/
def Expires (w : Watched σ) (c : Call) : Prop :=
  w.state.1.session ≠ sessionDefault ∧ ∃ time ∈ c.time, ∃ selection ∈ w.selection,
    ¬Unbroken w.state.1.s3ServerMs.toNat (time :: selection.refreshed)

end Watched

/-! ## The timer follows the observer -/

theorem Unbroken.tail {limit t : ℕ} {times : List ℕ} (h : Unbroken limit (t :: times)) :
    Unbroken limit times := by
  cases times with
  | nil => exact .nil
  | cons newest older => exact (List.isChain_cons_cons.1 h).2

/-- A stretch that is too long stays too long. -/
theorem Unbroken.earlier {limit t u : ℕ} {times : List ℕ} (htu : t ≤ u)
    (h : Unbroken limit (u :: times)) : Unbroken limit (t :: times) := by
  cases times with
  | nil => exact .singleton _
  | cons newest older =>
    obtain ⟨hnewest, hchain⟩ := List.isChain_cons_cons.1 h
    exact List.isChain_cons_cons.2 ⟨Nat.lt_of_le_of_lt htu hnewest, hchain⟩

/-- The timer after a call at the time `last`, given what was selected: it runs for a session that has been
refreshed in time, or it is stopped and the session is the default one. -/
structure Timer.Follows (timer : Timer) (selection : Option Selection) (last : Option ℕ) : Prop where
  running : timer.s3Active = true → ∃ newest older now,
    selection = some ⟨timer.session, newest :: older⟩ ∧ last = some now ∧
      timer.session ≠ sessionDefault ∧ Unbroken timer.s3ServerMs.toNat (newest :: older) ∧
      newest ≤ now ∧ now < newest + timer.s3ServerMs.toNat ∧
      timer.s3DeadlineMs = Clock.tick newest + timer.s3ServerMs.toUInt32
  stopped : timer.s3Active = false → timer.session = sessionDefault ∧
    ∀ selected ∈ selection, selected.session = sessionDefault ∨
      ∃ now ∈ last, ¬Unbroken timer.s3ServerMs.toNat (now :: selected.refreshed)

namespace Timer.Follows

variable {timer : Timer} {selection : Option Selection} {last : Option ℕ} {t : ℕ}

/-- The session is the one that was selected, as far as it has been refreshed in time. -/
theorem session_eq (h : timer.Follows selection (some t)) :
    timer.session = sessionAt timer.s3ServerMs.toNat t selection := by
  cases hactive : timer.s3Active with
  | true =>
    obtain ⟨newest, older, now, rfl, hnow, hother, hchain, hle, hlt, -⟩ := h.running hactive
    cases hnow
    refine (if_pos (Or.inr ?_)).symm
    exact List.isChain_cons_cons.2 ⟨hlt, hchain⟩
  | false =>
    obtain ⟨hdefault, hselected⟩ := h.stopped hactive
    rw [hdefault]
    cases selection with
    | none => rfl
    | some selected =>
      by_cases hsession : selected.session = sessionDefault
      · exact (if_pos (Or.inl hsession)).trans hsession |>.symm
      rcases hselected selected rfl with hdefault | ⟨now, hnow, hbroken⟩
      · exact absurd hdefault hsession
      · cases hnow
        exact (if_neg (not_or.2 ⟨hsession, hbroken⟩)).symm

/-- A tick that comes soon enough finds the timer expired exactly when the stretch up to it is too long. -/
theorem expired_iff (h : timer.Follows selection last)
    (hpaced : ∀ now ∈ last, now ≤ t ∧ t < now + (2 ^ 31 - timer.s3ServerMs.toNat)) :
    timer.expired (Clock.tick t) = true ↔ timer.session ≠ sessionDefault ∧
      ∃ selected ∈ selection, ¬Unbroken timer.s3ServerMs.toNat (t :: selected.refreshed) := by
  unfold Timer.expired
  cases hactive : timer.s3Active with
  | false =>
    refine iff_of_false Bool.false_ne_true ?_
    rintro ⟨hother, -⟩
    exact hother (h.stopped hactive).1
  | true =>
    obtain ⟨newest, older, now, rfl, rfl, hother, hchain, hle, hlt, hdeadline⟩ := h.running hactive
    obtain ⟨hafter, hsoon⟩ := hpaced now rfl
    have hs3 := timer.s3ServerMs.toNat_lt
    have hhalf : t < newest + 2 ^ 31 := by omega
    rw [Bool.true_and, hdeadline, reached_tick _ (Nat.le_trans hle hafter) hhalf, decide_eq_true_eq]
    constructor
    · intro hpast
      refine ⟨hother, _, rfl, ?_⟩
      intro hunbroken
      have hnewest := (List.isChain_cons_cons.1 hunbroken).1
      omega
    · rintro ⟨-, selected, hselected, hbroken⟩
      cases hselected
      by_contra hbefore
      exact hbroken (List.isChain_cons_cons.2 ⟨by omega, hchain⟩)

theorem tick (h : timer.Follows selection last)
    (hpaced : ∀ now ∈ last, now ≤ t ∧ t < now + (2 ^ 31 - timer.s3ServerMs.toNat)) :
    (timer.tick (Clock.tick t)).Follows selection (some t) := by
  have hexpired := h.expired_iff hpaced
  unfold Timer.tick
  split
  · rename_i hpast
    obtain ⟨-, selected, hselected, hbroken⟩ := hexpired.1 hpast
    refine ⟨fun hactive => absurd hactive Bool.false_ne_true, fun _ => ⟨rfl, ?_⟩⟩
    intro other hother
    cases hselected.symm.trans hother
    exact Or.inr ⟨t, rfl, hbroken⟩
  · rename_i hbefore
    constructor
    · intro hactive
      obtain ⟨newest, older, now, hselection, rfl, hother, hchain, hle, -, hdeadline⟩ := h.running hactive
      obtain ⟨hafter, -⟩ := hpaced now rfl
      refine ⟨newest, older, t, hselection, rfl, hother, hchain, Nat.le_trans hle hafter, ?_, hdeadline⟩
      by_contra hlate
      refine hbefore (hexpired.2 ⟨hother, _, hselection, ?_⟩)
      intro hunbroken
      exact hlate (List.isChain_cons_cons.1 hunbroken).1
    · intro hstopped
      obtain ⟨hdefault, hselected⟩ := h.stopped hstopped
      refine ⟨hdefault, ?_⟩
      intro selected hmem
      rcases hselected selected hmem with hsession | ⟨now, hnow, hbroken⟩
      · exact Or.inl hsession
      · obtain ⟨hafter, -⟩ := hpaced now hnow
        exact Or.inr ⟨t, rfl, fun hunbroken => hbroken (hunbroken.earlier hafter)⟩

theorem perform (hs3 : timer.s3ServerMs ≠ 0) (h : timer.Follows selection (some t)) (act : TimerAct) :
    (timer.perform (Clock.tick t) act).Follows (select t selection act) (some t) := by
  have hpositive : 0 < timer.s3ServerMs.toNat := by
    apply Nat.pos_of_ne_zero
    intro hzero
    exact hs3 (UInt16.toNat_inj.1 hzero)
  cases act with
  | nothing => exact h
  | enter session =>
    change (timer.enter session (Clock.tick t)).Follows (some ⟨session, [t]⟩) (some t)
    unfold Timer.enter
    split
    · rename_i hdefault
      refine ⟨fun hactive => absurd hactive Bool.false_ne_true, fun _ => ⟨hdefault, ?_⟩⟩
      rintro selected ⟨⟩
      exact Or.inl hdefault
    · rename_i hother
      refine ⟨fun _ => ⟨t, [], t, rfl, rfl, hother, .singleton _, Nat.le_refl t, ?_, rfl⟩, nofun⟩
      exact Nat.lt_add_of_pos_right hpositive
  | refresh =>
    change (timer.refresh (Clock.tick t)).Follows (select t selection .refresh) (some t)
    unfold Timer.refresh
    cases hactive : timer.s3Active with
    | true =>
      obtain ⟨newest, older, now, rfl, hnow, hother, hchain, hle, hlt, -⟩ := h.running hactive
      cases hnow
      rw [if_pos rfl]
      refine ⟨fun _ => ⟨t, newest :: older, t, rfl, rfl, hother, ?_, Nat.le_refl t, ?_, rfl⟩, nofun⟩
      · exact List.isChain_cons_cons.2 ⟨hlt, hchain⟩
      · exact Nat.lt_add_of_pos_right hpositive
    | false =>
      obtain ⟨hdefault, hselected⟩ := h.stopped hactive
      rw [if_neg Bool.false_ne_true]
      refine ⟨fun hrunning => absurd (hrunning.symm.trans hactive) (by decide), ?_⟩
      refine fun _ => ⟨hdefault, ?_⟩
      intro refreshed hmem
      obtain ⟨selected, hselection, rfl⟩ := Option.map_eq_some_iff.1 hmem
      rcases hselected selected hselection with hsession | ⟨now, hnow, hbroken⟩
      · exact Or.inl hsession
      · cases hnow
        exact Or.inr ⟨t, rfl, fun hunbroken => hbroken hunbroken.tail⟩

end Timer.Follows

/-! ## Calls -/

open UdsServer

variable {σ : Type}

theorem tick_timerAct (server : UdsServer σ) (now : UInt32) (args : List UInt8) (reply : Reply)
    (service : UInt8) :
    (server.tick now).timerAct args reply service = server.timerAct args reply service := by
  have hmask : (server.tick now).supportedSessionsMask = server.supportedSessionsMask :=
    congrArg Access.supportedSessionsMask (server.tick_access now) |>.trans (by split <;> rfl)
  unfold timerAct requestedSession
  rw [hmask]

/-- An act changes neither the S3 time nor the count of timeouts. -/
theorem perform_kept (timer : Timer) (now : UInt32) (act : TimerAct) :
    (timer.perform now act).s3ServerMs = timer.s3ServerMs ∧
      (timer.perform now act).sessionTimeoutCount = timer.sessionTimeoutCount := by
  cases act with
  | nothing => exact ⟨rfl, rfl⟩
  | enter session =>
    change (timer.enter session now).s3ServerMs = _ ∧ (timer.enter session now).sessionTimeoutCount = _
    unfold Timer.enter
    split <;> exact ⟨rfl, rfl⟩
  | refresh =>
    change (timer.refresh now).s3ServerMs = _ ∧ (timer.refresh now).sessionTimeoutCount = _
    unfold Timer.refresh
    split <;> exact ⟨rfl, rfl⟩

theorem timer_tick_s3ServerMs (timer : Timer) (now : UInt32) :
    (timer.tick now).s3ServerMs = timer.s3ServerMs := by
  unfold Timer.tick
  split <;> rfl

namespace Watched

/-- What holds of a watched server after every paced run. -/
structure Follows (w : Watched σ) : Prop where
  timer : w.state.1.timer.Follows w.selection w.last
  s3 : w.state.1.s3ServerMs ≠ 0

/-- The timer after a call that reads the clock: its tick, then an act that the observer sees too. -/
theorem step_timer {w : Watched σ} {c : Call} {time : ℕ} (htime : c.time = some time) :
    ∃ act, (w.step c).state.1.timer =
        (w.state.1.timer.tick (Clock.tick time)).perform (Clock.tick time) act ∧
      (w.step c).selection = select time w.selection act := by
  cases c with
  | pollPending capacity => cases htime
  | lockSecurity => cases htime
  | tick t =>
    cases htime
    exact ⟨.nothing, UdsServer.tick_timer .., rfl⟩
  | process t request capacity =>
    cases htime
    cases request with
    | nil => exact ⟨.nothing, UdsServer.tick_timer .., rfl⟩
    | cons service args =>
      refine ⟨w.state.1.timerAct args
        (respond w.state (.process (Clock.tick time) (service :: args) capacity)).1 service, ?_, rfl⟩
      rw [← tick_timerAct w.state.1 (Clock.tick time)]
      exact UdsServer.step_timer ..

/-- A call that does not read the clock leaves the timer and the selection alone. -/
theorem step_timer_of_untimed {w : Watched σ} {c : Call} (htime : c.time = none) :
    (w.step c).state.1.timer = w.state.1.timer ∧ (w.step c).selection = w.selection ∧
      (w.step c).last = w.last := by
  cases c with
  | pollPending capacity => exact ⟨pollPending_timer .., rfl, rfl⟩
  | lockSecurity => exact ⟨rfl, rfl, rfl⟩
  | tick t => cases htime
  | process t request capacity => cases htime

theorem step_last {w : Watched σ} {c : Call} {time : ℕ} (htime : c.time = some time) :
    (w.step c).last = some time := by
  change c.time.or w.last = some time
  rw [htime]
  rfl

theorem Follows.step {w : Watched σ} {c : Call} (h : w.Follows) (hpaced : w.Paced c) :
    (w.step c).Follows := by
  cases htime : c.time with
  | none =>
    obtain ⟨htimer, hselection, hlast⟩ := step_timer_of_untimed (w := w) htime
    have hs3 : (w.step c).state.1.s3ServerMs = w.state.1.s3ServerMs :=
      congrArg Timer.s3ServerMs htimer
    refine ⟨?_, hs3 ▸ h.s3⟩
    rw [htimer, hselection, hlast]
    exact h.timer
  | some time =>
    obtain ⟨act, htimer, hselection⟩ := step_timer (w := w) htime
    have hs3 : (w.step c).state.1.s3ServerMs = w.state.1.s3ServerMs := by
      have hkept := congrArg Timer.s3ServerMs htimer
      rw [(perform_kept ..).1, timer_tick_s3ServerMs] at hkept
      exact hkept
    refine ⟨?_, hs3 ▸ h.s3⟩
    rw [htimer, hselection, step_last htime]
    apply Timer.Follows.perform
    · rw [timer_tick_s3ServerMs]
      exact h.s3
    · exact h.timer.tick fun now hnow => hpaced now hnow time htime

/-- An expiry is counted once, and locks the server. -/
theorem Follows.expires {w : Watched σ} {c : Call} (h : w.Follows) (hpaced : w.Paced c) :
    (w.Expires c → (w.step c).state.1.sessionTimeoutCount = w.state.1.sessionTimeoutCount + 1 ∧
      (w.step c).state.1.securityUnlocked = false ∧ (w.step c).state.1.seedPending = false ∧
      (w.step c).state.1.securityAttempts = 0) ∧
    (¬w.Expires c → (w.step c).state.1.sessionTimeoutCount = w.state.1.sessionTimeoutCount) := by
  cases htime : c.time with
  | none =>
    have hnot : ¬w.Expires c := by
      rintro ⟨-, time, hsome, -⟩
      cases htime.symm.trans hsome
    exact ⟨fun hexpires => absurd hexpires hnot,
      fun _ => congrArg Timer.sessionTimeoutCount (step_timer_of_untimed (w := w) htime).1⟩
  | some time =>
    obtain ⟨act, htimer, -⟩ := step_timer (w := w) htime
    have hcount := congrArg Timer.sessionTimeoutCount htimer
    rw [(perform_kept ..).2] at hcount
    have hexpired := h.timer.expired_iff fun now hnow => hpaced now hnow time htime
    have hexpires : w.Expires c ↔ w.state.1.timer.expired (Clock.tick time) = true := by
      rw [hexpired]
      constructor
      · rintro ⟨hother, t, ht, hselected⟩
        cases htime.symm.trans ht
        exact ⟨hother, hselected⟩
      · rintro ⟨hother, hselected⟩
        exact ⟨hother, time, htime, hselected⟩
    rw [hexpires]
    constructor
    · intro hpast
      refine ⟨?_, ?_⟩
      · refine hcount.trans ?_
        unfold Timer.tick
        rw [if_pos hpast]
        rfl
      · obtain ⟨session, haccess⟩ : ∃ session, (w.step c).state.1.access =
            { w.state.1.access.lock with session := session } := by
          cases c with
          | pollPending capacity => cases htime
          | lockSecurity => cases htime
          | tick t =>
            cases htime
            refine ⟨sessionDefault, (tick_access ..).trans (if_pos hpast)⟩
          | process t request capacity =>
            cases htime
            cases request with
            | nil => exact ⟨sessionDefault, (tick_access ..).trans (if_pos hpast)⟩
            | cons service args => exact (step_access_of_expired w.state hpast ..).2
        exact ⟨congrArg Access.securityUnlocked haccess, congrArg Access.seedPending haccess,
          congrArg Access.securityAttempts haccess⟩
    · intro hbefore
      refine hcount.trans ?_
      unfold Timer.tick
      rw [if_neg hbefore]
      rfl

end Watched

/-! ## The result -/

/-- A fresh server under observation. -/
def watch (s : UdsServer σ × σ) : Watched σ where
  state := s
  selection := none
  last := none

theorem watch_follows {config : UdsServerConfig σ} {server : UdsServer σ} (env : σ)
    (hinit : UdsServer.init config = some server) : (watch (server, env)).Follows := by
  obtain ⟨-, -, -, -, hsession, -⟩ := init_some hinit
  refine ⟨⟨?_, fun _ => ⟨hsession, nofun⟩⟩, init_s3ServerMs hinit⟩
  intro hactive
  exact absurd ((init_s3Active hinit).symm.trans hactive) Bool.false_ne_true

/-- **The S3 timeout is exact.** After a call at a real time the session is the one last selected, unless
some stretch of the S3 time or more without a refresh has passed since, when it is the default one; and the
call counts a timeout, and locks the server, exactly if it is the first to find such a stretch. -/
theorem session_timeout_exact {config : UdsServerConfig σ} {server : UdsServer σ} (env : σ)
    (hinit : UdsServer.init config = some server) (calls : List Call) (c : Call)
    (hpaced : AllSteps Watched.step (watch (server, env)) Watched.Paced (calls ++ [c])) :
    let w := after Watched.step (watch (server, env)) calls
    let w' := w.step c
    (∀ time ∈ c.time, w'.state.1.session = sessionAt w'.state.1.s3ServerMs.toNat time w'.selection) ∧
      (w.Expires c → w'.state.1.sessionTimeoutCount = w.state.1.sessionTimeoutCount + 1 ∧
        w'.state.1.securityUnlocked = false ∧ w'.state.1.seedPending = false ∧
        w'.state.1.securityAttempts = 0) ∧
      (¬w.Expires c → w'.state.1.sessionTimeoutCount = w.state.1.sessionTimeoutCount) := by
  rw [allSteps_snoc] at hpaced
  have hw := after_invariant_of (I := Watched.Follows) (watch_follows env hinit)
    (fun _ _ ht hc => ht.step hc) calls hpaced.1
  refine ⟨?_, hw.expires hpaced.2⟩
  intro time htime
  have hw' := (hw.step hpaced.2).timer
  rw [Watched.step_last htime] at hw'
  exact hw'.session_eq

/-- The extended session, refreshed by a silent tester present just before the clock wraps. -/
def refreshedCalls : List Call :=
  [.process 4294960000 [sidDiagnosticSessionControl, sessionExtended] 16,
    .process 4294964999 [sidTesterPresent, suppressPositiveResponse] 16]

/-- It ends 5000 ms after the refresh, past the wrap. -/
theorem session_timeout_exact_refreshed :
    (after Watched.step (watch (storedServer, ())) refreshedCalls).Expires (.tick 4294969999) ∧
      ((after Watched.step (watch (storedServer, ())) refreshedCalls).step
        (.tick 4294969999)).state.1.sessionTimeoutCount = 1 := by
  have hpaced : AllSteps Watched.step (watch (storedServer, ())) Watched.Paced
      (refreshedCalls ++ [.tick 4294969999]) := by
    simp only [refreshedCalls, List.cons_append, List.nil_append, allSteps_cons]
    refine ⟨nofun, ?_, ?_, allSteps_nil⟩
    · rintro last ⟨⟩ time ⟨⟩
      decide +kernel
    · rintro last ⟨⟩ time ⟨⟩
      decide +kernel
  have hexpires : (after Watched.step (watch (storedServer, ())) refreshedCalls).Expires
      (.tick 4294969999) :=
    ⟨by decide +kernel, 4294969999, rfl, ⟨sessionExtended, [4294964999, 4294960000]⟩, by decide +kernel,
      by decide +kernel⟩
  obtain ⟨-, hcounts, -⟩ := session_timeout_exact () init_storedConfig refreshedCalls (.tick 4294969999) hpaced
  exact ⟨hexpires, (hcounts hexpires).1⟩

end DualCan.Uds
