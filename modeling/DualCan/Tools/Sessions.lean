import DualCan.Tools.Jobs

/-!
# Exclusive sessions of the queued scheduler

`_acquire_session` and `_release_session` are claims under the condition's lock: `work_moves` reads every
step of a worker as a move of the monitor, and exclusion follows from the monitor's rules. That the function
of a skipped job is never called is a matter of where a job can be (`Placed`): in one queue or in one
worker's hands, and nowhere once its future is done.
-/

namespace DualCan.Tools

open DualCan.Run

/-! ## Workers as parties of a monitor -/

namespace WorkerPc

variable {ν α : Type}

/-- Where a worker stands towards the session lock. -/
def phase : WorkerPc ν α → Phase ℕ
  | .locking _ session => .wanting session
  | .checking _ session => .checking session
  | .claiming _ session => .claiming session
  | .calling _ _ true | .sleeping _ _ true | .relocking _ _ => .holding
  | .releasing _ _ => .resetting
  | _ => .outside

/-- The worker's `acquired` tells whether its job's session is exclusive. -/
def flagged (exclusive : List ℕ) : WorkerPc ν α → Prop
  | .locking job session | .checking job session | .claiming job session =>
    job.session = some session ∧ session ∈ exclusive
  | .calling job _ acquired | .sleeping job _ acquired =>
    acquired = true ↔ ∃ session, job.session = some session ∧ session ∈ exclusive
  | _ => True

end WorkerPc

namespace Scheduler

variable {ν α : Type} {cfg : SchedulerConfig ν} {s s' : Scheduler ν α} {n : ν}

/-- The session table with its lock. -/
def sessions (s : Scheduler ν α) : Monitor ν ℕ :=
  { phase := fun n => (s.workers n).phase, cell := s.activeSessions, lock := s.lock }

/-- The moves of the session table of a scheduler. -/
abbrev SessionMoves (cfg : SchedulerConfig ν) (s : Scheduler ν α) (n : ν) :=
  Monitor.Moves (· ∈ cfg.nodes) (· ∈ cfg.exclusiveSessions) 0x01 s.sessions n

theorem SessionMoves.stay_of {p : Phase ℕ} (h : p = s.sessions.phase n) :
    SessionMoves cfg s n p (s.sessions.cell n) s.sessions.lock := by
  rw [h]
  exact .stay

/-- Every worker's flag is right. -/
def Flagged (cfg : SchedulerConfig ν) (s : Scheduler ν α) : Prop :=
  ∀ k, (s.workers k).flagged cfg.exclusiveSessions

/-- The worker of `n` is in the function of a job with an exclusive session. -/
def RunsExclusive (cfg : SchedulerConfig ν) (s : Scheduler ν α) (n : ν) : Prop :=
  ∃ job attempt acquired session, s.workers n = .calling job attempt acquired ∧
    job.session = some session ∧ session ∈ cfg.exclusiveSessions

/-- A worker in an exclusive function is between its claim and its release. -/
theorem Flagged.holds (h : Flagged cfg s) (hn : s.RunsExclusive cfg n) :
    (s.sessions.phase n).holds = true := by
  obtain ⟨job, attempt, acquired, session, hpc, hsession, hmem⟩ := hn
  have hflag := h n
  rw [hpc] at hflag
  have hacquired : acquired = true := hflag.2 ⟨session, hsession, hmem⟩
  simp [sessions, hpc, hacquired, WorkerPc.phase, Phase.holds]

variable [DecidableEq ν]

theorem sessions_eq (s : Scheduler ν α) (n : ν) (pc : WorkerPc ν α) {c : ℕ} {l : Option ν}
    (hworkers : s'.workers = Function.update s.workers n pc)
    (hcells : s'.activeSessions = Function.update s.activeSessions n c) (hlock : s'.lock = l) :
    s'.sessions = s.sessions.move n pc.phase c l := by
  unfold sessions Monitor.move
  rw [hcells, hlock]
  congr 1
  funext k
  rw [hworkers]
  by_cases hk : k = n
  · subst hk
    rw [Function.update_self, Function.update_self]
  · rw [Function.update_of_ne hk, Function.update_of_ne hk]

/-- A step that changes the worker's point only. -/
theorem sessions_eq_pc (s : Scheduler ν α) (n : ν) (pc : WorkerPc ν α) {l : Option ν}
    (hworkers : s'.workers = Function.update s.workers n pc)
    (hcells : s'.activeSessions = s.activeSessions) (hlock : s'.lock = l) :
    s'.sessions = s.sessions.move n pc.phase (s.sessions.cell n) l := by
  refine sessions_eq s n pc hworkers ?_ hlock
  rw [hcells]
  exact (Function.update_eq_self n s.activeSessions).symm

theorem sessions_eq_self (s : Scheduler ν α) (n : ν) :
    s.sessions = s.sessions.move n (s.sessions.phase n) (s.sessions.cell n) s.sessions.lock := by
  unfold Monitor.move
  rw [Function.update_eq_self, Function.update_eq_self]

/-- The check of `_acquire_session` finds no other node in an exclusive session. -/
theorem no_conflict (h : s.conflict cfg n = false) :
    ∀ k, k ∈ cfg.nodes → k ≠ n → s.sessions.cell k ∉ cfg.exclusiveSessions := by
  intro k hk hkn hmem
  have hall := List.any_eq_false.1 h k hk
  simp only [Bool.and_eq_true, decide_eq_true_eq, not_and] at hall
  exact hall hkn hmem

/-- **Every step of a worker is a move of the session table.** -/
theorem work_moves (s : Scheduler ν α) (n : ν) (env : Env α) : ∃ p c l,
    SessionMoves cfg s n p c l ∧ (s.work cfg n env).sessions = s.sessions.move n p c l := by
  have hphase : s.sessions.phase n = (s.workers n).phase := rfl
  have hstep : WorkStep cfg s n env (s.work cfg n env) := s.work_step n env
  generalize s.work cfg n env = s' at hstep ⊢
  cases hstep with
  | wait => exact ⟨_, _, _, .stay, s.sessions_eq_self n⟩
  | sentinel hpc hqueue =>
    rw [hpc] at hphase
    exact ⟨_, _, _, .stay_of hphase.symm, sessions_eq_pc s n (.terminated true) rfl rfl rfl⟩
  | @take job rest hpc hqueue hfree =>
    rw [hpc] at hphase
    exact ⟨_, _, _, .stay_of hphase.symm, sessions_eq_pc s n (.calling job 1 false) rfl rfl rfl⟩
  | @want job rest session hpc hqueue hsession hexclusive =>
    rw [hpc] at hphase
    exact ⟨_, _, _, .want hphase hexclusive, sessions_eq_pc s n (.locking job session) rfl rfl rfl⟩
  | @enter job session hpc hlock =>
    rw [hpc] at hphase
    exact ⟨_, _, _, .enter hphase hlock, sessions_eq_pc s n (.checking job session) rfl rfl rfl⟩
  | @giveUp job session hpc =>
    rw [hpc] at hphase
    exact ⟨_, _, _, .giveUp hphase, sessions_eq_pc s n (.settling job (some (skippedOutcome n))) rfl rfl rfl⟩
  | @refuse job session hpc =>
    rw [hpc] at hphase
    exact ⟨_, _, _, .refuse hphase, sessions_eq_pc s n (.locking job session) rfl rfl rfl⟩
  | @pass job session hpc hfree =>
    rw [hpc] at hphase
    exact ⟨_, _, _, .pass hphase (no_conflict hfree), sessions_eq_pc s n (.claiming job session) rfl rfl rfl⟩
  | @claim job session hpc =>
    rw [hpc] at hphase
    exact ⟨_, _, _, .claim hphase, sessions_eq s n (.calling job 1 true) rfl rfl rfl⟩
  | @retry job attempt acquired hpc =>
    refine ⟨_, _, _, .stay_of ?_, sessions_eq_pc s n (.sleeping job attempt acquired) rfl rfl rfl⟩
    cases acquired <;> simp [sessions, hpc, WorkerPc.phase]
  | @leave job attempt acquired result hpc hescaped hstatus =>
    refine ⟨_, _, _, .stay_of ?_,
      sessions_eq_pc s n (if acquired then .relocking job result else .settling job result) rfl rfl rfl⟩
    cases acquired <;> simp [sessions, hpc, WorkerPc.phase]
  | @again job attempt acquired hpc =>
    refine ⟨_, _, _, .stay_of ?_, sessions_eq_pc s n (.calling job (attempt + 1) acquired) rfl rfl rfl⟩
    cases acquired <;> simp [sessions, hpc, WorkerPc.phase]
  | @relock job result hpc hlock =>
    rw [hpc] at hphase
    exact ⟨_, _, _, .leave hphase hlock, sessions_eq_pc s n (.releasing job result) rfl rfl rfl⟩
  | @release job result hpc =>
    rw [hpc] at hphase
    exact ⟨_, _, _, .reset hphase, sessions_eq s n (.settling job result) rfl rfl rfl⟩
  | settle hpc hpending =>
    rw [hpc] at hphase
    exact ⟨_, _, _, .stay_of hphase.symm, sessions_eq_pc s n .getting rfl rfl rfl⟩
  | fail hpc hdone =>
    rw [hpc] at hphase
    exact ⟨_, _, _, .stay_of hphase.symm, sessions_eq_pc s n (.terminated false) rfl rfl rfl⟩

/-- The callers do not touch the workers and the sessions. -/
theorem step_sessions (s : Scheduler ν α) (e : Event ν α) :
    ((s.step cfg e).workers = s.workers ∧ (s.step cfg e).sessions = s.sessions) ∨
      ∃ n ∈ cfg.nodes, ∃ env, s.step cfg e = s.work cfg n env := by
  cases e with
  | submit node session retries =>
    refine Or.inl ?_
    unfold step
    dsimp only
    split
    · next s' hs' =>
      obtain ⟨-, -, call, rfl⟩ := submit_ok hs'
      exact ⟨rfl, rfl⟩
    · exact ⟨rfl, rfl⟩
  | put k =>
    refine Or.inl ?_
    unfold step put
    dsimp only
    split <;> exact ⟨rfl, rfl⟩
  | cancel future =>
    refine Or.inl ?_
    unfold step cancel
    dsimp only
    split <;> exact ⟨rfl, rfl⟩
  | close =>
    refine Or.inl ?_
    unfold step close
    dsimp only
    split
    · split <;> exact ⟨rfl, rfl⟩
    · exact ⟨rfl, rfl⟩
    · exact ⟨rfl, rfl⟩
  | work n env =>
    unfold step
    dsimp only
    split
    · next hn => exact Or.inr ⟨n, hn, env, rfl⟩
    · exact Or.inl ⟨rfl, rfl⟩

/-- The session table of a scheduler is safe in every run. -/
theorem sessions_safe (cfg : SchedulerConfig ν) (es : List (Event ν α)) :
    (after (step cfg) start es).sessions.Safe (· ∈ cfg.nodes) (· ∈ cfg.exclusiveSessions) 0x01 := by
  refine after_invariant
    (I := fun s : Scheduler ν α => s.sessions.Safe (· ∈ cfg.nodes) (· ∈ cfg.exclusiveSessions) 0x01)
    (Monitor.Safe.start (fun _ => rfl) (fun _ => rfl) rfl) ?_ es
  intro s e h
  rcases s.step_sessions e with ⟨-, hsame⟩ | ⟨n, hn, env, hwork⟩
  · rw [hsame]
    exact h
  · obtain ⟨p, c, l, hmoves, hsessions⟩ := s.work_moves n env
    rw [hwork, hsessions]
    exact h.step hn hmoves

/-! ## The flag of a call -/

theorem Flagged.move (h : Flagged cfg s) (pc : WorkerPc ν α)
    (hworkers : s'.workers = Function.update s.workers n pc) (hpc : pc.flagged cfg.exclusiveSessions) :
    Flagged cfg s' := by
  intro k
  rw [hworkers]
  by_cases hk : k = n
  · subst hk
    rwa [Function.update_self]
  · rw [Function.update_of_ne hk]
    exact h k

theorem Flagged.work (h : Flagged cfg s) (n : ν) (env : Env α) : Flagged cfg (s.work cfg n env) := by
  have hn := h n
  have hstep : WorkStep cfg s n env (s.work cfg n env) := s.work_step n env
  generalize s.work cfg n env = s' at hstep ⊢
  cases hstep with
  | wait => exact h
  | sentinel hpc hqueue => exact h.move (.terminated true) rfl trivial
  | @take job rest hpc hqueue hfree =>
    refine h.move (.calling job 1 false) rfl ⟨nofun, ?_⟩
    rintro ⟨session, hsession, hmem⟩
    exact absurd hmem (hfree session hsession)
  | @want job rest session hpc hqueue hsession hexclusive =>
    exact h.move (.locking job session) rfl ⟨hsession, hexclusive⟩
  | @enter job session hpc hlock =>
    rw [hpc] at hn
    exact h.move (.checking job session) rfl hn
  | @giveUp job session hpc => exact h.move (.settling job (some (skippedOutcome n))) rfl trivial
  | @refuse job session hpc =>
    rw [hpc] at hn
    exact h.move (.locking job session) rfl hn
  | @pass job session hpc hfree =>
    rw [hpc] at hn
    exact h.move (.claiming job session) rfl hn
  | @claim job session hpc =>
    rw [hpc] at hn
    exact h.move (.calling job 1 true) rfl ⟨fun _ => ⟨session, hn⟩, fun _ => rfl⟩
  | @retry job attempt acquired hpc =>
    rw [hpc] at hn
    exact h.move (.sleeping job attempt acquired) rfl hn
  | @leave job attempt acquired result hpc hescaped hstatus =>
    refine h.move (if acquired then .relocking job result else .settling job result) rfl ?_
    cases acquired <;> exact trivial
  | @again job attempt acquired hpc =>
    rw [hpc] at hn
    exact h.move (.calling job (attempt + 1) acquired) rfl hn
  | @relock job result hpc hlock => exact h.move (.releasing job result) rfl trivial
  | @release job result hpc => exact h.move (.settling job result) rfl trivial
  | settle hpc hpending => exact h.move .getting rfl trivial
  | fail hpc hdone => exact h.move (.terminated false) rfl trivial

theorem flagged_after (cfg : SchedulerConfig ν) (es : List (Event ν α)) :
    Flagged cfg (after (step cfg) start es) := by
  refine after_invariant (I := fun s : Scheduler ν α => Flagged cfg s) (fun _ => ?_) ?_ es
  · exact trivial
  · intro s e h
    rcases s.step_sessions e with ⟨hworkers, -⟩ | ⟨n, -, env, hwork⟩
    · intro k
      rw [hworkers]
      exact h k
    · rw [hwork]
      exact h.work n env

theorem placed_after (cfg : SchedulerConfig ν) (es : List (Event ν α)) :
    Placed (after (step cfg) start es) :=
  after_invariant (I := fun s : Scheduler ν α => Placed s) .start (fun _ e h => h.step cfg e) es

theorem finished_after (cfg : SchedulerConfig ν) (s : Scheduler ν α) (es : List (Event ν α)) {f : ℕ}
    {o : JobOutcome ν α} (ho : s.futures f = .finished o) :
    (after (step cfg) s es).futures f = .finished o :=
  after_invariant (I := fun s : Scheduler ν α => s.futures f = .finished o) ho
    (fun s e h => finished_step cfg s e h) es

/-! ## Exclusive sessions -/

/-- **Exclusive sessions**: two exclusive functions never overlap; a worker that is not between its claim and
its release, whichever way it left the job's function, has its node back in the default session; the
function of a skipped job is not called, then or later; and when the default session is not itself
exclusive, at most one active session is. -/
theorem exclusive_sessions (cfg : SchedulerConfig ν) (es : List (Event ν α)) :
    let s : Scheduler ν α := after (step cfg) start es
    (0x01 ∉ cfg.exclusiveSessions → ∀ n k, s.activeSessions n ∈ cfg.exclusiveSessions →
      s.activeSessions k ∈ cfg.exclusiveSessions → n = k) ∧
    (∀ n k, s.RunsExclusive cfg n → s.RunsExclusive cfg k → n = k) ∧
    (∀ n, (s.workers n).phase.holds = false → s.activeSessions n = 0x01) ∧
    ∀ f o, s.futures f = .finished o → o.status = .skipped →
      ∀ es', f ∉ (after (step cfg) s es').called := by
  intro s
  have hsafe := sessions_safe cfg es
  have hflagged := flagged_after cfg es
  refine ⟨fun hidle n k hn hk => hsafe.busy_unique hidle hn hk, fun n k hn hk => ?_,
    fun n hn => hsafe.outside n hn, fun f o ho hskipped es' => ?_⟩
  · exact hsafe.alone n k (hflagged.holds hn) (hflagged.holds hk)
  · have hlater := finished_after cfg s es' ho
    have hplaced := placed_after cfg (es ++ es')
    rw [after_append] at hplaced
    exact hplaced.skipped f o hlater hskipped

/-- Both nodes have a job in session 0x02: the first gets the session, the second is skipped. -/
def skippedRun : List (Event Bool ℕ) :=
  let env : Env ℕ := { expired := true, outcome := .returned 7 }
  [.submit false (some 0x02) none, .submit true (some 0x02) none, .put 0, .put 0, .work false env,
    .work false env, .work false env, .work false env, .work true env, .work true env, .work true env,
    .work true env]

theorem exclusive_sessions_skipped :
    (∀ n k, (after (step twoNodes) start skippedRun).activeSessions n ∈ twoNodes.exclusiveSessions →
      (after (step twoNodes) start skippedRun).activeSessions k ∈ twoNodes.exclusiveSessions → n = k) ∧
    (after (step twoNodes) start skippedRun).activeSessions false = 0x02 ∧
    ∀ es', 1 ∉ (after (step twoNodes) (after (step twoNodes) start skippedRun) es').called := by
  have hmain := exclusive_sessions twoNodes skippedRun
  have hheld : (after (step twoNodes) start skippedRun).activeSessions false = 0x02 := by decide +kernel
  have hfinished : (after (step twoNodes) start skippedRun).futures 1 = .finished (skippedOutcome true) := by
    decide +kernel
  exact ⟨hmain.1 (by decide), hheld, hmain.2.2.2 1 _ hfinished rfl⟩

/-- With the default session among the exclusive ones, two nodes are in an exclusive session at the start. -/
theorem idle_nodes_conflict :
    let cfg : SchedulerConfig Bool :=
      { nodes := [false, true], nodup := by decide, exclusiveSessions := [0x01], defaultRetries := 1 }
    let s : Scheduler Bool ℕ := after (step cfg) start []
    s.activeSessions false ∈ cfg.exclusiveSessions ∧ s.activeSessions true ∈ cfg.exclusiveSessions ∧
      false ≠ true := by
  decide

end Scheduler

end DualCan.Tools
