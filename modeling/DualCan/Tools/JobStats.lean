import DualCan.Tools.Resolve

/-!
# Outcomes and statistics of the queued scheduler

What `_execute` reports of a job, against the job's function alone: a script says how each call of the
function ends, and the reference outcome is read off its first `retries + 1` entries. And the statistics,
which the scheduler writes and never reads: a request is counted when the worker takes the job, the outcome
right before `set_result`, so the counters of a node differ by the job that its worker has in hand.
-/

namespace DualCan.Tools

open DualCan.Run

/-! ## The statistics -/

/-- The keys of `_stats`. -/
inductive StatKey where
  | requests
  | ok
  | timeouts
  | errors
  | skipped
  deriving DecidableEq, Repr

/-- The key that an outcome is counted under. -/
def Status.statKey : Status → StatKey
  | .ok => .ok
  | .timeout => .timeouts
  | .error => .errors
  | .skipped => .skipped

/-- The scheduler with its statistics. `jobs` notes what each future was submitted for; nothing reads it. -/
structure CountedScheduler (ν α : Type) where
  scheduler : Scheduler ν α
  stats : StatKey → ν → ℕ
  jobs : ℕ → Option (ν × QueuedJob)

namespace CountedScheduler

variable {ν α : Type} [DecidableEq ν]

def start : CountedScheduler ν α where
  scheduler := .start
  stats _ _ := 0
  jobs _ := none

/-- `self._stats[key][n] += 1`. -/
def bump (stats : StatKey → ν → ℕ) (key : StatKey) (n : ν) : StatKey → ν → ℕ :=
  fun key' n' => if key' = key ∧ n' = n then stats key' n' + 1 else stats key' n'

/-- The counters after a step of worker `n`. -/
def workStats (s : Scheduler ν α) (n : ν) (stats : StatKey → ν → ℕ) : StatKey → ν → ℕ :=
  match s.workers n, s.queues n with
  | .getting, some _ :: _ => bump stats .requests n
  | .settling _ (some outcome), _ => bump stats outcome.status.statKey n
  | _, _ => stats

def step (cfg : SchedulerConfig ν) (c : CountedScheduler ν α) (e : Scheduler.Event ν α) :
    CountedScheduler ν α where
  scheduler := c.scheduler.step cfg e
  stats :=
    match e with
    | .work n _ => if n ∈ cfg.nodes then workStats c.scheduler n c.stats else c.stats
    | _ => c.stats
  jobs :=
    match e with
    | .put k =>
      match c.scheduler.checked[k]? with
      | none => c.jobs
      | some (node, session, retries) =>
        Function.update c.jobs c.scheduler.submitted
          (some (node, { session := session, retries := retries, future := c.scheduler.submitted }))
    | _ => c.jobs

end CountedScheduler

/-! ## The reference outcome -/

def CallOutcome.isTimeout {α : Type} : CallOutcome α → Bool
  | .timeoutError _ => true
  | _ => false

/-- The outcome of a job whose last attempt, the one of number `attempts`, ended like this. -/
def report {ν α : Type} (n : ν) (attempts : ℕ) : CallOutcome α → JobOutcome ν α
  | .returned value => { node := n, status := .ok, attempts := attempts, value := some value, error := none }
  | .timeoutError text =>
    { node := n, status := .timeout, attempts := attempts, value := none, error := some text }
  | .exception typeName text =>
    { node := n, status := .error, attempts := attempts, value := none,
      error := some s!"{typeName}: {text}" }
  | .escaped => { node := n, status := .error, attempts := attempts, value := none, error := none }

/-- The first attempt that is not a timeout, or the last one; counted from 0. -/
def decisive {α : Type} (retries : ℕ) (script : ℕ → CallOutcome α) : ℕ :=
  ((List.range (retries + 1)).find? fun i => !(script i).isTimeout).getD retries

/-- The outcome of a job whose function behaves as `script` says. -/
def reference {ν α : Type} (n : ν) (retries : ℕ) (script : ℕ → CallOutcome α) : JobOutcome ν α :=
  report n (decisive retries script + 1) (script (decisive retries script))

theorem decisive_eq {α : Type} {retries k : ℕ} {script : ℕ → CallOutcome α} (hle : k ≤ retries)
    (hbefore : ∀ i < k, (script i).isTimeout = true) (hlast : (script k).isTimeout = false ∨ k = retries) :
    decisive retries script = k := by
  unfold decisive
  cases hk : (script k).isTimeout with
  | false =>
    have hfind : ((List.range (retries + 1)).find? fun i => !(script i).isTimeout) = some k := by
      rw [List.find?_range_eq_some]
      refine ⟨by rw [hk]; rfl, List.mem_range.2 (Nat.lt_succ_of_le hle), fun i hi => ?_⟩
      rw [hbefore i hi]
      rfl
    rw [hfind]
    rfl
  | true =>
    obtain rfl : k = retries := by
      rcases hlast with h | h
      · rw [hk] at h
        cases h
      · exact h
    have hfind : ((List.range (k + 1)).find? fun i => !(script i).isTimeout) = none := by
      rw [List.find?_range_eq_none]
      intro i hi
      rcases Nat.lt_succ_iff_lt_or_eq.1 hi with hlt | rfl
      · rw [hbefore i hlt]
        rfl
      · rw [hk]
        rfl
    rw [hfind]
    rfl

namespace CountedScheduler

variable {ν α : Type} [DecidableEq ν]

/-! ## Admissible runs -/

/-- The function of each job ends as its script says: call by call, counted by the calls made before. -/
def Follows (script : ℕ → ℕ → CallOutcome α) (s : Scheduler ν α) : Scheduler.Event ν α → Prop
  | .work n env =>
    match s.workers n with
    | .calling job _ _ => env.outcome = script job.future (s.called.count job.future - 1)
    | _ => True
  | _ => True

/-- No caller cancels a future. -/
def Uncancelled : Scheduler.Event ν α → Prop
  | .cancel _ => False
  | _ => True

/-- What the scheduler may report of job `job` at node `n`: the reference outcome after as many calls as it
names, or, for a job of an exclusive session, that the session was not to be had and nothing was called. -/
def Reported (cfg : SchedulerConfig ν) (script : ℕ → ℕ → CallOutcome α) (called : List ℕ) (n : ν)
    (job : QueuedJob) (outcome : JobOutcome ν α) : Prop :=
  (outcome = reference n job.retries (script job.future) ∧ called.count job.future = outcome.attempts) ∨
    (outcome = Scheduler.skippedOutcome n ∧ called.count job.future = 0 ∧
      ∃ session ∈ cfg.exclusiveSessions, job.session = some session)

/-- How far a worker is with its job. -/
def Progress (cfg : SchedulerConfig ν) (script : ℕ → ℕ → CallOutcome α) (called : List ℕ) (n : ν) :
    WorkerPc ν α → Prop
  | .locking job session | .checking job session | .claiming job session =>
    session ∈ cfg.exclusiveSessions ∧ job.session = some session
  | .calling job attempt _ =>
    called.count job.future = attempt ∧ 1 ≤ attempt ∧ attempt ≤ job.retries + 1 ∧
      ∀ i < attempt - 1, (script job.future i).isTimeout = true
  | .sleeping job attempt _ =>
    called.count job.future = attempt ∧ attempt ≤ job.retries ∧
      ∀ i < attempt, (script job.future i).isTimeout = true
  | .relocking job (some outcome) | .releasing job (some outcome) | .settling job (some outcome) =>
    Reported cfg script called n job outcome
  | _ => True

/-- The outcomes counted at a node. -/
def outcomes (stats : StatKey → ν → ℕ) (n : ν) : ℕ :=
  stats .ok n + stats .timeouts n + stats .errors n + stats .skipped n

/-- The worker of `n` is about to take a job from its queue. -/
def readyToTake (s : Scheduler ν α) (n : ν) : Bool :=
  match s.workers n, s.queues n with
  | .getting, some _ :: _ => true
  | _, _ => false

/-- In this step the worker of `n` takes a job from its queue. -/
def takes (cfg : SchedulerConfig ν) (n : ν) (c : CountedScheduler ν α) : Scheduler.Event ν α → Bool
  | .work k _ => decide (k = n ∧ k ∈ cfg.nodes) && readyToTake c.scheduler n
  | _ => false

/-- The counters of a node differ by the job in its worker's hand. -/
def Balanced (s : Scheduler ν α) (stats : StatKey → ν → ℕ) (n : ν) : Prop :=
  stats .requests n = outcomes stats n + if (s.workers n).hand.isSome then 1 else 0

variable {cfg : SchedulerConfig ν} {script : ℕ → ℕ → CallOutcome α} {s s' : Scheduler ν α} {n k : ν}
  {env : Env α} {stats : StatKey → ν → ℕ} {called : List ℕ} {job : QueuedJob} {rest : List (Option QueuedJob)}

/-! ## The counters -/

/-- A request is counted at one node, and is no outcome. -/
theorem bump_requests (stats : StatKey → ν → ℕ) (n : ν) :
    bump stats .requests n .requests n = stats .requests n + 1 ∧
      outcomes (bump stats .requests n) n = outcomes stats n :=
  ⟨if_pos ⟨rfl, rfl⟩, rfl⟩

/-- An outcome is counted under one of the four keys. -/
theorem bump_status (stats : StatKey → ν → ℕ) (status : Status) (n : ν) :
    bump stats status.statKey n .requests n = stats .requests n ∧
      outcomes (bump stats status.statKey n) n = outcomes stats n + 1 := by
  unfold outcomes bump
  cases status <;> simp only [Status.statKey, and_true, reduceCtorEq, if_true, if_false, true_and] <;> omega

/-- A step counts at its own node, once at most. -/
theorem workStats_eq (s : Scheduler ν α) (n : ν) (stats : StatKey → ν → ℕ) :
    workStats s n stats = stats ∨ ∃ key, workStats s n stats = bump stats key n := by
  unfold workStats
  split
  · exact Or.inr ⟨_, rfl⟩
  · exact Or.inr ⟨_, rfl⟩
  · exact Or.inl rfl

theorem workStats_of_ne (s : Scheduler ν α) (stats : StatKey → ν → ℕ) (h : k ≠ n) (key : StatKey) :
    workStats s n stats key k = stats key k := by
  rcases workStats_eq s n stats with hstats | ⟨bumped, hstats⟩
  · rw [hstats]
  · rw [hstats]
    exact if_neg fun hboth => h hboth.2

/-- A worker counts a request when it takes a job. -/
theorem workStats_requests (s : Scheduler ν α) (n : ν) (stats : StatKey → ν → ℕ) :
    workStats s n stats .requests n = stats .requests n + if readyToTake s n then 1 else 0 := by
  unfold workStats readyToTake
  cases s.workers n with
  | getting =>
    cases s.queues n with
    | nil => rfl
    | cons item rest =>
      cases item with
      | none => rfl
      | some job => exact (bump_requests stats n).1
  | settling job result =>
    cases result with
    | none => rfl
    | some outcome => exact (bump_status stats outcome.status n).1
  | _ => rfl

theorem step_requests (cfg : SchedulerConfig ν) (c : CountedScheduler ν α) (e : Scheduler.Event ν α) (n : ν) :
    (c.step cfg e).stats .requests n = c.stats .requests n + if takes cfg n c e then 1 else 0 := by
  cases e with
  | work k env =>
    have hstats : (c.step cfg (.work k env)).stats =
        if k ∈ cfg.nodes then workStats c.scheduler k c.stats else c.stats := rfl
    have htakes : takes cfg n c (.work k env) = (decide (k = n ∧ k ∈ cfg.nodes) && readyToTake c.scheduler n) := rfl
    rw [hstats, htakes]
    by_cases hnode : k ∈ cfg.nodes
    · by_cases hk : k = n
      · subst hk
        simp [hnode, workStats_requests]
      · simp [hnode, hk, workStats_of_ne _ _ (Ne.symm hk)]
    · simp [hnode]
  | _ => rfl

/-- The requests of a node are the jobs that its worker has taken. -/
theorem requests_eq_tally (cfg : SchedulerConfig ν) (n : ν) (es : List (Scheduler.Event ν α)) :
    (after (step cfg) start es).stats .requests n =
      tally (step cfg) start (takes cfg n) (fun _ _ => false) es := by
  induction es using List.reverseRecOn with
  | nil => rfl
  | append_singleton es e ih =>
    rw [after_snoc, tally_snoc, step_requests, ih, if_neg Bool.false_ne_true]
    split
    · rfl
    · rfl

/-- A job leaves the queue for its first call, or for the session it wants. -/
theorem work_takes (cfg : SchedulerConfig ν) (env : Env α) (hpc : s.workers n = .getting)
    (hqueue : s.queues n = some job :: rest) :
    ((s.work cfg n env).workers n = .calling job 1 false ∧
      (s.work cfg n env).called = s.called ++ [job.future]) ∨
    ∃ session ∈ cfg.exclusiveSessions, job.session = some session ∧
      (s.work cfg n env).workers n = .locking job session ∧ (s.work cfg n env).called = s.called := by
  unfold Scheduler.work Scheduler.get
  simp only [hpc, hqueue]
  cases hsession : job.session with
  | none => exact Or.inl ⟨Function.update_self .., rfl⟩
  | some session =>
    dsimp only
    split
    · next hexclusive => exact Or.inr ⟨session, hexclusive, rfl, Function.update_self .., rfl⟩
    · exact Or.inl ⟨Function.update_self .., rfl⟩

/-- `set_result` leaves the worker without a job. -/
theorem work_settles {outcome : JobOutcome ν α} (hpc : s.workers n = .settling job (some outcome)) :
    ((s.work cfg n env).workers n).hand = none := by
  unfold Scheduler.work
  simp only [hpc]
  unfold Scheduler.setResult
  split
  · show (Function.update s.workers n .getting n).hand = none
    rw [Function.update_self]
    rfl
  · show (Function.update s.workers n (.terminated false) n).hand = none
    rw [Function.update_self]
    rfl

/-- In between, a worker keeps its job. -/
theorem work_keeps_hand (hget : s.workers n ≠ .getting)
    (hsettle : ∀ job result, s.workers n ≠ .settling job result) :
    ((s.work cfg n env).workers n).hand = (s.workers n).hand := by
  obtain ⟨-, hstep⟩ := Scheduler.work_jobs cfg s n env
  cases hstep with
  | keep hhand _ _ _ _ _ => exact hhand
  | call job hhand hhand' _ _ _ _ => rw [hhand, hhand']
  | take job hpc _ _ _ _ => exact absurd hpc hget
  | takeCall job hpc _ _ _ _ _ => exact absurd hpc hget
  | sentinel hpc _ _ _ _ => exact absurd hpc hget
  | settle job outcome hpc _ _ _ _ _ => exact absurd hpc (hsettle _ _)
  | fail job result hpc _ _ _ _ _ => exact absurd hpc (hsettle _ _)

/-- A step of the worker keeps the balance. -/
theorem balanced_work (hcontained : (s.workers n).escaping = false) (h : Balanced s stats n) :
    Balanced (s.work cfg n env) (workStats s n stats) n := by
  have hbusy : s.workers n ≠ .getting → (∀ job result, s.workers n ≠ .settling job result) →
      Balanced (s.work cfg n env) (workStats s n stats) n := by
    intro hget hsettle
    have hstats : workStats s n stats = stats := by
      unfold workStats
      split
      · next hpc _ => exact absurd hpc hget
      · next hpc => exact absurd hpc (hsettle _ _)
      · rfl
    unfold Balanced
    rw [hstats, work_keeps_hand hget hsettle]
    exact h
  cases hpc : s.workers n with
  | getting =>
    unfold Balanced at h ⊢
    rw [hpc] at h
    cases hqueue : s.queues n with
    | nil =>
      have hwork : s.work cfg n env = s := by
        unfold Scheduler.work Scheduler.get
        simp only [hpc, hqueue]
      have hstats : workStats s n stats = stats := by
        simp only [workStats, hpc, hqueue]
      rw [hwork, hstats, hpc]
      exact h
    | cons item rest =>
      cases item with
      | none =>
        have hend : (s.work cfg n env).workers n = .terminated true := by
          unfold Scheduler.work Scheduler.get
          simp only [hpc, hqueue]
          exact Function.update_self ..
        have hstats : workStats s n stats = stats := by
          simp only [workStats, hpc, hqueue]
        rw [hend, hstats]
        exact h
      | some job =>
        have hhand : ((s.work cfg n env).workers n).hand = some job := by
          rcases work_takes cfg env hpc hqueue with ⟨hpc', -⟩ | ⟨session, -, -, hpc', -⟩
          · rw [hpc']
            rfl
          · rw [hpc']
            rfl
        have hstats : workStats s n stats = bump stats .requests n := by
          simp only [workStats, hpc, hqueue]
        rw [hhand, hstats, (bump_requests stats n).1, (bump_requests stats n).2, h]
        rfl
  | settling job result =>
    cases result with
    | none =>
      rw [hpc] at hcontained
      cases hcontained
    | some outcome =>
      have hstats : workStats s n stats = bump stats outcome.status.statKey n := by
        unfold workStats
        rw [hpc]
      unfold Balanced at h ⊢
      rw [hpc] at h
      rw [work_settles hpc, hstats, (bump_status stats outcome.status n).1,
        (bump_status stats outcome.status n).2, h]
      rfl
  | _ => exact hbusy (by rw [hpc]; nofun) (by rw [hpc]; nofun)

/-! ## The job in hand -/

omit [DecidableEq ν] in
theorem progress_of_count {called' : List ℕ} {pc : WorkerPc ν α}
    (hcount : ∀ job, pc.hand = some job → called'.count job.future = called.count job.future)
    (h : Progress cfg script called n pc) : Progress cfg script called' n pc := by
  unfold Progress Reported at h ⊢
  cases pc with
  | locking | checking | claiming => exact h
  | calling job attempt acquired =>
    dsimp only at h ⊢
    rw [hcount job rfl]
    exact h
  | sleeping job attempt acquired =>
    dsimp only at h ⊢
    rw [hcount job rfl]
    exact h
  | relocking job result | releasing job result | settling job result =>
    cases result with
    | none => trivial
    | some outcome =>
      dsimp only at h ⊢
      rw [hcount job rfl]
      exact h
  | getting | terminated => trivial

theorem progress_set (s : Scheduler ν α) {pc : WorkerPc ν α} (h : Progress cfg script called n pc) :
    Progress cfg script called n ((s.setWorker n pc).workers n) := by
  show Progress cfg script called n (Function.update s.workers n pc n)
  rw [Function.update_self]
  exact h

omit [DecidableEq ν] in
/-- The attempt that ends the loop decides the outcome. -/
theorem reported_last {attempt : ℕ} (hcount : called.count job.future = attempt) (hpos : 1 ≤ attempt)
    (hle : attempt ≤ job.retries + 1)
    (hbefore : ∀ i < attempt - 1, (script job.future i).isTimeout = true)
    (hlast : (script job.future (attempt - 1)).isTimeout = false ∨ attempt - 1 = job.retries) :
    Reported cfg script called n job (report n attempt (script job.future (attempt - 1))) := by
  have hdecisive : decisive job.retries (script job.future) = attempt - 1 :=
    decisive_eq (by omega) hbefore hlast
  have hnumber : attempt - 1 + 1 = attempt := Nat.sub_add_cancel hpos
  refine Or.inl ⟨?_, ?_⟩
  · rw [reference, hdecisive, hnumber]
  · rw [hcount]
    cases script job.future (attempt - 1) <;> rfl

/-- A call of the function ends: with the outcome, or with the wait before the next attempt. -/
theorem progress_callEnded {attempt : ℕ} {acquired : Bool} {outcome : CallOutcome α}
    (hescapes : outcome.escapes = false) (hscript : outcome = script job.future (attempt - 1))
    (h : Progress cfg script s.called n (.calling job attempt acquired)) :
    Progress cfg script (s.callEnded n job attempt acquired outcome).called n
      ((s.callEnded n job attempt acquired outcome).workers n) := by
  obtain ⟨hcount, hpos, hle, hbefore⟩ := h
  have hends : ∀ o, Reported cfg script s.called n job o →
      Progress cfg script (s.leave n job acquired (some o)).called n
        ((s.leave n job acquired (some o)).workers n) := by
    intro o ho
    refine progress_set s ?_
    split
    · exact ho
    · exact ho
  have hlast : (script job.future (attempt - 1)).isTimeout = false ∨ attempt - 1 = job.retries →
      Reported cfg script s.called n job (report n attempt (script job.future (attempt - 1))) :=
    reported_last hcount hpos hle hbefore
  rw [← hscript] at hlast
  cases outcome with
  | returned value => exact hends _ (hlast (Or.inl rfl))
  | exception typeName text => exact hends _ (hlast (Or.inl rfl))
  | timeoutError text =>
    unfold Scheduler.callEnded
    dsimp only
    split
    · next hmore =>
      refine progress_set s ⟨hcount, hmore, fun i hi => ?_⟩
      rcases Nat.lt_or_eq_of_le (Nat.le_sub_one_of_lt hi) with hlt | rfl
      · exact hbefore i hlt
      · rw [← hscript]
        rfl
    · next hmore => exact hends _ (hlast (Or.inr (by omega)))
  | escaped => cases hescapes

/-- The function of the job in hand is called once more. -/
theorem count_called (called : List ℕ) (f : ℕ) : (called ++ [f]).count f = called.count f + 1 := by
  rw [List.count_append, List.count_singleton_self]

omit [DecidableEq ν] in
/-- The first call of a job's function. -/
theorem progress_firstCall (hzero : called.count job.future = 0) (acquired : Bool) :
    Progress cfg script (called ++ [job.future]) n (.calling job 1 acquired) := by
  refine ⟨?_, Nat.le_refl 1, Nat.succ_le_succ (Nat.zero_le _), fun i hi => absurd hi (Nat.not_lt_zero i)⟩
  rw [count_called, hzero]

/-- A worker between two jobs takes the next item of its queue. -/
theorem progress_get (hplaced : Scheduler.Placed s) (hpc : s.workers n = .getting) (env : Env α) :
    Progress cfg script (s.work cfg n env).called n ((s.work cfg n env).workers n) := by
  cases hqueue : s.queues n with
  | nil =>
    unfold Scheduler.work Scheduler.get
    simp only [hpc, hqueue]
    trivial
  | cons item rest =>
    cases item with
    | none =>
      unfold Scheduler.work Scheduler.get
      simp only [hpc, hqueue]
      exact progress_set _ trivial
    | some job =>
      have hzero : s.called.count job.future = 0 := by
        refine List.count_eq_zero.2 (hplaced.uncalled n _ (Scheduler.mem_waiting_of_queued ?_))
        rw [hqueue]
        exact List.mem_cons_self ..
      rcases work_takes cfg env hpc hqueue with ⟨hpc', hcalled⟩ | ⟨session, hmem, hsession, hpc', hcalled⟩
      · rw [hpc', hcalled]
        exact progress_firstCall hzero false
      · rw [hpc']
        exact ⟨hmem, hsession⟩

/-- **One step of a worker** takes its job further. -/
theorem progress_work (hplaced : Scheduler.Placed s) (hscript : ∀ f i, (script f i).escapes = false)
    (hfollows : Follows script s (.work n env)) (h : Progress cfg script s.called n (s.workers n)) :
    Progress cfg script (s.work cfg n env).called n ((s.work cfg n env).workers n) := by
  have huncalled : ∀ {job : QueuedJob}, (s.workers n).hand = some job → (s.workers n).uncalled = true →
      s.called.count job.future = 0 := by
    intro job hhand hwaits
    refine List.count_eq_zero.2 (hplaced.uncalled n _ ?_)
    unfold Scheduler.waiting
    rw [if_pos hwaits, Scheduler.held_of_hand hhand]
    exact List.mem_cons_self ..
  cases hpc : s.workers n with
  | getting => exact progress_get hplaced hpc env
  | locking job session =>
    rw [hpc] at h
    unfold Scheduler.work
    simp only [hpc]
    split
    · exact progress_set s h
    · rw [hpc]
      exact h
  | checking job session =>
    have hzero : s.called.count job.future = 0 := huncalled (by rw [hpc]; rfl) (by rw [hpc]; rfl)
    rw [hpc] at h
    unfold Scheduler.work
    simp only [hpc]
    split
    · split
      · exact progress_set s (Or.inr ⟨rfl, hzero, session, h⟩)
      · exact progress_set s h
    · exact progress_set s h
  | claiming job session =>
    have hzero : s.called.count job.future = 0 := huncalled (by rw [hpc]; rfl) (by rw [hpc]; rfl)
    unfold Scheduler.work
    simp only [hpc]
    exact progress_set _ (progress_firstCall hzero true)
  | calling job attempt acquired =>
    rw [hpc] at h
    have houtcome : env.outcome = script job.future (attempt - 1) := by
      unfold Follows at hfollows
      simp only [hpc] at hfollows
      rw [hfollows, h.1]
    unfold Scheduler.work
    simp only [hpc]
    refine progress_callEnded ?_ houtcome h
    rw [houtcome]
    exact hscript _ _
  | sleeping job attempt acquired =>
    rw [hpc] at h
    obtain ⟨hcount, hle, hbefore⟩ := h
    unfold Scheduler.work
    simp only [hpc]
    refine progress_set _ ⟨?_, Nat.succ_le_succ (Nat.zero_le _), Nat.succ_le_succ hle, hbefore⟩
    show (s.called ++ [job.future]).count job.future = attempt + 1
    rw [count_called, hcount]
  | relocking job result =>
    rw [hpc] at h
    have hnext : Progress cfg script s.called n (.releasing job result) := by
      cases result <;> exact h
    unfold Scheduler.work
    simp only [hpc]
    split
    · exact progress_set s hnext
    · rw [hpc]
      exact h
  | releasing job result =>
    rw [hpc] at h
    have hnext : Progress cfg script s.called n (.settling job result) := by
      cases result <;> exact h
    unfold Scheduler.work
    simp only [hpc]
    exact progress_set _ hnext
  | settling job result =>
    unfold Scheduler.work
    simp only [hpc]
    cases result with
    | none => exact progress_set s trivial
    | some outcome =>
      unfold Scheduler.setResult
      dsimp only
      split
      · exact progress_set _ trivial
      · exact progress_set s trivial
  | terminated bySentinel =>
    unfold Scheduler.work
    simp only [hpc]
    trivial

/-! ## Runs -/

/-- What every run keeps in which no future is cancelled and the functions behave as their scripts say. -/
structure Tracked (cfg : SchedulerConfig ν) (script : ℕ → ℕ → CallOutcome α) (c : CountedScheduler ν α) :
    Prop where
  placed : Scheduler.Placed c.scheduler
  live : ∀ f, c.scheduler.futures f ≠ .cancelled
  contained : ∀ n, (c.scheduler.workers n).escaping = false
  queued : ∀ n job, some job ∈ c.scheduler.queues n → c.jobs job.future = some (n, job)
  hand : ∀ n job, (c.scheduler.workers n).hand = some job → c.jobs job.future = some (n, job)
  progress : ∀ n, Progress cfg script c.scheduler.called n (c.scheduler.workers n)
  finished : ∀ f o, c.scheduler.futures f = .finished o →
    ∃ n job, c.jobs f = some (n, job) ∧ job.future = f ∧ Reported cfg script c.scheduler.called n job o
  accounted : c.scheduler.custody.Accounted (fun _ => True) fun f => ∃ o, c.scheduler.futures f = .finished o
  balanced : ∀ n, Balanced c.scheduler c.stats n

theorem queue_subset (h : Scheduler.JobStep s n s') : ∀ item ∈ s'.queues n, item ∈ s.queues n := by
  intro item hitem
  cases h with
  | keep _ _ _ hqueue _ _ => rwa [hqueue] at hitem
  | call _ _ _ _ hqueue _ _ => rwa [hqueue] at hitem
  | take _ _ hqueue _ _ _ => exact hqueue ▸ List.mem_cons_of_mem _ hitem
  | takeCall _ _ hqueue _ _ _ _ => exact hqueue ▸ List.mem_cons_of_mem _ hitem
  | sentinel _ hqueue _ _ _ => exact hqueue ▸ List.mem_cons_of_mem _ hitem
  | settle _ _ _ _ _ hqueue _ _ => rwa [hqueue] at hitem
  | fail _ _ _ _ _ hqueue _ _ => rwa [hqueue] at hitem

/-- The job in hand was there before, or in the queue. -/
theorem hand_from (h : Scheduler.JobStep s n s') (hhand' : (s'.workers n).hand = some job) :
    (s.workers n).hand = some job ∨ some job ∈ s.queues n := by
  cases h with
  | keep hhand _ _ _ _ _ => exact Or.inl (hhand ▸ hhand')
  | call job' hhand hnew _ _ _ _ =>
    rw [hnew] at hhand'
    exact Or.inl (hhand.trans hhand')
  | take job' _ hqueue hnew _ _ =>
    obtain rfl := Option.some.inj (hnew.symm.trans hhand')
    exact Or.inr (hqueue ▸ List.mem_cons_self ..)
  | takeCall job' _ hqueue hnew _ _ _ =>
    obtain rfl := Option.some.inj (hnew.symm.trans hhand')
    exact Or.inr (hqueue ▸ List.mem_cons_self ..)
  | sentinel _ _ hpc' _ _ =>
    rw [hpc'] at hhand'
    cases hhand'
  | settle _ _ _ hpc' _ _ _ _ =>
    rw [hpc'] at hhand'
    cases hhand'
  | fail _ _ _ _ hpc' _ _ _ =>
    rw [hpc'] at hhand'
    cases hhand'

/-- The functions of other nodes' jobs are not called. -/
theorem count_elsewhere (h : Scheduler.JobStep s n s') (hframe : Scheduler.Frame s n s') {f : ℕ}
    (hf : f ∉ s.custody.held n) : s'.called.count f = s.called.count f := by
  rcases h.custody hframe with ⟨-, -, hcalled | ⟨g, hheld, hcalled⟩⟩ | ⟨-, -, -, -, hcalled, -⟩
  · rw [hcalled]
  · have hne : f ≠ g := by
      rintro rfl
      rw [hheld] at hf
      exact hf (List.mem_cons_self ..)
    rw [hcalled, List.count_append, List.count_eq_zero.2 (fun hmem => hne (List.mem_singleton.1 hmem)), Nat.add_zero]
  · rw [hcalled]

/-- A step of a worker that does not fail leaves the futures where they are, or settles the one in hand. -/
theorem keeps_or_settles (h : Scheduler.JobStep s n s') (hframe : Scheduler.Frame s n s')
    (hcontained : (s'.workers n).escaping = false) :
    (s'.custody = s.custody ∧ s'.futures = s.futures) ∨
    ∃ job outcome, s.workers n = .settling job (some outcome) ∧
      s'.custody = s.custody.release n (queued (s.queues n)) ∧ s'.called = s.called ∧
      s'.futures = Function.update s.futures job.future (.finished outcome) := by
  rcases h.custody hframe with
    ⟨hcustody, hfutures, -⟩ | ⟨job, result, hpc, hcustody, hcalled, ⟨hend, -, -⟩ | ⟨outcome, rfl, hfutures⟩⟩
  · exact Or.inl ⟨hcustody, hfutures⟩
  · rw [hend] at hcontained
    cases hcontained
  · exact Or.inr ⟨job, outcome, hpc, hcustody, hcalled, hfutures⟩

omit [DecidableEq ν] in
/-- A property of all workers after a step of worker `n`: of `n` anew, of the others as before. -/
theorem workers_after (hframe : Scheduler.Frame s n s') {P : ν → WorkerPc ν α → Prop}
    (hn : P n (s'.workers n)) (hothers : ∀ k, k ≠ n → P k (s.workers k)) (k : ν) : P k (s'.workers k) := by
  by_cases hk : k = n
  · rw [hk]
    exact hn
  · rw [hframe.workers k hk]
    exact hothers k hk

namespace Tracked

variable {c : CountedScheduler ν α}

omit [DecidableEq ν] in
theorem start (cfg : SchedulerConfig ν) (script : ℕ → ℕ → CallOutcome α) : Tracked cfg script start where
  placed := .start
  live _ := nofun
  contained _ := rfl
  queued _ _ hmem := absurd hmem List.not_mem_nil
  hand _ _ := nofun
  progress _ := trivial
  finished _ _ := nofun
  accounted f hf := absurd hf (Nat.not_lt_zero f)
  balanced _ := rfl

omit [DecidableEq ν] in
/-- A job that reaches `set_result` has a pending future. -/
theorem pending (h : Tracked cfg script c) {outcome : JobOutcome ν α}
    (hpc : c.scheduler.workers n = .settling job (some outcome)) :
    (c.scheduler.futures job.future).done = false := by
  cases hfuture : c.scheduler.futures job.future with
  | pending => rfl
  | cancelled => exact absurd hfuture (h.live _)
  | finished o =>
    have hmem : job.future ∈ c.scheduler.custody.held n := by
      rw [Scheduler.held_of_hand (by rw [hpc]; rfl)]
      exact List.mem_cons_self ..
    exact absurd hmem ((h.placed.finished _ o hfuture).2 n)

/-! What a step of worker `n` to `s'` leaves of the record. -/

section Step

variable (h : Tracked cfg script c) (hstep : Scheduler.JobStep c.scheduler n s')
  (hframe : Scheduler.Frame c.scheduler n s') (hcontained : (s'.workers n).escaping = false)
include h hstep hframe hcontained

theorem live_step (f : ℕ) : s'.futures f ≠ .cancelled := by
  rcases keeps_or_settles hstep hframe hcontained with ⟨-, hfutures⟩ | ⟨job, outcome, -, -, -, hfutures⟩
  · rw [hfutures]
    exact h.live f
  · rw [hfutures]
    by_cases hf : f = job.future
    · rw [hf, Function.update_self]
      nofun
    · rw [Function.update_of_ne hf]
      exact h.live f

/-- The outcome that is settled is the one that the worker's progress has reported. -/
theorem finished_step (f : ℕ) (o : JobOutcome ν α) (ho : s'.futures f = .finished o) :
    ∃ n job, c.jobs f = some (n, job) ∧ job.future = f ∧ Reported cfg script s'.called n job o := by
  have hold : c.scheduler.futures f = .finished o → ∃ n job, c.jobs f = some (n, job) ∧ job.future = f ∧
      Reported cfg script s'.called n job o := by
    intro ho
    obtain ⟨i, job, hjob, rfl, hreported⟩ := h.finished f o ho
    refine ⟨i, job, hjob, rfl, ?_⟩
    unfold Reported
    rw [count_elsewhere hstep hframe ((h.placed.finished _ o ho).2 n)]
    exact hreported
  rcases keeps_or_settles hstep hframe hcontained with
    ⟨-, hfutures⟩ | ⟨job, outcome, hpc, -, hcalled, hfutures⟩
  · rw [hfutures] at ho
    exact hold ho
  · rw [hfutures] at ho
    by_cases hf : f = job.future
    · rw [hf, Function.update_self] at ho
      obtain rfl := FutureState.finished.inj ho
      have hreported := h.progress n
      rw [hpc] at hreported
      refine ⟨n, job, hf ▸ h.hand n job (by rw [hpc]; rfl), hf.symm, ?_⟩
      rw [hcalled]
      exact hreported
    · rw [Function.update_of_ne hf] at ho
      exact hold ho

theorem accounted_step : s'.custody.Accounted (fun _ => True) fun f => ∃ o, s'.futures f = .finished o := by
  rcases keeps_or_settles hstep hframe hcontained with
    ⟨hcustody, hfutures⟩ | ⟨job, outcome, hpc, hcustody, -, hfutures⟩
  · rw [hcustody, hfutures]
    exact h.accounted
  · rw [hcustody, hfutures]
    refine (h.accounted.mono fun g hg => ?_).release (Scheduler.held_of_hand (by rw [hpc]; rfl)) ?_
    · by_cases hgf : g = job.future
      · rw [hgf, Function.update_self]
        exact ⟨outcome, rfl⟩
      · rwa [Function.update_of_ne hgf]
    · rw [Function.update_self]
      exact ⟨outcome, rfl⟩

end Step

theorem work (h : Tracked cfg script c) (hscript : ∀ f i, (script f i).escapes = false) (n : ν) (env : Env α)
    (hfollows : Follows script c.scheduler (.work n env)) :
    Tracked cfg script
      { c with scheduler := c.scheduler.work cfg n env, stats := workStats c.scheduler n c.stats } := by
  obtain ⟨hframe, hstep⟩ := Scheduler.work_jobs cfg c.scheduler n env
  have hraise : (c.scheduler.workers n).inFunction = true → env.outcome.escapes = false := by
    intro hcalling
    unfold Follows at hfollows
    cases hpc : c.scheduler.workers n with
    | calling job attempt acquired =>
      simp only [hpc] at hfollows
      rw [hfollows]
      exact hscript _ _
    | _ =>
      rw [hpc] at hcalling
      cases hcalling
  have hcontained : ((c.scheduler.work cfg n env).workers n).escaping = false :=
    Scheduler.work_contained (h.contained n) (fun _ _ hpc => h.pending hpc) hraise
  have hprogress := progress_work h.placed hscript hfollows (h.progress n)
  have hbalanced : Balanced (c.scheduler.work cfg n env) (workStats c.scheduler n c.stats) n :=
    balanced_work (h.contained n) (h.balanced n)
  have hplaced := h.placed.work cfg n env
  generalize c.scheduler.work cfg n env = s' at hframe hstep hcontained hprogress hbalanced hplaced
  have hqueued : ∀ k job, some job ∈ s'.queues k → some job ∈ c.scheduler.queues k := by
    intro k job hmem
    by_cases hk : k = n
    · subst hk
      exact queue_subset hstep _ hmem
    · rwa [hframe.queues k hk] at hmem
  have hothers : ∀ k, k ≠ n → Progress cfg script s'.called k (c.scheduler.workers k) := by
    intro k hk
    refine progress_of_count (fun job hhand => count_elsewhere hstep hframe fun hmem => hk ?_) (h.progress k)
    -- the job in the hand of `k` is nowhere else
    have hheld : job.future ∈ c.scheduler.custody.held k := by
      rw [Scheduler.held_of_hand hhand]
      exact List.mem_cons_self ..
    exact h.placed.once.unique k n _ hheld hmem
  have hhand : ∀ job, (s'.workers n).hand = some job → c.jobs job.future = some (n, job) := by
    intro job hhand
    rcases hand_from hstep hhand with hold | hqueue
    · exact h.hand n job hold
    · exact h.queued n job hqueue
  refine
    { placed := hplaced
      live := h.live_step hstep hframe hcontained
      contained := workers_after (P := fun _ pc => pc.escaping = false) hframe hcontained fun k _ => h.contained k
      queued := fun k job hmem => h.queued k job (hqueued k job hmem)
      hand := workers_after (P := fun k pc => ∀ job, pc.hand = some job → c.jobs job.future = some (k, job))
        hframe hhand fun k _ => h.hand k
      progress := workers_after (P := fun k pc => Progress cfg script s'.called k pc) hframe hprogress hothers
      finished := h.finished_step hstep hframe hcontained
      accounted := h.accounted_step hstep hframe hcontained
      balanced := fun k => ?_ }
  by_cases hk : k = n
  · rw [hk]
    exact hbalanced
  · have hother := h.balanced k
    unfold Balanced outcomes at hother ⊢
    simp only [workStats_of_ne _ _ hk, hframe.workers k hk]
    exact hother

/-- The job that is put gets a future of its own. -/
theorem put (h : Tracked cfg script c) (i : ℕ) : Tracked cfg script (c.step cfg (.put i)) := by
  have hplaced := h.placed.put i
  cases hcall : c.scheduler.checked[i]? with
  | none =>
    have hstep : c.step cfg (.put i) = c := by
      simp only [CountedScheduler.step, Scheduler.step, Scheduler.put, hcall]
    rw [hstep]
    exact h
  | some call =>
    obtain ⟨node, session, retries⟩ := call
    generalize hjob : QueuedJob.mk session retries c.scheduler.submitted = job
    have hfuture : job.future = c.scheduler.submitted := by
      rw [← hjob]
    have hscheduler : c.scheduler.put i =
        { c.scheduler with
          checked := c.scheduler.checked.eraseIdx i
          submitted := c.scheduler.submitted + 1
          queues := Function.update c.scheduler.queues node (c.scheduler.queues node ++ [some job]) } := by
      simp only [Scheduler.put, hcall, hjob]
    have hstep : c.step cfg (.put i) =
        { c with
          scheduler := c.scheduler.put i
          jobs := Function.update c.jobs c.scheduler.submitted (some (node, job)) } := by
      simp only [CountedScheduler.step, Scheduler.step, hcall, hjob]
    have hcustody : (c.scheduler.put i).custody = c.scheduler.custody.issue node := by
      rw [hscheduler]
      exact Scheduler.custody_put rfl rfl hfuture rfl
    -- the futures returned so far keep their notes
    have hkeep : ∀ f < c.scheduler.submitted,
        Function.update c.jobs c.scheduler.submitted (some (node, job)) f = c.jobs f :=
      fun f hf => Function.update_of_ne (Nat.ne_of_lt hf) ..
    have hheld : ∀ k other, some other ∈ c.scheduler.queues k → other.future < c.scheduler.submitted := by
      intro k other hmem
      refine h.placed.once.bound k _ (List.mem_append_right _ ?_)
      exact List.mem_filterMap.2 ⟨some other, hmem, rfl⟩
    have hinHand : ∀ k other, (c.scheduler.workers k).hand = some other → other.future < c.scheduler.submitted := by
      intro k other hhand
      refine h.placed.once.bound k _ ?_
      rw [Scheduler.held_of_hand hhand]
      exact List.mem_cons_self ..
    rw [hstep]
    rw [hscheduler] at hplaced hcustody ⊢
    refine
      { placed := hplaced
        live := h.live
        contained := h.contained
        queued := fun k other hmem => ?_
        hand := fun k other hhand => ?_
        progress := h.progress
        finished := fun f o ho => ?_
        accounted := ?_
        balanced := h.balanced }
    · dsimp only at hmem ⊢
      by_cases hk : k = node
      · subst hk
        rw [Function.update_self] at hmem
        rcases List.mem_append.1 hmem with hold | hnew
        · rw [hkeep _ (hheld k other hold)]
          exact h.queued k other hold
        · obtain rfl := Option.some.inj (List.mem_singleton.1 hnew)
          rw [hfuture, Function.update_self]
      · rw [Function.update_of_ne hk] at hmem
        rw [hkeep _ (hheld k other hmem)]
        exact h.queued k other hmem
    · dsimp only
      rw [hkeep _ (hinHand k other hhand)]
      exact h.hand k other hhand
    · dsimp only
      rw [hkeep _ (h.placed.finished f o ho).1]
      exact h.finished f o ho
    · rw [hcustody]
      exact h.accounted.issue trivial

theorem submit (h : Tracked cfg script c) (node : ν) (session : Option ℕ) (retries : Option Int) :
    Tracked cfg script (c.step cfg (.submit node session retries)) := by
  have hplaced := h.placed.step cfg (.submit node session retries)
  unfold CountedScheduler.step
  unfold Scheduler.step at hplaced ⊢
  dsimp only at hplaced ⊢
  cases hsubmit : c.scheduler.submit cfg node session retries with
  | error _ => exact h
  | ok s' =>
    obtain ⟨-, -, call, rfl⟩ := Scheduler.submit_ok hsubmit
    rw [hsubmit] at hplaced
    exact ⟨hplaced, h.live, h.contained, h.queued, h.hand, h.progress, h.finished, h.accounted, h.balanced⟩

theorem close (h : Tracked cfg script c) : Tracked cfg script (c.step cfg .close) := by
  have hplaced := h.placed.close cfg
  show Tracked cfg script { c with scheduler := c.scheduler.close cfg }
  generalize hs' : c.scheduler.close cfg = s' at hplaced ⊢
  unfold Scheduler.close at hs'
  split at hs'
  · split at hs'
    · rw [← hs']
      exact h
    · subst hs'
      exact ⟨hplaced, h.live, h.contained, h.queued, h.hand, h.progress, h.finished, h.accounted, h.balanced⟩
  · rw [← hs']
    exact h
  · next node rest hclosing =>
    have hcustody : s'.custody = c.scheduler.custody := by
      subst hs'
      exact Scheduler.custody_sentinel rfl rfl rfl
    subst hs'
    refine ⟨hplaced, h.live, h.contained, fun k job hmem => ?_, h.hand, h.progress, h.finished, ?_, h.balanced⟩
    · refine h.queued k job ?_
      dsimp only at hmem
      by_cases hk : k = node
      · subst hk
        rw [Function.update_self] at hmem
        exact (List.mem_append.1 hmem).resolve_right nofun
      · rwa [Function.update_of_ne hk] at hmem
    · rw [hcustody]
      exact h.accounted

/-- **One step.** -/
theorem step (h : Tracked cfg script c) (hscript : ∀ f i, (script f i).escapes = false) (e : Scheduler.Event ν α)
    (hlive : Uncancelled e) (hfollows : Follows script c.scheduler e) : Tracked cfg script (c.step cfg e) := by
  cases e with
  | submit node session retries => exact h.submit node session retries
  | put i => exact h.put i
  | cancel future => exact hlive.elim
  | close => exact h.close
  | work n env =>
    unfold CountedScheduler.step Scheduler.step
    dsimp only
    split
    · exact h.work hscript n env hfollows
    · exact h

end Tracked

/-- A function that times out once and then returns. -/
def timesOutOnce : ℕ → ℕ → CallOutcome ℕ
  | _, 0 => .timeoutError "timed out"
  | _, _ + 1 => .returned 7

/-- Its job on the first node, from `submit` to `set_result`. -/
def retriedRun : List (Scheduler.Event Bool ℕ) :=
  let first : Env ℕ := { expired := false, outcome := .timeoutError "timed out" }
  let second : Env ℕ := { expired := false, outcome := .returned 7 }
  [.submit false none none, .put 0, .work false first, .work false first, .work false first, .work false second,
    .work false second]

example : (after (step Scheduler.twoNodes) start retriedRun).scheduler.futures 0 =
    .finished (reference false 1 (timesOutOnce 0)) := rfl

end CountedScheduler

end DualCan.Tools
