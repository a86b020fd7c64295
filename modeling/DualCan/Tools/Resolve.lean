import DualCan.Tools.Jobs

/-!
# Resolving every job

A future of the queued scheduler can stay pending for ever in two ways: its job is put behind the sentinel
of its node, or an earlier job's future was cancelled and `set_result` ends the thread. In a run without
these steps (`Orderly`) a worker ends by its sentinel only, the sentinel is the last thing in its queue
(`Sentinels`), and a future that is not done is with some node, so when all workers have ended every future
is done.
-/

namespace DualCan.Tools

open DualCan.Run

/-- An exception is on its way out of the worker thread, or has left it. -/
def WorkerPc.escaping {ν α : Type} : WorkerPc ν α → Bool
  | .relocking _ none | .releasing _ none | .settling _ none | .terminated false => true
  | _ => false

/-- The future that the worker is about to give a result. -/
def WorkerPc.settles {ν α : Type} : WorkerPc ν α → Option ℕ
  | .settling job (some _) => some job.future
  | _ => none

/-- The worker is in the function of its job. -/
def WorkerPc.inFunction {ν α : Type} : WorkerPc ν α → Bool
  | .calling .. => true
  | _ => false

/-- The function ends with an exception that is not an `Exception`. -/
def CallOutcome.escapes {α : Type} : CallOutcome α → Bool
  | .escaped => true
  | _ => false

namespace Scheduler

variable {ν α : Type} {cfg : SchedulerConfig ν} {s s' : Scheduler ν α} {n : ν}

/-- `close` has not put the sentinel of `n` yet. -/
def Due (s : Scheduler ν α) (n : ν) : Prop := ∀ rest ∈ s.closing, n ∈ rest

/-- A step without the two slips: no job is put behind its node's sentinel, and no worker comes to
`set_result` with a cancelled future. -/
def Orderly (s : Scheduler ν α) : Event ν α → Prop
  | .put k => ∀ call ∈ s.checked[k]?, s.Due call.1
  | .work n _ => ∀ f ∈ (s.workers n).settles, s.futures f ≠ .cancelled
  | _ => True

/-- A job's function raises subclasses of `Exception` only. -/
def OnlyExceptions (s : Scheduler ν α) : Event ν α → Prop
  | .work n env => (s.workers n).inFunction = true → env.outcome.escapes = false
  | _ => True

instance [DecidableEq ν] (s : Scheduler ν α) (n : ν) : Decidable (s.Due n) :=
  inferInstanceAs (Decidable (∀ rest ∈ s.closing, n ∈ rest))

instance [DecidableEq ν] [DecidableEq α] (s : Scheduler ν α) : ∀ e, Decidable (Orderly s e)
  | .put k => inferInstanceAs (Decidable (∀ call ∈ s.checked[k]?, s.Due call.1))
  | .work n _ => inferInstanceAs (Decidable (∀ f ∈ (s.workers n).settles, s.futures f ≠ .cancelled))
  | .submit .. | .cancel _ | .close => isTrue trivial

instance (s : Scheduler ν α) : ∀ e, Decidable (OnlyExceptions s e)
  | .work n env => inferInstanceAs (Decidable ((s.workers n).inFunction = true → env.outcome.escapes = false))
  | .submit .. | .put _ | .cancel _ | .close => isTrue trivial

/-- Where the sentinels are. -/
structure Sentinels (cfg : SchedulerConfig ν) (s : Scheduler ν α) : Prop where
  nodup : ∀ rest, s.closing = some rest → rest.Nodup
  due : ∀ n, n ∈ cfg.nodes → s.Due n → none ∉ s.queues n ∧ s.workers n ≠ .terminated true
  placed : ∀ n, n ∈ cfg.nodes → ¬s.Due n →
    (∃ queue, s.queues n = queue ++ [none] ∧ none ∉ queue ∧ s.workers n ≠ .terminated true) ∨
      (s.queues n = [] ∧ s.workers n = .terminated true)

namespace Sentinels

/-- A step that does not touch the queues and ends no thread. -/
theorem quiet (h : Sentinels cfg s) (hclosing : s'.closing = s.closing) (hqueues : s'.queues = s.queues)
    (hworkers : s'.workers = s.workers) : Sentinels cfg s' := by
  have hdue : ∀ k, s'.Due k ↔ s.Due k := by
    intro k
    unfold Due
    rw [hclosing]
  refine ⟨by rw [hclosing]; exact h.nodup, fun k hk hd => ?_, fun k hk hd => ?_⟩
  · rw [hqueues, hworkers]
    exact h.due k hk ((hdue k).1 hd)
  · rw [hqueues, hworkers]
    exact h.placed k hk (mt (hdue k).2 hd)

theorem start (cfg : SchedulerConfig ν) : Sentinels cfg (start : Scheduler ν α) := by
  refine ⟨nofun, fun k _ _ => ⟨nofun, nofun⟩, fun k _ hdue => ?_⟩
  exact absurd (fun rest hrest => nomatch hrest) hdue

variable [DecidableEq ν]

/-- A job joins the queue of a node whose sentinel is not there yet. -/
theorem put (h : Sentinels cfg s) (hdue : s.Due n) (job : QueuedJob) (hclosing : s'.closing = s.closing)
    (hqueues : s'.queues = Function.update s.queues n (s.queues n ++ [some job]))
    (hworkers : s'.workers = s.workers) : Sentinels cfg s' := by
  have hdue' : ∀ k, s'.Due k ↔ s.Due k := by
    intro k
    unfold Due
    rw [hclosing]
  refine ⟨by rw [hclosing]; exact h.nodup, fun k hk hd => ?_, fun k hk hd => ?_⟩
  · obtain ⟨hnone, hpc⟩ := h.due k hk ((hdue' k).1 hd)
    rw [hworkers]
    refine ⟨?_, hpc⟩
    by_cases hkn : k = n
    · subst hkn
      rw [hqueues, Function.update_self]
      simpa using hnone
    · rwa [hqueues, Function.update_of_ne hkn]
  · have hkn : k ≠ n := by
      rintro rfl
      exact hd ((hdue' k).2 hdue)
    rw [hqueues, Function.update_of_ne hkn, hworkers]
    exact h.placed k hk (mt (hdue' k).2 hd)

theorem close (h : Sentinels cfg s) : Sentinels cfg (s.close cfg) := by
  unfold Scheduler.close
  split
  · next hclosing =>
    split
    · exact h
    · -- the flag is up, every sentinel is still to come
      have hdue : ∀ k, s.Due k := by
        intro k rest hrest
        rw [hclosing] at hrest
        cases hrest
      refine ⟨?_, fun k hk _ => h.due k hk (hdue k), fun k hk hd => absurd ?_ hd⟩
      · rintro rest ⟨⟩
        exact cfg.nodup
      · rintro rest ⟨⟩
        exact hk
  · exact h
  · next node rest hclosing =>
    have hnodup := h.nodup _ hclosing
    refine ⟨?_, fun k hk hd => ?_, fun k hk hd => ?_⟩
    · rintro rest' ⟨⟩
      exact hnodup.of_cons
    · have hmem : k ∈ rest := hd rest rfl
      have hkn : k ≠ node := by
        rintro rfl
        exact hnodup.notMem hmem
      have hold : s.Due k := by
        intro rest' hrest
        rw [hclosing] at hrest
        obtain rfl := Option.some.inj hrest
        exact List.mem_cons_of_mem _ hmem
      dsimp only
      rw [Function.update_of_ne hkn]
      exact h.due k hk hold
    · dsimp only
      by_cases hkn : k = node
      · subst hkn
        have hold : s.Due k := by
          intro rest' hrest
          rw [hclosing] at hrest
          obtain rfl := Option.some.inj hrest
          exact List.mem_cons_self ..
        obtain ⟨hnone, hpc⟩ := h.due k hk hold
        exact Or.inl ⟨s.queues k, Function.update_self .., hnone, hpc⟩
      · rw [Function.update_of_ne hkn]
        refine h.placed k hk fun hold => hd ?_
        rintro rest' ⟨⟩
        exact (List.mem_cons.1 (hold _ hclosing)).resolve_left hkn

/-- A worker's step takes at most the first item of its queue, and ends the thread if that is a sentinel. -/
theorem queue_step (hstep : JobStep s n s') (hpc : s.workers n ≠ .terminated true) :
    (s'.workers n ≠ .terminated true ∧
      (s'.queues n = s.queues n ∨ ∃ job, s.queues n = some job :: s'.queues n)) ∨
      (s'.workers n = .terminated true ∧ s.queues n = none :: s'.queues n) := by
  have hbusy : ∀ {job : QueuedJob}, (s'.workers n).hand = some job → s'.workers n ≠ .terminated true := by
    intro job hhand hend
    rw [hend] at hhand
    cases hhand
  cases hstep with
  | keep hhand huncalled hstop hqueue hcalled hfutures =>
    exact Or.inl ⟨fun hend => hpc (hstop true hend), Or.inl hqueue⟩
  | call job hhand hhand' huncalled hqueue hcalled hfutures => exact Or.inl ⟨hbusy hhand', Or.inl hqueue⟩
  | take job hpc hqueue hhand hcalled hfutures => exact Or.inl ⟨hbusy hhand, Or.inr ⟨job, hqueue⟩⟩
  | takeCall job hpc hqueue hhand huncalled hcalled hfutures =>
    exact Or.inl ⟨hbusy hhand, Or.inr ⟨job, hqueue⟩⟩
  | sentinel hpc hqueue hpc' hcalled hfutures => exact Or.inr ⟨hpc', hqueue⟩
  | settle job outcome hpc hpc' hpending hqueue hcalled hfutures =>
    exact Or.inl ⟨by rw [hpc']; nofun, Or.inl hqueue⟩
  | fail job result hpc hresult hpc' hqueue hcalled hfutures =>
    exact Or.inl ⟨by rw [hpc']; nofun, Or.inl hqueue⟩

/-- What a worker does with a queue whose sentinel is at the end or still to come. -/
theorem work (h : Sentinels cfg s) (n : ν) (env : Env α) : Sentinels cfg (s.work cfg n env) := by
  by_cases hend : s.workers n = .terminated true
  · have hidle : s.work cfg n env = s := by
      unfold Scheduler.work
      rw [hend]
    rwa [hidle]
  obtain ⟨hframe, hstep⟩ := work_jobs cfg s n env
  have hdue : ∀ k, (s.work cfg n env).Due k ↔ s.Due k := by
    intro k
    unfold Due
    rw [hframe.closing]
  refine ⟨by rw [hframe.closing]; exact h.nodup, fun k hk hd => ?_, fun k hk hd => ?_⟩
  · have hold := h.due k hk ((hdue k).1 hd)
    by_cases hkn : k = n
    case neg => rwa [hframe.queues k hkn, hframe.workers k hkn]
    subst hkn
    obtain ⟨hnone, hpc⟩ := hold
    rcases queue_step hstep hpc with ⟨hrun, hsame | ⟨job, hqueue⟩⟩ | ⟨-, hqueue⟩
    · rw [hsame]
      exact ⟨hnone, hrun⟩
    · rw [hqueue] at hnone
      exact ⟨fun hmem => hnone (List.mem_cons_of_mem _ hmem), hrun⟩
    · rw [hqueue] at hnone
      exact absurd (List.mem_cons_self ..) hnone
  · have hold := h.placed k hk (mt (hdue k).2 hd)
    by_cases hkn : k = n
    case neg => rwa [hframe.queues k hkn, hframe.workers k hkn]
    subst hkn
    obtain ⟨queue, hqueue, hnone, hpc⟩ := hold.resolve_right fun hdone => hend hdone.2
    rcases queue_step hstep hpc with ⟨hrun, hsame | ⟨job, hqueue'⟩⟩ | ⟨hstop, hqueue'⟩
    · exact Or.inl ⟨queue, hsame.trans hqueue, hnone, hrun⟩
    · rw [hqueue] at hqueue'
      cases queue with
      | nil => cases hqueue'
      | cons item queue =>
        obtain ⟨rfl, htail⟩ := List.cons.inj hqueue'
        exact Or.inl ⟨queue, htail.symm, fun hmem => hnone (List.mem_cons_of_mem _ hmem), hrun⟩
    · -- the sentinel was the last item
      rw [hqueue] at hqueue'
      cases queue with
      | nil => exact Or.inr ⟨(List.cons.inj hqueue').2.symm, hstop⟩
      | cons item queue =>
        obtain ⟨rfl, -⟩ := List.cons.inj hqueue'
        exact absurd (List.mem_cons_self ..) hnone

end Sentinels

/-! ## Runs -/

/-- What an orderly run keeps. -/
structure Sound (cfg : SchedulerConfig ν) (s : Scheduler ν α) : Prop where
  placed : Placed s
  sentinels : Sentinels cfg s
  checked : ∀ call ∈ s.checked, call.1 ∈ cfg.nodes
  accounted : s.custody.Accounted (· ∈ cfg.nodes) fun f => (s.futures f).done = true
  contained : ∀ n, (s.workers n).escaping = false

namespace Sound

theorem start (cfg : SchedulerConfig ν) : Sound cfg (start : Scheduler ν α) := by
  refine ⟨.start, .start cfg, nofun, fun f hf => ?_, fun _ => rfl⟩
  cases hf

/-- A job that reaches `set_result` in an orderly step has a pending future. -/
theorem pending (h : Sound cfg s) {job : QueuedJob} {outcome : JobOutcome ν α}
    (hpc : s.workers n = .settling job (some outcome)) (hlive : s.futures job.future ≠ .cancelled) :
    (s.futures job.future).done = false := by
  cases hfuture : s.futures job.future with
  | pending => rfl
  | cancelled => exact absurd hfuture hlive
  | finished o =>
    have hmem : job.future ∈ s.custody.held n := by
      rw [held_of_hand (by rw [hpc]; rfl)]
      exact List.mem_cons_self ..
    exact absurd hmem ((h.placed.finished _ o hfuture).2 n)

theorem cancel (h : Sound cfg s) (f : ℕ) : Sound cfg (s.cancel f) := by
  have hplaced := h.placed.cancel f
  generalize hs' : s.cancel f = s' at hplaced ⊢
  unfold Scheduler.cancel at hs'
  split at hs'
  · subst hs'
    refine ⟨hplaced, h.sentinels.quiet rfl rfl rfl, h.checked, h.accounted.mono fun g hg => ?_, h.contained⟩
    dsimp only
    by_cases hgf : g = f
    · subst hgf
      rw [Function.update_self]
      rfl
    · rwa [Function.update_of_ne hgf]
  · rwa [← hs']

end Sound

variable [DecidableEq ν]

/-- No exception gets out of the worker of `n`. -/
theorem work_contained (hcontained : (s.workers n).escaping = false) {env : Env α}
    (hsettle : ∀ job outcome, s.workers n = .settling job (some outcome) →
      (s.futures job.future).done = false)
    (hraise : (s.workers n).inFunction = true → env.outcome.escapes = false) :
    ((s.work cfg n env).workers n).escaping = false := by
  have hmove : ∀ (s' : Scheduler ν α) (pc : WorkerPc ν α), s'.workers = Function.update s.workers n pc →
      pc.escaping = false → (s'.workers n).escaping = false := by
    intro s' pc hworkers hpc
    rw [hworkers, Function.update_self]
    exact hpc
  have hstep : WorkStep cfg s n env (s.work cfg n env) := s.work_step n env
  generalize s.work cfg n env = s' at hstep ⊢
  cases hstep with
  | wait => exact hcontained
  | sentinel hpc hqueue => exact hmove _ (.terminated true) rfl rfl
  | @take job rest hpc hqueue hfree => exact hmove _ (.calling job 1 false) rfl rfl
  | @want job rest session hpc hqueue hsession hexclusive => exact hmove _ (.locking job session) rfl rfl
  | @enter job session hpc hlock => exact hmove _ (.checking job session) rfl rfl
  | @giveUp job session hpc => exact hmove _ (.settling job (some (skippedOutcome n))) rfl rfl
  | @refuse job session hpc => exact hmove _ (.locking job session) rfl rfl
  | @pass job session hpc hfree => exact hmove _ (.claiming job session) rfl rfl
  | @claim job session hpc => exact hmove _ (.calling job 1 true) rfl rfl
  | @retry job attempt acquired hpc => exact hmove _ (.sleeping job attempt acquired) rfl rfl
  | @leave job attempt acquired result hpc hescaped hstatus =>
    cases result with
    | none =>
      have hno := hraise (by rw [hpc]; rfl)
      rw [hescaped rfl] at hno
      cases hno
    | some o =>
      refine hmove _ (if acquired then .relocking job (some o) else .settling job (some o)) rfl ?_
      cases acquired <;> rfl
  | @again job attempt acquired hpc => exact hmove _ (.calling job (attempt + 1) acquired) rfl rfl
  | @relock job result hpc hlock =>
    rw [hpc] at hcontained
    cases result with
    | none => cases hcontained
    | some o => exact hmove _ (.releasing job (some o)) rfl rfl
  | @release job result hpc =>
    rw [hpc] at hcontained
    cases result with
    | none => cases hcontained
    | some o => exact hmove _ (.settling job (some o)) rfl rfl
  | settle hpc hpending => exact hmove _ .getting rfl rfl
  | @fail job result hpc hdone =>
    rw [hpc] at hcontained
    cases result with
    | none => cases hcontained
    | some o =>
      have hpending := hsettle job o hpc
      rw [hdone rfl] at hpending
      cases hpending

namespace Sound

theorem work (h : Sound cfg s) (n : ν) (env : Env α) (horderly : Orderly s (.work n env))
    (hraise : OnlyExceptions s (.work n env)) : Sound cfg (s.work cfg n env) := by
  have hpending : ∀ job outcome, s.workers n = .settling job (some outcome) →
      (s.futures job.future).done = false :=
    fun job outcome hpc => h.pending hpc (horderly job.future (by rw [hpc]; rfl))
  have hcontained : ((s.work cfg n env).workers n).escaping = false :=
    work_contained (h.contained n) hpending hraise
  obtain ⟨hframe, hstep⟩ := work_jobs cfg s n env
  refine ⟨h.placed.work cfg n env, h.sentinels.work n env, by rw [hframe.checked]; exact h.checked, ?_,
    fun k => ?_⟩
  · rcases hstep.custody hframe with ⟨hcustody, hfutures, -⟩ | ⟨job, result, hpc, hcustody, -, hresult⟩
    · rw [hcustody, hfutures]
      exact h.accounted
    · rcases hresult with ⟨hend, -, -⟩ | ⟨outcome, rfl, hfutures⟩
      · rw [hend] at hcontained
        cases hcontained
      · -- the job that leaves has its result
        rw [hcustody, hfutures]
        refine (h.accounted.mono fun g hg => ?_).release (held_of_hand (by rw [hpc]; rfl)) ?_
        · by_cases hgf : g = job.future
          · rw [hgf, Function.update_self]
            rfl
          · rwa [Function.update_of_ne hgf]
        · rw [Function.update_self]
          rfl
  · by_cases hk : k = n
    · rw [hk]
      exact hcontained
    · rw [hframe.workers k hk]
      exact h.contained k

theorem put (h : Sound cfg s) (k : ℕ) (horderly : Orderly s (.put k)) : Sound cfg (s.put k) := by
  have hplaced := h.placed.put k
  generalize hs' : s.put k = s' at hplaced ⊢
  unfold Scheduler.put at hs'
  split at hs'
  · rwa [← hs']
  · next node session retries hcall =>
    have hnode : node ∈ cfg.nodes := h.checked _ (List.mem_of_getElem? hcall)
    have hcustody : s'.custody = s.custody.issue node := by
      subst hs'
      exact custody_put rfl rfl rfl rfl
    have hsentinels : Sentinels cfg s' := by
      subst hs'
      exact h.sentinels.put (horderly _ hcall) _ rfl rfl rfl
    refine ⟨hplaced, hsentinels, ?_, ?_, ?_⟩
    · subst hs'
      exact fun call hmem => h.checked call (List.mem_of_mem_eraseIdx hmem)
    · rw [hcustody]
      subst hs'
      exact h.accounted.issue hnode
    · subst hs'
      exact h.contained

theorem close (h : Sound cfg s) : Sound cfg (s.close cfg) := by
  have hplaced := h.placed.close cfg
  have hsentinels := h.sentinels.close
  generalize hs' : s.close cfg = s' at hplaced hsentinels ⊢
  unfold Scheduler.close at hs'
  split at hs'
  · split at hs'
    · rwa [← hs']
    · subst hs'
      exact ⟨hplaced, hsentinels, h.checked, h.accounted, h.contained⟩
  · rwa [← hs']
  · next node rest hclosing =>
    have hcustody : s'.custody = s.custody := by
      subst hs'
      exact custody_sentinel rfl rfl rfl
    refine ⟨hplaced, hsentinels, ?_, ?_, ?_⟩
    · subst hs'
      exact h.checked
    · rw [hcustody]
      subst hs'
      exact h.accounted
    · subst hs'
      exact h.contained

/-- **One orderly step.** -/
theorem step (h : Sound cfg s) (e : Event ν α) (horderly : Orderly s e) (hraise : OnlyExceptions s e) :
    Sound cfg (s.step cfg e) := by
  unfold Scheduler.step
  cases e with
  | submit node session retries =>
    dsimp only
    split
    · next s' hs' =>
      obtain ⟨-, hnode, call, rfl⟩ := submit_ok hs'
      refine ⟨h.placed.quiet rfl (fun _ _ => id) rfl fun _ _ => id, h.sentinels.quiet rfl rfl rfl, ?_,
        h.accounted, h.contained⟩
      intro c hc
      rcases List.mem_append.1 hc with hold | hnew
      · exact h.checked c hold
      · obtain rfl := List.mem_singleton.1 hnew
        exact hnode
    · exact h
  | put k => exact h.put k horderly
  | cancel future => exact h.cancel future
  | close => exact h.close
  | work n env =>
    dsimp only
    split
    · exact h.work n env horderly hraise
    · exact h

end Sound

/-- One job on the first node, done before `close`. -/
def orderlyRun : List (Event Bool ℕ) :=
  let env : Env ℕ := { expired := false, outcome := .returned 7 }
  [.submit false none none, .put 0, .work false env, .work false env, .work false env, .close, .close,
    .close, .work false env, .work true env]

/-- A call of `submit` passes its check before `close`, and puts its job after the workers have ended. -/
def lateRun : List (Event Bool ℕ) :=
  let env : Env ℕ := { expired := false, outcome := .returned 7 }
  [.submit false none none, .close, .close, .close, .work false env, .work true env, .put 0]

/-- The first job is cancelled while its function runs; a second one is behind it. -/
def cancelledRun : List (Event Bool ℕ) :=
  let env : Env ℕ := { expired := false, outcome := .returned 7 }
  [.submit false none none, .submit false none none, .put 0, .put 0, .work false env, .cancel 0,
    .work false env, .work false env, .close, .close, .close, .work true env]

end Scheduler

end DualCan.Tools
