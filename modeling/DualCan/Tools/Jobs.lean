import DualCan.Run.Custody
import DualCan.Tools.Scheduler

/-!
# The jobs of the queued scheduler

Where a job can be: in the queue of one node or in the hands of its worker. `JobStep` says once what a
worker's step does to the jobs, the queue, the futures and the calls, and `work_jobs` that every step is of
that kind. `Placed` follows: a job is in one place at most, its function is not called before it leaves the
queue and the session lock, and it is nowhere once its future has a result.
-/

namespace DualCan.Tools

open DualCan.Run

namespace WorkerPc

variable {ν α : Type}

/-- The job a worker has in its hands. -/
def hand : WorkerPc ν α → Option QueuedJob
  | .locking job _ | .checking job _ | .claiming job _ => some job
  | .calling job _ _ | .sleeping job _ _ => some job
  | .relocking job _ | .releasing job _ | .settling job _ => some job
  | .getting | .terminated _ => none

/-- The function of the job in hand has not been called. -/
def uncalled : WorkerPc ν α → Bool
  | .locking .. | .checking .. | .claiming .. => true
  | .relocking _ (some outcome) | .releasing _ (some outcome) | .settling _ (some outcome) =>
    outcome.status = .skipped
  | _ => false

end WorkerPc

/-- The futures of the jobs in a queue. -/
def queued (queue : List (Option QueuedJob)) : List ℕ := queue.filterMap (Option.map QueuedJob.future)

@[simp] theorem queued_nil : queued [] = [] := rfl

@[simp] theorem queued_none_cons (queue : List (Option QueuedJob)) : queued (none :: queue) = queued queue :=
  rfl

@[simp] theorem queued_some_cons (job : QueuedJob) (queue : List (Option QueuedJob)) :
    queued (some job :: queue) = job.future :: queued queue := rfl

@[simp] theorem queued_append (queue rest : List (Option QueuedJob)) :
    queued (queue ++ rest) = queued queue ++ queued rest := List.filterMap_append ..

namespace Scheduler

variable {ν α : Type} {cfg : SchedulerConfig ν} {s s' : Scheduler ν α} {n : ν}

/-- The futures as tokens: a worker holds that of its job, then those in its queue. -/
def custody (s : Scheduler ν α) : Custody ν :=
  { issued := s.submitted
    held := fun n => (s.workers n).hand.toList.map QueuedJob.future ++ queued (s.queues n) }

/-- The futures at node `n` whose function has not been called. -/
def waiting (s : Scheduler ν α) (n : ν) : List ℕ :=
  if (s.workers n).uncalled then s.custody.held n else queued (s.queues n)

theorem held_of_hand {job : QueuedJob} (h : (s.workers n).hand = some job) :
    s.custody.held n = job.future :: queued (s.queues n) := by
  simp [custody, h]

theorem held_of_empty (h : (s.workers n).hand = none) : s.custody.held n = queued (s.queues n) := by
  simp [custody, h]

theorem mem_held_of_waiting {f : ℕ} (h : f ∈ s.waiting n) : f ∈ s.custody.held n := by
  unfold waiting at h
  split at h
  · exact h
  · exact List.mem_append_right _ h

/-! ## The steps of a worker -/

/-- What a worker's step leaves alone. -/
structure Frame (s : Scheduler ν α) (n : ν) (s' : Scheduler ν α) : Prop where
  closed : s'.closed = s.closed
  closing : s'.closing = s.closing
  checked : s'.checked = s.checked
  submitted : s'.submitted = s.submitted
  workers : ∀ k, k ≠ n → s'.workers k = s.workers k
  queues : ∀ k, k ≠ n → s'.queues k = s.queues k

theorem Frame.refl (s : Scheduler ν α) (n : ν) : Frame s n s :=
  ⟨rfl, rfl, rfl, rfl, fun _ _ => rfl, fun _ _ => rfl⟩

/-- What a step of worker `n` does to the jobs. -/
inductive JobStep [DecidableEq ν] (s : Scheduler ν α) (n : ν) (s' : Scheduler ν α) : Prop
  | keep (hhand : (s'.workers n).hand = (s.workers n).hand)
      (huncalled : (s'.workers n).uncalled = true → (s.workers n).uncalled = true)
      (hstop : ∀ b, s'.workers n = .terminated b → s.workers n = .terminated b)
      (hqueue : s'.queues n = s.queues n) (hcalled : s'.called = s.called)
      (hfutures : s'.futures = s.futures)
  | call (job : QueuedJob) (hhand : (s.workers n).hand = some job)
      (hhand' : (s'.workers n).hand = some job) (huncalled : (s'.workers n).uncalled = false)
      (hqueue : s'.queues n = s.queues n) (hcalled : s'.called = s.called ++ [job.future])
      (hfutures : s'.futures = s.futures)
  | take (job : QueuedJob) (hpc : s.workers n = .getting)
      (hqueue : s.queues n = some job :: s'.queues n) (hhand : (s'.workers n).hand = some job)
      (hcalled : s'.called = s.called) (hfutures : s'.futures = s.futures)
  | takeCall (job : QueuedJob) (hpc : s.workers n = .getting)
      (hqueue : s.queues n = some job :: s'.queues n) (hhand : (s'.workers n).hand = some job)
      (huncalled : (s'.workers n).uncalled = false) (hcalled : s'.called = s.called ++ [job.future])
      (hfutures : s'.futures = s.futures)
  | sentinel (hpc : s.workers n = .getting) (hqueue : s.queues n = none :: s'.queues n)
      (hpc' : s'.workers n = .terminated true) (hcalled : s'.called = s.called)
      (hfutures : s'.futures = s.futures)
  | settle (job : QueuedJob) (outcome : JobOutcome ν α)
      (hpc : s.workers n = .settling job (some outcome)) (hpc' : s'.workers n = .getting)
      (hpending : (s.futures job.future).done = false) (hqueue : s'.queues n = s.queues n)
      (hcalled : s'.called = s.called)
      (hfutures : s'.futures = Function.update s.futures job.future (.finished outcome))
  | fail (job : QueuedJob) (result : Option (JobOutcome ν α)) (hpc : s.workers n = .settling job result)
      (hresult : result.isSome = true → (s.futures job.future).done = true)
      (hpc' : s'.workers n = .terminated false) (hqueue : s'.queues n = s.queues n)
      (hcalled : s'.called = s.called) (hfutures : s'.futures = s.futures)

section Steps

variable [DecidableEq ν]

theorem JobStep.refl (s : Scheduler ν α) (n : ν) : JobStep s n s := .keep rfl id (fun _ => id) rfl rfl rfl

/-- A step that only moves the worker to another point. -/
theorem Frame.of_pc (pc : WorkerPc ν α) (hclosed : s'.closed = s.closed) (hclosing : s'.closing = s.closing)
    (hchecked : s'.checked = s.checked) (hsubmitted : s'.submitted = s.submitted)
    (hworkers : s'.workers = Function.update s.workers n pc) (hqueues : s'.queues = s.queues) :
    Frame s n s' := by
  refine ⟨hclosed, hclosing, hchecked, hsubmitted, fun k hk => ?_, fun k _ => ?_⟩
  · rw [hworkers, Function.update_of_ne hk]
  · rw [hqueues]

theorem frame_setWorker (s : Scheduler ν α) (n : ν) (pc : WorkerPc ν α) : Frame s n (s.setWorker n pc) :=
  .of_pc pc rfl rfl rfl rfl rfl rfl

/-- A step that moves the worker to another point with the same job in hand. -/
theorem keep_of_pc {pc : WorkerPc ν α} {job : QueuedJob} (hpc : (s.workers n).hand = some job)
    (hworkers : s'.workers = Function.update s.workers n pc) (hhand : pc.hand = some job)
    (huncalled : pc.uncalled = true → (s.workers n).uncalled = true) (hqueues : s'.queues = s.queues)
    (hcalled : s'.called = s.called) (hfutures : s'.futures = s.futures) : JobStep s n s' := by
  have hnew : s'.workers n = pc := by rw [hworkers, Function.update_self]
  refine .keep ?_ ?_ (fun b hb => ?_) (by rw [hqueues]) hcalled hfutures
  · rw [hnew, hhand, hpc]
  · rw [hnew]
    exact huncalled
  · -- a worker that ends has nothing in its hands
    rw [← hnew, hb] at hhand
    cases hhand

/-- A step that takes a queue entry. -/
theorem Frame.of_take (s : Scheduler ν α) (n : ν) (pc : WorkerPc ν α) (rest : List (Option QueuedJob))
    (called : List ℕ) : Frame s n { s with
      workers := Function.update s.workers n pc
      queues := Function.update s.queues n rest
      called := called } :=
  ⟨rfl, rfl, rfl, rfl, fun _ hk => Function.update_of_ne hk .., fun _ hk => Function.update_of_ne hk ..⟩

/-- **What a step of a worker does to the jobs.** -/
theorem work_jobs (cfg : SchedulerConfig ν) (s : Scheduler ν α) (n : ν) (env : Env α) :
    Frame s n (s.work cfg n env) ∧ JobStep s n (s.work cfg n env) := by
  have htail : ∀ {entry : Option QueuedJob} {rest : List (Option QueuedJob)},
      s.queues n = entry :: rest → s.queues n = entry :: Function.update s.queues n rest n := by
    intro entry rest hqueue
    rw [Function.update_self]
    exact hqueue
  have hstep : WorkStep cfg s n env (s.work cfg n env) := s.work_step n env
  generalize s.work cfg n env = s' at hstep ⊢
  cases hstep with
  | wait => exact ⟨.refl s n, .refl s n⟩
  | @sentinel rest hpc hqueue =>
    exact ⟨.of_take s n (.terminated true) rest s.called,
      .sentinel hpc (htail hqueue) (Function.update_self ..) rfl rfl⟩
  | @take job rest hpc hqueue hfree =>
    refine ⟨.of_take s n (.calling job 1 false) rest (s.called ++ [job.future]),
      .takeCall job hpc (htail hqueue) ?_ ?_ rfl rfl⟩
    · simp [startCall, setWorker, WorkerPc.hand]
    · simp [startCall, setWorker, WorkerPc.uncalled]
  | @want job rest session hpc hqueue hsession hexclusive =>
    refine ⟨.of_take s n (.locking job session) rest s.called, .take job hpc (htail hqueue) ?_ rfl rfl⟩
    simp [setWorker, WorkerPc.hand]
  | @enter job session hpc hlock =>
    have huncalled : (s.workers n).uncalled = true := by rw [hpc]; rfl
    exact ⟨.of_pc (.checking job session) rfl rfl rfl rfl rfl rfl,
      keep_of_pc (by rw [hpc]; rfl) rfl rfl (fun _ => huncalled) rfl rfl rfl⟩
  | @giveUp job session hpc =>
    have huncalled : (s.workers n).uncalled = true := by rw [hpc]; rfl
    exact ⟨.of_pc (.settling job (some (skippedOutcome n))) rfl rfl rfl rfl rfl rfl,
      keep_of_pc (by rw [hpc]; rfl) rfl rfl (fun _ => huncalled) rfl rfl rfl⟩
  | @refuse job session hpc =>
    have huncalled : (s.workers n).uncalled = true := by rw [hpc]; rfl
    exact ⟨.of_pc (.locking job session) rfl rfl rfl rfl rfl rfl,
      keep_of_pc (by rw [hpc]; rfl) rfl rfl (fun _ => huncalled) rfl rfl rfl⟩
  | @pass job session hpc hfree =>
    have huncalled : (s.workers n).uncalled = true := by rw [hpc]; rfl
    exact ⟨frame_setWorker s n _,
      keep_of_pc (by rw [hpc]; rfl) rfl rfl (fun _ => huncalled) rfl rfl rfl⟩
  | @claim job session hpc =>
    refine ⟨.of_pc (.calling job 1 true) rfl rfl rfl rfl rfl rfl, .call job ?_ ?_ ?_ rfl rfl rfl⟩
    · rw [hpc]
      rfl
    · simp [startCall, setWorker, WorkerPc.hand]
    · simp [startCall, setWorker, WorkerPc.uncalled]
  | @retry job attempt acquired hpc =>
    exact ⟨frame_setWorker s n _, keep_of_pc (by rw [hpc]; rfl) rfl rfl nofun rfl rfl rfl⟩
  | @leave job attempt acquired result hpc hescaped hstatus =>
    have hhand : (s.workers n).hand = some job := by rw [hpc]; rfl
    refine ⟨frame_setWorker s n _, keep_of_pc hhand rfl ?_ ?_ rfl rfl rfl⟩
    · cases acquired <;> rfl
    · cases result with
      | none => cases acquired <;> nofun
      | some o =>
        intro hskipped
        have hskipped : o.status = .skipped := by
          cases acquired <;> exact of_decide_eq_true hskipped
        exact absurd hskipped (hstatus o rfl)
  | @again job attempt acquired hpc =>
    refine ⟨.of_pc (.calling job (attempt + 1) acquired) rfl rfl rfl rfl rfl rfl,
      .call job ?_ ?_ ?_ rfl rfl rfl⟩
    · rw [hpc]
      rfl
    · simp [startCall, setWorker, WorkerPc.hand]
    · simp [startCall, setWorker, WorkerPc.uncalled]
  | @relock job result hpc hlock =>
    refine ⟨.of_pc (.releasing job result) rfl rfl rfl rfl rfl rfl, ?_⟩
    refine keep_of_pc (by rw [hpc]; rfl) rfl rfl ?_ rfl rfl rfl
    rw [hpc]
    cases result <;> exact id
  | @release job result hpc =>
    refine ⟨.of_pc (.settling job result) rfl rfl rfl rfl rfl rfl, ?_⟩
    refine keep_of_pc (by rw [hpc]; rfl) rfl rfl ?_ rfl rfl rfl
    rw [hpc]
    cases result <;> exact id
  | @settle job outcome hpc hpending =>
    exact ⟨.of_pc .getting rfl rfl rfl rfl rfl rfl,
      .settle job outcome hpc (Function.update_self ..) hpending rfl rfl rfl⟩
  | @fail job result hpc hdone =>
    exact ⟨frame_setWorker s n _, .fail job result hpc hdone (Function.update_self ..) rfl rfl rfl⟩

end Steps

/-! ## Custody -/

theorem Frame.custody_eq (h : Frame s n s') (hheld : s'.custody.held n = s.custody.held n) :
    s'.custody = s.custody := by
  have hall : s'.custody.held = s.custody.held := by
    funext k
    by_cases hk : k = n
    · rw [hk, hheld]
    · simp only [custody, h.workers k hk, h.queues k hk]
  have hissued : s'.custody.issued = s.custody.issued := h.submitted
  calc s'.custody = ⟨s'.custody.issued, s'.custody.held⟩ := rfl
    _ = s.custody := by rw [hissued, hall]

/-- The worker lets its job go. -/
theorem Frame.custody_release [DecidableEq ν] (h : Frame s n s') (hhand : (s'.workers n).hand = none)
    (hqueue : s'.queues n = s.queues n) : s'.custody = s.custody.release n (queued (s.queues n)) := by
  have hheld : s'.custody.held = Function.update s.custody.held n (queued (s.queues n)) := by
    funext k
    by_cases hk : k = n
    · subst hk
      rw [Function.update_self, held_of_empty hhand, hqueue]
    · rw [Function.update_of_ne hk]
      simp only [custody, h.workers k hk, h.queues k hk]
  have hissued : s'.custody.issued = s.custody.issued := h.submitted
  unfold Custody.release
  rw [← hheld, ← hissued]

theorem Frame.waiting_eq (h : Frame s n s') {k : ν} (hk : k ≠ n) : s'.waiting k = s.waiting k := by
  simp only [waiting, custody, h.workers k hk, h.queues k hk]

theorem waiting_of_called (h : (s.workers n).uncalled = false) : s.waiting n = queued (s.queues n) := by
  simp [waiting, h]

theorem mem_waiting_of_queued {f : ℕ} (h : f ∈ queued (s.queues n)) : f ∈ s.waiting n := by
  unfold waiting
  split
  · exact List.mem_append_right _ h
  · exact h

section Enqueue

variable [DecidableEq ν] {item : Option QueuedJob}

theorem held_enqueue (hworkers : s'.workers = s.workers)
    (hqueues : s'.queues = Function.update s.queues n (s.queues n ++ [item])) (k : ν) :
    s'.custody.held k = s.custody.held k ++ if k = n then queued [item] else [] := by
  unfold custody
  dsimp only
  rw [hworkers, hqueues]
  by_cases hk : k = n
  · subst hk
    rw [Function.update_self, queued_append, if_pos rfl, List.append_assoc]
  · rw [Function.update_of_ne hk, if_neg hk, List.append_nil]

theorem mem_waiting_enqueue {k : ν} {f : ℕ} (hf : f ∈ s'.waiting k) (hworkers : s'.workers = s.workers)
    (hqueues : s'.queues = Function.update s.queues n (s.queues n ++ [item])) :
    f ∈ s.waiting k ∨ f ∈ queued [item] := by
  have hitem : f ∈ (if k = n then queued [item] else []) → f ∈ queued [item] := by
    split
    · exact id
    · nofun
  unfold waiting at hf ⊢
  rw [held_enqueue hworkers hqueues, hworkers] at hf
  split
  · next huncalled =>
    rw [if_pos huncalled] at hf
    exact (List.mem_append.1 hf).imp_right hitem
  · next huncalled =>
    rw [if_neg huncalled, hqueues] at hf
    by_cases hk : k = n
    · subst hk
      rw [Function.update_self, queued_append] at hf
      exact List.mem_append.1 hf
    · rw [Function.update_of_ne hk] at hf
      exact Or.inl hf

theorem custody_sentinel (hworkers : s'.workers = s.workers)
    (hqueues : s'.queues = Function.update s.queues n (s.queues n ++ [none]))
    (hsubmitted : s'.submitted = s.submitted) : s'.custody = s.custody := by
  have hheld : s'.custody.held = s.custody.held := by
    funext k
    rw [held_enqueue hworkers hqueues, queued_none_cons, queued_nil, ite_self, List.append_nil]
  calc s'.custody = ⟨s'.submitted, s'.custody.held⟩ := rfl
    _ = ⟨s.submitted, s.custody.held⟩ := by rw [hsubmitted, hheld]

theorem custody_put {job : QueuedJob} (hworkers : s'.workers = s.workers)
    (hqueues : s'.queues = Function.update s.queues n (s.queues n ++ [some job]))
    (hjob : job.future = s.submitted) (hsubmitted : s'.submitted = s.submitted + 1) :
    s'.custody = s.custody.issue n := by
  have hheld : s'.custody.held = Function.update s.custody.held n (s.custody.held n ++ [s.submitted]) := by
    funext k
    rw [held_enqueue hworkers hqueues]
    by_cases hk : k = n
    · subst hk
      rw [Function.update_self, if_pos rfl, queued_some_cons, hjob, queued_nil]
    · rw [Function.update_of_ne hk, if_neg hk, List.append_nil]
  calc s'.custody = ⟨s'.submitted, s'.custody.held⟩ := rfl
    _ = s.custody.issue n := by rw [hsubmitted, hheld]; rfl

end Enqueue

/-! ## Every job is in one place -/

/-- Where the jobs are, what has been called and what has a result. -/
structure Placed (s : Scheduler ν α) : Prop where
  once : s.custody.Once
  uncalled : ∀ k f, f ∈ s.waiting k → f ∉ s.called
  called : ∀ f, f ∈ s.called → f < s.submitted
  finished : ∀ f o, s.futures f = .finished o → f < s.submitted ∧ ∀ k, f ∉ s.custody.held k
  skipped : ∀ f o, s.futures f = .finished o → o.status = .skipped → f ∉ s.called

namespace Placed

theorem start : Placed (start : Scheduler ν α) := by
  refine ⟨.start fun _ => rfl, fun k f hf => ?_, fun f hf => ?_, fun f o ho => ?_, fun f o ho => ?_⟩
  · cases hf
  · cases hf
  · cases ho
  · cases ho

/-- Nothing is called and nothing gets a result. -/
theorem quiet (h : Placed s) (hcustody : s'.custody = s.custody)
    (hwaiting : ∀ k f, f ∈ s'.waiting k → f ∈ s.waiting k) (hcalled : s'.called = s.called)
    (hfutures : ∀ f o, s'.futures f = .finished o → s.futures f = .finished o) : Placed s' := by
  have hissued : s'.submitted = s.submitted := congrArg Custody.issued hcustody
  refine ⟨by rw [hcustody]; exact h.once, fun k f hf => ?_, fun f hf => ?_, fun f o ho => ?_,
    fun f o ho => ?_⟩
  · rw [hcalled]
    exact h.uncalled k f (hwaiting k f hf)
  · rw [hcalled] at hf
    rw [hissued]
    exact h.called f hf
  · rw [hissued, hcustody]
    exact h.finished f o (hfutures f o ho)
  · rw [hcalled]
    exact h.skipped f o (hfutures f o ho)

/-- The function of the job in hand is called: it is nowhere else, so no job that waits is that one. -/
theorem call (h : Placed s) {f : ℕ} (hcustody : s'.custody = s.custody)
    (hheld : s.custody.held n = f :: s'.waiting n)
    (hwaiting : ∀ k g, g ∈ s'.waiting k → g ∈ s.waiting k) (hcalled : s'.called = s.called ++ [f])
    (hfutures : s'.futures = s.futures) : Placed s' := by
  have hissued : s'.submitted = s.submitted := congrArg Custody.issued hcustody
  have hmem : f ∈ s.custody.held n := by
    rw [hheld]
    exact List.mem_cons_self ..
  have hnodup := h.once.nodup n
  rw [hheld] at hnodup
  refine ⟨by rw [hcustody]; exact h.once, fun k g hg hgc => ?_, fun g hg => ?_, fun g o ho => ?_,
    fun g o ho hskipped hgc => ?_⟩
  · rw [hcalled] at hgc
    rcases List.mem_append.1 hgc with hold | hnew
    · exact h.uncalled k g (hwaiting k g hg) hold
    · obtain rfl := List.mem_singleton.1 hnew
      obtain rfl := h.once.unique n k g hmem (mem_held_of_waiting (hwaiting k g hg))
      exact hnodup.notMem hg
  · rw [hissued]
    rw [hcalled] at hg
    rcases List.mem_append.1 hg with hold | hnew
    · exact h.called g hold
    · obtain rfl := List.mem_singleton.1 hnew
      exact h.once.bound n g hmem
  · rw [hfutures] at ho
    rw [hissued, hcustody]
    exact h.finished g o ho
  · rw [hfutures] at ho
    rw [hcalled] at hgc
    rcases List.mem_append.1 hgc with hold | hnew
    · exact h.skipped g o ho hskipped hold
    · obtain rfl := List.mem_singleton.1 hnew
      exact (h.finished g o ho).2 n hmem

/-- The job in hand goes; its future may have got a result. -/
theorem release [DecidableEq ν] (h : Placed s) {f : ℕ} {rest : List ℕ} (hheld : s.custody.held n = f :: rest)
    (hcustody : s'.custody = s.custody.release n rest)
    (hwaiting : ∀ k g, g ∈ s'.waiting k → g ∈ s.waiting k) (hcalled : s'.called = s.called)
    (hfutures : ∀ g o, s'.futures g = .finished o →
      s.futures g = .finished o ∨ (g = f ∧ (o.status = .skipped → f ∉ s.called))) : Placed s' := by
  have hissued : s'.submitted = s.submitted := congrArg Custody.issued hcustody
  have hmem : f ∈ s.custody.held n := by
    rw [hheld]
    exact List.mem_cons_self ..
  refine ⟨by rw [hcustody]; exact h.once.release hheld, fun k g hg => ?_, fun g hg => ?_,
    fun g o ho => ?_, fun g o ho hskipped => ?_⟩
  · rw [hcalled]
    exact h.uncalled k g (hwaiting k g hg)
  · rw [hcalled] at hg
    rw [hissued]
    exact h.called g hg
  · rw [hissued, hcustody]
    rcases hfutures g o ho with hold | ⟨rfl, -⟩
    · obtain ⟨hlt, hnowhere⟩ := h.finished g o hold
      exact ⟨hlt, fun k hk => hnowhere k (Custody.mem_of_mem_release hheld hk)⟩
    · exact ⟨h.once.bound n g hmem, h.once.released hheld⟩
  · rw [hcalled]
    rcases hfutures g o ho with hold | ⟨rfl, huncalled⟩
    · exact h.skipped g o hold hskipped
    · exact huncalled hskipped

/-- A job is put into the queue of `n`. -/
theorem issue [DecidableEq ν] (h : Placed s) (hcustody : s'.custody = s.custody.issue n)
    (hwaiting : ∀ k f, f ∈ s'.waiting k → f ∈ s.waiting k ∨ f = s.submitted)
    (hcalled : s'.called = s.called) (hfutures : s'.futures = s.futures) : Placed s' := by
  have hissued : s'.submitted = s.submitted + 1 := congrArg Custody.issued hcustody
  refine ⟨by rw [hcustody]; exact h.once.issue n, fun k f hf hfc => ?_, fun f hf => ?_, fun f o ho => ?_,
    fun f o ho => ?_⟩
  · rw [hcalled] at hfc
    rcases hwaiting k f hf with hold | rfl
    · exact h.uncalled k f hold hfc
    · exact absurd (h.called _ hfc) (Nat.lt_irrefl _)
  · rw [hcalled] at hf
    rw [hissued]
    exact Nat.lt_succ_of_lt (h.called f hf)
  · rw [hfutures] at ho
    obtain ⟨hlt, hnowhere⟩ := h.finished f o ho
    rw [hissued, hcustody]
    refine ⟨Nat.lt_succ_of_lt hlt, fun k hk => ?_⟩
    rcases Custody.mem_issue.1 hk with hold | ⟨-, hnew⟩
    · exact hnowhere k hold
    · exact absurd hlt (hnew ▸ Nat.lt_irrefl _)
  · rw [hfutures] at ho
    rw [hcalled]
    exact h.skipped f o ho

end Placed

/-- What waits after a worker's step waited before it. -/
theorem JobStep.waiting [DecidableEq ν] (h : JobStep s n s') (hframe : Frame s n s') :
    ∀ k f, f ∈ s'.waiting k → f ∈ s.waiting k := by
  intro k f hf
  by_cases hk : k = n
  case neg => rwa [hframe.waiting_eq hk] at hf
  subst hk
  cases h with
  | keep hhand huncalled hstop hqueue hcalled hfutures =>
    unfold Scheduler.waiting at hf
    split at hf
    · next hnew =>
      unfold Scheduler.waiting
      rw [if_pos (huncalled hnew)]
      simpa only [custody, hhand, hqueue] using hf
    · rw [hqueue] at hf
      exact mem_waiting_of_queued hf
  | call job hhand hhand' huncalled hqueue hcalled hfutures =>
    rw [waiting_of_called huncalled, hqueue] at hf
    exact mem_waiting_of_queued hf
  | take job hpc hqueue hhand hcalled hfutures =>
    have hold := mem_held_of_waiting hf
    rw [held_of_hand hhand] at hold
    refine mem_waiting_of_queued ?_
    rw [hqueue]
    exact hold
  | takeCall job hpc hqueue hhand huncalled hcalled hfutures =>
    rw [waiting_of_called huncalled] at hf
    refine mem_waiting_of_queued ?_
    rw [hqueue]
    exact List.mem_cons_of_mem _ hf
  | sentinel hpc hqueue hpc' hcalled hfutures =>
    rw [waiting_of_called (by rw [hpc']; rfl)] at hf
    refine mem_waiting_of_queued ?_
    rw [hqueue]
    exact hf
  | settle job outcome hpc hpc' hpending hqueue hcalled hfutures =>
    rw [waiting_of_called (by rw [hpc']; rfl), hqueue] at hf
    exact mem_waiting_of_queued hf
  | fail job result hpc hresult hpc' hqueue hcalled hfutures =>
    rw [waiting_of_called (by rw [hpc']; rfl), hqueue] at hf
    exact mem_waiting_of_queued hf

/-- A worker's step leaves the futures where they are and calls at most the one in hand, or it lets the one
in hand go: to `set_result`, or with the thread. -/
theorem JobStep.custody [DecidableEq ν] (h : JobStep s n s') (hframe : Frame s n s') :
    (s'.custody = s.custody ∧ s'.futures = s.futures ∧ (s'.called = s.called ∨
      ∃ f, s.custody.held n = f :: s'.waiting n ∧ s'.called = s.called ++ [f])) ∨
    ∃ job result, s.workers n = .settling job result ∧
      s'.custody = s.custody.release n (queued (s.queues n)) ∧ s'.called = s.called ∧
      ((s'.workers n = .terminated false ∧ (result.isSome = true → (s.futures job.future).done = true) ∧
        s'.futures = s.futures) ∨
      ∃ outcome, result = some outcome ∧
        s'.futures = Function.update s.futures job.future (.finished outcome)) := by
  cases h with
  | keep hhand huncalled hstop hqueue hcalled hfutures =>
    refine Or.inl ⟨hframe.custody_eq ?_, hfutures, Or.inl hcalled⟩
    simp only [Scheduler.custody, hhand, hqueue]
  | call job hhand hhand' huncalled hqueue hcalled hfutures =>
    have hheld := held_of_hand hhand
    refine Or.inl ⟨hframe.custody_eq ?_, hfutures, Or.inr ⟨job.future, ?_, hcalled⟩⟩
    · rw [hheld, held_of_hand hhand', hqueue]
    · rw [hheld, waiting_of_called huncalled, hqueue]
  | take job hpc hqueue hhand hcalled hfutures =>
    refine Or.inl ⟨hframe.custody_eq ?_, hfutures, Or.inl hcalled⟩
    rw [held_of_hand hhand, held_of_empty (by rw [hpc]; rfl), hqueue]
    rfl
  | takeCall job hpc hqueue hhand huncalled hcalled hfutures =>
    have hheld : s.custody.held n = job.future :: queued (s'.queues n) := by
      rw [held_of_empty (by rw [hpc]; rfl), hqueue]
      rfl
    refine Or.inl ⟨hframe.custody_eq ?_, hfutures, Or.inr ⟨job.future, ?_, hcalled⟩⟩
    · rw [hheld, held_of_hand hhand]
    · rw [hheld, waiting_of_called huncalled]
  | sentinel hpc hqueue hpc' hcalled hfutures =>
    refine Or.inl ⟨hframe.custody_eq ?_, hfutures, Or.inl hcalled⟩
    rw [held_of_empty (by rw [hpc']; rfl), held_of_empty (by rw [hpc]; rfl), hqueue]
    rfl
  | settle job outcome hpc hpc' hpending hqueue hcalled hfutures =>
    exact Or.inr ⟨job, _, hpc, hframe.custody_release (by rw [hpc']; rfl) hqueue, hcalled,
      Or.inr ⟨outcome, rfl, hfutures⟩⟩
  | fail job result hpc hresult hpc' hqueue hcalled hfutures =>
    exact Or.inr ⟨job, result, hpc, hframe.custody_release (by rw [hpc']; rfl) hqueue, hcalled,
      Or.inl ⟨hpc', hresult, hfutures⟩⟩

namespace Placed

theorem cancel (h : Placed s) (f : ℕ) : Placed (s.cancel f) := by
  unfold Scheduler.cancel
  split
  · refine h.quiet rfl (fun _ _ => id) rfl fun g o ho => ?_
    dsimp only at ho
    by_cases hg : g = f
    · subst hg
      rw [Function.update_self] at ho
      cases ho
    · rwa [Function.update_of_ne hg] at ho
  · exact h

variable [DecidableEq ν]

theorem work (h : Placed s) (cfg : SchedulerConfig ν) (n : ν) (env : Env α) :
    Placed (s.work cfg n env) := by
  obtain ⟨hframe, hstep⟩ := work_jobs cfg s n env
  have hwaiting := hstep.waiting hframe
  rcases hstep.custody hframe with ⟨hcustody, hfutures, hcalls⟩ | ⟨job, result, hpc, hcustody, hcalled, hresult⟩
  · rcases hcalls with hcalled | ⟨f, hheld, hcalled⟩
    · exact h.quiet hcustody hwaiting hcalled (by rw [hfutures]; exact fun _ _ => id)
    · exact h.call hcustody hheld hwaiting hcalled hfutures
  · refine h.release (held_of_hand (by rw [hpc]; rfl)) hcustody hwaiting hcalled fun g o ho => ?_
    rcases hresult with ⟨-, -, hfutures⟩ | ⟨outcome, rfl, hfutures⟩
    · rw [hfutures] at ho
      exact Or.inl ho
    · rw [hfutures] at ho
      by_cases hg : g = job.future
      · subst hg
        rw [Function.update_self] at ho
        obtain rfl := FutureState.finished.inj ho
        refine Or.inr ⟨rfl, fun hskipped => h.uncalled n _ ?_⟩
        have huncalled : (s.workers n).uncalled = true := by
          rw [hpc]
          exact decide_eq_true hskipped
        unfold waiting
        rw [if_pos huncalled, held_of_hand (by rw [hpc]; rfl)]
        exact List.mem_cons_self ..
      · rw [Function.update_of_ne hg] at ho
        exact Or.inl ho

theorem put (h : Placed s) (k : ℕ) : Placed (s.put k) := by
  unfold Scheduler.put
  split
  · exact h
  · next node session retries hchecked =>
    refine h.issue (n := node) (custody_put rfl rfl rfl rfl) (fun i f hf => ?_) rfl rfl
    exact (mem_waiting_enqueue (s := s) hf rfl rfl).imp_right List.mem_singleton.1

theorem close (h : Placed s) (cfg : SchedulerConfig ν) : Placed (s.close cfg) := by
  unfold Scheduler.close
  split
  · split
    · exact h
    · exact h.quiet rfl (fun _ _ => id) rfl fun _ _ => id
  · exact h
  · next node rest hclosing =>
    refine h.quiet (custody_sentinel rfl rfl rfl) (fun k f hf => ?_) rfl fun _ _ => id
    exact (mem_waiting_enqueue (s := s) hf rfl rfl).resolve_right nofun

end Placed

/-- A call of `submit` up to its `put` touches `checked` only. -/
theorem submit_ok [DecidableEq ν] {node : ν} {session : Option ℕ} {retries : Option Int}
    (h : s.submit cfg node session retries = .ok s') :
    s.closed = false ∧ node ∈ cfg.nodes ∧ ∃ call, s' = { s with checked := s.checked ++ [(node, call)] } := by
  unfold submit at h
  split at h
  · cases h
  · next hopen =>
    split at h
    · cases h
    · next hnode =>
      dsimp only at h
      split at h
      · cases h
      · obtain rfl := Except.ok.inj h
        exact ⟨by simpa using hopen, by simpa using hnode, _, rfl⟩

theorem Placed.step [DecidableEq ν] (h : Placed s) (cfg : SchedulerConfig ν) (e : Event ν α) :
    Placed (s.step cfg e) := by
  unfold Scheduler.step
  cases e with
  | submit node session retries =>
    dsimp only
    split
    · next s' hs' =>
      obtain ⟨-, -, call, rfl⟩ := submit_ok hs'
      exact h.quiet rfl (fun _ _ => id) rfl fun _ _ => id
    · exact h
  | put k => exact h.put k
  | cancel future => exact h.cancel future
  | close => exact h.close cfg
  | work n env =>
    dsimp only
    split
    · exact h.work cfg n env
    · exact h

/-- A result stays. -/
theorem finished_step [DecidableEq ν] (cfg : SchedulerConfig ν) (s : Scheduler ν α) (e : Event ν α) {f : ℕ}
    {o : JobOutcome ν α} (ho : s.futures f = .finished o) : (s.step cfg e).futures f = .finished o := by
  unfold Scheduler.step
  cases e with
  | submit node session retries =>
    dsimp only
    split
    · next s' hs' =>
      obtain ⟨-, -, call, rfl⟩ := submit_ok hs'
      exact ho
    · exact ho
  | put k =>
    dsimp only
    unfold Scheduler.put
    split <;> exact ho
  | cancel future =>
    dsimp only
    unfold Scheduler.cancel
    split
    · next hpending =>
      have hne : f ≠ future := by
        rintro rfl
        rw [ho] at hpending
        exact absurd hpending.2 nofun
      simpa [hne] using ho
    · exact ho
  | close =>
    dsimp only
    unfold Scheduler.close
    split
    · split <;> exact ho
    · exact ho
    · exact ho
  | work n env =>
    dsimp only
    split
    case isFalse => exact ho
    obtain ⟨-, hstep⟩ := work_jobs cfg s n env
    cases hstep with
    | settle job outcome hpc hpc' hpending hqueue hcalled hfutures =>
      have hne : f ≠ job.future := by
        rintro rfl
        rw [ho] at hpending
        cases hpending
      rw [hfutures, Function.update_of_ne hne]
      exact ho
    | keep _ _ _ _ _ hfutures => rwa [hfutures]
    | call _ _ _ _ _ _ hfutures => rwa [hfutures]
    | take _ _ _ _ _ hfutures => rwa [hfutures]
    | takeCall _ _ _ _ _ _ hfutures => rwa [hfutures]
    | sentinel _ _ _ _ hfutures => rwa [hfutures]
    | fail _ _ _ _ _ _ _ hfutures => rwa [hfutures]

end Scheduler

end DualCan.Tools
