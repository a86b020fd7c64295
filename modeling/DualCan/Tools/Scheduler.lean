import DualCan.Run.Monitor
import DualCan.Run.Past

/-!
# The queued scheduler

`QueuedDualNodeScheduler` of `tools/scheduler.py`: one queue and one worker thread for each node, futures
for the callers, and one condition variable around the table of active sessions. Every access to something
shared is a step of its own, so the threads interleave at will: a call of `submit` is its checks and, later,
its `put`; `close` puts one sentinel at a time; a worker's `_execute` is cut at the session lock, at the
job's function and at `set_result`.

The job's functions and the clocks are the environment's: a `CallOutcome` says how a call of the function
ends, and `expired` whether the session deadline has passed. `Condition.wait` gives the lock back and may
wake at any time. The statistics come on top of it in `JobStats`; the elapsed times are left out.
-/

namespace DualCan.Tools

open DualCan.Run

/-! ## Data -/

/-- How a job's function ends. `escaped` is an exception that is not an `Exception`. -/
inductive CallOutcome (α : Type) where
  | returned (value : α)
  | timeoutError (text : String)
  | exception (typeName text : String)
  | escaped

inductive Status where
  | ok
  | timeout
  | error
  | skipped
  deriving DecidableEq

/-- `JobOutcome`, without the elapsed time. -/
structure JobOutcome (ν α : Type) where
  node : ν
  status : Status
  attempts : ℕ
  value : Option α
  error : Option String
  deriving DecidableEq

/-- `concurrent.futures.Future`; no worker marks one as running. -/
inductive FutureState (ν α : Type) where
  | pending
  | cancelled
  | finished (outcome : JobOutcome ν α)
  deriving DecidableEq

/-- `Future.done`. -/
def FutureState.done {ν α : Type} : FutureState ν α → Bool
  | .pending => false
  | _ => true

/-- `_QueuedJob`; a future is the number of its submission, the function is the environment's. -/
structure QueuedJob where
  session : Option ℕ
  retries : ℕ
  future : ℕ
  deriving DecidableEq

/-- The point a worker thread has reached. With `result` an outcome is on its way to the future; `none` is
an exception on its way out of the thread. -/
inductive WorkerPc (ν α : Type) where
  | getting
  | locking (job : QueuedJob) (session : ℕ)
  | checking (job : QueuedJob) (session : ℕ)
  | claiming (job : QueuedJob) (session : ℕ)
  | calling (job : QueuedJob) (attempt : ℕ) (acquired : Bool)
  | sleeping (job : QueuedJob) (attempt : ℕ) (acquired : Bool)
  | relocking (job : QueuedJob) (result : Option (JobOutcome ν α))
  | releasing (job : QueuedJob) (result : Option (JobOutcome ν α))
  | settling (job : QueuedJob) (result : Option (JobOutcome ν α))
  | terminated (bySentinel : Bool)
  deriving DecidableEq

/-- The arguments of the constructor that the steps read. -/
structure SchedulerConfig (ν : Type) where
  nodes : List ν
  nodup : nodes.Nodup
  exclusiveSessions : List ℕ
  defaultRetries : ℕ

/-- The scheduler, the calls of `submit` between their checks and their `put` (`checked`), and the nodes
that a call of `close` has still to put a sentinel for (`closing`). The futures below `submitted` were
returned by `submit`; `called` lists the futures whose function was called. -/
structure Scheduler (ν α : Type) where
  closed : Bool
  closing : Option (List ν)
  checked : List (ν × Option ℕ × ℕ)
  submitted : ℕ
  queues : ν → List (Option QueuedJob)
  futures : ℕ → FutureState ν α
  called : List ℕ
  activeSessions : ν → ℕ
  lock : Option ν
  workers : ν → WorkerPc ν α

/-- What the environment decides in a worker's step. -/
structure Env (α : Type) where
  expired : Bool
  outcome : CallOutcome α

namespace Scheduler

variable {ν α : Type} [DecidableEq ν] (cfg : SchedulerConfig ν)

/-- `__init__`. -/
def start : Scheduler ν α where
  closed := false
  closing := none
  checked := []
  submitted := 0
  queues _ := []
  futures _ := .pending
  called := []
  activeSessions _ := 0x01
  lock := none
  workers _ := .getting

/-! ## The callers -/

/-- `submit` up to its `put`. -/
def submit (s : Scheduler ν α) (node : ν) (session : Option ℕ) (retries : Option Int) :
    Except String (Scheduler ν α) :=
  if s.closed then .error "scheduler is closed"
  else if node ∉ cfg.nodes then .error "KeyError"
  else
    let attempts : Int := retries.getD cfg.defaultRetries
    if attempts < 0 then .error "retries must not be negative"
    else .ok { s with checked := s.checked ++ [(node, session, attempts.toNat)] }

/-- The `put` of a call of `submit`, which then returns the future. -/
def put (s : Scheduler ν α) (k : ℕ) : Scheduler ν α :=
  match s.checked[k]? with
  | none => s
  | some (node, session, retries) =>
    { s with
      checked := s.checked.eraseIdx k
      submitted := s.submitted + 1
      queues := Function.update s.queues node
        (s.queues node ++ [some { session := session, retries := retries, future := s.submitted }]) }

/-- `Future.cancel` on a future that was returned. -/
def cancel (s : Scheduler ν α) (future : ℕ) : Scheduler ν α :=
  if future < s.submitted ∧ (s.futures future).done = false then
    { s with futures := Function.update s.futures future .cancelled }
  else s

/-- A step of `close`: the flag, then one sentinel after the other. The joins change nothing. -/
def close (s : Scheduler ν α) : Scheduler ν α :=
  match s.closing with
  | none => if s.closed then s else { s with closed := true, closing := some cfg.nodes }
  | some [] => s
  | some (node :: rest) =>
    { s with
      closing := some rest
      queues := Function.update s.queues node (s.queues node ++ [none]) }

/-! ## The workers -/

def setWorker (s : Scheduler ν α) (n : ν) (pc : WorkerPc ν α) : Scheduler ν α :=
  { s with workers := Function.update s.workers n pc }

/-- `job.fn()`. -/
def startCall (s : Scheduler ν α) (n : ν) (job : QueuedJob) (attempt : ℕ) (acquired : Bool) :
    Scheduler ν α :=
  { s.setWorker n (.calling job attempt acquired) with called := s.called ++ [job.future] }

/-- `any(other != node_name and active in self.exclusive_sessions ...)`. -/
def conflict (s : Scheduler ν α) (n : ν) : Bool :=
  cfg.nodes.any fun other => other ≠ n && s.activeSessions other ∈ cfg.exclusiveSessions

/-- The outcome of a job that did not get its session. -/
def skippedOutcome (n : ν) : JobOutcome ν α :=
  { node := n, status := .skipped, attempts := 0, value := none,
    error := some "session conflict wait timed out" }

/-- The `finally` clause: the session is released if it was acquired. -/
def leave (s : Scheduler ν α) (n : ν) (job : QueuedJob) (acquired : Bool)
    (result : Option (JobOutcome ν α)) : Scheduler ν α :=
  s.setWorker n (if acquired then .relocking job result else .settling job result)

/-- What `_execute` does when the function has returned or raised. -/
def callEnded (s : Scheduler ν α) (n : ν) (job : QueuedJob) (attempt : ℕ) (acquired : Bool) :
    CallOutcome α → Scheduler ν α
  | .returned value =>
    s.leave n job acquired (some
      { node := n, status := .ok, attempts := attempt, value := some value, error := none })
  | .timeoutError text =>
    if attempt ≤ job.retries then s.setWorker n (.sleeping job attempt acquired)
    else
      s.leave n job acquired (some
        { node := n, status := .timeout, attempts := attempt, value := none, error := some text })
  | .exception typeName text =>
    s.leave n job acquired (some
      { node := n, status := .error, attempts := attempt, value := none,
        error := some s!"{typeName}: {text}" })
  | .escaped => s.leave n job acquired none

/-- `Queue.get` of `_worker_loop`, and the way into `_execute`. -/
def get (s : Scheduler ν α) (n : ν) : Scheduler ν α :=
  match s.queues n with
  | [] => s
  | none :: rest =>
    { s with queues := Function.update s.queues n rest }.setWorker n (.terminated true)
  | some job :: rest =>
    let s := { s with queues := Function.update s.queues n rest }
    match job.session with
    | none => s.startCall n job 1 false
    | some session =>
      if session ∈ cfg.exclusiveSessions then s.setWorker n (.locking job session)
      else s.startCall n job 1 false

/-- `Future.set_result`, which raises `InvalidStateError` on a future that is done. -/
def setResult (s : Scheduler ν α) (n : ν) (job : QueuedJob) (outcome : JobOutcome ν α) : Scheduler ν α :=
  if (s.futures job.future).done = false then
    { s with futures := Function.update s.futures job.future (.finished outcome) }.setWorker n .getting
  else s.setWorker n (.terminated false)

/-- A step of the worker thread of node `n`. -/
def work (s : Scheduler ν α) (n : ν) (env : Env α) : Scheduler ν α :=
  match s.workers n with
  | .getting => s.get cfg n
  | .locking job session =>
    if s.lock = none then { s.setWorker n (.checking job session) with lock := some n } else s
  | .checking job session =>
    if s.conflict cfg n then
      if env.expired then
        { s.setWorker n (.settling job (some (skippedOutcome n))) with lock := none }
      else { s.setWorker n (.locking job session) with lock := none }
    else s.setWorker n (.claiming job session)
  | .claiming job session =>
    { s with activeSessions := Function.update s.activeSessions n session, lock := none }.startCall n
      job 1 true
  | .calling job attempt acquired => s.callEnded n job attempt acquired env.outcome
  | .sleeping job attempt acquired => s.startCall n job (attempt + 1) acquired
  | .relocking job result =>
    if s.lock = none then { s.setWorker n (.releasing job result) with lock := some n } else s
  | .releasing job result =>
    { s with activeSessions := Function.update s.activeSessions n 0x01, lock := none }.setWorker n
      (.settling job result)
  | .settling job (some outcome) => s.setResult n job outcome
  | .settling _ none => s.setWorker n (.terminated false)
  | .terminated _ => s

/-- What a step of the worker of node `n` can do, with the states it does it from. -/
inductive WorkStep (s : Scheduler ν α) (n : ν) (env : Env α) : Scheduler ν α → Prop
  | wait : WorkStep s n env s
  | sentinel {rest : List (Option QueuedJob)} (hpc : s.workers n = .getting)
      (hqueue : s.queues n = none :: rest) :
      WorkStep s n env ({ s with queues := Function.update s.queues n rest }.setWorker n (.terminated true))
  | take {job : QueuedJob} {rest : List (Option QueuedJob)} (hpc : s.workers n = .getting)
      (hqueue : s.queues n = some job :: rest)
      (hfree : ∀ session, job.session = some session → session ∉ cfg.exclusiveSessions) :
      WorkStep s n env ({ s with queues := Function.update s.queues n rest }.startCall n job 1 false)
  | want {job : QueuedJob} {rest : List (Option QueuedJob)} {session : ℕ} (hpc : s.workers n = .getting)
      (hqueue : s.queues n = some job :: rest) (hsession : job.session = some session)
      (hexclusive : session ∈ cfg.exclusiveSessions) :
      WorkStep s n env ({ s with queues := Function.update s.queues n rest }.setWorker n (.locking job session))
  | enter {job : QueuedJob} {session : ℕ} (hpc : s.workers n = .locking job session) (hlock : s.lock = none) :
      WorkStep s n env { s.setWorker n (.checking job session) with lock := some n }
  | giveUp {job : QueuedJob} {session : ℕ} (hpc : s.workers n = .checking job session) :
      WorkStep s n env { s.setWorker n (.settling job (some (skippedOutcome n))) with lock := none }
  | refuse {job : QueuedJob} {session : ℕ} (hpc : s.workers n = .checking job session) :
      WorkStep s n env { s.setWorker n (.locking job session) with lock := none }
  | pass {job : QueuedJob} {session : ℕ} (hpc : s.workers n = .checking job session)
      (hfree : s.conflict cfg n = false) : WorkStep s n env (s.setWorker n (.claiming job session))
  | claim {job : QueuedJob} {session : ℕ} (hpc : s.workers n = .claiming job session) :
      WorkStep s n env ({ s with
        activeSessions := Function.update s.activeSessions n session, lock := none }.startCall n job 1 true)
  | retry {job : QueuedJob} {attempt : ℕ} {acquired : Bool} (hpc : s.workers n = .calling job attempt acquired) :
      WorkStep s n env (s.setWorker n (.sleeping job attempt acquired))
  | leave {job : QueuedJob} {attempt : ℕ} {acquired : Bool} {result : Option (JobOutcome ν α)}
      (hpc : s.workers n = .calling job attempt acquired)
      (hescaped : result = none → env.outcome = .escaped)
      (hstatus : ∀ o, result = some o → o.status ≠ .skipped) : WorkStep s n env (s.leave n job acquired result)
  | again {job : QueuedJob} {attempt : ℕ} {acquired : Bool}
      (hpc : s.workers n = .sleeping job attempt acquired) :
      WorkStep s n env (s.startCall n job (attempt + 1) acquired)
  | relock {job : QueuedJob} {result : Option (JobOutcome ν α)} (hpc : s.workers n = .relocking job result)
      (hlock : s.lock = none) : WorkStep s n env { s.setWorker n (.releasing job result) with lock := some n }
  | release {job : QueuedJob} {result : Option (JobOutcome ν α)} (hpc : s.workers n = .releasing job result) :
      WorkStep s n env ({ s with
        activeSessions := Function.update s.activeSessions n 0x01, lock := none }.setWorker n
          (.settling job result))
  | settle {job : QueuedJob} {outcome : JobOutcome ν α} (hpc : s.workers n = .settling job (some outcome))
      (hpending : (s.futures job.future).done = false) :
      WorkStep s n env ({ s with
        futures := Function.update s.futures job.future (.finished outcome) }.setWorker n .getting)
  | fail {job : QueuedJob} {result : Option (JobOutcome ν α)} (hpc : s.workers n = .settling job result)
      (hdone : result.isSome = true → (s.futures job.future).done = true) :
      WorkStep s n env (s.setWorker n (.terminated false))

variable {cfg}

theorem get_step (s : Scheduler ν α) (n : ν) (env : Env α) (hpc : s.workers n = .getting) :
    WorkStep cfg s n env (s.get cfg n) := by
  unfold get
  split
  · exact .wait
  · next rest hqueue => exact .sentinel hpc hqueue
  · next job rest hqueue =>
    dsimp only
    split
    · next hsession =>
      refine .take hpc hqueue ?_
      intro session hsome
      rw [hsession] at hsome
      cases hsome
    · next session hsession =>
      split
      · next hexclusive => exact .want hpc hqueue hsession hexclusive
      · next hexclusive =>
        refine .take hpc hqueue ?_
        intro session' hsome
        rw [hsession] at hsome
        obtain rfl := Option.some.inj hsome
        exact hexclusive

theorem callEnded_step (s : Scheduler ν α) (n : ν) (env : Env α) {job : QueuedJob} {attempt : ℕ}
    {acquired : Bool} (hpc : s.workers n = .calling job attempt acquired) :
    WorkStep cfg s n env (s.callEnded n job attempt acquired env.outcome) := by
  have hended : ∀ o : JobOutcome ν α, o.status ≠ .skipped →
      WorkStep cfg s n env (s.leave n job acquired (some o)) := by
    intro o hstatus
    refine .leave hpc nofun ?_
    rintro o' ⟨⟩
    exact hstatus
  cases houtcome : env.outcome with
  | returned value => exact hended _ nofun
  | timeoutError text =>
    unfold callEnded
    dsimp only
    split
    · exact .retry hpc
    · exact hended _ nofun
  | exception typeName text => exact hended _ nofun
  | escaped => exact .leave hpc (fun _ => houtcome) nofun

/-- **The steps of a worker**, one for each branch of its code. -/
theorem work_step (s : Scheduler ν α) (n : ν) (env : Env α) : WorkStep cfg s n env (s.work cfg n env) := by
  unfold work
  cases hpc : s.workers n with
  | getting => exact s.get_step n env hpc
  | locking job session =>
    dsimp only
    split
    · next hlock => exact .enter hpc hlock
    · exact .wait
  | checking job session =>
    dsimp only
    split
    · split
      · exact .giveUp hpc
      · exact .refuse hpc
    · next hfree => exact .pass hpc (by simpa using hfree)
  | claiming job session => exact .claim hpc
  | calling job attempt acquired => exact s.callEnded_step n env hpc
  | sleeping job attempt acquired => exact .again hpc
  | relocking job result =>
    dsimp only
    split
    · next hlock => exact .relock hpc hlock
    · exact .wait
  | releasing job result => exact .release hpc
  | settling job result =>
    cases result with
    | none => exact .fail hpc nofun
    | some outcome =>
      dsimp only
      unfold setResult
      split
      · next hpending => exact .settle hpc hpending
      · next hdone => exact .fail hpc (fun _ => by simpa using hdone)
  | terminated bySentinel => exact .wait

variable (cfg)

/-! ## Runs -/

inductive Event (ν α : Type) where
  | submit (node : ν) (session : Option ℕ) (retries : Option Int)
  | put (k : ℕ)
  | cancel (future : ℕ)
  | close
  | work (n : ν) (env : Env α)

def step (s : Scheduler ν α) : Event ν α → Scheduler ν α
  | .submit node session retries =>
    match s.submit cfg node session retries with
    | .ok s' => s'
    | .error _ => s
  | .put k => s.put k
  | .cancel future => s.cancel future
  | .close => s.close cfg
  | .work n env => if n ∈ cfg.nodes then s.work cfg n env else s

/-- The default configuration with two nodes. -/
def twoNodes : SchedulerConfig Bool :=
  { nodes := [false, true], nodup := by decide, exclusiveSessions := [0x02], defaultRetries := 1 }

end Scheduler

end DualCan.Tools
