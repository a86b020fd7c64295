import DualCan.Uds.Authority
import DualCan.Uds.Reply

/-!
# The suppress bit

A request with the suppress bit and the same request without it: which of them refreshes the session timer,
and that everything else they leave is the same but for the recorded bit.
-/

namespace DualCan.Uds

open DualCan.Run

/-! ## The two sub-function bytes -/

def withSuppress (sub : UInt8) : UInt8 := sub ||| suppressPositiveResponse
def withoutSuppress (sub : UInt8) : UInt8 := sub &&& subfunctionMask

@[simp] theorem withSuppress_masked (sub : UInt8) :
    withSuppress sub &&& subfunctionMask = sub &&& subfunctionMask := by
  have hbits : ∀ b : BitVec 8, (b ||| 0x80) &&& 0x7F = b &&& 0x7F := by decide
  exact UInt8.toBitVec_inj.1 (hbits sub.toBitVec)

@[simp] theorem withoutSuppress_masked (sub : UInt8) :
    withoutSuppress sub &&& subfunctionMask = sub &&& subfunctionMask := by
  unfold withoutSuppress
  rw [UInt8.and_assoc]
  rfl

@[simp] theorem withSuppress_bit (sub : UInt8) :
    withSuppress sub &&& suppressPositiveResponse ≠ 0 := by
  have hbits : ∀ b : BitVec 8, (b ||| 0x80) &&& 0x80 = 0x80 := by decide
  have hbit : withSuppress sub &&& suppressPositiveResponse = 0x80 :=
    UInt8.toBitVec_inj.1 (hbits sub.toBitVec)
  rw [hbit]
  decide

@[simp] theorem withoutSuppress_bit (sub : UInt8) :
    withoutSuppress sub &&& suppressPositiveResponse = 0 := by
  unfold withoutSuppress
  rw [UInt8.and_assoc]
  exact UInt8.and_zero

/-! ## Replies -/

/-- A reply is the same with the suppress bit, or empty. -/
def Silences (set clear : Reply) : Prop := set = clear ∨ set.response = []

theorem silences_positive (capacity : ℕ) (bytes : List UInt8) :
    Silences (positive true capacity bytes) (positive false capacity bytes) := Or.inr rfl

theorem silences_self (reply : Reply) : Silences reply reply := Or.inl rfl

namespace UdsServer

variable {σ : Type} (server : UdsServer σ) (env : σ) (now : UInt32) (args data : List UInt8)
  (capacity index : ℕ)

/-- The server without the recorded suppress bit. -/
def forgetSuppress : UdsServer σ := { server with pendingRoutineSuppressPositive := false }

/-! ## Sessions and tester present -/

theorem requestedSession_masked {a b : UInt8} (h : a &&& subfunctionMask = b &&& subfunctionMask)
    (rest : List UInt8) : server.requestedSession (a :: rest) = server.requestedSession (b :: rest) := by
  cases rest with
  | nil => simp only [requestedSession, h]
  | cons _ _ => rfl

theorem testerPresentAccepted_masked {a b : UInt8}
    (h : a &&& subfunctionMask = b &&& subfunctionMask) (rest : List UInt8) :
    testerPresentAccepted (a :: rest) = testerPresentAccepted (b :: rest) := by
  cases rest with
  | nil => simp only [testerPresentAccepted, h]
  | cons _ _ => rfl

theorem sessionControl_silences (sub : UInt8) (rest : List UInt8) :
    Silences (server.sessionControl now (withSuppress sub :: rest) capacity).1
      (server.sessionControl now (withoutSuppress sub :: rest) capacity).1 := by
  cases rest with
  | nil =>
    simp only [sessionControl, withSuppress_masked, withoutSuppress_masked]
    split
    · exact silences_self _
    · simp [Silences, positive]
  | cons _ _ => exact silences_self _

theorem testerPresent_silences (sub : UInt8) (rest : List UInt8) :
    Silences (server.testerPresent now (withSuppress sub :: rest) capacity).1
      (server.testerPresent now (withoutSuppress sub :: rest) capacity).1 := by
  cases rest with
  | nil =>
    simp only [testerPresent, withSuppress_masked, withoutSuppress_masked]
    split
    · exact silences_self _
    · simp [Silences, positive]
  | cons _ _ => exact silences_self _

/-! ## Security access -/

theorem admits_masked (access : Access) {a b : UInt8}
    (h : a &&& subfunctionMask = b &&& subfunctionMask) : access.admits a = access.admits b := by
  unfold Access.admits
  rw [h]

theorem securityAct_masked (access : Access) {a b : UInt8}
    (h : a &&& subfunctionMask = b &&& subfunctionMask) (rest : List UInt8) :
    access.securityAct now (a :: rest) = access.securityAct now (b :: rest) := by
  simp only [Access.securityAct, admits_masked access h, h]

theorem serve_masked (access : Access) {a b : UInt8}
    (h : a &&& subfunctionMask = b &&& subfunctionMask) (rest : List UInt8) :
    access.serve now (a :: rest) = access.serve now (b :: rest) := by
  simp only [Access.serve, securityAct_masked now access h, admits_masked access h]

theorem answer_masked (access : Access) {a b : UInt8}
    (h : a &&& subfunctionMask = b &&& subfunctionMask) (suppress : Bool) (rest : List UInt8) :
    access.answer now suppress capacity (a :: rest) = access.answer now suppress capacity (b :: rest) := by
  simp only [Access.answer, securityAct_masked now access h, Access.refusal, h]

theorem answer_silences (access : Access) (args : List UInt8) :
    Silences (access.answer now true capacity args) (access.answer now false capacity args) := by
  unfold Access.answer
  split
  · exact silences_self _
  · exact silences_positive ..
  · exact silences_positive ..
  · split
    · exact silences_positive ..
    · exact silences_self _

end UdsServer

/-- The length of the positive response to a security access, if it is answered so. -/
def Access.answerLength (access : Access) (now : UInt32) (args : List UInt8) : Option ℕ :=
  match access.securityAct now args with
  | .nothing => none
  | .zeroSeed => some 6
  | .newSeed _ => some 6
  | .evaluate seed key => if key = computeKey seed access.securitySalt then some 2 else none

/-- There is a positive response, and room for it. -/
def fits (capacity : ℕ) : Option ℕ → Bool
  | some length => length ≤ capacity
  | none => false

theorem answer_keepsSession (access : Access) (now : UInt32) (suppress : Bool) (capacity : ℕ)
    (args : List UInt8) : (access.answer now suppress capacity args).keepsSession =
      (!suppress && fits capacity (access.answerLength now args)) := by
  have hfirst : sidSecurityAccess + 0x40 ≠ sidNegativeResponse := by decide
  unfold Access.answer Access.answerLength
  cases access.securityAct now args with
  | nothing => simp [fits]
  | zeroSeed => exact positive_keepsSession hfirst ..
  | newSeed seed => exact positive_keepsSession hfirst ..
  | evaluate seed key =>
    by_cases hkey : key = computeKey seed access.securitySalt
    · simp only [if_pos hkey]
      exact positive_keepsSession hfirst ..
    · simp [hkey, fits]

namespace UdsServer

variable {σ : Type} (server : UdsServer σ) (env : σ) (now : UInt32) (data : List UInt8)
  (capacity index : ℕ)

/-! ## Routines -/

/-- The length of the positive response to an accepted routine request, if it is answered so at once. -/
def routineLength (routine : Routine σ) (subfunction : UInt8) : Option ℕ :=
  if server.armsResponse env index routine subfunction data then none
  else (server.answerResult env index routine subfunction data).map fun result => 4 + result.length

theorem runRoutine_silences (routine : Routine σ) {subfunction : UInt8}
    (hsub : subfunction = routineStart ∨ subfunction = routineStop ∨
      subfunction = routineRequestResults) :
    Silences (server.runRoutine env index routine subfunction true data capacity).1
      (server.runRoutine env index routine subfunction false data capacity).1 := by
  rw [runRoutine_reply _ _ _ _ _ _ _ _ hsub, runRoutine_reply _ _ _ _ _ _ _ _ hsub]
  split
  · exact silences_self _
  split
  · exact silences_positive ..
  · exact silences_self _

/-- Only the recorded bit tells what the two requests leave. -/
theorem runRoutine_forget (routine : Routine σ) (subfunction : UInt8) :
    (server.runRoutine env index routine subfunction true data capacity).2.1.forgetSuppress =
        (server.runRoutine env index routine subfunction false data capacity).2.1.forgetSuppress ∧
      (server.runRoutine env index routine subfunction true data capacity).2.2 =
        (server.runRoutine env index routine subfunction false data capacity).2.2 := by
  unfold runRoutine
  repeat' split
  all_goals exact ⟨rfl, rfl⟩

theorem runRoutine_keepsSession (routine : Routine σ) {subfunction : UInt8} (suppress : Bool)
    (hsub : subfunction = routineStart ∨ subfunction = routineStop ∨
      subfunction = routineRequestResults) :
    (server.runRoutine env index routine subfunction suppress data capacity).1.keepsSession =
      (server.armsResponse env index routine subfunction data && decide (3 ≤ capacity) ||
        !suppress && fits capacity (server.routineLength env data index routine subfunction)) := by
  have hfirst : sidRoutineControl + 0x40 ≠ sidNegativeResponse := by decide
  rw [runRoutine_reply _ _ _ _ _ _ _ _ hsub]
  unfold routineLength
  cases harms : server.armsResponse env index routine subfunction data with
  | true => simp [fits]
  | false =>
    cases hresult : server.answerResult env index routine subfunction data with
    | none => simp [fits]
    | some result =>
      have hlength : 4 + result.length = (subfunction :: high16 routine.routineId ::
          low16 routine.routineId :: result).length + 1 := by
        simp only [List.length_cons]
        omega
      simp only [Bool.false_eq_true, if_false, Bool.false_and, Bool.false_or, Option.map_some, fits,
        hlength]
      exact positive_keepsSession hfirst ..

/-- The sub-function byte of an accepted request is returned as it was sent. -/
def setSub (sub : UInt8) : ℕ × Routine σ × UInt8 × List UInt8 → ℕ × Routine σ × UInt8 × List UInt8
  | (index, routine, _, data) => (index, routine, sub, data)

theorem acceptedRoutine_masked {a b : UInt8} (h : a &&& subfunctionMask = b &&& subfunctionMask)
    (rest : List UInt8) : server.acceptedRoutine (a :: rest) =
      (server.acceptedRoutine (b :: rest)).map (setSub a) := by
  match rest with
  | [] => rfl
  | [_] => rfl
  | high :: low :: data =>
    simp only [acceptedRoutine]
    cases server.findRoutine (word16 high low) with
    | none => rfl
    | some found =>
      obtain ⟨index, routine⟩ := found
      simp only [h]
      split <;> rfl

theorem routineRefusal_masked {a b : UInt8} (h : a &&& subfunctionMask = b &&& subfunctionMask)
    (rest : List UInt8) : server.routineRefusal (a :: rest) = server.routineRefusal (b :: rest) := by
  match rest with
  | [] => rfl
  | [_] => rfl
  | high :: low :: data =>
    simp only [routineRefusal]
    cases server.findRoutine (word16 high low) with
    | none => rfl
    | some found => simp only [h]

/-- The length of the positive response to a routine request, if it is answered so at once. -/
def routineAnswerLength (args : List UInt8) : Option ℕ :=
  match server.acceptedRoutine args with
  | some (index, routine, sub, data) =>
    (server.dropPendingRoutine index).routineLength env data index routine (sub &&& subfunctionMask)
  | none => none

/-- The two routine requests: what they leave, what they answer, and which keeps the session. -/
theorem routineControl_suppress (sub : UInt8) (rest : List UInt8) :
    let set := server.routineControl env (withSuppress sub :: rest) capacity
    let clear := server.routineControl env (withoutSuppress sub :: rest) capacity
    set.2.1.forgetSuppress = clear.2.1.forgetSuppress ∧ set.2.2 = clear.2.2 ∧
      Silences set.1 clear.1 ∧ ∃ armed : Bool, set.1.keepsSession = armed ∧
        clear.1.keepsSession = (armed || fits capacity (server.routineAnswerLength env (sub :: rest))) ∧
        (armed = true → fits capacity (server.routineAnswerLength env (sub :: rest)) = false) := by
  have hset := server.acceptedRoutine_masked (withSuppress_masked sub) rest
  have hclear := server.acceptedRoutine_masked (withoutSuppress_masked sub) rest
  cases haccept : server.acceptedRoutine (sub :: rest) with
  | none =>
    rw [haccept] at hset hclear
    dsimp only
    rw [routineControl_refused server env hset, routineControl_refused server env hclear,
      routineRefusal_masked server (withSuppress_masked sub),
      routineRefusal_masked server (withoutSuppress_masked sub)]
    refine ⟨?_, rfl, silences_self _, false, negative_keepsSession .., ?_, nofun⟩
    · have hdrop : server.dropNamed (withSuppress sub :: rest) =
          server.dropNamed (withoutSuppress sub :: rest) := by
        match rest with
        | [] => rfl
        | [_] => rfl
        | _ :: _ :: _ => rfl
      rw [hdrop]
    · simp [routineAnswerLength, haccept, fits]
  | some accepted =>
    obtain ⟨index, routine, sub', data⟩ := accepted
    obtain ⟨high, low, hargs, -, -, -, hsub⟩ := acceptedRoutine_some haccept
    obtain ⟨rfl, -⟩ := List.cons.inj hargs
    rw [haccept] at hset hclear
    have hbit : decide (withSuppress sub &&& suppressPositiveResponse ≠ 0) = true :=
      decide_eq_true (withSuppress_bit sub)
    have hnobit : decide (withoutSuppress sub &&& suppressPositiveResponse ≠ 0) = false := by
      rw [withoutSuppress_bit]
      rfl
    dsimp only
    rw [routineControl_accepted server env hset, routineControl_accepted server env hclear,
      withSuppress_masked, withoutSuppress_masked, hbit, hnobit]
    obtain ⟨hforget, henv⟩ := (server.dropPendingRoutine index).runRoutine_forget env data capacity index
      routine (sub &&& subfunctionMask)
    refine ⟨hforget, henv, runRoutine_silences _ env data capacity index routine hsub, _,
      runRoutine_keepsSession _ env data capacity index routine true hsub, ?_, ?_⟩
    · rw [runRoutine_keepsSession _ env data capacity index routine false hsub]
      simp [routineAnswerLength, haccept]
    · intro harmed
      simp only [Bool.not_true, Bool.false_and, Bool.or_false, Bool.and_eq_true] at harmed
      simp only [routineAnswerLength, haccept, routineLength, harmed.1, if_true, fits]

/-! ## The two requests -/

theorem forgetSuppress_of_views {a b : UdsServer σ} (haccess : a.access = b.access)
    (htimer : a.timer = b.timer) (hwork : a.forgetSuppress.work = b.forgetSuppress.work) :
    a.forgetSuppress = b.forgetSuppress :=
  eq_of_views haccess htimer hwork

theorem timer_of_forgetSuppress {a b : UdsServer σ} (h : a.forgetSuppress = b.forgetSuppress) :
    a.timer = b.timer := by
  have htimer : a.forgetSuppress.timer = b.forgetSuppress.timer := congrArg timer h
  exact htimer

theorem forgetSuppress_work {a b : UdsServer σ} (h : a.work = b.work) :
    a.forgetSuppress.work = b.forgetSuppress.work :=
  congrArg (fun work => { work with pendingRoutineSuppressPositive := false }) h

theorem timerAct_refreshes {service : UInt8} (h : refreshes service = true) (args : List UInt8)
    (reply : Reply) : server.timerAct args reply service =
      if reply.keepsSession then .refresh else .nothing := by
  have h10 : service ≠ sidDiagnosticSessionControl := by
    rintro rfl
    cases h
  have h3E : service ≠ sidTesterPresent := by
    rintro rfl
    cases h
  rw [timerAct, if_neg h10, if_neg h3E, h, Bool.true_and]

theorem testerPresent_snd (args : List UInt8) : (server.testerPresent now args capacity).2 =
    if testerPresentAccepted args then server.keepSessionAlive now else server := by
  match args with
  | [] => rfl
  | [subfunction] =>
    unfold testerPresent testerPresentAccepted
    by_cases h : subfunction &&& subfunctionMask = 0
    · simp [h]
    · simp [h]
  | _ :: _ :: _ => rfl

/-- A refresh is a change unless the timer is off or was refreshed in the same millisecond. -/
theorem refresh_eq_self_iff (timer : Timer) :
    timer.refresh now = timer ↔
      ¬(timer.s3Active = true ∧ timer.s3DeadlineMs ≠ now + timer.s3ServerMs.toUInt32) := by
  unfold Timer.refresh
  cases hactive : timer.s3Active with
  | false => simp
  | true =>
    rw [if_pos rfl]
    constructor
    · intro heq hne
      exact hne.2 (congrArg Timer.s3DeadlineMs heq).symm
    · intro hnot
      have hsame : timer.s3DeadlineMs = now + timer.s3ServerMs.toUInt32 := by tauto
      rw [← hsame, ← hactive]

/-- The timers of the two requests, one refreshed where the other is or where the second condition holds. -/
theorem refreshed_eq_iff (timer : Timer) {armed answered : Bool} (h : armed = true → answered = false) :
    timer.perform now (if armed then .refresh else .nothing) =
        timer.perform now (if armed || answered then .refresh else .nothing) ↔
      ¬(answered = true ∧ timer.s3Active = true ∧
        timer.s3DeadlineMs ≠ now + timer.s3ServerMs.toUInt32) := by
  cases armed with
  | true => simp [h rfl]
  | false =>
    cases answered with
    | false => simp
    | true =>
      rw [eq_comm]
      have hiff := refresh_eq_self_iff now timer
      simpa [Timer.perform] using hiff

/-- The contract of the bit: the two requests leave the same, but for the recorded bit, and answer the same,
or nothing where the bit is set. -/
def SuppressOnlySilences (s : UdsServer σ × σ) (now : UInt32) (service sub : UInt8)
    (rest : List UInt8) (capacity : ℕ) : Prop :=
  let set := Event.process now (service :: withSuppress sub :: rest) capacity
  let clear := Event.process now (service :: withoutSuppress sub :: rest) capacity
  ((step s set).1.forgetSuppress = (step s clear).1.forgetSuppress ∧ (step s set).2 = (step s clear).2) ∧
    ((respond s set).1.response ≠ (respond s clear).1.response → (respond s set).1.response = [])

variable {capacity} in
/-- For a service that refreshes the timer by its reply, all that can differ is the refresh. -/
theorem suppressOnlySilences_iff_of_reply {s : UdsServer σ × σ} {service sub : UInt8}
    {rest : List UInt8} (armed : Bool) {answered : Bool} (hservice : refreshes service = true)
    {set clear : Event}
    (hset : set = .process now (service :: withSuppress sub :: rest) capacity)
    (hclear : clear = .process now (service :: withoutSuppress sub :: rest) capacity)
    (hreply : Silences (respond s set).1 (respond s clear).1)
    (haccess : (step s set).1.access = (step s clear).1.access)
    (hwork : (step s set).1.forgetSuppress.work = (step s clear).1.forgetSuppress.work)
    (henv : (step s set).2 = (step s clear).2)
    (hsetKeeps : (respond s set).1.keepsSession = armed)
    (hclearKeeps : (respond s clear).1.keepsSession = (armed || answered))
    (harmed : armed = true → answered = false) :
    SuppressOnlySilences s now service sub rest capacity ↔
      ¬(answered = true ∧ (s.1.tick now).s3Active = true ∧
        (s.1.tick now).s3DeadlineMs ≠ now + (s.1.tick now).s3ServerMs.toUInt32) := by
  subst hset
  subst hclear
  have hperform : ∀ {args : List UInt8} {keeps : Bool},
      (respond s (.process now (service :: args) capacity)).1.keepsSession = keeps →
      (step s (.process now (service :: args) capacity)).1.timer =
        (s.1.tick now).timer.perform now (if keeps then .refresh else .nothing) := by
    intro args keeps hkeeps
    rw [step_timer, ← tick_timer, timerAct_refreshes _ hservice, hkeeps]
  have htimer := refreshed_eq_iff now (s.1.tick now).timer harmed
  rw [← hperform hsetKeeps, ← hperform hclearKeeps] at htimer
  constructor
  · intro h
    exact htimer.1 (timer_of_forgetSuppress h.1.1)
  · intro hlost
    refine ⟨⟨forgetSuppress_of_views haccess (htimer.2 hlost) hwork, henv⟩, ?_⟩
    intro hne
    rcases hreply with heq | hempty
    · exact absurd (congrArg Reply.response heq) hne
    · exact hempty

theorem suppress_securityAccess (s : UdsServer σ × σ) (sub : UInt8) (rest : List UInt8) :
    SuppressOnlySilences s now sidSecurityAccess sub rest capacity ↔
      ¬(fits capacity ((s.1.tick now).access.answerLength now (sub :: rest)) = true ∧
        (s.1.tick now).s3Active = true ∧
        (s.1.tick now).s3DeadlineMs ≠ now + (s.1.tick now).s3ServerMs.toUInt32) := by
  have hreply : ∀ a, (respond s (.process now (sidSecurityAccess :: a :: rest) capacity)).1 =
      (s.1.tick now).access.answer now (a &&& suppressPositiveResponse ≠ 0) capacity (a :: rest) := by
    intro a
    exact respond_security ..
  have hmask : ∀ {a}, a &&& subfunctionMask = sub &&& subfunctionMask → ∀ suppress,
      (s.1.tick now).access.answer now suppress capacity (a :: rest) =
        (s.1.tick now).access.answer now suppress capacity (sub :: rest) := fun h suppress =>
    answer_masked now capacity _ h suppress rest
  have hset := hreply (withSuppress sub)
  have hclear := hreply (withoutSuppress sub)
  rw [decide_eq_true (withSuppress_bit sub), hmask (withSuppress_masked sub)] at hset
  rw [decide_eq_false (not_not.2 (withoutSuppress_bit sub)), hmask (withoutSuppress_masked sub)] at hclear
  have hother : ∀ a, (step s (.process now (sidSecurityAccess :: a :: rest) capacity)).1.work = s.1.work ∧
      (step s (.process now (sidSecurityAccess :: a :: rest) capacity)).2 = s.2 := fun a =>
    step_work_of_other now (a :: rest) capacity s (by decide) (by decide)
  refine suppressOnlySilences_iff_of_reply now false rfl rfl rfl ?_ ?_ ?_ ?_ ?_ ?_ nofun
  · rw [hset, hclear]
    exact answer_silences ..
  · have h10 : sidSecurityAccess ≠ sidDiagnosticSessionControl := by decide
    rw [process_access, process_access, if_neg h10, if_neg h10, if_pos rfl, if_pos rfl,
      serve_masked now _ (withSuppress_masked sub),
      serve_masked now _ (withoutSuppress_masked sub)]
  · exact forgetSuppress_work ((hother _).1.trans (hother _).1.symm)
  · exact (hother _).2.trans (hother _).2.symm
  · rw [hset, answer_keepsSession]
    rfl
  · rw [hclear, answer_keepsSession]
    rfl

theorem suppress_routineControl (s : UdsServer σ × σ) (sub : UInt8) (rest : List UInt8) :
    SuppressOnlySilences s now sidRoutineControl sub rest capacity ↔
      ¬(fits capacity ((s.1.tick now).routineAnswerLength s.2 (sub :: rest)) = true ∧
        (s.1.tick now).s3Active = true ∧
        (s.1.tick now).s3DeadlineMs ≠ now + (s.1.tick now).s3ServerMs.toUInt32) := by
  obtain ⟨hforget, henv, hsilences, armed, hset, hclear, harmed⟩ :=
    (s.1.tick now).routineControl_suppress s.2 capacity sub rest
  have hstep : ∀ a, (respond s (.process now (sidRoutineControl :: a :: rest) capacity)).1 =
        ((s.1.tick now).routineControl s.2 (a :: rest) capacity).1 ∧
      (step s (.process now (sidRoutineControl :: a :: rest) capacity)).1.work =
        ((s.1.tick now).routineControl s.2 (a :: rest) capacity).2.1.work ∧
      (step s (.process now (sidRoutineControl :: a :: rest) capacity)).2 =
        ((s.1.tick now).routineControl s.2 (a :: rest) capacity).2.2 := fun a =>
    respond_routine now (a :: rest) capacity s
  refine suppressOnlySilences_iff_of_reply now _ rfl rfl rfl ?_ ?_ ?_ ?_ ?_ ?_ harmed
  · rw [(hstep _).1, (hstep _).1]
    exact hsilences
  · rw [process_access, process_access]
    rfl
  · exact (forgetSuppress_work (hstep _).2.1).trans
      ((congrArg work hforget).trans (forgetSuppress_work (hstep _).2.1).symm)
  · rw [(hstep _).2.2, (hstep _).2.2]
    exact henv
  · rw [(hstep _).1]
    exact hset
  · rw [(hstep _).1]
    exact hclear

/-- Session control and tester present read the masked sub-function and the bit apart. -/
theorem suppress_of_eq {s : UdsServer σ × σ} {service sub : UInt8} {rest : List UInt8}
    (hstep : step s (.process now (service :: withSuppress sub :: rest) capacity) =
      step s (.process now (service :: withoutSuppress sub :: rest) capacity))
    (hreply : Silences (respond s (.process now (service :: withSuppress sub :: rest) capacity)).1
      (respond s (.process now (service :: withoutSuppress sub :: rest) capacity)).1) :
    SuppressOnlySilences s now service sub rest capacity := by
  refine ⟨⟨by rw [hstep], by rw [hstep]⟩, ?_⟩
  intro hne
  rcases hreply with heq | hempty
  · exact absurd (congrArg Reply.response heq) hne
  · exact hempty

theorem suppress_sessionControl (s : UdsServer σ × σ) (sub : UInt8) (rest : List UInt8) :
    SuppressOnlySilences s now sidDiagnosticSessionControl sub rest capacity := by
  refine suppress_of_eq now capacity ?_ (sessionControl_silences (s.1.tick now) now capacity sub rest)
  have hstep : ∀ a, step s (.process now (sidDiagnosticSessionControl :: a :: rest) capacity) =
      (((s.1.tick now).sessionControl now (a :: rest) capacity).2, s.2) := fun a => rfl
  rw [hstep, hstep, sessionControl_snd, sessionControl_snd,
    requestedSession_masked _ (withSuppress_masked sub),
    requestedSession_masked _ (withoutSuppress_masked sub)]

theorem suppress_testerPresent (s : UdsServer σ × σ) (sub : UInt8) (rest : List UInt8) :
    SuppressOnlySilences s now sidTesterPresent sub rest capacity := by
  refine suppress_of_eq now capacity ?_ (testerPresent_silences (s.1.tick now) now capacity sub rest)
  have hstep : ∀ a, step s (.process now (sidTesterPresent :: a :: rest) capacity) =
      (((s.1.tick now).testerPresent now (a :: rest) capacity).2, s.2) := fun a => rfl
  rw [hstep, hstep, testerPresent_snd, testerPresent_snd,
    testerPresentAccepted_masked (withSuppress_masked sub),
    testerPresentAccepted_masked (withoutSuppress_masked sub)]

/-- The request without the bit is answered positively and so refreshes a timer that runs and was not
refreshed in the same millisecond; with the bit nothing refreshes it. -/
def losesRefresh (s : UdsServer σ × σ) (service : UInt8) (args : List UInt8) : Prop :=
  (service = sidSecurityAccess ∧
      fits capacity ((s.1.tick now).access.answerLength now args) = true ∨
    service = sidRoutineControl ∧
      fits capacity ((s.1.tick now).routineAnswerLength s.2 args) = true) ∧
  (s.1.tick now).s3Active = true ∧
  (s.1.tick now).s3DeadlineMs ≠ now + (s.1.tick now).s3ServerMs.toUInt32

/-- **The suppress bit changes only what is sent, exactly when no refresh of the session timer depends on
the response.** -/
theorem suppress_only_silences_iff (s : UdsServer σ × σ) {service : UInt8}
    (hservice : service = sidDiagnosticSessionControl ∨ service = sidSecurityAccess ∨
      service = sidRoutineControl ∨ service = sidTesterPresent) (sub : UInt8) (rest : List UInt8) :
    SuppressOnlySilences s now service sub rest capacity ↔
      ¬losesRefresh now capacity s service (sub :: rest) := by
  have h27 : sidSecurityAccess ≠ sidRoutineControl := by decide
  rcases hservice with rfl | rfl | rfl | rfl
  · refine ⟨fun _ hlost => ?_, fun _ => suppress_sessionControl now capacity s sub rest⟩
    rcases hlost.1 with ⟨hfalse, -⟩ | ⟨hfalse, -⟩
    · exact absurd hfalse (by decide)
    · exact absurd hfalse (by decide)
  · rw [suppress_securityAccess]
    simp [losesRefresh, h27]
  · rw [suppress_routineControl]
    simp [losesRefresh, h27.symm]
  · refine ⟨fun _ hlost => ?_, fun _ => suppress_testerPresent now capacity s sub rest⟩
    rcases hlost.1 with ⟨hfalse, -⟩ | ⟨hfalse, -⟩
    · exact absurd hfalse (by decide)
    · exact absurd hfalse (by decide)

end UdsServer

/-! ## A seed asked for with and without the bit -/

open UdsServer

/-- The ECU in the extended session, entered at the time 0. -/
def extendedEcu : UdsServer (EcuEnv (Logged Unit)) × EcuEnv (Logged Unit) :=
  step plainEcu (request [sidDiagnosticSessionControl, sessionExtended])

/-- A tester present with and without the bit, 100 ms later. -/
theorem suppress_only_silences_testerPresent :
    SuppressOnlySilences extendedEcu 100 sidTesterPresent 0x00 [] 32 := by
  refine (suppress_only_silences_iff 100 32 extendedEcu (by decide) 0x00 []).2 ?_
  rintro ⟨⟨hfalse, -⟩ | ⟨hfalse, -⟩, -⟩
  · exact absurd hfalse (by decide)
  · exact absurd hfalse (by decide)

/-- A seed request with the bit does not refresh the timer, 100 ms after it was set. -/
theorem not_suppress_only_silences_seed :
    ¬SuppressOnlySilences extendedEcu 100 sidSecurityAccess securityRequestSeed [] 32 := by
  intro h
  exact absurd (congrArg UdsServer.s3DeadlineMs h.1.1) (by decide +kernel)

end DualCan.Uds
