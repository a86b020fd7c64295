import DualCan.Can.Background
import DualCan.Run.Past
import DualCan.Run.Slots

/-!
# The periods of the load generator

`APP_ServiceLoadGenerator` against the real time, in cycles since the counter was cleared. The first service
after the go flag clears the counter and begins the first period. A service that comes late skips the periods
gone by; one that finds the mailboxes busy keeps its period for the next call. In both cases the number in a
frame is the period it was built in (`load_inTime`).
-/

namespace DualCan.Can

open DualCan.Clock DualCan.Run

namespace LoadGenerator

variable {build : LoadBuild} {generator : LoadGenerator} {env : ServiceEnv}

/-- The target has been reached. -/
def Done (generator : LoadGenerator) : Prop :=
  generator.stats.targetFrames ≠ 0 ∧ generator.stats.completed ≠ 0

instance (generator : LoadGenerator) : Decidable generator.Done := inferInstanceAs (Decidable (_ ∧ _))

/-- The next period and its number. -/
def slots (generator : LoadGenerator) : Slots := ⟨generator.nextSend, generator.stats.sequence⟩

/-- What the first service after the go flag begins with. -/
def started (generator : LoadGenerator) (start : UInt32) : LoadGenerator :=
  if generator.initialized then generator else { generator with nextSend := start, initialized := true }

theorem service_idle (h : generator.Done ∨ env.goSeen = false) :
    generator.service build env = ⟨generator, 0, none⟩ := by
  unfold service
  by_cases hdone : generator.stats.targetFrames ≠ 0 ∧ generator.stats.completed ≠ 0
  · rw [if_pos hdone]
  · rw [if_neg hdone, if_pos (h.resolve_left hdone)]

section Active

variable (hdone : ¬generator.Done) (hgo : env.goSeen = true)

include hdone hgo

/-- Before its period the service only starts the generator. -/
theorem service_early (hearly : before env.now (generator.started env.start).nextSend = true) :
    generator.service build env = ⟨generator.started env.start, 0, none⟩ := by
  have hdone' : ¬(generator.stats.targetFrames ≠ 0 ∧ generator.stats.completed ≠ 0) := hdone
  have hgo' : ¬env.goSeen = false := by rw [hgo]; exact Bool.noConfusion
  unfold service
  rw [if_neg hdone', if_neg hgo']
  exact if_pos (of_decide_eq_true hearly)

/-- In its period the service catches up, and uses the period unless the mailboxes are busy. -/
theorem service_due (build : LoadBuild) (hdue : before env.now (generator.started env.start).nextSend = false) :
    let started := generator.started env.start
    let skipped := started.slots.skipped (periodCycles build) env.now
    let caught := started.slots.catchUp (periodCycles build) env.now
    let stats := started.stats.recordSkipped skipped
    generator.service build env =
      if env.freeLevel < 3 then ⟨{ started with stats := stats, nextSend := caught.next }, skipped, none⟩
      else
        ⟨{ started with stats := stats.recordAttempt env.sent, nextSend := (caught.use (periodCycles build)).next },
          skipped, some (buildFrame caught.number, env.sent)⟩ := by
  have hdone' : ¬(generator.stats.targetFrames ≠ 0 ∧ generator.stats.completed ≠ 0) := hdone
  have hgo' : ¬env.goSeen = false := by rw [hgo]; exact Bool.noConfusion
  unfold service
  rw [if_neg hdone', if_neg hgo']
  exact if_neg (of_decide_eq_false hdue)

end Active

end LoadGenerator

/-! ## The bench -/

/-- The generator, the cycles since its counter was cleared, and what an observer has written down: the
reading the generator began at, the time of its last service, and its frames. -/
structure LoadBench where
  cycles : ℕ
  generator : LoadGenerator
  begun : ℕ
  servedAt : ℕ
  frames : List TimedFrame

namespace LoadBench

/-- `service` is a call of the service; the one that clears the counter reads it `first` cycles later for its
first period, and `more` cycles later again. -/
inductive Event where
  | advance (cycles : ℕ)
  | service (goSeen : Bool) (first more : ℕ) (freeLevel : UInt32) (sent : Bool)

/-- The call does something. -/
def Active (b : LoadBench) (goSeen : Bool) : Prop := ¬b.generator.Done ∧ goSeen = true

instance (b : LoadBench) (goSeen : Bool) : Decidable (b.Active goSeen) := inferInstanceAs (Decidable (_ ∧ _))

def step (build : LoadBuild) (b : LoadBench) : Event → LoadBench
  | .advance cycles => { b with cycles := b.cycles + cycles }
  | .service goSeen first more freeLevel sent =>
    let begins := b.Active goSeen ∧ b.generator.initialized = false
    let cycles := if begins then first + more else b.cycles
    let served := b.generator.service build ⟨goSeen, tick first, tick cycles, freeLevel, sent⟩
    { cycles := cycles
      generator := served.generator
      begun := if begins then first else b.begun
      servedAt := if b.Active goSeen then cycles else b.servedAt
      frames := b.frames ++ (served.attempt.map fun a => ⟨cycles, a.1, a.2⟩).toList }

/-- After the initialisation of `main`. -/
def start (build : LoadBuild) : LoadBench where
  cycles := 0
  generator := .init build
  begun := 0
  servedAt := 0
  frames := []

/-- The service reads the counter less than a quarter of its turn after the reading before. -/
def Prompt (b : LoadBench) : Event → Prop
  | .advance _ => True
  | .service goSeen _ more _ _ =>
    b.Active goSeen → if b.generator.initialized then b.cycles < b.servedAt + 2 ^ 30 else more < 2 ^ 30

instance (b : LoadBench) (e : Event) : Decidable (b.Prompt e) :=
  match e with
  | .advance _ => isTrue trivial
  | .service .. => inferInstanceAs (Decidable (_ → _))

variable {build : LoadBuild} {begun n t : ℕ} {b : LoadBench}

/-- The generator has begun at `begun` and stands before the `n`-th period; its last service was at `t`. -/
structure Numbered (build : LoadBuild) (begun n t : ℕ) (generator : LoadGenerator) (frames : List TimedFrame) :
    Prop where
  initialized : generator.initialized = true
  onSchedule : Slots.OnSchedule begun (LoadGenerator.periodCycles build) n generator.slots
  used : Slots.Used begun (LoadGenerator.periodCycles build) n (uses frames)
  near : begun + n * (LoadGenerator.periodCycles build).toNat ≤ t + (LoadGenerator.periodCycles build).toNat
  far : t < begun + n * (LoadGenerator.periodCycles build).toNat + (LoadGenerator.periodCycles build).toNat
  sent : generator.stats.sent = UInt32.ofNat (frames.countP (·.taken))
  failed : generator.stats.txFailures = UInt32.ofNat (frames.countP fun f => !f.taken)
  accounted : generator.stats.sent + generator.stats.txFailures + generator.stats.missedDeadlines =
    generator.stats.sequence

/-- **A service in its period.** -/
theorem Numbered.serve {generator : LoadGenerator} {frames : List TimedFrame} (env : ServiceEnv) {c : ℕ}
    (h : Numbered build begun n t (generator.started env.start) frames)
    (hperiod : 0 < (LoadGenerator.periodCycles build).toNat)
    (hshort : (LoadGenerator.periodCycles build).toNat < 2 ^ 30) (hlate : t ≤ c) (hprompt : c < t + 2 ^ 30)
    (hdone : ¬generator.Done) (hgo : env.goSeen = true) (hnow : env.now = tick c) :
    ∃ n, Numbered build begun n c (generator.service build env).generator
      (frames ++ ((generator.service build env).attempt.map fun a => ⟨c, a.1, a.2⟩).toList) := by
  have hnear := h.near
  have hfar := h.far
  have hread := h.onSchedule.before_next (t := c) (by omega) (by omega)
  rw [← hnow] at hread
  by_cases hearly : c < begun + n * (LoadGenerator.periodCycles build).toNat
  · rw [decide_eq_true hearly] at hread
    rw [LoadGenerator.service_early hdone hgo hread]
    refine ⟨n, h.initialized, h.onSchedule, ?_, by omega, by omega, ?_, ?_, h.accounted⟩
    · simpa using h.used
    · simpa using h.sent
    · simpa using h.failed
  · rw [decide_eq_false hearly] at hread
    obtain ⟨k, hskipped, hon, hfrom, hto⟩ := h.onSchedule.catchUp hperiod (Nat.le_of_not_lt hearly) (by omega)
    have hservice := LoadGenerator.service_due hdone hgo build hread
    rw [hnow] at hservice
    simp only [hservice]
    have haccounted := h.accounted
    split
    · refine ⟨n + k, h.initialized, hon, ?_, by omega, ?_, ?_, ?_, ?_⟩
      · simpa using h.used.later k
      · rw [Nat.succ_mul] at hto
        omega
      · simpa [LoadGeneratorStats.recordSkipped] using h.sent
      · simpa [LoadGeneratorStats.recordSkipped] using h.failed
      · simp only [LoadGeneratorStats.recordSkipped, ← haccounted]
        ac_rfl
    · obtain ⟨hsequence, hsent, hfailed, hmissed⟩ :=
        ((generator.started env.start).stats.recordSkipped
          ((generator.started env.start).slots.skipped (LoadGenerator.periodCycles build)
            (tick c))).recordAttempt_counts env.sent
      simp only [Option.map_some, Option.toList_some]
      refine ⟨n + k + 1, h.initialized, ⟨hon.use.next, ?_⟩, ?_, ?_, ?_, ?_, ?_, ?_⟩
      · exact hsequence.trans hon.use.number
      · rw [uses_snoc]
        exact (h.used.later k).use hon hperiod hfrom hto
      · rw [Nat.succ_mul]
        omega
      · omega
      · refine hsent.trans ((congrArg (· + _) h.sent).trans ?_)
        rw [List.countP_append, List.countP_singleton]
        cases env.sent
        · exact UInt32.add_zero _
        · exact (ofNat_succ _).symm
      · refine hfailed.trans ((congrArg (· + _) h.failed).trans ?_)
        rw [List.countP_append, List.countP_singleton]
        cases env.sent
        · exact (ofNat_succ _).symm
        · exact UInt32.add_zero _
      · rw [hsequence, hsent, hfailed, hmissed]
        simp only [LoadGeneratorStats.recordSkipped, ← haccounted]
        cases env.sent <;> simp only [Bool.false_eq_true, if_true, if_false] <;> ac_rfl

/-- Nothing has been done yet, or the generator has begun. -/
def Known (build : LoadBuild) (b : LoadBench) : Prop :=
  (b.generator = .init build ∧ b.frames = []) ∨
    b.servedAt ≤ b.cycles ∧ ∃ n, Numbered build b.begun n b.servedAt b.generator b.frames

theorem numbered_start (build : LoadBuild) (hperiod : 0 < (LoadGenerator.periodCycles build).toNat) (first : ℕ) :
    Numbered build first 0 first ((LoadGenerator.init build).started (tick first)) [] := by
  refine ⟨rfl, ⟨?_, rfl⟩, Slots.used_nil, ?_, ?_, rfl, rfl, rfl⟩
  · rw [Nat.zero_mul]
    rfl
  · omega
  · omega

/-- **One event.** -/
theorem Known.step {e : Event} (h : Known build b) (hperiod : 0 < (LoadGenerator.periodCycles build).toNat)
    (hshort : (LoadGenerator.periodCycles build).toNat < 2 ^ 30) (hprompt : b.Prompt e) :
    Known build (b.step build e) := by
  cases e with
  | advance cycles =>
    rcases h with hfresh | ⟨hpast, hnumbered⟩
    · exact .inl hfresh
    · exact .inr ⟨Nat.le_trans hpast (Nat.le_add_right _ _), hnumbered⟩
  | service goSeen first more freeLevel sent =>
    simp only [LoadBench.step]
    by_cases hactive : b.Active goSeen
    · have hread := hprompt hactive
      simp only [if_pos hactive]
      rcases h with ⟨hgenerator, hframes⟩ | ⟨hpast, n, hnumbered⟩
      · have hbegins : b.Active goSeen ∧ b.generator.initialized = false := ⟨hactive, by rw [hgenerator]; rfl⟩
        simp only [if_pos hbegins]
        rw [hbegins.2] at hread
        have hmore : more < 2 ^ 30 := hread
        have hstart := numbered_start build hperiod first
        rw [← hgenerator, ← hframes] at hstart
        exact .inr ⟨Nat.le_refl _, hstart.serve ⟨goSeen, tick first, tick (first + more), freeLevel, sent⟩
          hperiod hshort (Nat.le_add_right _ _) (Nat.add_lt_add_left hmore first) hactive.1 hactive.2 rfl⟩
      · have hbegun : ¬(b.Active goSeen ∧ b.generator.initialized = false) := by
          rw [hnumbered.initialized]
          exact fun hb => Bool.noConfusion hb.2
        simp only [if_neg hbegun]
        rw [hnumbered.initialized] at hread
        have hstarted : b.generator.started (tick first) = b.generator := by
          rw [LoadGenerator.started, if_pos hnumbered.initialized]
        rw [← hstarted] at hnumbered
        exact .inr ⟨Nat.le_refl _, hnumbered.serve ⟨goSeen, tick first, tick b.cycles, freeLevel, sent⟩
          hperiod hshort hpast hread hactive.1 hactive.2 rfl⟩
    · have hidle : b.generator.Done ∨ goSeen = false := by
        by_cases hdone : b.generator.Done
        · exact .inl hdone
        · exact .inr (Bool.not_eq_true _ ▸ fun hgo => hactive ⟨hdone, hgo⟩)
      have hbegins : ¬(b.Active goSeen ∧ b.generator.initialized = false) := fun hb => hactive hb.1
      simp only [if_neg hactive, if_neg hbegins, @LoadGenerator.service_idle _ _ ⟨goSeen, _, _, _, _⟩ hidle]
      simpa [Known] using h

/-- What the load generator says of itself. -/
structure LoadAccounts (build : LoadBuild) (b : LoadBench) : Prop where
  inTime : Slots.InTime b.begun (LoadGenerator.periodCycles build) (uses b.frames)
  sent : b.generator.stats.sent = UInt32.ofNat (b.frames.countP (·.taken))
  failed : b.generator.stats.txFailures = UInt32.ofNat (b.frames.countP fun f => !f.taken)
  accounted : b.generator.stats.sent + b.generator.stats.txFailures + b.generator.stats.missedDeadlines =
    b.generator.stats.sequence

/-- **The load generator keeps time.** In every run whose readings are less than a quarter of a turn of the
counter apart, the number in a frame is the period it was built in, counted from the first service after the
go flag; no two frames are built in one period, and the counters add up to the number of the next one. -/
theorem load_inTime {build : LoadBuild} (hperiod : 0 < (LoadGenerator.periodCycles build).toNat)
    (hshort : (LoadGenerator.periodCycles build).toNat < 2 ^ 30) {es : List Event}
    (hprompt : AllSteps (step build) (start build) Prompt es) :
    LoadAccounts build (after (step build) (start build) es) := by
  have hknown : Known build (after (step build) (start build) es) :=
    after_invariant_of (.inl ⟨rfl, rfl⟩) (fun _ _ h hp => h.step hperiod hshort hp) es hprompt
  rcases hknown with ⟨hgenerator, hframes⟩ | ⟨-, n, hnumbered⟩
  · refine ⟨?_, ?_, ?_, ?_⟩
    · rw [hframes]
      exact Slots.used_nil (n := 0) |>.toInTime
    · rw [hgenerator, hframes]
      rfl
    · rw [hgenerator, hframes]
      rfl
    · rw [hgenerator]
      rfl
  · exact ⟨hnumbered.used.toInTime, hnumbered.sent, hnumbered.failed, hnumbered.accounted⟩

/-- The F407's build: 168 MHz, a frame every 228 µs, without end. -/
def f407Build : LoadBuild := ⟨168000000, 228, 0⟩

/-- The second service finds the mailboxes busy in the third period, the third one uses it. -/
def busyRun : List Event :=
  [.service true 10 20 3 true, .advance 80000, .service true 0 0 2 true, .advance 20000,
    .service true 0 0 3 false]

theorem load_inTime_busyRun :
    uses (after (step f407Build) (start f407Build) busyRun).frames = [(30, 0), (100030, 2)] ∧
      LoadAccounts f407Build (after (step f407Build) (start f407Build) busyRun) :=
  ⟨by decide +kernel, load_inTime (by decide) (by decide) (by decide +kernel)⟩

end LoadBench

end DualCan.Can
