import DualCan.Can.Background
import DualCan.Run.Past
import Mathlib.Data.List.Infix

/-!
# Loss accounting from the generator to the probe

The bench keeps a ledger beside the two programs: what became of each sequence number, in the order of the
numbers. The generator extends it, and the bus, which keeps the frames in order and may lose any of them,
settles the fate of the frames on it. Neither program reads the ledger. The counters of both sides are counts
of its entries: the sender's of all of it (`Counted`), the probe's of the part between the first and the last
frame received (`Heard`).
-/

namespace DualCan.Can

open DualCan.Run

/-! ## The ledger -/

/-- What became of a sequence number. -/
inductive Fate where
  | skipped
  | failed
  | onBus (frame : LoadFrame)
  | lost
  | received
  deriving DecidableEq

namespace Fate

def isReceived : Fate → Bool
  | .received => true
  | _ => false

/-- The number will never reach the probe. -/
def isMissing : Fate → Bool
  | .skipped | .failed | .lost => true
  | .onBus _ | .received => false

/-- The driver took the frame. -/
def isSent : Fate → Bool
  | .onBus _ | .lost | .received => true
  | .skipped | .failed => false

end Fate

/-- Each fate is counted by one counter of the sender. -/
theorem length_eq_counts (ledger : List Fate) :
    ledger.length = ledger.countP Fate.isSent + ledger.count .failed + ledger.count .skipped := by
  induction ledger with
  | nil => rfl
  | cons fate ledger ih =>
    rw [List.length_cons, List.countP_cons, List.count_cons, List.count_cons, ih]
    cases fate <;> simp [Fate.isSent] <;> omega

/-- Of settled numbers the probe has received each or counts it as a gap. -/
theorem length_eq_received_add_missing {ledger : List Fate} (h : ∀ fate ∈ ledger, ∀ frame, fate ≠ .onBus frame) :
    ledger.length = ledger.count .received + ledger.countP Fate.isMissing := by
  induction ledger with
  | nil => rfl
  | cons fate ledger ih =>
    have hfate := h fate List.mem_cons_self
    have htail := ih fun other hmem => h other (List.mem_cons_of_mem _ hmem)
    rw [List.length_cons, List.count_cons, List.countP_cons, htail]
    cases fate with
    | onBus frame => exact absurd rfl (hfate frame)
    | _ =>
      simp [Fate.isMissing]
      omega

/-- The ledger from the first number received to the last one. -/
def between (ledger : List Fate) : List Fate :=
  (ledger.dropWhile fun fate => !fate.isReceived).rdropWhile fun fate => !fate.isReceived

/-- Fewer than half the range of consecutive numbers are missing between two that are received. -/
def Limited (ledger : List Fate) : Prop :=
  ∀ missing : List Fate, (∀ fate ∈ missing, fate.isMissing) →
    Fate.received :: (missing ++ [.received]) <:+: ledger → missing.length < 2 ^ 31

/-- The `k`-th frame on the bus, with the ledger before and after it. -/
def busAt : List Fate → ℕ → Option (List Fate × LoadFrame × List Fate)
  | [], _ => none
  | .onBus frame :: later, 0 => some ([], frame, later)
  | .onBus frame :: later, k + 1 => (busAt later k).map fun (l, found, r) => (.onBus frame :: l, found, r)
  | fate :: later, k => (busAt later k).map fun (l, found, r) => (fate :: l, found, r)

theorem busAt_eq {ledger l r : List Fate} {frame : LoadFrame} {k : ℕ} (h : busAt ledger k = some (l, frame, r)) :
    ledger = l ++ .onBus frame :: r ∧ (k = 0 → ∀ fate ∈ l, ∀ found, fate ≠ .onBus found) := by
  induction ledger generalizing k l with
  | nil => cases h
  | cons fate later ih =>
    -- Behind the head the search goes on, and what it finds is put behind the head again.
    have hlater : ∀ {j}, (busAt later j).map (fun (l, found, r) => (fate :: l, found, r)) = some (l, frame, r) →
        ∃ l', l = fate :: l' ∧ busAt later j = some (l', frame, r) := by
      intro j hmap
      obtain ⟨⟨l', found, r'⟩, hfound, heq⟩ := Option.map_eq_some_iff.1 hmap
      cases heq
      exact ⟨l', rfl, hfound⟩
    have hother : (∀ found, fate ≠ .onBus found) →
        (busAt later k).map (fun (l, found, r) => (fate :: l, found, r)) = some (l, frame, r) →
        fate :: later = l ++ .onBus frame :: r ∧ (k = 0 → ∀ fate ∈ l, ∀ found, fate ≠ .onBus found) := by
      intro hne hmap
      obtain ⟨l', rfl, hfound⟩ := hlater hmap
      obtain ⟨rfl, hfirst⟩ := ih hfound
      exact ⟨rfl, fun hk => List.forall_mem_cons.2 ⟨hne, hfirst hk⟩⟩
    cases fate with
    | onBus found =>
      cases k with
      | zero =>
        cases h
        exact ⟨rfl, by simp⟩
      | succ k =>
        obtain ⟨l', rfl, hfound⟩ := hlater h
        obtain ⟨rfl, -⟩ := ih hfound
        exact ⟨rfl, fun hk => absurd hk (Nat.succ_ne_zero k)⟩
    | skipped => exact hother (by simp) h
    | failed => exact hother (by simp) h
    | lost => exact hother (by simp) h
    | received => exact hother (by simp) h

/-- A piece of a list is still there after an element outside of it has been replaced. -/
theorem piece_replace {α : Type*} {piece l r : List α} {old : α} (new : α) (hold : old ∉ piece)
    (h : piece <:+: l ++ old :: r) : piece <:+: l ++ new :: r := by
  obtain ⟨before, later, hsplit⟩ := h
  rw [List.append_assoc] at hsplit
  rcases List.append_eq_append_iff.1 hsplit with ⟨c, rfl, hrest⟩ | ⟨c, rfl, hrest⟩
  · rcases List.append_eq_append_iff.1 hrest with ⟨d, rfl, -⟩ | ⟨d, hpiece, hrest⟩
    · exact ⟨before, d ++ new :: r, by simp⟩
    · cases d with
      | nil =>
        obtain rfl : c = piece := by simpa using hpiece.symm
        exact ⟨before, new :: r, by simp⟩
      | cons x d =>
        obtain ⟨rfl, -⟩ := List.cons.inj hrest
        exact absurd (by simp [hpiece]) hold
  · cases c with
    | nil =>
      cases piece with
      | nil => exact ⟨[], l ++ new :: r, rfl⟩
      | cons x piece =>
        obtain ⟨rfl, -⟩ := List.cons.inj hrest
        exact absurd List.mem_cons_self hold
    | cons x c =>
      obtain ⟨rfl, rfl⟩ := List.cons.inj hrest
      exact ⟨l ++ new :: c, later, by simp⟩

theorem Limited.of_append {ledger tail : List Fate} (h : Limited (ledger ++ tail)) : Limited ledger := by
  intro missing hmissing hpiece
  exact h missing hmissing (hpiece.trans (List.prefix_append ledger tail).isInfix)

/-- What is limited once a frame on the bus has met its fate was limited before. -/
theorem Limited.of_replace {l r : List Fate} {frame : LoadFrame} {fate : Fate} (h : Limited (l ++ fate :: r)) :
    Limited (l ++ .onBus frame :: r) := by
  intro missing hmissing hpiece
  have hsettled : Fate.onBus frame ∉ Fate.received :: (missing ++ [.received]) := by
    intro hmem
    rcases List.mem_cons.1 hmem with hfirst | hmem
    · cases hfirst
    · rcases List.mem_append.1 hmem with hinner | hlast
      · exact absurd (hmissing _ hinner) (by simp [Fate.isMissing])
      · simp at hlast
  exact h missing hmissing (piece_replace fate hsettled hpiece)

/-- A ledger that is not longer than half the range is limited. -/
theorem limited_of_length {ledger : List Fate} (h : ledger.length ≤ 2 ^ 31) : Limited ledger := by
  intro missing _ hpiece
  have hlength := hpiece.length_le
  simp only [List.length_cons, List.length_append] at hlength
  omega

/-- The part between the first and the last number received is the piece that starts and ends with them. -/
theorem between_eq {pre span post : List Fate} (hpre : ∀ fate ∈ pre, fate.isReceived = false)
    (hfirst : span.head? = some .received) (hlast : span.getLast? = some .received)
    (hpost : ∀ fate ∈ post, fate.isReceived = false) : between (pre ++ span ++ post) = span := by
  have hdrop : (pre ++ span ++ post).dropWhile (fun fate => !fate.isReceived) = span ++ post := by
    rw [List.append_assoc, List.dropWhile_append_of_pos (by simpa using hpre)]
    obtain ⟨rest, rfl⟩ := List.head?_eq_some_iff.1 hfirst
    rfl
  unfold between
  rw [hdrop, List.rdropWhile, List.reverse_append, List.dropWhile_append_of_pos (by simpa using hpost)]
  obtain ⟨rest, rfl⟩ := List.getLast?_eq_some_iff.1 hlast
  simp [Fate.isReceived]

theorem between_eq_nil {ledger : List Fate} (h : ∀ fate ∈ ledger, fate.isReceived = false) :
    between ledger = [] := by
  unfold between
  rw [List.dropWhile_eq_nil_iff.2 (by simpa using h), List.rdropWhile_nil]

/-! ## The bench -/

structure Bench where
  generator : LoadGenerator
  ledger : List Fate
  probe : BackgroundProbe
  /-- The numbers that the receive callback has read, in their order. -/
  arrived : List UInt32

/-- What a call of the service makes of the numbers it uses: the skipped ones come first. -/
def fates (served : Served) : List Fate :=
  List.replicate served.skipped.toNat .skipped ++
    match served.attempt with
    | none => []
    | some (frame, true) => [.onBus frame]
    | some (_, false) => [.failed]

namespace Bench

inductive Event where
  /-- The main loop of the sender reaches the service. -/
  | service (env : ServiceEnv)
  /-- The bus loses one of the frames on it. -/
  | lose (k : ℕ)
  /-- The oldest frame on the bus reaches the receive callback. -/
  | deliver

def start (build : LoadBuild) : Bench where
  generator := .init build
  ledger := []
  probe := .init
  arrived := []

def step (build : LoadBuild) (bench : Bench) : Event → Bench
  | .service env =>
    let served := bench.generator.service build env
    { bench with generator := served.generator, ledger := bench.ledger ++ fates served }
  | .lose k =>
    match busAt bench.ledger k with
    | none => bench
    | some (l, _, r) => { bench with ledger := l ++ .lost :: r }
  | .deliver =>
    match busAt bench.ledger 0 with
    | none => bench
    | some (l, frame, r) =>
      { bench with
        ledger := l ++ .received :: r
        probe := bench.probe.onFrame (sequenceOf frame)
        arrived := bench.arrived ++ [sequenceOf frame] }

/-- What a step can do: the generator extends the ledger, or one frame on the bus meets its fate. -/
theorem step_cases (build : LoadBuild) (bench : Bench) (event : Event) :
    (∃ env, bench.step build event =
      { bench with
        generator := (bench.generator.service build env).generator
        ledger := bench.ledger ++ fates (bench.generator.service build env) }) ∨
    bench.step build event = bench ∨
    ∃ l frame r, bench.ledger = l ++ .onBus frame :: r ∧
      (bench.step build event = { bench with ledger := l ++ .lost :: r } ∨
      (∀ fate ∈ l, ∀ found, fate ≠ .onBus found) ∧
        bench.step build event =
          { bench with
            ledger := l ++ .received :: r
            probe := bench.probe.onFrame (sequenceOf frame)
            arrived := bench.arrived ++ [sequenceOf frame] }) := by
  cases event with
  | service env => exact Or.inl ⟨env, rfl⟩
  | lose k =>
    right
    cases hbus : busAt bench.ledger k with
    | none => exact Or.inl (by simp only [step, hbus])
    | some found =>
      obtain ⟨l, frame, r⟩ := found
      exact Or.inr ⟨l, frame, r, (busAt_eq hbus).1, Or.inl (by simp only [step, hbus])⟩
  | deliver =>
    right
    cases hbus : busAt bench.ledger 0 with
    | none => exact Or.inl (by simp only [step, hbus])
    | some found =>
      obtain ⟨l, frame, r⟩ := found
      obtain ⟨hledger, hfirst⟩ := busAt_eq hbus
      exact Or.inr ⟨l, frame, r, hledger, Or.inr ⟨hfirst rfl, by simp only [step, hbus]⟩⟩

theorem limited_of_step {build : LoadBuild} {bench : Bench} {event : Event}
    (h : Limited (bench.step build event).ledger) : Limited bench.ledger := by
  obtain ⟨env, hstep⟩ | hstep | ⟨l, frame, r, hledger, hstep | ⟨-, hstep⟩⟩ := step_cases build bench event
  · rw [hstep] at h
    exact h.of_append
  · rwa [hstep] at h
  · rw [hstep] at h
    rw [hledger]
    exact h.of_replace
  · rw [hstep] at h
    rw [hledger]
    exact h.of_replace

end Bench

/-! ## The sender -/

/-- The counters of the sender are counts of ledger entries, and a frame on the bus carries its own number. -/
structure Counted (stats : LoadGeneratorStats) (ledger : List Fate) : Prop where
  sequence : stats.sequence = .ofNat ledger.length
  sent : stats.sent = .ofNat (ledger.countP Fate.isSent)
  txFailures : stats.txFailures = .ofNat (ledger.count .failed)
  missedDeadlines : stats.missedDeadlines = .ofNat (ledger.count .skipped)
  numbered : ∀ i frame, ledger[i]? = some (.onBus frame) → frame = buildFrame (.ofNat i)

namespace Counted

variable {stats : LoadGeneratorStats} {ledger : List Fate}

theorem init (periodUs targetFrames : UInt32) : Counted (.init periodUs targetFrames) [] where
  sequence := rfl
  sent := rfl
  txFailures := rfl
  missedDeadlines := rfl
  numbered i frame h := by simp at h

theorem skip (h : Counted stats ledger) (skipped : UInt32) :
    Counted (stats.recordSkipped skipped) (ledger ++ List.replicate skipped.toNat .skipped) := by
  constructor
  · simp [LoadGeneratorStats.recordSkipped, h.sequence, UInt32.ofNat_add]
  · simp [LoadGeneratorStats.recordSkipped, h.sent, List.countP_replicate, Fate.isSent]
  · simp [LoadGeneratorStats.recordSkipped, h.txFailures, List.count_replicate]
  · simp [LoadGeneratorStats.recordSkipped, h.missedDeadlines, UInt32.ofNat_add]
  · intro i frame hi
    rw [List.getElem?_append] at hi
    split at hi
    · exact h.numbered i frame hi
    · have hmem := List.mem_of_getElem? hi
      simp at hmem

theorem attempt (h : Counted stats ledger) (sent : Bool) :
    Counted (stats.recordAttempt sent)
      (ledger ++ [if sent then .onBus (buildFrame stats.sequence) else .failed]) := by
  obtain ⟨hsequence, hsent, htx, hmissed⟩ := stats.recordAttempt_counts sent
  constructor
  · rw [hsequence, h.sequence]
    simp [UInt32.ofNat_add]
  · rw [hsent, h.sent]
    cases sent <;> simp [Fate.isSent, UInt32.ofNat_add]
  · rw [htx, h.txFailures]
    cases sent <;> simp [UInt32.ofNat_add]
  · rw [hmissed, h.missedDeadlines]
    cases sent <;> simp
  · intro i frame hi
    rw [List.getElem?_append] at hi
    split at hi
    · exact h.numbered i frame hi
    · obtain ⟨hindex, hframe⟩ := List.getElem?_eq_some_iff.1 hi
      have hlast : i = ledger.length := by
        simp only [List.length_singleton] at hindex
        omega
      cases sent with
      | false => simp at hframe
      | true =>
        simp only [List.getElem_singleton, if_true, Fate.onBus.injEq] at hframe
        rw [← hframe, h.sequence, hlast]

/-- A call of the service keeps the count. -/
theorem serve {generator : LoadGenerator} (h : Counted generator.stats ledger) (build : LoadBuild)
    (env : ServiceEnv) :
    Counted (generator.service build env).generator.stats (ledger ++ fates (generator.service build env)) := by
  have hspec := generator.service_stats build env
  generalize generator.service build env = served at hspec ⊢
  have hskip := h.skip served.skipped
  rcases hspec with ⟨hattempt, hstats⟩ | ⟨hattempt, hstats⟩
  · rw [hstats, fates, hattempt, List.append_nil]
    exact hskip
  · have hkept := hskip.attempt env.sent
    rw [hstats, fates, hattempt, ← List.append_assoc]
    cases hsent : env.sent <;> rwa [hsent] at hkept

/-- A frame on the bus that meets its fate stays among the numbers sent. -/
theorem settle {l r : List Fate} {frame : LoadFrame} {fate : Fate} (h : Counted stats (l ++ .onBus frame :: r))
    (hfate : fate = .lost ∨ fate = .received) : Counted stats (l ++ fate :: r) := by
  have hbus : ∀ found, fate ≠ .onBus found := by
    rcases hfate with rfl | rfl <;> simp
  constructor
  · simpa using h.sequence
  · have hsent := h.sent
    rcases hfate with rfl | rfl <;> simpa [List.countP_cons, Fate.isSent] using hsent
  · have htx := h.txFailures
    rcases hfate with rfl | rfl <;> simpa [List.count_cons] using htx
  · have hmissed := h.missedDeadlines
    rcases hfate with rfl | rfl <;> simpa [List.count_cons] using hmissed
  · intro i found hi
    apply h.numbered i found
    rw [List.getElem?_append] at hi ⊢
    split at hi
    · simpa [*] using hi
    · rename_i hge
      rw [if_neg hge]
      cases hpos : i - l.length with
      | zero =>
        rw [hpos, List.getElem?_cons_zero, Option.some.injEq] at hi
        exact absurd hi (hbus found)
      | succ j =>
        rwa [hpos, List.getElem?_cons_succ] at hi

theorem step {bench : Bench} (h : Counted bench.generator.stats bench.ledger) (build : LoadBuild)
    (event : Bench.Event) :
    Counted (bench.step build event).generator.stats (bench.step build event).ledger := by
  obtain ⟨env, hstep⟩ | hstep | ⟨l, frame, r, hledger, hstep | ⟨-, hstep⟩⟩ := bench.step_cases build event
  · rw [hstep]
    exact h.serve build env
  · rwa [hstep]
  · rw [hledger] at h
    rw [hstep]
    exact h.settle (Or.inl rfl)
  · rw [hledger] at h
    rw [hstep]
    exact h.settle (Or.inr rfl)

/-- Each number of the ledger is counted by one counter. -/
theorem sequence_eq (h : Counted stats ledger) :
    stats.sequence = stats.sent + stats.txFailures + stats.missedDeadlines := by
  rw [h.sequence, h.sent, h.txFailures, h.missedDeadlines, length_eq_counts ledger, UInt32.ofNat_add,
    UInt32.ofNat_add]

end Counted

/-! ## The receiver -/

/-- No frame has arrived. -/
structure Silent (bench : Bench) : Prop where
  ledger : ∀ fate ∈ bench.ledger, fate.isReceived = false
  probe : bench.probe = .init
  arrived : bench.arrived = []

/-- `span` is the ledger from the first number received to the last one, and the probe's counters count it. -/
structure Heard (bench : Bench) (pre span post : List Fate) : Prop where
  ledger : bench.ledger = pre ++ span ++ post
  before : ∀ fate ∈ pre, fate.isMissing
  first : span.head? = some .received
  last : span.getLast? = some .received
  within : ∀ fate ∈ span, ∀ frame, fate ≠ .onBus frame
  after : ∀ fate ∈ post, fate.isReceived = false
  initialized : bench.probe.initialized ≠ 0
  received : bench.probe.received = .ofNat (span.count .received)
  gaps : bench.probe.gaps = .ofNat (span.countP Fate.isMissing)
  expected : bench.probe.expected = .ofNat (pre.length + span.length)
  arrived : bench.arrived.head? = some (.ofNat pre.length)

theorem Fate.isMissing_of {fate : Fate} (hbus : ∀ frame, fate ≠ .onBus frame) (hreceived : fate.isReceived = false) :
    fate.isMissing := by
  cases fate with
  | onBus frame => exact absurd rfl (hbus frame)
  | received => cases hreceived
  | skipped => rfl
  | failed => rfl
  | lost => rfl

theorem fates_not_received {served : Served} {fate : Fate} (h : fate ∈ fates served) : fate.isReceived = false := by
  rcases List.mem_append.1 h with hskipped | hattempt
  · rw [List.eq_of_mem_replicate hskipped]
    rfl
  · split at hattempt
    · cases hattempt
    · rw [List.mem_singleton.1 hattempt]
      rfl
    · rw [List.mem_singleton.1 hattempt]
      rfl

/-- A frame on the bus has a number after those that the span ends with. -/
theorem Heard.split {bench : Bench} {pre span post l r : List Fate} {frame : LoadFrame}
    (h : Heard bench pre span post) (hledger : bench.ledger = l ++ .onBus frame :: r) :
    ∃ waiting, l = pre ++ span ++ waiting ∧ post = waiting ++ .onBus frame :: r := by
  have hsettled : ∀ fate ∈ pre ++ span, ∀ found, fate ≠ .onBus found := by
    intro fate hmem found
    rcases List.mem_append.1 hmem with hpre | hspan
    · intro hfate
      have hmissing := h.before fate hpre
      rw [hfate] at hmissing
      cases hmissing
    · exact h.within fate hspan found
  rcases List.append_eq_append_iff.1 (h.ledger.symm.trans hledger) with ⟨c, hl, hpost⟩ | ⟨c, hspan, hbus⟩
  · exact ⟨c, hl, hpost⟩
  · cases c with
    | nil => exact ⟨[], by simpa using hspan.symm, by simpa using hbus.symm⟩
    | cons x c =>
      obtain ⟨rfl, -⟩ := List.cons.inj hbus
      exact absurd rfl (hsettled _ (by simp [hspan]) frame)

/-- The first frame that arrives starts the probe. -/
theorem Silent.deliver {bench : Bench} {l r : List Fate} {frame : LoadFrame} (h : Silent bench)
    (hcounted : Counted bench.generator.stats bench.ledger) (hledger : bench.ledger = l ++ .onBus frame :: r)
    (hl : ∀ fate ∈ l, ∀ found, fate ≠ .onBus found) :
    Heard
      { bench with
        ledger := l ++ .received :: r
        probe := bench.probe.onFrame (sequenceOf frame)
        arrived := bench.arrived ++ [sequenceOf frame] } l [.received] r := by
  have hnumber : sequenceOf frame = .ofNat l.length := by
    rw [hcounted.numbered l.length frame (by simp [hledger]), sequenceOf_buildFrame]
  have hquiet := h.ledger
  rw [hledger] at hquiet
  have hfirst : bench.probe.initialized = 0 := by
    rw [h.probe]
    rfl
  rw [BackgroundProbe.onFrame_first hfirst, hnumber]
  constructor
  · simp
  · exact fun fate hmem => Fate.isMissing_of (hl fate hmem) (hquiet fate (by simp [hmem]))
  · rfl
  · rfl
  · simp
  · exact fun fate hmem => hquiet fate (by simp [hmem])
  · simp
  · simp
  · simp [h.probe, BackgroundProbe.init, Fate.isMissing]
  · simp [UInt32.ofNat_add]
  · simp [h.arrived]

/-- A later frame closes the gap since the last one. -/
theorem Heard.deliver {bench : Bench} {pre span post l r : List Fate} {frame : LoadFrame}
    (h : Heard bench pre span post) (hcounted : Counted bench.generator.stats bench.ledger)
    (hledger : bench.ledger = l ++ .onBus frame :: r) (hl : ∀ fate ∈ l, ∀ found, fate ≠ .onBus found)
    (hlimited : Limited (l ++ .received :: r)) :
    ∃ waiting, Heard
      { bench with
        ledger := l ++ .received :: r
        probe := bench.probe.onFrame (sequenceOf frame)
        arrived := bench.arrived ++ [sequenceOf frame] } pre (span ++ waiting ++ [.received]) r := by
  obtain ⟨waiting, rfl, rfl⟩ := h.split hledger
  have hnumber : sequenceOf frame = .ofNat (pre.length + span.length + waiting.length) := by
    rw [hcounted.numbered (pre ++ span ++ waiting).length frame (by simp [hledger]), sequenceOf_buildFrame,
      List.length_append, List.length_append]
  have hmissing : ∀ fate ∈ waiting, fate.isMissing := by
    intro fate hmem
    exact Fate.isMissing_of (hl fate (by simp [hmem])) (h.after fate (by simp [hmem]))
  have hshort : waiting.length < 2 ^ 31 := by
    apply hlimited waiting hmissing
    obtain ⟨front, hfront⟩ := List.getLast?_eq_some_iff.1 h.last
    exact ⟨pre ++ front, r, by simp [hfront]⟩
  have hdelta : sequenceOf frame - bench.probe.expected = .ofNat waiting.length := by
    rw [hnumber, h.expected, UInt32.ofNat_add, UInt32.add_comm, UInt32.add_sub_cancel]
  have hahead : sequenceOf frame - bench.probe.expected < 0x80000000 := by
    rw [hdelta, UInt32.lt_iff_toNat_lt, UInt32.toNat_ofNat_of_lt' (by rw [UInt32.size]; omega)]
    exact hshort
  refine ⟨waiting, ?_⟩
  rw [BackgroundProbe.onFrame_ahead h.initialized hahead, hdelta, hnumber]
  have hnone : waiting.count .received = 0 := by
    rw [List.count_eq_zero]
    intro hmem
    cases hmissing _ hmem
  have hall : waiting.countP Fate.isMissing = waiting.length := List.countP_eq_length.2 hmissing
  constructor
  · simp
  · exact h.before
  · obtain ⟨rest, hrest⟩ := List.head?_eq_some_iff.1 h.first
    simp [hrest]
  · simp
  · intro fate hmem
    rcases List.mem_append.1 hmem with hinner | hlast
    · rcases List.mem_append.1 hinner with hspan | hwaiting
      · exact h.within fate hspan
      · exact hl fate (by simp [hwaiting])
    · rw [List.mem_singleton.1 hlast]
      simp
  · exact fun fate hmem => h.after fate (by simp [hmem])
  · exact h.initialized
  · simp [h.received, hnone, UInt32.ofNat_add]
  · simp [h.gaps, hall, Fate.isMissing, UInt32.ofNat_add]
  · simp [UInt32.ofNat_add, UInt32.add_assoc]
  · rw [List.head?_append, h.arrived]
    rfl

/-- Either no frame has arrived, or the probe's counters count the ledger's span. -/
def Audited (bench : Bench) : Prop := Silent bench ∨ ∃ pre span post, Heard bench pre span post

/-- The generator extends the ledger past the last number received. -/
theorem Audited.serve {bench : Bench} (h : Audited bench) (generator : LoadGenerator) (served : Served) :
    Audited { bench with generator := generator, ledger := bench.ledger ++ fates served } := by
  rcases h with hsilent | ⟨pre, span, post, hheard⟩
  · refine Or.inl ⟨fun fate hmem => ?_, hsilent.probe, hsilent.arrived⟩
    rcases List.mem_append.1 hmem with hold | hnew
    · exact hsilent.ledger fate hold
    · exact fates_not_received hnew
  · refine Or.inr ⟨pre, span, post ++ fates served, { hheard with ledger := ?_, after := ?_ }⟩
    · simp [hheard.ledger]
    · intro fate hmem
      rcases List.mem_append.1 hmem with hold | hnew
      · exact hheard.after fate hold
      · exact fates_not_received hnew

/-- A frame is lost after the last number received, or before the first frame arrives. -/
theorem Audited.lose {bench : Bench} {l r : List Fate} {frame : LoadFrame} (h : Audited bench)
    (hledger : bench.ledger = l ++ .onBus frame :: r) : Audited { bench with ledger := l ++ .lost :: r } := by
  rcases h with hsilent | ⟨pre, span, post, hheard⟩
  · have hquiet := hsilent.ledger
    rw [hledger] at hquiet
    refine Or.inl ⟨?_, hsilent.probe, hsilent.arrived⟩
    simpa [Fate.isReceived, List.forall_mem_append, or_imp, forall_and] using hquiet
  · obtain ⟨waiting, rfl, rfl⟩ := hheard.split hledger
    refine Or.inr ⟨pre, span, waiting ++ .lost :: r, { hheard with ledger := ?_, after := ?_ }⟩
    · simp
    · have hafter := hheard.after
      simpa [Fate.isReceived, List.forall_mem_append, or_imp, forall_and] using hafter

theorem Audited.step {bench : Bench} {build : LoadBuild} {event : Bench.Event} (h : Audited bench)
    (hcounted : Counted bench.generator.stats bench.ledger) (hlimited : Limited (bench.step build event).ledger) :
    Audited (bench.step build event) := by
  obtain ⟨env, hstep⟩ | hstep | ⟨l, frame, r, hledger, hstep | ⟨hl, hstep⟩⟩ := bench.step_cases build event
  · rw [hstep]
    exact h.serve _ _
  · rwa [hstep]
  · rw [hstep]
    exact h.lose hledger
  · rw [hstep] at hlimited ⊢
    rcases h with hsilent | ⟨pre, span, post, hheard⟩
    · exact Or.inr ⟨l, [.received], r, hsilent.deliver hcounted hledger hl⟩
    · obtain ⟨waiting, hnext⟩ := hheard.deliver hcounted hledger hl hlimited
      exact Or.inr ⟨pre, span ++ waiting ++ [.received], r, hnext⟩

/-- What the probe has counted, of an audited ledger. -/
theorem Audited.gaps_eq {bench : Bench} (h : Audited bench) :
    bench.probe.gaps = .ofNat ((between bench.ledger).countP Fate.isMissing) := by
  rcases h with hsilent | ⟨pre, span, post, hheard⟩
  · rw [hsilent.probe, between_eq_nil hsilent.ledger]
    rfl
  · have hpre : ∀ fate ∈ pre, fate.isReceived = false := by
      intro fate hmem
      have hmissing := hheard.before fate hmem
      cases fate <;> first | rfl | cases hmissing
    rw [hheard.gaps, hheard.ledger, between_eq hpre hheard.first hheard.last hheard.after]

theorem Audited.received_add_gaps {bench : Bench} (h : Audited bench) {first : UInt32}
    (hfirst : first ∈ bench.arrived.head?) :
    bench.probe.received + bench.probe.gaps = bench.probe.expected - first := by
  rcases h with hsilent | ⟨pre, span, post, hheard⟩
  · rw [hsilent.arrived] at hfirst
    cases hfirst
  · obtain rfl := Option.some.inj (hheard.arrived.symm.trans hfirst)
    have hlength := length_eq_received_add_missing hheard.within
    rw [hheard.received, hheard.gaps, hheard.expected, ← UInt32.ofNat_add, ← hlength, UInt32.ofNat_add,
      UInt32.add_comm, UInt32.add_sub_cancel]

/-! ## The account of a run -/

/-- Both sides of the bench keep their accounts along a run. -/
theorem run_audited (build : LoadBuild) (events : List Bench.Event) :
    let bench := after (Bench.step build) (Bench.start build) events
    Counted bench.generator.stats bench.ledger ∧ (Limited bench.ledger → Audited bench) := by
  apply after_invariant (I := fun bench : Bench =>
    Counted bench.generator.stats bench.ledger ∧ (Limited bench.ledger → Audited bench))
  · exact ⟨.init _ _, fun _ => Or.inl ⟨by simp [Bench.start], rfl, rfl⟩⟩
  · rintro bench event ⟨hcounted, haudited⟩
    refine ⟨hcounted.step build event, fun hlimited => ?_⟩
    exact (haudited (Bench.limited_of_step hlimited)).step hcounted hlimited

/-- Loss accounting from the generator to the probe. A frame on the bus carries the index of its entry; every
number is counted once by the sender; the probe's gaps are the missing entries between the first and the last
one received. As for the order of frames, a frame counts as old exactly if it is behind the expected number by
at most half the range, which are the repeated and the older ones as long as the numbers keep together. -/
theorem loss_accounted (build : LoadBuild) (events : List Bench.Event)
    (hlimited : Limited (after (Bench.step build) (Bench.start build) events).ledger) :
    let bench := after (Bench.step build) (Bench.start build) events
    let stats := bench.generator.stats
    (∀ i frame, bench.ledger[i]? = some (.onBus frame) → sequenceOf frame = .ofNat i) ∧
    stats.sequence = stats.sent + stats.txFailures + stats.missedDeadlines ∧
    bench.probe.gaps = .ofNat ((between bench.ledger).countP Fate.isMissing) ∧
    (∀ first ∈ bench.arrived.head?,
      bench.probe.received + bench.probe.gaps = bench.probe.expected - first) ∧
    (∀ (probe : BackgroundProbe) (sequence : UInt32), probe.initialized ≠ 0 →
      (probe.CountsAsOld sequence ↔ 0x80000000 ≤ sequence - probe.expected)) ∧
    ∀ (numbers : List ℕ) (number : ℕ), BackgroundProbe.Near (numbers ++ [number]) → numbers ≠ [] →
      ((BackgroundProbe.feed (numbers.map .ofNat)).CountsAsOld (.ofNat number) ↔
        number ≤ BackgroundProbe.newest numbers) := by
  obtain ⟨hcounted, haudited⟩ := run_audited build events
  have haudit := haudited hlimited
  refine ⟨fun i frame hi => ?_, hcounted.sequence_eq, haudit.gaps_eq, fun first => haudit.received_add_gaps,
    fun probe sequence => BackgroundProbe.onFrame_old_iff, fun numbers number =>
      BackgroundProbe.old_iff_le_newest⟩
  rw [hcounted.numbered i frame hi, sequenceOf_buildFrame]

/-- The second of six numbers is lost, the driver refuses the third and the service comes too late for the next
two: the probe hears 0 and 5 and counts four gaps. -/
def lossyRun : List Bench.Event :=
  [.service ⟨true, 100, 100, 3, true⟩, .deliver, .service ⟨true, 0, 72100, 3, true⟩, .lose 0,
    .service ⟨true, 0, 144100, 3, false⟩, .service ⟨true, 0, 366100, 3, true⟩, .deliver]

theorem loss_accounted_lossyRun :
    let bench := after (Bench.step ⟨72000000, 1000, 0⟩) (Bench.start ⟨72000000, 1000, 0⟩) lossyRun
    bench.arrived = [0, 5] ∧ bench.probe.gaps = 4 ∧
      bench.probe.gaps = .ofNat ((between bench.ledger).countP Fate.isMissing) ∧
      bench.probe.received + bench.probe.gaps = bench.probe.expected - 0 := by
  have haccount := loss_accounted ⟨72000000, 1000, 0⟩ lossyRun (limited_of_length (by decide))
  exact ⟨by decide, by decide, haccount.2.2.1, haccount.2.2.2.1 0 (by decide)⟩

end DualCan.Can
