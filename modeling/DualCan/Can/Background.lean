import Mathlib.Algebra.GroupWithZero.Nat
import Mathlib.Data.List.DropRight
import Mathlib.Data.List.Induction
import Mathlib.Tactic.Common

/-!
# The background load and its probe

`load_generator.c` with `APP_ServiceLoadGenerator` of `main.c`, which numbers the frames it sends, and
`background_probe.c`, which counts the numbers that arrive. Numbers are 32-bit words: a number counts as new
up to half the range ahead of the expected one, and as old up to half the range behind it (`onFrame_old_iff`).
-/

namespace DualCan.Can

/-! ## The probe -/

/-- `BackgroundProbeStats_t`, all of `BackgroundProbe_t`. -/
structure BackgroundProbe where
  received : UInt32
  gaps : UInt32
  outOfOrder : UInt32
  expected : UInt32
  lastSequence : UInt32
  initialized : UInt32
  deriving DecidableEq, Repr

namespace BackgroundProbe

/-- `BackgroundProbe_Init`. -/
def init : BackgroundProbe where
  received := 0
  gaps := 0
  outOfOrder := 0
  expected := 0
  lastSequence := 0
  initialized := 0

/-- `BackgroundProbe_OnFrame`. -/
def onFrame (probe : BackgroundProbe) (sequence : UInt32) : BackgroundProbe :=
  if probe.initialized = 0 then
    { probe with initialized := 1, received := 1, expected := sequence + 1, lastSequence := sequence }
  else
    let probe := { probe with lastSequence := sequence }
    let delta := sequence - probe.expected
    if delta = 0 then { probe with received := probe.received + 1, expected := sequence + 1 }
    else if delta < 0x80000000 then
      { probe with gaps := probe.gaps + delta, received := probe.received + 1, expected := sequence + 1 }
    else { probe with outOfOrder := probe.outOfOrder + 1 }

/-- The probe after a list of frames, in their order of arrival. -/
def feed (sequences : List UInt32) : BackgroundProbe := sequences.foldl onFrame init

/-- The frame changes the count of frames out of order and the last number, and nothing else. -/
def CountsAsOld (probe : BackgroundProbe) (sequence : UInt32) : Prop :=
  probe.onFrame sequence = { probe with outOfOrder := probe.outOfOrder + 1, lastSequence := sequence }

end BackgroundProbe

namespace BackgroundProbe

theorem onFrame_first {probe : BackgroundProbe} (h : probe.initialized = 0) (sequence : UInt32) :
    probe.onFrame sequence =
      { probe with initialized := 1, received := 1, expected := sequence + 1, lastSequence := sequence } := by
  unfold onFrame
  rw [if_pos h]

variable {probe : BackgroundProbe} {sequence : UInt32} (h : probe.initialized ≠ 0)

include h in
/-- A frame up to half the range ahead is new, and what it skips is a gap. -/
theorem onFrame_ahead (hahead : sequence - probe.expected < 0x80000000) :
    probe.onFrame sequence =
      { probe with
        received := probe.received + 1
        gaps := probe.gaps + (sequence - probe.expected)
        expected := sequence + 1
        lastSequence := sequence } := by
  unfold onFrame
  rw [if_neg h]
  by_cases hnext : sequence - probe.expected = 0
  · simp only [hnext, if_true, UInt32.add_zero]
  · simp only [if_neg hnext, if_pos hahead]

include h in
theorem onFrame_behind (hbehind : 0x80000000 ≤ sequence - probe.expected) : probe.CountsAsOld sequence := by
  have hnext : sequence - probe.expected ≠ 0 := by
    intro hzero
    rw [hzero] at hbehind
    exact absurd hbehind (by decide)
  unfold CountsAsOld onFrame
  simp only [if_neg h, if_neg hnext, if_neg (UInt32.not_lt.2 hbehind)]

include h in
/-- Once the probe has started, old is what is behind the expected number by at most half the range. -/
theorem onFrame_old_iff : probe.CountsAsOld sequence ↔ 0x80000000 ≤ sequence - probe.expected := by
  constructor
  · intro hold
    by_contra hahead
    unfold CountsAsOld at hold
    rw [onFrame_ahead h (UInt32.not_le.1 hahead)] at hold
    have hreceived := congrArg BackgroundProbe.received hold
    simp only [UInt32.add_eq_left] at hreceived
    exact absurd hreceived (by decide)
  · exact onFrame_behind h

/-! The frames of one sender in any order of arrival, under their true numbers, which do not wrap. -/

/-- The newest of the numbers that have arrived. -/
def newest (numbers : List ℕ) : ℕ := numbers.foldl max 0

/-- Each frame but the first is at most half the range ahead of the newest one before it, or less than half the
range behind it. -/
def Near (numbers : List ℕ) : Prop :=
  ∀ earlier number later, numbers = earlier ++ number :: later → earlier ≠ [] →
    number ≤ newest earlier + 2 ^ 31 ∧ newest earlier < number + 2 ^ 31

theorem newest_snoc (numbers : List ℕ) (number : ℕ) :
    newest (numbers ++ [number]) = max (newest numbers) number := by
  simp [newest]

theorem Near.of_snoc {numbers : List ℕ} {number : ℕ} (h : Near (numbers ++ [number])) : Near numbers := by
  intro earlier middle later hsplit
  exact h earlier middle (later ++ [number]) (by simp [hsplit])

/-- Within half the range the words are ordered as the numbers are. -/
theorem behind_iff {number top : ℕ} (hahead : number ≤ top + 2 ^ 31) (hbehind : top < number + 2 ^ 31) :
    (0x80000000 : UInt32) ≤ .ofNat number - .ofNat (top + 1) ↔ number ≤ top := by
  simp only [UInt32.le_iff_toNat_le, UInt32.toNat_sub, UInt32.toNat_ofNat', UInt32.reduceToNat]
  omega

theorem feed_snoc (sequences : List UInt32) : feed (sequences ++ [sequence]) = (feed sequences).onFrame sequence := by
  simp [feed]

/-- The probe waits for the number after the newest one. -/
theorem feed_expected {numbers : List ℕ} (hnear : Near numbers) (hne : numbers ≠ []) :
    (feed (numbers.map .ofNat)).initialized = 1 ∧
      (feed (numbers.map .ofNat)).expected = .ofNat (newest numbers + 1) := by
  induction numbers using List.reverseRecOn with
  | nil => exact absurd rfl hne
  | append_singleton numbers number ih =>
    rw [List.map_append, List.map_singleton, feed_snoc, newest_snoc]
    by_cases hfirst : numbers = []
    · subst hfirst
      simp [feed, newest, onFrame, init, UInt32.ofNat_add]
    · obtain ⟨hstarted, hexpected⟩ := ih hnear.of_snoc hfirst
      obtain ⟨hahead, hbehind⟩ := hnear numbers number [] rfl hfirst
      have hinit : (feed (numbers.map .ofNat)).initialized ≠ 0 := by
        rw [hstarted]
        decide
      have hiff := behind_iff hahead hbehind
      rw [← hexpected] at hiff
      by_cases hold : number ≤ newest numbers
      · rw [onFrame_behind hinit (hiff.2 hold), Nat.max_eq_left hold]
        exact ⟨hstarted, hexpected⟩
      · rw [onFrame_ahead hinit (UInt32.not_le.1 (mt hiff.1 hold)), Nat.max_eq_right (by omega), UInt32.ofNat_add]
        exact ⟨hstarted, rfl⟩

/-- Of numbers that stay within half the range, exactly the repeated and the older ones count as old. -/
theorem old_iff_le_newest {numbers : List ℕ} {number : ℕ} (hnear : Near (numbers ++ [number]))
    (hne : numbers ≠ []) :
    (feed (numbers.map .ofNat)).CountsAsOld (.ofNat number) ↔ number ≤ newest numbers := by
  obtain ⟨hstarted, hexpected⟩ := feed_expected hnear.of_snoc hne
  obtain ⟨hahead, hbehind⟩ := hnear numbers number [] rfl hne
  rw [onFrame_old_iff (by rw [hstarted]; decide), hexpected]
  exact behind_iff hahead hbehind

/-- A repeated number counts as new once the newest one is 2^31 ahead of it, with 2^31 - 1 numbers missing. -/
theorem repeated_after_half_range :
    ¬∀ (numbers : List ℕ) (number : ℕ), (∃ arrived ∈ numbers, number ≤ arrived) →
      (feed (numbers.map .ofNat)).CountsAsOld (.ofNat number) := by
  intro h
  have hold := h [0, 2 ^ 31] 0 ⟨0, by simp, le_rfl⟩
  have hreceived := congrArg BackgroundProbe.received hold
  exact absurd hreceived (by decide)

end BackgroundProbe

/-! ## The load generator -/

/-- `LoadGeneratorStats_t`. -/
structure LoadGeneratorStats where
  periodUs : UInt32
  targetFrames : UInt32
  sequence : UInt32
  sent : UInt32
  txFailures : UInt32
  missedDeadlines : UInt32
  completed : UInt32
  deriving DecidableEq, Repr

/-- The payload of a load frame. -/
abbrev LoadFrame := Vector UInt8 8

namespace LoadGeneratorStats

/-- `LoadGenerator_Init`. -/
def init (periodUs targetFrames : UInt32) : LoadGeneratorStats where
  periodUs := periodUs
  targetFrames := targetFrames
  sequence := 0
  sent := 0
  txFailures := 0
  missedDeadlines := 0
  completed := 0

/-- `LoadGenerator_RecordAttempt`. -/
def recordAttempt (stats : LoadGeneratorStats) (sent : Bool) : LoadGeneratorStats :=
  let stats := { stats with sequence := stats.sequence + 1 }
  if sent then
    let stats := { stats with sent := stats.sent + 1 }
    if stats.targetFrames ≠ 0 ∧ stats.sent ≥ stats.targetFrames then { stats with completed := 1 } else stats
  else { stats with txFailures := stats.txFailures + 1 }

/-- `LoadGenerator_RecordSkipped`. -/
def recordSkipped (stats : LoadGeneratorStats) (skipped : UInt32) : LoadGeneratorStats :=
  { stats with
    missedDeadlines := stats.missedDeadlines + skipped
    sequence := stats.sequence + skipped }

theorem recordSkipped_zero (stats : LoadGeneratorStats) : stats.recordSkipped 0 = stats := by
  simp [recordSkipped]

/-- An attempt uses one number, and one counter counts it. -/
theorem recordAttempt_counts (stats : LoadGeneratorStats) (sent : Bool) :
    (stats.recordAttempt sent).sequence = stats.sequence + 1 ∧
    (stats.recordAttempt sent).sent = stats.sent + (if sent then 1 else 0) ∧
    (stats.recordAttempt sent).txFailures = stats.txFailures + (if sent then 0 else 1) ∧
    (stats.recordAttempt sent).missedDeadlines = stats.missedDeadlines := by
  cases sent with
  | false => simp [recordAttempt]
  | true =>
    unfold recordAttempt
    dsimp only
    split_ifs <;> simp

end LoadGeneratorStats

/-- `LoadGenerator_BuildFrame`. -/
def buildFrame (sequence : UInt32) : LoadFrame :=
  #v[(sequence >>> 24).toUInt8, (sequence >>> 16).toUInt8, (sequence >>> 8).toUInt8, sequence.toUInt8,
    0x55, 0x55, 0x55, 0x55]

/-- The number that the receive callback reads from a load frame. -/
def sequenceOf (data : LoadFrame) : UInt32 :=
  ((data.get 0).toUInt32 <<< 24) ||| ((data.get 1).toUInt32 <<< 16) ||| ((data.get 2).toUInt32 <<< 8) |||
    (data.get 3).toUInt32

/-- The constants of a build: the clock and `APP_LOAD_PERIOD_US`, `APP_LOAD_TARGET_FRAMES`. -/
structure LoadBuild where
  systemCoreClock : UInt32
  loadPeriodUs : UInt32
  loadTargetFrames : UInt32

/-- `g_load_generator` and the static variables of `APP_ServiceLoadGenerator`. -/
structure LoadGenerator where
  stats : LoadGeneratorStats
  initialized : Bool
  nextSend : UInt32

/-- What a call of the service finds: the go flag (set, in a build without the frame-loss bench), the cycle
counter at its start and then, the free mailboxes, and whether the driver takes the frame. -/
structure ServiceEnv where
  goSeen : Bool
  start : UInt32
  now : UInt32
  freeLevel : UInt32
  sent : Bool

/-- What a call of the service leaves: the numbers it skipped, and the frame it gave to the driver with the
driver's answer. -/
structure Served where
  generator : LoadGenerator
  skipped : UInt32
  attempt : Option (LoadFrame × Bool)

namespace LoadGenerator

/-- The generator after the initialisation of `main`. -/
def init (build : LoadBuild) : LoadGenerator where
  stats := .init build.loadPeriodUs build.loadTargetFrames
  initialized := false
  nextSend := 0

def periodCycles (build : LoadBuild) : UInt32 := build.loadPeriodUs * (build.systemCoreClock / 1000000)

/-- `APP_ServiceLoadGenerator`. A division by a period of 0 gives 0, as the processor's does. -/
def service (build : LoadBuild) (generator : LoadGenerator) (env : ServiceEnv) : Served :=
  if generator.stats.targetFrames ≠ 0 ∧ generator.stats.completed ≠ 0 then ⟨generator, 0, none⟩
  else if env.goSeen = false then ⟨generator, 0, none⟩
  else
    let generator :=
      if generator.initialized then generator
      else { generator with nextSend := env.start, initialized := true }
    if (env.now - generator.nextSend).toInt32 < 0 then ⟨generator, 0, none⟩
    else
      let late := env.now - generator.nextSend
      let skipped := if late ≥ periodCycles build then late / periodCycles build else 0
      let generator :=
        { generator with
          stats := generator.stats.recordSkipped skipped
          nextSend := generator.nextSend + skipped * periodCycles build }
      if env.freeLevel < 3 then ⟨generator, skipped, none⟩
      else
        ⟨{ generator with
            stats := generator.stats.recordAttempt env.sent
            nextSend := generator.nextSend + periodCycles build }, skipped,
          some (buildFrame generator.stats.sequence, env.sent)⟩

/-- The spec of a call: what the counters record is what the call reports, and a frame carries the number
that the counters have reached. -/
theorem service_stats (build : LoadBuild) (generator : LoadGenerator) (env : ServiceEnv) :
    let served := generator.service build env
    let counted := generator.stats.recordSkipped served.skipped
    (served.attempt = none ∧ served.generator.stats = counted) ∨
    (served.attempt = some (buildFrame counted.sequence, env.sent) ∧
      served.generator.stats = counted.recordAttempt env.sent) := by
  have hidle := generator.stats.recordSkipped_zero.symm
  unfold service
  by_cases hdone : generator.stats.targetFrames ≠ 0 ∧ generator.stats.completed ≠ 0
  · simp only [if_pos hdone]
    exact Or.inl ⟨trivial, hidle⟩
  by_cases hgo : env.goSeen = false
  · simp only [if_neg hdone, if_pos hgo]
    exact Or.inl ⟨trivial, hidle⟩
  simp only [if_neg hdone, if_neg hgo]
  generalize hstarted : (if generator.initialized then generator
    else { generator with nextSend := env.start, initialized := true }) = started
  have hstats : started.stats = generator.stats := by
    rw [← hstarted]
    split <;> rfl
  by_cases hearly : (env.now - started.nextSend).toInt32 < 0
  · simp only [if_pos hearly, hstats]
    exact Or.inl ⟨trivial, hidle⟩
  by_cases hfree : env.freeLevel < 3
  · simp only [if_neg hearly, if_pos hfree, hstats]
    exact Or.inl ⟨trivial, trivial⟩
  · simp only [if_neg hearly, if_neg hfree, hstats]
    exact Or.inr ⟨trivial, trivial⟩

end LoadGenerator

/-! ## Numbers on the wire -/

/-- A numbered frame, the reading of the cycle counter it was built at, and whether the driver took it. -/
structure TimedFrame where
  time : ℕ
  data : LoadFrame
  taken : Bool
  deriving DecidableEq, Repr

/-- The times of the frames, with the numbers that a receiver reads from them. -/
def uses (frames : List TimedFrame) : List (ℕ × UInt32) := frames.map fun f => (f.time, sequenceOf f.data)

theorem sequenceOf_buildFrame (sequence : UInt32) : sequenceOf (buildFrame sequence) = sequence := by
  change ((sequence >>> 24).toUInt8.toUInt32 <<< 24) ||| ((sequence >>> 16).toUInt8.toUInt32 <<< 16) |||
    ((sequence >>> 8).toUInt8.toUInt32 <<< 8) ||| sequence.toUInt8.toUInt32 = sequence
  apply UInt32.toNat_inj.1
  have hlt := sequence.toNat_lt
  simp only [UInt32.toNat_or, UInt32.toNat_shiftLeft, UInt8.toNat_toUInt32, UInt32.toNat_toUInt8,
    UInt32.toNat_shiftRight, UInt32.reduceToNat, Nat.reduceMod, Nat.shiftRight_eq_div_pow, Nat.or_assoc]
  generalize sequence.toNat = n at hlt
  have hmod : ∀ k byte, byte < 256 → k ≤ 24 → byte <<< k % 2 ^ 32 = byte <<< k := by
    intro k byte hbyte hk
    rw [Nat.shiftLeft_eq]
    apply Nat.mod_eq_of_lt
    calc byte * 2 ^ k ≤ byte * 2 ^ 24 := Nat.mul_le_mul_left _ (Nat.pow_le_pow_right (by omega) hk)
      _ < 2 ^ 32 := by omega
  rw [hmod 24 _ (by omega) (by omega), hmod 16 _ (by omega) (by omega), hmod 8 _ (by omega) (by omega)]
  -- Each byte stands above the number that the bytes after it spell.
  have hlow : (n / 2 ^ 8 % 2 ^ 8) <<< 8 ||| n % 2 ^ 8 = n % 2 ^ 16 := by
    rw [← Nat.shiftLeft_add_eq_or_of_lt (by omega), Nat.shiftLeft_eq]
    omega
  have hmiddle : (n / 2 ^ 16 % 2 ^ 8) <<< 16 ||| n % 2 ^ 16 = n % 2 ^ 24 := by
    rw [← Nat.shiftLeft_add_eq_or_of_lt (by omega), Nat.shiftLeft_eq]
    omega
  rw [hlow, hmiddle, ← Nat.shiftLeft_add_eq_or_of_lt (by omega), Nat.shiftLeft_eq]
  omega

theorem uses_snoc (frames : List TimedFrame) (time : ℕ) (sequence : UInt32) (taken : Bool) :
    uses (frames ++ [⟨time, buildFrame sequence, taken⟩]) = uses frames ++ [(time, sequence)] := by
  rw [uses, List.map_append, List.map_singleton, sequenceOf_buildFrame]
  rfl

end DualCan.Can
