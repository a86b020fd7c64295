import DualCan.Run.Past

/-!
# The trace summary

`summarize_frames` of `tools/trace.py`. Its tables are keyed by the arbitration number alone, so what it
reports for an identifier, a number together with its format, does not depend on frames of other numbers
(`view_filter`) and does depend on those of the same number in the other format (`independent_iff`).

Timestamps are of any type with the operations that the code uses; nothing is assumed of them, so the results
hold of floating-point numbers too.
-/

namespace DualCan.Tools

open DualCan.Run

/-! ## Data -/

/-- `RawFrame`. -/
structure RawFrame (τ : Type) where
  timestamp : τ
  arbitrationId : ℕ
  dlc : ℕ
  data : List UInt8
  isExtendedId : Bool
  deriving DecidableEq

structure TraceFrame (τ : Type) extends RawFrame τ where
  gapMs : Option τ
  deriving DecidableEq

structure IdStats (τ : Type) where
  arbitrationId : ℕ
  frames : ℕ
  firstTime : Option τ
  lastTime : Option τ
  gaps : ℕ
  gapSumMs : τ
  minGapMs : Option τ
  maxGapMs : Option τ
  deriving DecidableEq

structure TraceResult (τ : Type) where
  windowS : τ
  frames : List (TraceFrame τ)
  stats : ℕ → Option (IdStats τ)

/-- An identifier: the number and the format. -/
structure Identifier where
  number : ℕ
  extended : Bool
  deriving DecidableEq, Repr

def RawFrame.identifier {τ : Type} (frame : RawFrame τ) : Identifier := ⟨frame.arbitrationId, frame.isExtendedId⟩

section Summary

variable {τ : Type} [Add τ] [Sub τ] [Mul τ] [OfNat τ 0] [OfNat τ 1000] [LT τ] [DecidableLT τ]

/-! ## `summarize_frames` -/

/-- Python's `min(a, b)`. -/
def pyMin (a b : τ) : τ := if b < a then b else a

/-- Python's `max(a, b)`. -/
def pyMax (a b : τ) : τ := if a < b then b else a

def IdStats.new (arbitrationId : ℕ) : IdStats τ where
  arbitrationId := arbitrationId
  frames := 0
  firstTime := none
  lastTime := none
  gaps := 0
  gapSumMs := 0
  minGapMs := none
  maxGapMs := none

/-- The statistics with one more frame. -/
def IdStats.record (stat : IdStats τ) (timestamp : τ) (gapMs : Option τ) : IdStats τ :=
  let stat : IdStats τ :=
    { stat with
      frames := stat.frames + 1
      firstTime := some (stat.firstTime.getD timestamp)
      lastTime := some timestamp }
  match gapMs with
  | none => stat
  | some gap =>
    { stat with
      gaps := stat.gaps + 1
      gapSumMs := stat.gapSumMs + gap
      minGapMs := some (match stat.minGapMs with | none => gap | some least => pyMin least gap)
      maxGapMs := some (match stat.maxGapMs with | none => gap | some greatest => pyMax greatest gap) }

/-- The loop's variables: `last_seen` and the result so far. -/
structure Summary (τ : Type) where
  lastSeen : ℕ → Option τ
  frames : List (TraceFrame τ)
  stats : ℕ → Option (IdStats τ)

def Summary.empty : Summary τ := ⟨fun _ => none, [], fun _ => none⟩

/-- The gap before a frame that follows one of its number at `previous`. -/
def gapAfter (previous : Option τ) (timestamp : τ) : Option τ :=
  previous.map fun previous => (timestamp - previous) * 1000

/-- A turn of the loop. -/
def Summary.add (summary : Summary τ) (frame : RawFrame τ) : Summary τ :=
  let gapMs := gapAfter (summary.lastSeen frame.arbitrationId) frame.timestamp
  let stat := (summary.stats frame.arbitrationId).getD (.new frame.arbitrationId)
  { lastSeen := Function.update summary.lastSeen frame.arbitrationId (some frame.timestamp)
    frames := summary.frames ++ [{ frame with gapMs := gapMs }]
    stats := Function.update summary.stats frame.arbitrationId (some (stat.record frame.timestamp gapMs)) }

def summarizeFrames (rawFrames : List (RawFrame τ)) (windowS : τ) : TraceResult τ :=
  let summary := after Summary.add .empty rawFrames
  { windowS := windowS, frames := summary.frames, stats := summary.stats }

/-! ## What is reported for an identifier -/

/-- The frames of an identifier, with their gaps. -/
def TraceResult.framesOf (result : TraceResult τ) (id : Identifier) : List (TraceFrame τ) :=
  result.frames.filter fun frame => frame.identifier = id

/-- The sub-list of an identifier's frames. -/
def only (id : Identifier) (rawFrames : List (RawFrame τ)) : List (RawFrame τ) :=
  rawFrames.filter fun frame => frame.identifier = id

/-- The reports for an identifier in two traces are the same. -/
def SameReports (id : Identifier) (result result' : TraceResult τ) : Prop :=
  result.stats id.number = result'.stats id.number ∧ result.framesOf id = result'.framesOf id

/-- The reports for an identifier are those for its frames alone. -/
def Independent (rawFrames : List (RawFrame τ)) (windowS : τ) (id : Identifier) : Prop :=
  SameReports id (summarizeFrames rawFrames windowS) (summarizeFrames (only id rawFrames) windowS)

/-- No frame has the identifier's number in the other format. -/
def OneFormat (rawFrames : List (RawFrame τ)) (id : Identifier) : Prop :=
  ∀ frame ∈ rawFrames, frame.arbitrationId = id.number → frame.isExtendedId = id.extended

variable {rawFrames other : List (RawFrame τ)} {windowS : τ} {id : Identifier}

/-! ## One number -/

/-- What a summary holds of a number. -/
def Summary.view (number : ℕ) (summary : Summary τ) :
    Option τ × Option (IdStats τ) × List (TraceFrame τ) :=
  (summary.lastSeen number, summary.stats number,
    summary.frames.filter fun frame => frame.arbitrationId = number)

/-- A frame of another number leaves the view alone. -/
theorem view_add_of_ne (number : ℕ) (summary : Summary τ) {frame : RawFrame τ}
    (h : frame.arbitrationId ≠ number) : (summary.add frame).view number = summary.view number := by
  unfold Summary.add Summary.view
  dsimp only
  rw [Function.update_of_ne h.symm, Function.update_of_ne h.symm, List.filter_append,
    List.filter_cons_of_neg (by simpa using h), List.filter_nil, List.append_nil]

/-- A frame of the number reads the view only. -/
theorem view_add (summary summary' : Summary τ) (frame : RawFrame τ)
    (h : summary.view frame.arbitrationId = summary'.view frame.arbitrationId) :
    (summary.add frame).view frame.arbitrationId = (summary'.add frame).view frame.arbitrationId := by
  unfold Summary.view at h
  obtain ⟨hseen, hrest⟩ := Prod.mk.inj h
  obtain ⟨hstats, hframes⟩ := Prod.mk.inj hrest
  unfold Summary.add Summary.view
  dsimp only
  rw [Function.update_self, Function.update_self, Function.update_self, Function.update_self,
    List.filter_append, List.filter_append, hseen, hstats, hframes]

/-- What is held of a number is what its frames alone leave. -/
theorem view_filter (number : ℕ) (rawFrames : List (RawFrame τ)) :
    (after Summary.add .empty rawFrames).view number =
      (after Summary.add .empty (rawFrames.filter fun frame => frame.arbitrationId = number)).view number := by
  refine view_after_filter (fun summary frame hother => ?_) (fun summary summary' frame hmine h => ?_) rawFrames
  · exact view_add_of_ne number summary (by simpa using hother)
  · obtain rfl : frame.arbitrationId = number := by simpa using hmine
    exact view_add summary summary' frame h

omit [Add τ] [Sub τ] [Mul τ] [OfNat τ 0] [OfNat τ 1000] [LT τ] [DecidableLT τ] in
/-- The frames of an identifier are among those of its number. -/
theorem framesOf_of_view {summary summary' : Summary τ} (h : summary.view id.number = summary'.view id.number) :
    SameReports id ⟨windowS, summary.frames, summary.stats⟩ ⟨windowS, summary'.frames, summary'.stats⟩ := by
  obtain ⟨hstats, hframes⟩ := Prod.mk.inj (Prod.mk.inj h).2
  refine ⟨hstats, ?_⟩
  have hsplit : ∀ frames : List (TraceFrame τ), frames.filter (fun frame => frame.identifier = id) =
      (frames.filter fun frame => frame.arbitrationId = id.number).filter fun frame => frame.identifier = id := by
    intro frames
    rw [List.filter_filter]
    refine List.filter_congr fun frame _ => ?_
    by_cases hid : frame.identifier = id
    · have hnumber : frame.arbitrationId = id.number := congrArg Identifier.number hid
      simp only [hid, hnumber, decide_true, Bool.and_self]
    · simp only [hid, decide_false, Bool.false_and]
  show summary.frames.filter _ = summary'.frames.filter _
  rw [hsplit, hframes, ← hsplit]

omit [Sub τ] [Mul τ] [OfNat τ 0] [OfNat τ 1000] in
theorem record_frames (stat : IdStats τ) (timestamp : τ) (gapMs : Option τ) :
    (stat.record timestamp gapMs).frames = stat.frames + 1 := by
  unfold IdStats.record
  cases gapMs <;> rfl

/-- The number of frames counted under a number. -/
def Summary.counted (summary : Summary τ) (number : ℕ) : ℕ :=
  match summary.stats number with
  | none => 0
  | some stat => stat.frames

theorem counted_add (summary : Summary τ) (frame : RawFrame τ) (number : ℕ) :
    (summary.add frame).counted number =
      summary.counted number + if frame.arbitrationId = number then 1 else 0 := by
  unfold Summary.counted Summary.add
  dsimp only
  by_cases h : frame.arbitrationId = number
  · subst h
    rw [Function.update_self, if_pos rfl]
    dsimp only
    rw [record_frames]
    cases summary.stats frame.arbitrationId <;> rfl
  · rw [Function.update_of_ne (Ne.symm h), if_neg h, Nat.add_zero]

/-- Every frame of a number is counted under it. -/
theorem counted_eq (rawFrames : List (RawFrame τ)) (number : ℕ) :
    (after Summary.add .empty rawFrames).counted number =
      (rawFrames.filter fun frame => frame.arbitrationId = number).length := by
  induction rawFrames using List.reverseRecOn with
  | nil => rfl
  | append_singleton rawFrames frame ih =>
    rw [after_snoc, counted_add, ih, List.filter_append, List.length_append]
    congr 1
    by_cases h : frame.arbitrationId = number
    · simp [h]
    · simp [h]

/-! ## One identifier -/

omit [Add τ] [Sub τ] [Mul τ] [OfNat τ 0] [OfNat τ 1000] [LT τ] [DecidableLT τ] in
/-- With one format, the frames of the number are those of the identifier. -/
theorem only_eq (h : OneFormat rawFrames id) :
    only id rawFrames = rawFrames.filter fun frame => frame.arbitrationId = id.number := by
  refine List.filter_congr fun frame hmem => ?_
  rw [decide_eq_decide]
  constructor
  · exact fun hid => congrArg Identifier.number hid
  · intro hnumber
    have hformat := h frame hmem hnumber
    unfold RawFrame.identifier
    rw [hnumber, hformat]

/-- **Independence**: the reports for an identifier are those for its frames alone if and only if no frame has
its number in the other format; so traces in which none has, and which hold the same frames of the
identifier in the same order, give the same reports for it. -/
theorem independent_iff (rawFrames : List (RawFrame τ)) (windowS : τ) (id : Identifier) :
    (Independent rawFrames windowS id ↔ OneFormat rawFrames id) ∧
      ∀ other, OneFormat rawFrames id → OneFormat other id → only id other = only id rawFrames →
        SameReports id (summarizeFrames other windowS) (summarizeFrames rawFrames windowS) := by
  constructor
  · constructor
    · intro h frame hmem hnumber
      -- both traces count the same number of frames
      have hcount : (after Summary.add .empty rawFrames).counted id.number =
          (after Summary.add .empty (only id rawFrames)).counted id.number := by
        unfold Summary.counted
        rw [show (after Summary.add .empty rawFrames).stats id.number = _ from h.1]
        rfl
      rw [counted_eq, counted_eq] at hcount
      have hsub : ((only id rawFrames).filter fun frame => frame.arbitrationId = id.number).Sublist
          (rawFrames.filter fun frame => frame.arbitrationId = id.number) := List.filter_sublist.filter _
      have hall : frame ∈ (only id rawFrames).filter fun frame => frame.arbitrationId = id.number := by
        rw [hsub.eq_of_length hcount.symm]
        exact List.mem_filter.2 ⟨hmem, by simpa using hnumber⟩
      have hid : frame.identifier = id := by
        simpa using (List.mem_filter.1 (List.mem_filter.1 hall).1).2
      exact congrArg Identifier.extended hid
    · intro h
      refine framesOf_of_view ?_
      rw [view_filter, only_eq h, view_filter _ (List.filter _ rawFrames), List.filter_filter]
  · intro other h hother hsame
    refine framesOf_of_view ?_
    rw [view_filter, view_filter _ rawFrames, ← only_eq h, ← only_eq hother, hsame]

end Summary

/-- Two frames of the standard identifier 0x123. -/
def quietTrace : List (RawFrame Int) := [⟨0, 0x123, 1, [0], false⟩, ⟨3, 0x123, 1, [0], false⟩]

/-- The same two among frames of other numbers. -/
def busyTrace : List (RawFrame Int) :=
  [⟨0, 0x7E8, 1, [0], true⟩, ⟨0, 0x123, 1, [0], false⟩, ⟨1, 0x124, 1, [0], false⟩, ⟨3, 0x123, 1, [0], false⟩]

theorem independent_iff_busyTrace :
    SameReports ⟨0x123, false⟩ (summarizeFrames busyTrace 0) (summarizeFrames quietTrace 0) := by
  refine (independent_iff quietTrace 0 ⟨0x123, false⟩).2 busyTrace ?_ ?_ rfl
  · simp [OneFormat, quietTrace]
  · simp [OneFormat, busyTrace]

/-- Two frames of the standard identifier 0x123, and one of the extended identifier 0x123 between them. -/
def mixedFormats : List (RawFrame Int) :=
  [⟨0, 0x123, 1, [0], false⟩, ⟨1, 0x123, 1, [0], true⟩, ⟨3, 0x123, 1, [0], false⟩]

/-- The extended frame shortens the gap of 3 s between the standard frames to 2 s. -/
theorem mixedFormats_shortened :
    ¬Independent mixedFormats 0 ⟨0x123, false⟩ ∧
      ((summarizeFrames mixedFormats 0).framesOf ⟨0x123, false⟩).map TraceFrame.gapMs = [none, some 2000] ∧
      ((summarizeFrames (only ⟨0x123, false⟩ mixedFormats) 0).framesOf ⟨0x123, false⟩).map TraceFrame.gapMs =
        [none, some 3000] := by
  have hmixed : ((summarizeFrames mixedFormats 0).framesOf ⟨0x123, false⟩).map TraceFrame.gapMs =
      [none, some 2000] := rfl
  have hone : ((summarizeFrames (only ⟨0x123, false⟩ mixedFormats) 0).framesOf ⟨0x123, false⟩).map
      TraceFrame.gapMs = [none, some 3000] := rfl
  refine ⟨fun h => ?_, hmixed, hone⟩
  rw [h.2, hone] at hmixed
  exact absurd hmixed (by decide)

end DualCan.Tools
