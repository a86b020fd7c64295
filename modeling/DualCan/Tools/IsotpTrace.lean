import DualCan.Isotp.Unpack
import DualCan.Tools.Trace

/-!
# The summary of a transfer

`summarize_isotp_transfer` of `tools/isotp_trace.py`, on captures from which frames may be missing. The loop stops at
the consecutive frame that brings the last byte, so what comes later does not count (`collect_eq`); a transfer is
reported complete exactly if none of its frames is missing (`transferSummary`).
-/

namespace DualCan.Tools

open DualCan.Isotp

/-- `IsoTpTransferSummary`. -/
structure IsoTpTransferSummary (τ : Type) where
  targetId : ℕ
  flowControlId : ℕ
  complete : Bool
  payload : List UInt8
  consecutiveFrames : ℕ
  flowControlCount : ℕ
  flowBlockSizes : List UInt8
  flowStminMs : List UInt8
  cfGapsMs : List τ
  error : Option String

/-- `(data[0] >> 4) & 0x0F`, where there is a first byte. -/
def pciOf : List UInt8 → Option UInt8
  | [] => none
  | head :: _ => some ((head >>> 4) &&& 0x0F)

/-- Block size and separation time of a Flow Control frame that has both. -/
def flowData : List UInt8 → Option (UInt8 × UInt8)
  | head :: blockSize :: stmin :: _ => if (head >>> 4) &&& 0x0F = pciFc then some (blockSize, stmin) else none
  | _ => none

/-- What the loop has seen. -/
structure Collected (τ : Type) where
  cfFrames : List (List UInt8)
  cfTicks : List τ
  blockSizes : List UInt8
  stminValues : List UInt8

namespace Collected

variable {τ : Type}

def empty : Collected τ := ⟨[], [], [], []⟩

def noteFlow (c : Collected τ) (data : List UInt8) : Collected τ :=
  match flowData data with
  | some (blockSize, stmin) =>
    { c with blockSizes := c.blockSizes ++ [blockSize], stminValues := c.stminValues ++ [stmin] }
  | none => c

def noteConsecutive (c : Collected τ) (frame : TraceFrame τ) : Collected τ :=
  { c with cfFrames := c.cfFrames ++ [frame.data], cfTicks := c.cfTicks ++ [frame.timestamp] }

/-- The bytes of the transfer that have been seen. -/
def bytes (c : Collected τ) : ℕ := 6 + (c.cfFrames.map fun item => item.length - 1).sum

/-- One after the other. -/
def append (c c' : Collected τ) : Collected τ :=
  ⟨c.cfFrames ++ c'.cfFrames, c.cfTicks ++ c'.cfTicks, c.blockSizes ++ c'.blockSizes, c.stminValues ++ c'.stminValues⟩

end Collected

/-- The loop of `summarize_isotp_transfer`. -/
def collect {τ : Type} (targetId flowControlId totalLength : ℕ) : List (TraceFrame τ) → Collected τ → Collected τ
  | [], c => c
  | frame :: frames, c =>
    if frame.arbitrationId = flowControlId ∧ frame.data ≠ [] then
      collect targetId flowControlId totalLength frames (c.noteFlow frame.data)
    else if frame.arbitrationId ≠ targetId ∨ pciOf frame.data ≠ some pciCf then
      collect targetId flowControlId totalLength frames c
    else if totalLength ≤ (c.noteConsecutive frame).bytes then c.noteConsecutive frame
    else collect targetId flowControlId totalLength frames (c.noteConsecutive frame)

section Summary

variable {τ : Type} [Sub τ] [Mul τ] [OfNat τ 1000]

def gapsMs (ticks : List τ) : List τ :=
  List.zipWith (fun previous current => (current - previous) * 1000) ticks ticks.tail

def isFirst (targetId : ℕ) (frame : TraceFrame τ) : Bool :=
  frame.arbitrationId = targetId && pciOf frame.data = some pciFf

/-- The result, from what was collected and what `unpack_frames` made of it. -/
def IsoTpTransferSummary.of (targetId flowControlId totalLength : ℕ) (c : Collected τ) :
    Except String (List UInt8) → IsoTpTransferSummary τ
  | .ok payload => ⟨targetId, flowControlId, payload.length = totalLength, payload, c.cfFrames.length,
      c.blockSizes.length, c.blockSizes, c.stminValues, gapsMs c.cfTicks, none⟩
  | .error message => ⟨targetId, flowControlId, 0 = totalLength, [], c.cfFrames.length, c.blockSizes.length,
      c.blockSizes, c.stminValues, gapsMs c.cfTicks, some message⟩

/-- `summarize_isotp_transfer`. -/
def summarizeIsotpTransfer (frames : List (TraceFrame τ)) (targetId flowControlId : ℕ) :
    Except String (IsoTpTransferSummary τ) :=
  match frames.dropWhile fun frame => !isFirst targetId frame with
  | [] => .ok ⟨targetId, flowControlId, false, [], 0, 0, [], [], [], some "no first frame observed"⟩
  | first :: rest => do
    let head ← Py.byteAt first.data 0
    let low ← Py.byteAt first.data 1
    let totalLength := (head &&& 0x0F).toNat <<< 8 ||| low.toNat
    let c := collect targetId flowControlId totalLength rest .empty
    return .of targetId flowControlId totalLength c (Py.unpackFrames (first.data :: c.cfFrames))

end Summary

/-! ## What the loop sees -/

section Collect

variable {τ : Type} {targetId flowControlId : ℕ}

def isConsecutive (targetId : ℕ) (frame : TraceFrame τ) : Bool :=
  frame.arbitrationId = targetId && pciOf frame.data = some pciCf

def flowOf (flowControlId : ℕ) (frame : TraceFrame τ) : Option (UInt8 × UInt8) :=
  if frame.arbitrationId = flowControlId then flowData frame.data else none

/-- The frames up to the `n`-th consecutive one. -/
def upTo (targetId : ℕ) : ℕ → List (TraceFrame τ) → List (TraceFrame τ)
  | 0, _ => []
  | _ + 1, [] => []
  | n + 1, frame :: frames =>
    if isConsecutive targetId frame then frame :: upTo targetId n frames else frame :: upTo targetId (n + 1) frames

theorem upTo_zero (frames : List (TraceFrame τ)) : upTo targetId 0 frames = [] := by
  cases frames with
  | nil => rfl
  | cons frame frames => rfl

/-- What the loop is to collect from these frames. -/
def gathered (targetId flowControlId : ℕ) (frames : List (TraceFrame τ)) : Collected τ :=
  ⟨(frames.filter (isConsecutive targetId)).map (·.data), (frames.filter (isConsecutive targetId)).map (·.timestamp),
    (frames.filterMap (flowOf flowControlId)).map Prod.fst, (frames.filterMap (flowOf flowControlId)).map Prod.snd⟩

theorem filter_upTo (n : ℕ) (frames : List (TraceFrame τ)) :
    (upTo targetId n frames).filter (isConsecutive targetId) = (frames.filter (isConsecutive targetId)).take n := by
  induction frames generalizing n with
  | nil => cases n <;> rfl
  | cons frame frames ih =>
    cases n with
    | zero => rfl
    | succ n =>
      rw [upTo]
      by_cases hframe : isConsecutive targetId frame = true
      · rw [if_pos hframe, List.filter_cons_of_pos hframe, List.filter_cons_of_pos hframe, List.take_succ_cons, ih]
      · rw [if_neg hframe, List.filter_cons_of_neg hframe, List.filter_cons_of_neg hframe, ih]

theorem noteConsecutive_append (c d : Collected τ) (frame : TraceFrame τ) :
    (c.noteConsecutive frame).append d =
      c.append ⟨frame.data :: d.cfFrames, frame.timestamp :: d.cfTicks, d.blockSizes, d.stminValues⟩ := by
  simp only [Collected.noteConsecutive, Collected.append, List.append_assoc, List.singleton_append]

/-- A consecutive frame adds itself only: it has the other identifier. -/
theorem gathered_consecutive (hne : targetId ≠ flowControlId) {frame : TraceFrame τ}
    (hframe : isConsecutive targetId frame = true) (frames : List (TraceFrame τ)) (c : Collected τ) :
    c.append (gathered targetId flowControlId (frame :: frames)) =
      (c.noteConsecutive frame).append (gathered targetId flowControlId frames) := by
  have hid : frame.arbitrationId = targetId := of_decide_eq_true (Bool.and_eq_true_iff.1 hframe).1
  have hflow : flowOf flowControlId frame = none := if_neg (hid ▸ hne)
  rw [noteConsecutive_append, gathered, gathered, List.filter_cons_of_pos hframe, List.filterMap_cons_none hflow]
  rfl

/-- A frame of the flow control identifier adds its two values, if it has them, ... -/
theorem gathered_flow {frame : TraceFrame τ} (hframe : ¬isConsecutive targetId frame = true)
    (hid : frame.arbitrationId = flowControlId) (frames : List (TraceFrame τ)) (c : Collected τ) :
    c.append (gathered targetId flowControlId (frame :: frames)) =
      (c.noteFlow frame.data).append (gathered targetId flowControlId frames) := by
  have hflow : flowOf flowControlId frame = flowData frame.data := if_pos hid
  rw [gathered, gathered, List.filter_cons_of_neg hframe, Collected.noteFlow]
  cases hdata : flowData frame.data with
  | none => rw [List.filterMap_cons_none (hflow.trans hdata)]
  | some values =>
    rw [List.filterMap_cons_some (hflow.trans hdata)]
    simp only [Collected.append, List.map_cons, List.append_assoc, List.singleton_append]

/-- ... and no other frame adds anything. -/
theorem gathered_other {frame : TraceFrame τ} (hframe : ¬isConsecutive targetId frame = true)
    (hflow : flowOf flowControlId frame = none) (frames : List (TraceFrame τ)) :
    gathered targetId flowControlId (frame :: frames) = gathered targetId flowControlId frames := by
  rw [gathered, gathered, List.filter_cons_of_neg hframe, List.filterMap_cons_none hflow]

theorem append_empty (c : Collected τ) : c.append (gathered targetId flowControlId []) = c := by
  simp only [Collected.append, gathered, List.filter_nil, List.map_nil, List.filterMap_nil, List.append_nil]

theorem bytes_noteConsecutive (c : Collected τ) {frame : TraceFrame τ} (hframe : frame.data.length = 8) :
    (c.noteConsecutive frame).bytes = c.bytes + 7 := by
  simp only [Collected.bytes, Collected.noteConsecutive, List.map_append, List.map_cons, List.map_nil,
    List.sum_append, List.sum_cons, List.sum_nil, hframe]
  omega

theorem bytes_noteFlow (c : Collected τ) (data : List UInt8) : (c.noteFlow data).bytes = c.bytes := by
  unfold Collected.noteFlow
  split
  · rfl
  · rfl

/-- The loop sees the frames up to the consecutive one that brings the last byte, and of these both kinds. -/
theorem collect_eq (hne : targetId ≠ flowControlId) {totalLength n : ℕ} (frames : List (TraceFrame τ))
    (c : Collected τ) (hn : 0 < n) (hneeds : totalLength ≤ c.bytes + 7 * n)
    (hshort : ∀ k < n, c.bytes + 7 * k < totalLength)
    (height : ∀ frame ∈ (frames.filter (isConsecutive targetId)).take n, frame.data.length = 8) :
    collect targetId flowControlId totalLength frames c =
      c.append (gathered targetId flowControlId (upTo targetId n frames)) := by
  obtain ⟨n, rfl⟩ := Nat.exists_eq_add_one_of_ne_zero (Nat.ne_of_gt hn)
  clear hn
  induction frames generalizing c n with
  | nil => exact (append_empty c).symm
  | cons frame frames ih =>
    rw [collect, upTo]
    by_cases hframe : isConsecutive targetId frame = true
    · obtain ⟨hid, hpci⟩ := Bool.and_eq_true_iff.1 hframe
      have hid : frame.arbitrationId = targetId := of_decide_eq_true hid
      have hpci : pciOf frame.data = some pciCf := of_decide_eq_true hpci
      rw [List.filter_cons_of_pos hframe, List.take_succ_cons] at height
      have hbytes := bytes_noteConsecutive c (height frame List.mem_cons_self)
      rw [if_neg (fun h => hne (hid.symm.trans h.1)), if_neg (by simp only [hid, hpci, ne_eq, not_true, or_self,
        not_false_eq_true]), if_pos hframe, gathered_consecutive hne hframe, hbytes]
      cases n with
      | zero =>
        rw [if_pos hneeds, upTo_zero, append_empty]
      | succ n =>
        have hlater := hshort 1 (by omega)
        rw [if_neg (Nat.not_le.2 hlater)]
        refine ih (c.noteConsecutive frame) n ?_ ?_ fun f hf => height f (List.mem_cons_of_mem _ hf)
        · rw [hbytes]
          omega
        · intro k hk
          have hnext := hshort (k + 1) (by omega)
          rw [hbytes]
          omega
    · rw [List.filter_cons_of_neg hframe] at height
      rw [if_neg hframe]
      by_cases hid : frame.arbitrationId = flowControlId
      · have hbytes := bytes_noteFlow c frame.data
        have hrest := ih (c.noteFlow frame.data) n (by rwa [hbytes]) (by rwa [hbytes]) height
        rw [gathered_flow hframe hid]
        by_cases hdata : frame.data = []
        · rw [if_neg (fun h => h.2 hdata), if_pos (.inr (by simp only [hdata, pciOf, ne_eq, reduceCtorEq,
            not_false_eq_true]))]
          rw [hdata] at hrest ⊢
          exact hrest
        · rw [if_pos ⟨hid, hdata⟩]
          exact hrest
      · have hother : frame.arbitrationId ≠ targetId ∨ pciOf frame.data ≠ some pciCf := by
          by_contra hnot
          simp only [not_or, not_not] at hnot
          exact hframe (Bool.and_eq_true_iff.2 ⟨decide_eq_true hnot.1, decide_eq_true hnot.2⟩)
        rw [if_neg (fun h => hid h.1), if_pos hother, gathered_other hframe (if_neg hid)]
        exact ih c n hneeds hshort height

end Collect

/-! ## The summary -/

section Transfer

variable {τ : Type} {targetId flowControlId : ℕ} {padding : UInt8} {payload : List UInt8}
  {before rest : List (TraceFrame τ)} {first : TraceFrame τ}

/-- The consecutive frames after the First Frame that the capture has, no more than the transfer needs. -/
def captured (targetId : ℕ) (payload : List UInt8) (rest : List (TraceFrame τ)) : List (TraceFrame τ) :=
  (rest.filter (isConsecutive targetId)).take (cfCount payload)

/-- The consecutive frames of a payload. -/
def cfsOf (padding : UInt8) (payload : List UInt8) : List Frame :=
  (List.range (cfCount payload)).map fun i => cfAt padding payload (i + 1)

/-- A capture of a transfer from before its First Frame on: what it has of the other frames are frames of the
transfer, in order. -/
structure Captures (targetId : ℕ) (padding : UInt8) (payload : List UInt8) (before : List (TraceFrame τ))
    (first : TraceFrame τ) (rest : List (TraceFrame τ)) : Prop where
  earlier : ∀ frame ∈ before, isFirst targetId frame = false
  first_id : first.arbitrationId = targetId
  first_data : first.data = (IsotpTx.ffFrame padding payload.length (payload.take ffPayloadMax)).toList
  consecutive : ((captured targetId payload rest).map (·.data)).Sublist ((cfsOf padding payload).map Vector.toList)

theorem pciOf_toList (frame : Frame) : pciOf frame.toList = some frame.pci := by
  have hbyte := byteAt_zero frame
  cases hdata : frame.toList with
  | nil =>
    rw [hdata] at hbyte
    cases hbyte
  | cons head tail =>
    rw [hdata] at hbyte
    have hhead : head = getElem frame 0 (Nat.zero_lt_succ 7) := Except.ok.inj hbyte
    rw [pciOf, hhead, ← pci_mask frame]
    rfl

/-- The unpacked bytes, or the error. -/
theorem unpack_captured (hlen : 7 < payload.length) (hmax : payload.length ≤ 4095) {frames : List Frame}
    (hframes : frames.Sublist (cfsOf padding payload)) :
    (frames = cfsOf padding payload ∧ Py.unpackFrames
      ((IsotpTx.ffFrame padding payload.length (payload.take ffPayloadMax) :: frames).map Vector.toList) =
        .ok payload) ∨
      frames ≠ cfsOf padding payload ∧ ∃ message, Py.unpackFrames
        ((IsotpTx.ffFrame padding payload.length (payload.take ffPayloadMax) :: frames).map Vector.toList) =
          .error message := by
  by_cases hwhole : frames = cfsOf padding payload
  · subst hwhole
    have hunpack : Py.unpackFrames ((segments padding payload).map Vector.toList) = .ok payload :=
      unpackFrames_segments_mf hlen hmax
    rw [segments_mf hlen] at hunpack
    exact .inl ⟨rfl, hunpack⟩
  · refine .inr ⟨hwhole, ?_⟩
    have hfew : frames.length < cfCount payload := by
      have hle := hframes.length_le
      have hne : frames.length ≠ (cfsOf padding payload).length := fun heq => hwhole (hframes.eq_of_length heq)
      rw [cfsOf, List.length_map, List.length_range] at hle hne
      omega
    cases hunpack : Py.unpackFrames
        ((IsotpTx.ffFrame padding payload.length (payload.take ffPayloadMax) :: frames).map Vector.toList) with
    | error message => exact ⟨message, rfl⟩
    | ok p =>
      obtain ⟨-, hcarried, -⟩ := (unpackFrames_ff ffFrame_pci frames).1 hunpack
      rw [ffFrame_declared hmax] at hcarried
      rw [cfCount] at hfew
      omega

variable [Sub τ] [Mul τ] [OfNat τ 1000]

/-- What the summary says of the transfer. -/
structure Reports (targetId flowControlId : ℕ) (padding : UInt8) (payload : List UInt8)
    (rest : List (TraceFrame τ)) (summary : IsoTpTransferSummary τ) : Prop where
  complete : summary.complete = true ↔
    (captured targetId payload rest).map (·.data) = (cfsOf padding payload).map Vector.toList
  received : summary.complete = true → summary.payload = payload ∧ summary.error = none
  refused : summary.complete = false → summary.payload = [] ∧ summary.error.isSome = true
  consecutive : summary.consecutiveFrames = (captured targetId payload rest).length
  gaps : summary.cfGapsMs = gapsMs ((captured targetId payload rest).map (·.timestamp))
  flows : ((upTo targetId (cfCount payload) rest).filterMap (flowOf flowControlId)).unzip =
    (summary.flowBlockSizes, summary.flowStminMs) ∧ summary.flowControlCount = summary.flowBlockSizes.length

/-- **The summary of a transfer**: for every payload that takes a First Frame and every capture that begins before
it, the transfer is reported complete if and only if none of its consecutive frames is missing, and then with the
payload that was sent. -/
theorem transferSummary (hne : targetId ≠ flowControlId) (hlen : 7 < payload.length) (hmax : payload.length ≤ 4095)
    (h : Captures targetId padding payload before first rest) :
    ∃ summary, summarizeIsotpTransfer (before ++ first :: rest) targetId flowControlId = .ok summary ∧
      Reports targetId flowControlId padding payload rest summary := by
  have hfirst : isFirst targetId first = true := by
    rw [isFirst, h.first_id, h.first_data, pciOf_toList, ffFrame_pci]
    simp only [decide_true, Bool.and_self]
  have hdrop : (before ++ first :: rest).dropWhile (fun frame => !isFirst targetId frame) = first :: rest := by
    rw [List.dropWhile_append_of_pos fun frame hframe => by rw [h.earlier frame hframe, Bool.not_false]]
    exact List.dropWhile_cons_of_neg (by rw [hfirst]; exact Bool.false_ne_true)
  obtain ⟨frames, hframes, hdata⟩ := List.sublist_map_iff.1 h.consecutive
  have hsome : 0 < cfCount payload := by
    rw [cfCount]
    omega
  have hneeds : payload.length ≤ 6 + 7 * cfCount payload := by
    rw [cfCount]
    omega
  have hshort : ∀ k < cfCount payload, 6 + 7 * k < payload.length := by
    intro k hk
    rw [cfCount] at hk
    omega
  have height : ∀ frame ∈ captured targetId payload rest, frame.data.length = 8 := by
    intro frame hframe
    have hmem : frame.data ∈ (captured targetId payload rest).map (·.data) := List.mem_map_of_mem hframe
    rw [hdata] at hmem
    obtain ⟨f, -, hf⟩ := List.mem_map.1 hmem
    rw [← hf]
    exact f.length_toList
  have hcollect := collect_eq hne rest .empty hsome hneeds hshort height
  have hdeclared : ((getElem (IsotpTx.ffFrame padding payload.length (payload.take ffPayloadMax)) 0
      (Nat.zero_lt_succ 7) &&& 0x0F).toNat <<< 8 |||
        (getElem (IsotpTx.ffFrame padding payload.length (payload.take ffPayloadMax)) 1 Frame.one_lt).toNat) =
          payload.length := ffFrame_declared hmax
  have hsummary : summarizeIsotpTransfer (before ++ first :: rest) targetId flowControlId =
      .ok (.of targetId flowControlId payload.length (gathered targetId flowControlId
        (upTo targetId (cfCount payload) rest)) (Py.unpackFrames
          ((IsotpTx.ffFrame padding payload.length (payload.take ffPayloadMax) :: frames).map Vector.toList))) := by
    have hempty : (Collected.empty : Collected τ).append (gathered targetId flowControlId
        (upTo targetId (cfCount payload) rest)) =
          gathered targetId flowControlId (upTo targetId (cfCount payload) rest) := rfl
    have hcfs : (gathered targetId flowControlId (upTo targetId (cfCount payload) rest)).cfFrames =
        frames.map Vector.toList := by
      rw [← hdata, captured, ← filter_upTo]
      rfl
    rw [List.map_cons, ← hcfs, ← hempty, ← hcollect, summarizeIsotpTransfer, hdrop]
    dsimp only
    rw [h.first_data, byteAt_zero, byteAt_one]
    simp only [bind, Except.bind, hdeclared, pure, Except.pure]
  have hcaptured : (upTo targetId (cfCount payload) rest).filter (isConsecutive targetId) =
      captured targetId payload rest := filter_upTo _ _
  have hcount : (gathered targetId flowControlId (upTo targetId (cfCount payload) rest)).cfFrames.length =
      (captured targetId payload rest).length := by
    rw [← hcaptured]
    exact List.length_map _
  have hgaps : gapsMs (gathered targetId flowControlId (upTo targetId (cfCount payload) rest)).cfTicks =
      gapsMs ((captured targetId payload rest).map (·.timestamp)) := by
    rw [← hcaptured]
    rfl
  refine ⟨_, hsummary, ?_⟩
  have hwhole : (captured targetId payload rest).map (·.data) = (cfsOf padding payload).map Vector.toList ↔
      frames = cfsOf padding payload := by
    rw [hdata]
    exact (List.map_injective_iff.2 fun a b => Vector.toList_inj.1).eq_iff
  rcases unpack_captured hlen hmax hframes with ⟨hall, hunpack⟩ | ⟨hmissing, message, hunpack⟩
  · rw [hunpack]
    have hcomplete : decide (payload.length = payload.length) = true := decide_eq_true rfl
    exact {
      complete := iff_of_true hcomplete (hwhole.2 hall)
      received := fun _ => ⟨rfl, rfl⟩
      refused := fun hnot => absurd (hcomplete.symm.trans hnot) Bool.noConfusion
      consecutive := hcount
      gaps := hgaps
      flows := ⟨List.unzip_eq_map, rfl⟩ }
  · rw [hunpack]
    have hnot : decide (0 = payload.length) = false := decide_eq_false (by omega)
    exact {
      complete := iff_of_false (fun hcomplete => absurd (hnot.symm.trans hcomplete) Bool.noConfusion)
        (mt hwhole.1 hmissing)
      received := fun hcomplete => absurd (hnot.symm.trans hcomplete) Bool.noConfusion
      refused := fun _ => ⟨rfl, rfl⟩
      consecutive := hcount
      gaps := hgaps
      flows := ⟨List.unzip_eq_map, rfl⟩ }

end Transfer

def capturedFrame (arbitrationId : ℕ) (timestamp : ℤ) (data : List UInt8) : TraceFrame ℤ where
  timestamp := timestamp
  arbitrationId := arbitrationId
  dlc := 8
  data := data
  isExtendedId := false
  gapMs := none

/-- After the First Frame of eight bytes: the tester's Flow Control frame, and the Consecutive Frame. -/
def wholeRest : List (TraceFrame ℤ) :=
  [capturedFrame 0x7E0 1 [0x30, 0, 10], capturedFrame 0x7E8 12 [0x21, 7, 8, 0xCC, 0xCC, 0xCC, 0xCC, 0xCC]]

theorem captures_wholeRest : Captures 0x7E8 0xCC [1, 2, 3, 4, 5, 6, 7, 8] []
    (capturedFrame 0x7E8 0 [0x10, 8, 1, 2, 3, 4, 5, 6]) wholeRest where
  earlier := List.forall_mem_nil _
  first_id := rfl
  first_data := by decide
  consecutive := by decide

/-- After the First Frame of fifteen bytes: the first of the two Consecutive Frames is missing. -/
def lostRest : List (TraceFrame ℤ) :=
  [capturedFrame 0x7E0 1 [0x30, 0, 10], capturedFrame 0x7E8 24 [0x22, 14, 15, 0xCC, 0xCC, 0xCC, 0xCC, 0xCC]]

def fifteenBytes : List UInt8 := [1, 2, 3, 4, 5, 6, 7, 8, 9, 10, 11, 12, 13, 14, 15]

theorem captures_lostRest : Captures 0x7E8 0xCC fifteenBytes []
    (capturedFrame 0x7E8 0 [0x10, 15, 1, 2, 3, 4, 5, 6]) lostRest where
  earlier := List.forall_mem_nil _
  first_id := rfl
  first_data := by decide
  consecutive := by decide

/-- A transfer of eight bytes is reported complete, one of fifteen bytes without its first Consecutive Frame is
not. -/
theorem transferSummary_wholeAndLost :
    (∃ summary, summarizeIsotpTransfer ([] ++ capturedFrame 0x7E8 0 [0x10, 8, 1, 2, 3, 4, 5, 6] :: wholeRest)
        0x7E8 0x7E0 = .ok summary ∧
      Reports 0x7E8 0x7E0 0xCC [1, 2, 3, 4, 5, 6, 7, 8] wholeRest summary ∧ summary.complete = true) ∧
    ∃ summary, summarizeIsotpTransfer ([] ++ capturedFrame 0x7E8 0 [0x10, 15, 1, 2, 3, 4, 5, 6] :: lostRest)
        0x7E8 0x7E0 = .ok summary ∧
      Reports 0x7E8 0x7E0 0xCC fifteenBytes lostRest summary ∧ summary.complete = false := by
  have hne : 0x7E8 ≠ 0x7E0 := by decide
  constructor
  · obtain ⟨summary, hsummary, hreports⟩ := transferSummary hne (by decide) (by decide) captures_wholeRest
    exact ⟨summary, hsummary, hreports, hreports.complete.2 (by decide)⟩
  · obtain ⟨summary, hsummary, hreports⟩ := transferSummary hne (by decide) (by decide) captures_lostRest
    exact ⟨summary, hsummary, hreports, Bool.eq_false_iff.2 (mt hreports.complete.1 (by decide))⟩

end DualCan.Tools
