import DualCan.Run.Timed

/-!
# The fault hook

`UdsFaultTest_Init` and `UdsFaultTest_Process` of `uds_fault_test.c`, called at any real times. Requests are
dropped in a window that a write to the fault-control DID opens. The end of the window is a reading of the
32-bit clock and nothing says whether a window was opened at all, so what is dropped outside any window
depends on the time that has passed since the window's end, or since the clock's start (`lawful_iff`).
-/

namespace DualCan.Uds

open DualCan.Clock DualCan.Run

inductive UdsFaultAction where
  | pass
  | handled
  | drop
  deriving DecidableEq, Repr

/-- `UdsFaultTest_t`. -/
structure UdsFaultTest where
  suppressUntilMs : UInt32
  dtcStatus : Vector UInt8 4
  dtcActive : Bool
  nrcService : UInt8
  nrc : UInt8
  nrcActive : Bool
  deriving DecidableEq

/-- What a call leaves: its action, and the response it wrote. -/
structure FaultReply where
  action : UdsFaultAction
  response : List UInt8
  deriving DecidableEq, Repr

namespace UdsFaultTest

/-! ## The source -/

def sidReadData : UInt8 := 0x22
def sidWriteData : UInt8 := 0x2E
def sidPositive : UInt8 := 0x62
def sidWritePositive : UInt8 := 0x6E
def didFaultControl : UInt16 := 0xF1A0
def didDtcStatus : UInt16 := 0xF191

/-- `time_before`. -/
def timeBefore (now deadline : UInt32) : Bool := (now - deadline).toInt32 < 0

def respond (capacity : ℕ) (data : List UInt8) : FaultReply :=
  if capacity < data.length then ⟨.pass, []⟩ else ⟨.handled, data⟩

/-- `UdsFaultTest_Init`. -/
def init : UdsFaultTest where
  suppressUntilMs := 0
  dtcStatus := #v[0, 0, 0, 0]
  dtcActive := false
  nrcService := 0
  nrc := 0
  nrcActive := false

def didOf (high low : UInt8) : UInt16 := high.toUInt16 <<< 8 ||| low.toUInt16

/-- The mode and the arguments of a write to the fault-control DID. -/
def controlOf : List UInt8 → Option (UInt8 × List UInt8)
  | sid :: high :: low :: mode :: args =>
    if sid = sidWriteData ∧ didOf high low = didFaultControl then some (mode, args) else none
  | _ => none

/-- The write's effect; `none` is a mode that is not known, or too few arguments for it. -/
def control (fault : UdsFaultTest) (now : UInt32) (mode : UInt8) (args : List UInt8) : Option UdsFaultTest :=
  if mode = 0x00 then some init
  else if mode = 0x01 then
    match args with
    | a :: b :: c :: d :: _ => some { fault with dtcStatus := #v[a, b, c, d], dtcActive := true }
    | _ => none
  else if mode = 0x02 then
    match args with
    | seconds :: _ => some { fault with suppressUntilMs := now + seconds.toUInt32 * 1000 }
    | _ => none
  else if mode = 0x04 then
    match args with
    | service :: nrc :: _ => some { fault with nrcService := service, nrc := nrc, nrcActive := true }
    | _ => none
  else none

/-- The request reads the trouble-code status. -/
def readsDtcStatus : List UInt8 → Bool
  | sid :: high :: low :: _ => sid = sidReadData && didOf high low = didDtcStatus
  | _ => false

/-- The negative response to the request's service, where one was asked for. -/
def refuse (fault : UdsFaultTest) (capacity : ℕ) : List UInt8 → FaultReply
  | [] => ⟨.pass, []⟩
  | service :: _ =>
    if fault.nrcActive ∧ service = fault.nrcService then respond capacity [0x7F, service, fault.nrc]
    else ⟨.pass, []⟩

/-- `UdsFaultTest_Process`. -/
def process (fault : UdsFaultTest) (request : List UInt8) (now : UInt32) (capacity : ℕ) :
    FaultReply × UdsFaultTest :=
  match controlOf request with
  | some (mode, args) =>
    match fault.control now mode args with
    | some next => (respond capacity [sidWritePositive, 0xF1, 0xA0], next)
    | none => (respond capacity [0x7F, sidWriteData, 0x31], fault)
  | none =>
    if timeBefore now fault.suppressUntilMs then (⟨.drop, []⟩, fault)
    else if readsDtcStatus request ∧ fault.dtcActive then
      (respond capacity ([sidPositive, 0xF1, 0x91] ++ fault.dtcStatus.toList), fault)
    else (fault.refuse capacity request, fault)

/-! ## Runs -/

/-- A request with the room for its response. -/
structure Exchange where
  request : List UInt8
  capacity : ℕ

def step (fault : UdsFaultTest) (now : UInt32) (e : Exchange) : UdsFaultTest :=
  (fault.process e.request now e.capacity).2

/-- The hook as it is initialised at the real time `start`. -/
def started (start : ℕ) : Timed UdsFaultTest := ⟨start, init⟩

/-- The state a run leads to. -/
def reach (start : ℕ) (es : List (ℕ × Exchange)) : Timed UdsFaultTest := after (timed step) (started start) es

/-- The real time of an event that follows a run. -/
def arrival (start : ℕ) (es : List (ℕ × Exchange)) (e : ℕ × Exchange) : ℕ := (reach start es).now + e.1

/-- A clear command. -/
def clears (request : List UInt8) : Prop := ∃ args, controlOf request = some (0x00, args)

/-- A drop command with the argument `seconds`. -/
def drops (seconds : UInt8) (request : List UInt8) : Prop :=
  ∃ rest, controlOf request = some (0x02, seconds :: rest)

/-- The run's most recent drop command came at the real time `armedAt` with the argument `seconds`, and no clear
command after it. -/
def Armed (start : ℕ) (es : List (ℕ × Exchange)) (armedAt : ℕ) (seconds : UInt8) : Prop :=
  Since (timed step) (started start) (fun s e => drops seconds e.2.request ∧ s.now + e.1 = armedAt)
    (fun _ e => ¬clears e.2.request ∧ ∀ other, ¬drops other e.2.request) es

/-- The end of the window. -/
def windowEnd (armedAt : ℕ) (seconds : UInt8) : ℕ := armedAt + 1000 * seconds.toNat

/-- A request that follows the run is dropped exactly in the window of the most recent drop command with no
clear command after it. -/
def LawAt (start : ℕ) (es : List (ℕ × Exchange)) (e : ℕ × Exchange) : Prop :=
  ((reach start es).state.process e.2.request (tick (arrival start es e)) e.2.capacity).1.action = .drop ↔
    ∃ armedAt seconds, Armed start es armedAt seconds ∧
      armedAt ≤ arrival start es e ∧ arrival start es e < windowEnd armedAt seconds

/-- The request comes before the end of the window or, modulo the clock's range, less than half the range
after it; with no drop command since the last clear, in the first half of the range. -/
def Timely (start : ℕ) (es : List (ℕ × Exchange)) (e : ℕ × Exchange) : Prop :=
  (∀ armedAt seconds, Armed start es armedAt seconds → arrival start es e < windowEnd armedAt seconds ∨
      (arrival start es e - windowEnd armedAt seconds) % 2 ^ 32 < 2 ^ 31) ∧
    ((∀ armedAt seconds, ¬Armed start es armedAt seconds) → arrival start es e % 2 ^ 32 < 2 ^ 31)

/-- Every request of the run but the writes to the fault-control DID satisfies `P`. -/
def Others (P : List (ℕ × Exchange) → ℕ × Exchange → Prop) (es : List (ℕ × Exchange)) : Prop :=
  ∀ pre e post, es = pre ++ e :: post → controlOf e.2.request = none → P pre e

variable {fault : UdsFaultTest} {request : List UInt8} {now : UInt32} {capacity start : ℕ} {seconds : UInt8}
  {es : List (ℕ × Exchange)} {e : ℕ × Exchange} {armedAt : ℕ}

/-! ## One call -/

theorem timeBefore_eq (now deadline : UInt32) : timeBefore now deadline = !reached now deadline :=
  before_eq now deadline

theorem respond_not_drop (capacity : ℕ) (data : List UInt8) : (respond capacity data).action ≠ .drop := by
  unfold respond
  split <;> exact UdsFaultAction.noConfusion

theorem refuse_not_drop : (fault.refuse capacity request).action ≠ .drop := by
  unfold refuse
  split
  · exact UdsFaultAction.noConfusion
  split
  · exact respond_not_drop _ _
  · exact UdsFaultAction.noConfusion

/-- A request that is no write to the fault-control DID is dropped before the stored end of the window. -/
theorem process_drops_iff (hother : controlOf request = none) :
    (fault.process request now capacity).1.action = .drop ↔ reached now fault.suppressUntilMs = false := by
  unfold process
  simp only [hother, timeBefore_eq, Bool.not_eq_true']
  split
  · rename_i hbefore
    exact iff_of_true rfl hbefore
  rename_i hover
  split
  · exact iff_of_false (respond_not_drop _ _) hover
  · exact iff_of_false refuse_not_drop hover

theorem process_drop_command (h : drops seconds request) :
    (fault.process request now capacity).2.suppressUntilMs = now + seconds.toUInt32 * 1000 := by
  obtain ⟨rest, hcontrol⟩ := h
  simp [process, hcontrol, control]

theorem process_clear_command (h : clears request) :
    (fault.process request now capacity).2.suppressUntilMs = 0 := by
  obtain ⟨rest, hcontrol⟩ := h
  simp [process, hcontrol, control, init]

/-- Only the two commands write the end of the window. -/
theorem process_neither (hclear : ¬clears request) (hdrop : ∀ seconds, ¬drops seconds request) :
    (fault.process request now capacity).2.suppressUntilMs = fault.suppressUntilMs := by
  unfold process
  cases hcontrol : controlOf request with
  | none =>
    dsimp only
    split
    · rfl
    split <;> rfl
  | some command =>
    obtain ⟨mode, args⟩ := command
    have hmode : mode ≠ 0x00 := by
      rintro rfl
      exact hclear ⟨args, hcontrol⟩
    dsimp only
    cases hnext : fault.control now mode args with
    | none => rfl
    | some next =>
      unfold control at hnext
      rw [if_neg hmode] at hnext
      split at hnext
      · split at hnext
        · rw [← Option.some.inj hnext]
        · cases hnext
      split at hnext
      · rename_i htwo
        split at hnext
        · rename_i seconds rest
          exact absurd ⟨rest, htwo ▸ hcontrol⟩ (hdrop seconds)
        · cases hnext
      split at hnext
      · split at hnext
        · rw [← Option.some.inj hnext]
        · cases hnext
      · cases hnext

/-! ## The window of a run -/

@[simp] theorem reach_snoc : reach start (es ++ [e]) = timed step (reach start es) e := after_snoc ..

theorem not_armed_nil : ¬Armed start [] armedAt seconds := not_since_nil

/-- A window is open after a step if the step opens it, or leaves it. -/
theorem armed_snoc : Armed start (es ++ [e]) armedAt seconds ↔
    (drops seconds e.2.request ∧ arrival start es e = armedAt) ∨
      (Armed start es armedAt seconds ∧ ¬clears e.2.request ∧ ∀ other, ¬drops other e.2.request) :=
  since_snoc

/-- A drop command has one argument. -/
theorem drops_unique {other : UInt8} (h : drops seconds request) (h' : drops other request) : seconds = other := by
  obtain ⟨rest, hrest⟩ := h
  obtain ⟨rest', hrest'⟩ := h'
  have hsame : some ((0x02 : UInt8), seconds :: rest) = some (0x02, other :: rest') := hrest.symm.trans hrest'
  simp only [Option.some.injEq, Prod.mk.injEq, List.cons.injEq, true_and] at hsame
  exact hsame.1

/-- There is one most recent drop command. -/
theorem armed_unique {other : ℕ} {seconds' : UInt8} (h : Armed start es armedAt seconds)
    (h' : Armed start es other seconds') : armedAt = other ∧ seconds = seconds' := by
  induction es using List.reverseRecOn with
  | nil => exact absurd h not_armed_nil
  | append_singleton es e ih =>
    rcases armed_snoc.1 h with ⟨hdrop, htime⟩ | ⟨harmed, -, hnone⟩
    · rcases armed_snoc.1 h' with ⟨hdrop', htime'⟩ | ⟨-, -, hnone⟩
      · exact ⟨htime.symm.trans htime', drops_unique hdrop hdrop'⟩
      · exact absurd hdrop (hnone _)
    · rcases armed_snoc.1 h' with ⟨hdrop', -⟩ | ⟨harmed', -, -⟩
      · exact absurd hdrop' (hnone _)
      · exact ih harmed harmed'

/-- Real time does not run backwards. -/
theorem armed_le (h : Armed start es armedAt seconds) : armedAt ≤ (reach start es).now := by
  induction es using List.reverseRecOn with
  | nil => exact absurd h not_armed_nil
  | append_singleton es e ih =>
    rw [reach_snoc]
    rcases armed_snoc.1 h with ⟨-, rfl⟩ | ⟨harmed, -⟩
    · exact Nat.le_refl _
    · exact Nat.le_add_right_of_le (ih harmed)

theorem tick_windowEnd (armedAt : ℕ) (seconds : UInt8) :
    tick (windowEnd armedAt seconds) = tick armedAt + seconds.toUInt32 * 1000 := by
  rw [windowEnd, tick_add, ← UInt32.toNat_inj, UInt32.toNat_add, UInt32.toNat_add, UInt32.toNat_mul,
    UInt32.toNat_ofNat', UInt8.toNat_toUInt32, Nat.mul_comm]
  rfl

/-- The stored end of the window is that of the most recent drop command. -/
theorem armed_until (h : Armed start es armedAt seconds) :
    (reach start es).state.suppressUntilMs = tick (windowEnd armedAt seconds) := by
  induction es using List.reverseRecOn with
  | nil => exact absurd h not_armed_nil
  | append_singleton es e ih =>
    rw [reach_snoc]
    rcases armed_snoc.1 h with ⟨hdrop, rfl⟩ | ⟨harmed, hclear, hnone⟩
    · rw [tick_windowEnd]
      exact process_drop_command hdrop
    · rw [← ih harmed]
      exact process_neither hclear hnone

/-- With no drop command since the last clear command, 0 is stored. -/
theorem unarmed_until (h : ∀ armedAt seconds, ¬Armed start es armedAt seconds) :
    (reach start es).state.suppressUntilMs = 0 := by
  induction es using List.reverseRecOn with
  | nil => rfl
  | append_singleton es e ih =>
    rw [reach_snoc]
    have hnone : ∀ seconds, ¬drops seconds e.2.request :=
      fun seconds hdrop => h _ seconds (armed_snoc.2 (Or.inl ⟨hdrop, rfl⟩))
    by_cases hclear : clears e.2.request
    · exact process_clear_command hclear
    · refine (process_neither hclear hnone).trans (ih fun armedAt seconds harmed => ?_)
      exact h armedAt seconds (armed_snoc.2 (Or.inr ⟨harmed, hclear, hnone⟩))

/-! ## The law -/

/-- After a drop command: exact up to the end of the window, and wrong in the second half of every turn of
the clock after it. -/
theorem armed_law_iff (hother : controlOf e.2.request = none) (h : Armed start es armedAt seconds) :
    LawAt start es e ↔ arrival start es e < windowEnd armedAt seconds ∨
      (arrival start es e - windowEnd armedAt seconds) % 2 ^ 32 < 2 ^ 31 := by
  have hstart : armedAt ≤ arrival start es e := Nat.le_add_right_of_le (armed_le h)
  have hwindow : (∃ other seconds', Armed start es other seconds' ∧ other ≤ arrival start es e ∧
      arrival start es e < windowEnd other seconds') ↔ arrival start es e < windowEnd armedAt seconds := by
    constructor
    · rintro ⟨other, seconds', harmed, -, hbefore⟩
      obtain ⟨rfl, rfl⟩ := armed_unique h harmed
      exact hbefore
    · exact fun hbefore => ⟨armedAt, seconds, h, hstart, hbefore⟩
  unfold LawAt
  rw [hwindow, process_drops_iff hother, armed_until h]
  by_cases hbefore : arrival start es e < windowEnd armedAt seconds
  · have hshort : windowEnd armedAt seconds ≤ arrival start es e + 2 ^ 31 := by
      have hlt := seconds.toNat_lt
      unfold windowEnd
      omega
    simp only [not_reached_tick_of_lt hbefore hshort, hbefore, true_or]
  · simp only [reached_tick_of_le (Nat.not_lt.1 hbefore), hbefore, iff_false, false_or,
      decide_eq_false_iff_not, not_not]

/-- With no drop command since the last clear command: wrong in the second half of the clock's range. -/
theorem unarmed_law_iff (hother : controlOf e.2.request = none)
    (h : ∀ armedAt seconds, ¬Armed start es armedAt seconds) :
    LawAt start es e ↔ arrival start es e % 2 ^ 32 < 2 ^ 31 := by
  have hwindow : ¬∃ armedAt seconds, Armed start es armedAt seconds ∧ armedAt ≤ arrival start es e ∧
      arrival start es e < windowEnd armedAt seconds := by
    rintro ⟨armedAt, seconds, harmed, -⟩
    exact h armedAt seconds harmed
  have hzero : (0 : UInt32) = tick 0 := rfl
  unfold LawAt
  rw [process_drops_iff hother, unarmed_until h, hzero, reached_tick_of_le (Nat.zero_le _)]
  simp only [hwindow, iff_false, Nat.sub_zero, decide_eq_false_iff_not, not_not]

theorem lawAt_iff_timely (hother : controlOf e.2.request = none) : LawAt start es e ↔ Timely start es e := by
  unfold Timely
  by_cases harmed : ∃ armedAt seconds, Armed start es armedAt seconds
  · obtain ⟨armedAt, seconds, h⟩ := harmed
    rw [armed_law_iff hother h]
    constructor
    · intro hlaw
      refine ⟨fun other seconds' h' => ?_, fun hnone => absurd h (hnone armedAt seconds)⟩
      obtain ⟨rfl, rfl⟩ := armed_unique h h'
      exact hlaw
    · exact fun htimely => htimely.1 armedAt seconds h
  · have hnone : ∀ armedAt seconds, ¬Armed start es armedAt seconds :=
      fun armedAt seconds h => harmed ⟨armedAt, seconds, h⟩
    rw [unarmed_law_iff hother hnone]
    constructor
    · exact fun hlaw => ⟨fun armedAt seconds h => absurd h (hnone armedAt seconds), fun _ => hlaw⟩
    · exact fun htimely => htimely.2 hnone

/-- The requests of a run are dropped in the windows, and only there, exactly if they come in time. -/
theorem lawful_iff (start : ℕ) (es : List (ℕ × Exchange)) :
    Others (LawAt start) es ↔ Others (Timely start) es := by
  constructor
  · intro h pre e post hes hother
    exact (lawAt_iff_timely hother).1 (h pre e post hes hother)
  · intro h pre e post hes hother
    exact (lawAt_iff_timely hother).2 (h pre e post hes hother)

/-- A read 2^31 ms after the start, the first request at all, is dropped. -/
theorem drops_unarmed : ¬Others (LawAt 0) [(2 ^ 31, ⟨[0x22, 0xF1, 0x90], 32⟩)] ∧
    ((reach 0 []).state.process [0x22, 0xF1, 0x90] (tick (2 ^ 31)) 32).1.action = .drop := by
  have hread : ((reach 0 []).state.process [0x22, 0xF1, 0x90] (tick (2 ^ 31)) 32).1.action = .drop := rfl
  refine ⟨fun h => ?_, hread⟩
  obtain ⟨armedAt, seconds, harmed, -⟩ := (h [] _ [] rfl rfl).1 hread
  exact not_armed_nil harmed

end UdsFaultTest

end DualCan.Uds
