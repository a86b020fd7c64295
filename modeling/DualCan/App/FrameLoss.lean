import DualCan.Run.Clock
import DualCan.Run.Fair
import Mathlib.Data.List.Basic

/-!
# The start of a frame-loss test

`APP_ServiceFrameLossHandshake` and the branch of `APP_OnCanRx` for its frames, in the coordinator's build and
in the follower's. Both boards say every 100 ms that they are ready; the coordinator, once it has heard the
follower, says go instead, once, and starts. Neither board looks at the driver's answer or waits for an
acknowledgement. So no board starts before the other is running (`handshake_safe`), and both start unless the
one go is lost (`both_start_iff`).
-/

namespace DualCan.App

open DualCan.Clock DualCan.Run

/-- The payload of a control frame. -/
abbrev ControlFrame := Vector UInt8 8

/-- The flags and the static variables of one board. -/
structure HandshakeNode where
  peerReady : Bool
  goSeen : Bool
  initialized : Bool
  nextControl : UInt32
  deriving DecidableEq, Repr

namespace HandshakeNode

def init : HandshakeNode where
  peerReady := false
  goSeen := false
  initialized := false
  nextControl := 0

def ready : ControlFrame := #v[0x10, 0, 0, 0, 0, 0, 0, 0]

def go : ControlFrame := #v[0x20, 0, 0, 0, 0, 0, 0, 0]

/-- The first service begins the schedule. -/
def scheduled (node : HandshakeNode) (now : UInt32) : HandshakeNode :=
  if node.initialized then node else { node with nextControl := now, initialized := true }

/-- `APP_ServiceFrameLossHandshake`, with the frame it gives the driver. -/
def service (coordinator : Bool) (node : HandshakeNode) (now : UInt32) : Option ControlFrame × HandshakeNode :=
  let node := node.scheduled now
  if node.goSeen || before now node.nextControl then (none, node)
  else if coordinator && node.peerReady then
    (some go, { node with goSeen := true, nextControl := now + 100 })
  else (some ready, { node with nextControl := now + 100 })

/-- The branch of `APP_OnCanRx` for control frames. -/
def onCanRx (node : HandshakeNode) (id : UInt32) (data : ControlFrame) (len : UInt32) : HandshakeNode :=
  if id = 0x6F2 ∧ len = 8 then
    if data[0]! = 0x10 then { node with peerReady := true }
    else if data[0]! = 0x20 then { node with goSeen := true }
    else node
  else node

variable (node : HandshakeNode) (now : UInt32)

@[simp] theorem scheduled_flags : (node.scheduled now).peerReady = node.peerReady ∧
    (node.scheduled now).goSeen = node.goSeen ∧ (node.scheduled now).initialized = true := by
  unfold scheduled
  split
  · next h => exact ⟨rfl, rfl, h⟩
  · exact ⟨rfl, rfl, rfl⟩

/-- What a service can do: wait, say go, or say ready. -/
theorem service_cases (coordinator : Bool) :
    ((node.goSeen = true ∨ before now (node.scheduled now).nextControl = true) ∧
      node.service coordinator now = (none, node.scheduled now)) ∨
    (node.goSeen = false ∧ coordinator = true ∧ node.peerReady = true ∧
      node.service coordinator now =
        (some go, { node.scheduled now with goSeen := true, nextControl := now + 100 })) ∨
    (node.goSeen = false ∧ ¬(coordinator = true ∧ node.peerReady = true) ∧
      node.service coordinator now = (some ready, { node.scheduled now with nextControl := now + 100 })) := by
  obtain ⟨hready, hgo, -⟩ := node.scheduled_flags now
  unfold service
  simp only [hready, hgo, Bool.or_eq_true, Bool.and_eq_true]
  by_cases hwait : node.goSeen = true ∨ before now (node.scheduled now).nextControl = true
  · exact .inl ⟨hwait, if_pos hwait⟩
  · rw [if_neg hwait]
    rw [not_or, Bool.not_eq_true] at hwait
    by_cases hgoes : coordinator = true ∧ node.peerReady = true
    · exact .inr (.inl ⟨hwait.1, hgoes.1, hgoes.2, if_pos hgoes⟩)
    · exact .inr (.inr ⟨hwait.1, hgoes, if_neg hgoes⟩)

/-- A frame raises flags and leaves the schedule alone. -/
theorem onCanRx_keeps (rxId : UInt32) (data : ControlFrame) (len : UInt32) :
    (node.peerReady = true → (node.onCanRx rxId data len).peerReady = true) ∧
      (node.goSeen = true → (node.onCanRx rxId data len).goSeen = true) ∧
      (node.onCanRx rxId data len).initialized = node.initialized ∧
      (node.onCanRx rxId data len).nextControl = node.nextControl := by
  unfold onCanRx
  split
  · split
    · exact ⟨fun _ => rfl, id, rfl, rfl⟩
    · split
      · exact ⟨id, fun _ => rfl, rfl, rfl⟩
      · exact ⟨id, id, rfl, rfl⟩
  · exact ⟨id, id, rfl, rfl⟩

/-- A service lowers no flag. -/
theorem service_keeps (coordinator : Bool) :
    (node.service coordinator now).2.peerReady = node.peerReady ∧
      (node.goSeen = true → (node.service coordinator now).2.goSeen = true) := by
  obtain ⟨hready, hgo, -⟩ := node.scheduled_flags now
  obtain ⟨-, hserved⟩ | ⟨-, -, -, hserved⟩ | ⟨hnot, -, hserved⟩ := node.service_cases now coordinator
  · rw [hserved]
    exact ⟨hready, fun h => hgo.trans h⟩
  · rw [hserved]
    exact ⟨hready, fun _ => rfl⟩
  · rw [hserved]
    exact ⟨hready, fun h => hgo.trans h⟩

theorem onCanRx_go : node.onCanRx 0x6F2 go 8 = { node with goSeen := true } := rfl

end HandshakeNode

/-! ## The bench -/

/-- Two boards and the frames on their way to each, with what an observer has written down: the time the
coordinator was last serviced, the go frames it has said, and those that were refused or lost. -/
structure Handshake where
  now : ℕ
  coordinator : HandshakeNode
  follower : HandshakeNode
  toCoordinator : List ControlFrame
  toFollower : List ControlFrame
  servedAt : ℕ
  goes : ℕ
  lostGoes : ℕ

namespace Handshake

open HandshakeNode

/-- `sent` is the driver's answer if the service sends a frame; `hearCoordinator` and `hearFollower` bring a
board its next frame. -/
inductive Event where
  | advance (ms : ℕ)
  | serveCoordinator (sent : Bool)
  | serveFollower (sent : Bool)
  | hearCoordinator
  | hearFollower
  | loseToCoordinator (i : ℕ)
  | loseToFollower (i : ℕ)
  deriving DecidableEq

def step (b : Handshake) : Event → Handshake
  | .advance ms => { b with now := b.now + ms }
  | .serveCoordinator sent =>
    let served := b.coordinator.service true (tick b.now)
    let frames := served.1.toList
    { b with
      coordinator := served.2
      servedAt := b.now
      toFollower := if sent then b.toFollower ++ frames else b.toFollower
      goes := b.goes + frames.count go
      lostGoes := if sent then b.lostGoes else b.lostGoes + frames.count go }
  | .serveFollower sent =>
    let served := b.follower.service false (tick b.now)
    { b with
      follower := served.2
      toCoordinator := if sent then b.toCoordinator ++ served.1.toList else b.toCoordinator }
  | .hearCoordinator =>
    match b.toCoordinator with
    | [] => b
    | data :: frames =>
      { b with coordinator := b.coordinator.onCanRx 0x6F2 data 8, toCoordinator := frames }
  | .hearFollower =>
    match b.toFollower with
    | [] => b
    | data :: frames => { b with follower := b.follower.onCanRx 0x6F2 data 8, toFollower := frames }
  | .loseToCoordinator i => { b with toCoordinator := b.toCoordinator.eraseIdx i }
  | .loseToFollower i =>
    { b with
      toFollower := b.toFollower.eraseIdx i
      lostGoes := b.lostGoes + if b.toFollower[i]? = some go then 1 else 0 }

/-- Both boards are reset. -/
def start (now : ℕ) : Handshake where
  now := now
  coordinator := .init
  follower := .init
  toCoordinator := []
  toFollower := []
  servedAt := now
  goes := 0
  lostGoes := 0

/-! ## Safety -/

/-- The coordinator hears only that the follower is ready, and says go once: its go is on the way, or has
arrived, or is lost. -/
structure Safe (b : Handshake) : Prop where
  said : ∀ data ∈ b.toFollower, data = ready ∨ data = go
  heard : ∀ data ∈ b.toCoordinator, data = ready
  running : b.toCoordinator ≠ [] ∨ b.coordinator.peerReady = true → b.follower.initialized = true
  answered : b.coordinator.goSeen = true → b.coordinator.peerReady = true
  once : b.goes = if b.coordinator.goSeen then 1 else 0
  kept : b.toFollower.count go + (if b.follower.goSeen then 1 else 0) + b.lostGoes = b.goes

/-- A frame taken out of a line. -/
theorem count_eraseIdx (frames : List ControlFrame) (i : ℕ) :
    (frames.eraseIdx i).count go + (if frames[i]? = some go then 1 else 0) = frames.count go := by
  induction frames generalizing i with
  | nil => simp
  | cons data frames ih =>
    cases i with
    | zero => simp [List.count_cons]
    | succ i =>
      rw [List.eraseIdx_cons_succ, List.getElem?_cons_succ, List.count_cons, List.count_cons, ← ih i]
      omega

theorem count_ready : [ready].count go = 0 := rfl

theorem count_go : [go].count go = 1 := rfl

namespace Safe

variable {b : Handshake} (h : Safe b)

include h

/-- A go that has been heard has been said. -/
theorem follower_goSeen (hgo : b.follower.goSeen = true) : b.coordinator.goSeen = true := by
  have honce := h.once
  have hkept := h.kept
  by_contra hnot
  rw [if_neg hnot] at honce
  rw [if_pos hgo] at hkept
  omega

theorem serveCoordinator (sent : Bool) : Safe (b.step (.serveCoordinator sent)) := by
  obtain ⟨hready, hgo, -⟩ := b.coordinator.scheduled_flags (tick b.now)
  have honce := h.once
  have hkept := h.kept
  simp only [step]
  obtain ⟨-, hserved⟩ | ⟨hnot, -, hpeer, hserved⟩ | ⟨hnot, -, hserved⟩ :=
    b.coordinator.service_cases (tick b.now) true
  · rw [hserved]
    refine ⟨?_, h.heard, ?_, ?_, ?_, ?_⟩ <;> simp only [Option.toList_none, List.append_nil, ite_self,
      List.count_nil, Nat.add_zero, hready, hgo]
    · exact h.said
    · exact h.running
    · exact h.answered
    · exact honce
    · exact hkept
  · rw [hserved]
    rw [hnot] at honce
    have hfollower : b.follower.goSeen = false := by
      by_contra hseen
      rw [h.follower_goSeen (by simpa using hseen)] at hnot
      cases hnot
    refine ⟨?_, h.heard, ?_, ?_, ?_, ?_⟩ <;> simp only [Option.toList_some, hready]
    · intro data hdata
      split at hdata
      · rcases List.mem_append.1 hdata with hdata | hdata
        · exact h.said data hdata
        · exact .inr (List.mem_singleton.1 hdata)
      · exact h.said data hdata
    · exact h.running
    · exact fun _ => hpeer
    · rw [count_go, honce]
      rfl
    · rw [count_go]
      split
      · rw [List.count_append, count_go]
        omega
      · omega
  · rw [hserved]
    rw [hnot] at honce
    refine ⟨?_, h.heard, ?_, ?_, ?_, ?_⟩ <;> simp only [Option.toList_some, hready, hgo, count_ready, Nat.add_zero,
      ite_self]
    · intro data hdata
      split at hdata
      · rcases List.mem_append.1 hdata with hdata | hdata
        · exact h.said data hdata
        · exact .inl (List.mem_singleton.1 hdata)
      · exact h.said data hdata
    · exact h.running
    · exact h.answered
    · rw [hnot]
      exact honce
    · split
      · rw [List.count_append, count_ready]
        exact hkept
      · exact hkept

theorem serveFollower (sent : Bool) : Safe (b.step (.serveFollower sent)) := by
  obtain ⟨hready, hgo, hinit⟩ := b.follower.scheduled_flags (tick b.now)
  simp only [step]
  obtain ⟨-, hserved⟩ | ⟨-, hfalse, -, -⟩ | ⟨-, -, hserved⟩ := b.follower.service_cases (tick b.now) false
  · rw [hserved]
    refine ⟨h.said, ?_, fun _ => hinit, h.answered, h.once, ?_⟩
    · simp only [Option.toList_none, List.append_nil, ite_self]
      exact h.heard
    · simp only [hgo]
      exact h.kept
  · cases hfalse
  · rw [hserved]
    refine ⟨h.said, ?_, fun _ => hinit, h.answered, h.once, ?_⟩
    · intro data hdata
      simp only [Option.toList_some] at hdata
      split at hdata
      · rcases List.mem_append.1 hdata with hdata | hdata
        · exact h.heard data hdata
        · exact List.mem_singleton.1 hdata
      · exact h.heard data hdata
    · simp only [hgo]
      exact h.kept

theorem hearCoordinator : Safe (b.step .hearCoordinator) := by
  simp only [step]
  split
  · exact h
  · next data frames hline =>
    obtain rfl := h.heard data (hline ▸ List.mem_cons_self)
    have hinit := h.running (.inl (hline ▸ List.cons_ne_nil _ _))
    refine ⟨h.said, fun data hdata => h.heard data ?_, fun _ => hinit, fun _ => rfl, h.once, h.kept⟩
    rw [hline]
    exact List.mem_cons_of_mem _ hdata

theorem hearFollower : Safe (b.step .hearFollower) := by
  have hkept := h.kept
  simp only [step]
  split
  · exact h
  · next data frames hline =>
    have hsaid : ∀ data ∈ frames, data = ready ∨ data = go := fun data hdata => by
      refine h.said data ?_
      rw [hline]
      exact List.mem_cons_of_mem _ hdata
    rw [hline] at hkept
    rcases h.said data (hline ▸ List.mem_cons_self) with rfl | rfl
    · exact ⟨hsaid, h.heard, h.running, h.answered, h.once, hkept⟩
    · refine ⟨hsaid, h.heard, h.running, h.answered, h.once, ?_⟩
      have honce := h.once
      rw [List.count_cons_self] at hkept
      simp only [onCanRx_go, if_true]
      split at honce <;> split at hkept <;> omega

theorem loseToCoordinator (i : ℕ) : Safe (b.step (.loseToCoordinator i)) := by
  refine ⟨h.said, fun data hdata => h.heard data (List.mem_of_mem_eraseIdx hdata), fun hrun => h.running ?_,
    h.answered, h.once, h.kept⟩
  refine hrun.imp_left fun hne hnil => hne ?_
  simp only [step, hnil, List.eraseIdx_nil]

theorem loseToFollower (i : ℕ) : Safe (b.step (.loseToFollower i)) := by
  have hkept := h.kept
  refine ⟨fun data hdata => h.said data (List.mem_of_mem_eraseIdx hdata), h.heard, h.running, h.answered, h.once,
    ?_⟩
  have hcount := count_eraseIdx b.toFollower i
  show (b.toFollower.eraseIdx i).count go + (if b.follower.goSeen then 1 else 0) +
    (b.lostGoes + if b.toFollower[i]? = some go then 1 else 0) = b.goes
  omega

/-- **One event.** -/
theorem step (e : Event) : Safe (b.step e) := by
  cases e with
  | advance ms => exact ⟨h.said, h.heard, h.running, h.answered, h.once, h.kept⟩
  | serveCoordinator sent => exact h.serveCoordinator sent
  | serveFollower sent => exact h.serveFollower sent
  | hearCoordinator => exact h.hearCoordinator
  | hearFollower => exact h.hearFollower
  | loseToCoordinator i => exact h.loseToCoordinator i
  | loseToFollower i => exact h.loseToFollower i

end Safe

theorem safe_start (now : ℕ) : Safe (start now) := by
  refine ⟨nofun, nofun, ?_, nofun, rfl, rfl⟩
  rintro (hne | hready)
  · exact absurd rfl hne
  · cases hready

/-- **No board starts before the other is running.** In every run, whatever is lost: the follower starts only
after the coordinator, the coordinator only when the follower's loop is running; the coordinator says go
exactly once, and that one go is on its way, or heard, or lost. -/
theorem handshake_safe (now : ℕ) (es : List Event) :
    let b := after step (start now) es
    (b.follower.goSeen = true → b.coordinator.goSeen = true) ∧
      (b.coordinator.goSeen = true → b.follower.initialized = true) ∧
      (b.goes = if b.coordinator.goSeen then 1 else 0) ∧
      b.toFollower.count go + (if b.follower.goSeen then 1 else 0) + b.lostGoes = b.goes := by
  have h : Safe (after step (start now) es) := after_invariant (safe_start now) (fun _ e h => h.step e) es
  exact ⟨h.follower_goSeen, fun hgo => h.running (.inr (h.answered hgo)), h.once, h.kept⟩

/-! ## Progress -/

/-- The coordinator's next frame is due at `deadline` at the latest. -/
structure Scheduled (deadline : ℕ) (b : Handshake) : Prop where
  served : b.servedAt ≤ b.now
  due : b.coordinator.initialized = true → ∃ due, b.coordinator.nextControl = tick due ∧
    b.servedAt ≤ due ∧ due ≤ deadline

/-- The coordinator is serviced less than half a turn of the clock after its last service. -/
def Prompt (b : Handshake) : Event → Prop
  | .serveCoordinator _ => b.now < b.servedAt + 2 ^ 31
  | _ => True

section Step

variable {b : Handshake} {deadline : ℕ}

/-- A board that still waits reads its deadline as ahead only when it is. -/
theorem Scheduled.waits (h : Scheduled deadline b) (hprompt : b.now < b.servedAt + 2 ^ 31)
    (hread : before (tick b.now) (b.coordinator.scheduled (tick b.now)).nextControl = true) :
    b.coordinator.scheduled (tick b.now) = b.coordinator ∧
      ∃ due, b.coordinator.nextControl = tick due ∧ b.now < due ∧ due ≤ deadline := by
  have hinit : b.coordinator.initialized = true := by
    by_contra hfresh
    rw [scheduled, if_neg hfresh, before_eq, reached_tick_of_le (Nat.le_refl _), Nat.sub_self] at hread
    simp at hread
  have hsame : b.coordinator.scheduled (tick b.now) = b.coordinator := if_pos hinit
  obtain ⟨due, hnext, hfrom, hto⟩ := h.due hinit
  refine ⟨hsame, due, hnext, ?_, hto⟩
  by_contra hpast
  rw [hsame, hnext, before_eq, reached_tick_of_le (Nat.le_of_not_lt hpast), decide_eq_true (by omega)] at hread
  cases hread

/-- Once it is due, a coordinator that has heard the follower says go. -/
theorem Scheduled.goes (h : Scheduled deadline b) (hprompt : b.now < b.servedAt + 2 ^ 31)
    (hpeer : b.coordinator.peerReady = true) (hdue : deadline ≤ b.now) (sent : Bool) :
    (b.step (.serveCoordinator sent)).coordinator.goSeen = true := by
  simp only [step]
  obtain ⟨hgo | hread, hserved⟩ | ⟨-, -, -, hserved⟩ | ⟨-, hnot, -⟩ := b.coordinator.service_cases (tick b.now) true
  · rw [hserved, (b.coordinator.scheduled_flags _).2.1]
    exact hgo
  · obtain ⟨-, due, -, hlt, hle⟩ := h.waits hprompt hread
    omega
  · rw [hserved]
  · exact absurd ⟨rfl, hpeer⟩ hnot

/-- A service that does not go leaves a deadline not later than any that suits it. -/
theorem Scheduled.serve {later : ℕ} (h : Scheduled deadline b) (hprompt : b.now < b.servedAt + 2 ^ 31)
    (hlater : deadline ≤ later) (hnext : b.coordinator.peerReady = true ∨ b.now + 100 ≤ later) (sent : Bool) :
    (b.step (.serveCoordinator sent)).coordinator.goSeen = true ∨
      Scheduled later (b.step (.serveCoordinator sent)) := by
  simp only [step]
  obtain ⟨hgo | hread, hserved⟩ | ⟨-, -, -, hserved⟩ | ⟨-, hnot, hserved⟩ :=
    b.coordinator.service_cases (tick b.now) true
  · rw [hserved, (b.coordinator.scheduled_flags _).2.1]
    exact .inl hgo
  · obtain ⟨hsame, due, hdue, hlt, hle⟩ := h.waits hprompt hread
    rw [hserved, hsame]
    exact .inr ⟨Nat.le_refl _, fun _ => ⟨due, hdue, Nat.le_of_lt hlt, Nat.le_trans hle hlater⟩⟩
  · rw [hserved]
    exact .inl rfl
  · rw [hserved]
    have hpeer : ¬b.coordinator.peerReady = true := fun hpeer => hnot ⟨rfl, hpeer⟩
    exact .inr ⟨Nat.le_refl _, fun _ => ⟨b.now + 100, (tick_add _ _).symm, Nat.le_add_right _ _,
      hnext.resolve_left hpeer⟩⟩

/-- Nothing but its service moves the coordinator's deadline. -/
theorem Scheduled.other {e : Event} (h : Scheduled deadline b) (he : ∀ sent, e ≠ .serveCoordinator sent) :
    Scheduled deadline (b.step e) ∧ (b.step e).servedAt = b.servedAt := by
  cases e with
  | serveCoordinator sent => exact absurd rfl (he sent)
  | advance ms => exact ⟨⟨Nat.le_trans h.served (Nat.le_add_right _ _), h.due⟩, rfl⟩
  | serveFollower sent => exact ⟨⟨h.served, h.due⟩, rfl⟩
  | loseToCoordinator i => exact ⟨⟨h.served, h.due⟩, rfl⟩
  | loseToFollower i => exact ⟨⟨h.served, h.due⟩, rfl⟩
  | hearFollower =>
    simp only [step]
    split <;> exact ⟨⟨h.served, h.due⟩, rfl⟩
  | hearCoordinator =>
    simp only [step]
    split
    · exact ⟨h, rfl⟩
    · next data frames hline =>
      obtain ⟨-, -, hinit, hnext⟩ := b.coordinator.onCanRx_keeps 0x6F2 data 8
      refine ⟨⟨h.served, fun hi => ?_⟩, rfl⟩
      obtain ⟨due, hdue, hbounds⟩ := h.due (hinit ▸ hi)
      exact ⟨due, hnext.trans hdue, hbounds⟩

/-- No flag is ever lowered, and no loss undone. -/
theorem step_keeps (b : Handshake) (e : Event) :
    (b.coordinator.peerReady = true → (b.step e).coordinator.peerReady = true) ∧
      (b.coordinator.goSeen = true → (b.step e).coordinator.goSeen = true) ∧
      (b.follower.goSeen = true → (b.step e).follower.goSeen = true) ∧
      b.lostGoes ≤ (b.step e).lostGoes ∧ b.now ≤ (b.step e).now := by
  cases e with
  | advance ms => exact ⟨id, id, id, Nat.le_refl _, Nat.le_add_right _ _⟩
  | serveCoordinator sent =>
    obtain ⟨hpeer, hgo⟩ := b.coordinator.service_keeps (tick b.now) true
    refine ⟨fun h => hpeer.trans h, hgo, id, ?_, Nat.le_refl _⟩
    simp only [step]
    split
    · exact Nat.le_refl _
    · exact Nat.le_add_right _ _
  | serveFollower sent =>
    obtain ⟨-, hgo⟩ := b.follower.service_keeps (tick b.now) false
    exact ⟨id, id, hgo, Nat.le_refl _, Nat.le_refl _⟩
  | hearCoordinator =>
    simp only [step]
    split
    · exact ⟨id, id, id, Nat.le_refl _, Nat.le_refl _⟩
    · next data frames hline =>
      obtain ⟨hpeer, hgo, -, -⟩ := b.coordinator.onCanRx_keeps 0x6F2 data 8
      exact ⟨hpeer, hgo, id, Nat.le_refl _, Nat.le_refl _⟩
  | hearFollower =>
    simp only [step]
    split
    · exact ⟨id, id, id, Nat.le_refl _, Nat.le_refl _⟩
    · next data frames hline =>
      obtain ⟨-, hgo, -, -⟩ := b.follower.onCanRx_keeps 0x6F2 data 8
      exact ⟨id, id, hgo, Nat.le_refl _, Nat.le_refl _⟩
  | loseToCoordinator i => exact ⟨id, id, id, Nat.le_refl _, Nat.le_refl _⟩
  | loseToFollower i => exact ⟨id, id, id, Nat.le_add_right _ _, Nat.le_refl _⟩

end Step

/-- The coordinator is serviced and the follower hears again and again, and time goes on. -/
structure Fair (x : Execution step) : Prop where
  served : ∀ n, ∃ m, n ≤ m ∧ ∃ sent, x.event m = .serveCoordinator sent
  heard : ∀ n, ∃ m, n ≤ m ∧ x.event m = .hearFollower
  time : ∀ t, ∃ n, t ≤ (x.state n).now
  prompt : ∀ n, Prompt (x.state n) (x.event n)

section Progress

variable {x : Execution Handshake.step} {begun : ℕ} (hstart : x.state 0 = start begun) (hfair : Fair x)

include hstart in
theorem safe (n : ℕ) : Safe (x.state n) :=
  x.invariant_of (C := fun _ _ => True) (hstart ▸ safe_start begun) (fun _ e h _ => h.step e)
    (fun _ => trivial) n

include hstart hfair in
/-- A coordinator that has not gone is due within 100 ms of its last service. -/
theorem timed (n : ℕ) :
    (x.state n).coordinator.goSeen = true ∨ Scheduled ((x.state n).servedAt + 100) (x.state n) := by
  refine x.invariant_of (I := fun b => b.coordinator.goSeen = true ∨ Scheduled (b.servedAt + 100) b)
    (C := Prompt) ?_ ?_ hfair.prompt n
  · rw [hstart]
    exact .inr ⟨Nat.le_refl _, nofun⟩
  · rintro b e (hgo | h) hprompt
    · exact .inl ((step_keeps b e).2.1 hgo)
    · by_cases he : ∀ sent, e ≠ .serveCoordinator sent
      · obtain ⟨hother, hserved⟩ := h.other he
        rw [hserved]
        exact .inr hother
      · obtain ⟨sent, he⟩ := not_forall.1 he
        obtain rfl := not_not.1 he
        exact h.serve hprompt (Nat.add_le_add_right h.served 100) (.inr (Nat.le_refl _)) sent

include hstart hfair in
/-- **The coordinator goes** once it has heard the follower. -/
theorem coordinator_goes {n : ℕ} (hpeer : (x.state n).coordinator.peerReady = true) :
    ∃ m, n ≤ m ∧ (x.state m).coordinator.goSeen = true := by
  by_contra hnever
  have hnot : ∀ m, n ≤ m → ¬(x.state m).coordinator.goSeen = true := fun m hm hgo => hnever ⟨m, hm, hgo⟩
  have hdeadline := (timed hstart hfair n).resolve_left (hnot n (Nat.le_refl n))
  generalize (x.state n).servedAt + 100 = deadline at hdeadline
  have hkept : ∀ m, n ≤ m → (x.state m).coordinator.peerReady = true ∧ Scheduled deadline (x.state m) := by
    intro m hm
    refine x.invariant_from (I := fun b => b.coordinator.peerReady = true ∧ Scheduled deadline b)
      ⟨hpeer, hdeadline⟩ (fun k hk h => ?_) hm
    have hprompt := hfair.prompt k
    have hnext := hnot (k + 1) (Nat.le_succ_of_le hk)
    rw [x.next] at hnext ⊢
    refine ⟨(step_keeps _ _).1 h.1, ?_⟩
    by_cases he : ∀ sent, x.event k ≠ .serveCoordinator sent
    · exact (h.2.other he).1
    · obtain ⟨sent, he⟩ := not_forall.1 he
      rw [not_not.1 he] at hprompt hnext ⊢
      exact (h.2.serve hprompt (Nat.le_refl _) (.inl h.1) sent).resolve_left hnext
  obtain ⟨late, hlate⟩ := hfair.time deadline
  obtain ⟨m, hm, sent, hserve⟩ := hfair.served (max n late)
  have hdue : deadline ≤ (x.state m).now :=
    x.invariant_from (I := fun b => deadline ≤ b.now) hlate
      (fun k _ h => x.next k ▸ Nat.le_trans h (step_keeps _ _).2.2.2.2) (Nat.le_trans (Nat.le_max_right _ _) hm)
  have hn : n ≤ m := Nat.le_trans (Nat.le_max_left _ _) hm
  have hprompt := hfair.prompt m
  have hnext := hnot (m + 1) (Nat.le_succ_of_le hn)
  rw [x.next, hserve] at hnext
  rw [hserve] at hprompt
  exact hnext ((hkept m hn).2.goes hprompt (hkept m hn).1 hdue sent)

/-- The frames before the go. -/
def ahead (b : Handshake) : ℕ := b.toFollower.idxOf go

theorem idxOf_eraseIdx_le (frames : List ControlFrame) (i : ℕ) (hi : frames[i]? ≠ some go) :
    (frames.eraseIdx i).idxOf go ≤ frames.idxOf go := by
  induction frames generalizing i with
  | nil => exact Nat.le_refl _
  | cons data frames ih =>
    cases i with
    | zero =>
      have hne : data ≠ go := fun h => hi (congrArg some h)
      rw [List.eraseIdx_cons_zero, List.idxOf_cons_ne _ hne]
      exact Nat.le_succ _
    | succ i =>
      rw [List.eraseIdx_cons_succ]
      by_cases hgo : data = go
      · rw [List.idxOf_cons_eq _ hgo]
        exact Nat.zero_le _
      · rw [List.idxOf_cons_ne _ hgo, List.idxOf_cons_ne _ hgo]
        exact Nat.succ_le_succ (ih i hi)

/-- A go that is said and neither heard nor lost is on its way. -/
theorem Safe.mem_go {b : Handshake} (h : Safe b) (hgo : b.coordinator.goSeen = true)
    (hwaits : ¬b.follower.goSeen = true) (hlost : b.lostGoes = 0) : go ∈ b.toFollower := by
  have honce := h.once
  have hkept := h.kept
  rw [if_pos hgo] at honce
  rw [if_neg hwaits] at hkept
  exact List.count_pos_iff.1 (by omega)

/-- On its way, the go falls no further behind. -/
theorem ahead_le {b : Handshake} (e : Event) (hmem : go ∈ b.toFollower) (hlost : (b.step e).lostGoes = b.lostGoes)
    (he : e ≠ .hearFollower) : ahead (b.step e) ≤ ahead b := by
  unfold ahead
  cases e with
  | advance ms => exact Nat.le_refl _
  | serveFollower sent => exact Nat.le_refl _
  | loseToCoordinator i => exact Nat.le_refl _
  | hearFollower => exact absurd rfl he
  | hearCoordinator =>
    simp only [step]
    split <;> exact Nat.le_refl _
  | serveCoordinator sent =>
    simp only [step]
    split
    · exact Nat.le_of_eq (List.idxOf_append_of_mem hmem)
    · exact Nat.le_refl _
  | loseToFollower i =>
    refine idxOf_eraseIdx_le _ i fun hi => ?_
    simp only [step, if_pos hi] at hlost
    omega

/-- The follower hears the go, or the go is one frame nearer. -/
theorem ahead_hear {b : Handshake} (hmem : go ∈ b.toFollower) :
    (b.step .hearFollower).follower.goSeen = true ∨ ahead (b.step .hearFollower) < ahead b := by
  simp only [step]
  split
  · next hline =>
    rw [hline] at hmem
    cases hmem
  · next data frames hline =>
    by_cases hdata : data = go
    · rw [hdata, onCanRx_go]
      exact .inl rfl
    · refine .inr ?_
      rw [ahead, ahead, hline, List.idxOf_cons_ne _ hdata]
      exact Nat.lt_succ_self _

include hstart hfair in
/-- **The follower goes** unless the go is lost. -/
theorem follower_goes (hlost : ∀ n, (x.state n).lostGoes = 0) {n : ℕ}
    (hgo : (x.state n).coordinator.goSeen = true) : ∃ m, n ≤ m ∧ (x.state m).follower.goSeen = true := by
  have hgone : ∀ m, n ≤ m → (x.state m).coordinator.goSeen = true := fun m hm =>
    x.invariant_from (I := fun b => b.coordinator.goSeen = true) hgo
      (fun k _ h => x.next k ▸ (step_keeps _ _).2.1 h) hm
  have hnearer : ∀ k, ¬((x.state k).coordinator.goSeen = true → (x.state k).follower.goSeen = true) →
      ∃ m, k ≤ m ∧ (((x.state m).coordinator.goSeen = true → (x.state m).follower.goSeen = true) ∨
        ahead (x.state m) < ahead (x.state k)) := by
    intro k hk
    rw [Classical.not_imp] at hk
    have hkeep : ∀ i, k ≤ i → (x.state i).coordinator.goSeen = true ∧ ahead (x.state i) ≤ ahead (x.state k) →
        x.event i ≠ .hearFollower →
        ((x.state (i + 1)).coordinator.goSeen = true ∧ ahead (x.state (i + 1)) ≤ ahead (x.state k)) ∨
          (x.state (i + 1)).follower.goSeen = true := by
      intro i _ ⟨hsaid, hle⟩ he
      by_cases hheard : (x.state i).follower.goSeen = true
      · rw [x.next]
        exact .inr ((step_keeps _ _).2.2.1 hheard)
      · have hmem := (safe hstart i).mem_go hsaid hheard (hlost i)
        have hlast := hlost (i + 1)
        rw [x.next] at hlast ⊢
        exact .inl ⟨(step_keeps _ _).2.1 hsaid,
          Nat.le_trans (ahead_le _ hmem (hlast.trans (hlost i).symm) he) hle⟩
    obtain ⟨m, hm, hreached | ⟨⟨hsaid, hle⟩, hhear⟩⟩ :=
      x.first_helpful (P := fun b => b.coordinator.goSeen = true ∧ ahead b ≤ ahead (x.state k))
        (R := fun b => b.follower.goSeen = true) (H := fun i => x.event i = .hearFollower)
        ⟨hk.1, Nat.le_refl _⟩ hkeep (hfair.heard k)
    · exact ⟨m, hm, .inl fun _ => hreached⟩
    · by_cases hheard : (x.state m).follower.goSeen = true
      · exact ⟨m, hm, .inl fun _ => hheard⟩
      · have hmem := (safe hstart m).mem_go hsaid hheard (hlost m)
        refine ⟨m + 1, Nat.le_succ_of_le hm, ?_⟩
        rw [x.next, hhear]
        rcases ahead_hear hmem with hgoes | hlt
        · exact .inl fun _ => hgoes
        · exact .inr (Nat.lt_of_lt_of_le hlt hle)
  obtain ⟨m, hm, hdone⟩ := x.exists_goal_of_rank
    (fun b => b.coordinator.goSeen = true → b.follower.goSeen = true) ahead hnearer n
  exact ⟨m, hm, hdone (hgone m hm)⟩

end Progress

/-- **When both boards start.** In every fair execution in which the coordinator hears that the follower is
ready, both boards start if and only if the go is not lost. -/
theorem both_start_iff (x : Execution step) (begun : ℕ) (hstart : x.state 0 = start begun) (hfair : Fair x)
    (hready : ∃ n, (x.state n).coordinator.peerReady = true) :
    (∃ n, (x.state n).coordinator.goSeen = true ∧ (x.state n).follower.goSeen = true) ↔
      ∀ n, (x.state n).lostGoes = 0 := by
  constructor
  · rintro ⟨n, -, hboth⟩ k
    have hheard : ∀ m, n ≤ m → (x.state m).lostGoes = 0 := by
      intro m hm
      have hseen : (x.state m).follower.goSeen = true := x.invariant_from
        (I := fun b => b.follower.goSeen = true) hboth (fun i _ h => x.next i ▸ (step_keeps _ _).2.2.1 h) hm
      have hsafe := safe hstart m
      have honce := hsafe.once
      have hkept := hsafe.kept
      rw [if_pos hseen] at hkept
      rw [if_pos (hsafe.follower_goSeen hseen)] at honce
      omega
    have hle : (x.state k).lostGoes ≤ (x.state (max n k)).lostGoes := x.invariant_from
      (I := fun b => (x.state k).lostGoes ≤ b.lostGoes) (Nat.le_refl _)
      (fun i _ h => x.next i ▸ Nat.le_trans h (step_keeps _ _).2.2.2.1) (Nat.le_max_right n k)
    rw [hheard _ (Nat.le_max_left n k)] at hle
    exact Nat.le_zero.1 hle
  · intro hlost
    obtain ⟨n, hpeer⟩ := hready
    obtain ⟨m, -, hgo⟩ := coordinator_goes hstart hfair hpeer
    obtain ⟨k, -, hheard⟩ := follower_goes hstart hfair hlost hgo
    exact ⟨k, (safe hstart k).follower_goSeen hheard, hheard⟩

/-- 100 ms, and each party in its turn. -/
def turns (n : ℕ) : Event :=
  match n % 5 with
  | 0 => .advance 100
  | 1 => .serveFollower true
  | 2 => .hearCoordinator
  | 3 => .serveCoordinator true
  | _ => .hearFollower

def rounds : Execution Handshake.step := .ofEvents Handshake.step (start 0) turns

theorem rounds_times (n : ℕ) :
    (rounds.state n).now = 100 * ((n + 4) / 5) ∧ (rounds.state n).servedAt = 100 * ((n + 1) / 5) := by
  have htimes : ∀ (b : Handshake) (e : Event),
      (b.step e).now = (match e with | .advance ms => b.now + ms | _ => b.now) ∧
      (b.step e).servedAt = (match e with | .serveCoordinator _ => b.now | _ => b.servedAt) := by
    intro b e
    cases e with
    | hearCoordinator | hearFollower =>
      simp only [step]
      split <;> exact ⟨rfl, rfl⟩
    | _ => exact ⟨rfl, rfl⟩
  have hevent : ∀ m, rounds.event m = turns m := fun _ => rfl
  induction n with
  | zero => exact ⟨rfl, rfl⟩
  | succ n ih =>
    obtain ⟨hnow, hserved⟩ := htimes (rounds.state n) (rounds.event n)
    rw [rounds.next, hnow, hserved, ih.1, ih.2, hevent, turns]
    obtain h | h | h | h | h : n % 5 = 0 ∨ n % 5 = 1 ∨ n % 5 = 2 ∨ n % 5 = 3 ∨ n % 5 = 4 := by omega
    all_goals
      rw [h]
      simp only
      omega

theorem rounds_fair : Fair rounds := by
  have hevent : ∀ m, rounds.event m = turns m := fun _ => rfl
  refine ⟨fun n => ⟨5 * n + 3, by omega, true, ?_⟩, fun n => ⟨5 * n + 4, by omega, ?_⟩,
    fun t => ⟨5 * t, ?_⟩, fun n => ?_⟩
  · rw [hevent, turns, Nat.mul_add_mod]
    rfl
  · rw [hevent, turns, Nat.mul_add_mod]
    rfl
  · rw [(rounds_times _).1]
    omega
  · unfold Prompt
    split
    · rw [(rounds_times n).1, (rounds_times n).2]
      omega
    · trivial

theorem both_start_rounds :
    (∃ n, (rounds.state n).coordinator.goSeen = true ∧ (rounds.state n).follower.goSeen = true) ∧
      ∀ n, (rounds.state n).lostGoes = 0 := by
  have hboth : ∃ n, (rounds.state n).coordinator.goSeen = true ∧ (rounds.state n).follower.goSeen = true :=
    ⟨5, by decide, by decide⟩
  exact ⟨hboth, (both_start_iff rounds 0 rfl rounds_fair ⟨3, by decide⟩).1 hboth⟩

end Handshake

end DualCan.App
