import DualCan.Emu.Sized
import DualCan.Isotp.Reception
import DualCan.Run.Past

/-!
# The thread of the virtual ECU

`VirtualEcu._loop` with the transport's `receive` and `send`. The thread reads the frames with its request
identifier from the bus in their order; a step is one frame read, one frame sent or one pass through code
without either. A wait may end by its deadline at any time. An exception that `_loop` does not catch ends
the thread: `receive` raises one for a frame it does not expect, `send` one when a Flow Control frame is
missing or is not CTS. Sending on the bus does not fail.
-/

namespace DualCan.Emu

open DualCan.Isotp DualCan.Run

/-- The transport of `VirtualEcu`; block size, STmin and padding are the defaults. -/
def transport : Py.IsoTpTransport := {}

/-- Where the thread stands. A call of `send` comes from `_flush_deferred`, with the time that it read, or
from the end of the loop's body. -/
inductive LoopPc where
  | top
  | flushing (now : ℕ)
  | waiting
  | receiving (r : Py.Reception)
  | sending (call : Py.Call) (flush : Option ℕ)
  | finished
  | crashed (message : String)

namespace LoopPc

/-- The thread waits for a Flow Control frame. -/
def awaitsGrant : LoopPc → Bool
  | .sending (.waitFlowControl _) _ => true
  | _ => false

/-- A frame on which the thread does not raise: a Single Frame or a First Frame for more than 7 bytes where
a request begins, the next Consecutive Frame inside one, CTS or WAIT where a grant is awaited. -/
def Tolerates : LoopPc → Frame → Prop
  | .waiting, frame => frame.pci = pciSf ∨ (frame.pci = pciFf ∧ 7 < IsotpRx.declaredOf frame)
  | .receiving r, frame => frame.pci = pciCf → frame.low.toNat = r.expectedIndex
  | .sending (.waitFlowControl _) _, frame =>
    frame.pci = pciFc → frame.low = fcCts ∨ frame.low = fcWait
  | _, _ => True

instance : ∀ (pc : LoopPc) (frame : Frame), Decidable (pc.Tolerates frame)
  | .waiting, frame =>
    inferInstanceAs (Decidable (frame.pci = pciSf ∨ (frame.pci = pciFf ∧ 7 < IsotpRx.declaredOf frame)))
  | .receiving r, frame => inferInstanceAs (Decidable (frame.pci = pciCf → frame.low.toNat = r.expectedIndex))
  | .sending (.waitFlowControl _) _, frame =>
    inferInstanceAs (Decidable (frame.pci = pciFc → frame.low = fcCts ∨ frame.low = fcWait))
  | .sending (.sendFrame ..) _, _ | .sending .returned _, _ | .sending (.raised _) _, _ => isTrue trivial
  | .top, _ | .flushing _, _ | .finished, _ | .crashed _, _ => isTrue trivial

/-- The exception that ended the thread. -/
def exception : LoopPc → Option String
  | .crashed message => some message
  | _ => none

end LoopPc

/-- The thread's state; `bus` holds the frames for it that it has not read. -/
structure EcuThread where
  ecu : VirtualEcu
  pc : LoopPc
  stop : Bool
  bus : List Frame
  sent : List (List UInt8)

namespace EcuThread

/-- `VirtualEcu.start`. -/
def start (ecu : VirtualEcu) : EcuThread where
  ecu := ecu
  pc := .top
  stop := false
  bus := []
  sent := []

/-- `_handle`, and the call of `send` when there is a response. -/
def answer (s : EcuThread) (request : List UInt8) (now : ℕ) : EcuThread :=
  let (response, ecu) := s.ecu.handle request now
  match response with
  | none => { s with ecu := ecu, pc := .top }
  | some bytes => { s with ecu := ecu, pc := .sending (Py.send bytes transport.padding) none }

/-- `receive` with a frame: what it sends, and how it goes on. -/
def received (s : EcuThread) (outcome : List (List UInt8) × Py.Receipt) (now : ℕ) : EcuThread :=
  let s := { s with sent := s.sent ++ outcome.1 }
  match outcome.2 with
  | .waiting r => { s with pc := .receiving r }
  | .returned request => s.answer request now
  | .raised message => { s with pc := .crashed message }

/-- A step of the thread; `now` is what it reads from the clock. -/
def run (s : EcuThread) (now : ℕ) : EcuThread :=
  match s.pc with
  | .top => if s.stop then { s with pc := .finished } else { s with pc := .flushing now }
  | .flushing due =>
    match s.ecu.deferred with
    | [] => { s with ecu := s.ecu.expireSession now, pc := .waiting }
    | (deadline, response) :: rest =>
      if deadline ≤ due then
        { s with
          ecu := { s.ecu with deferred := rest }
          pc := .sending (Py.send response transport.padding) (some due) }
      else { s with ecu := s.ecu.expireSession now, pc := .waiting }
  | .waiting =>
    match s.bus with
    | [] => s
    | frame :: rest => { s with bus := rest }.received (transport.receiveFirst frame) now
  | .receiving r =>
    match s.bus with
    | [] => s
    | frame :: rest => { s with bus := rest }.received (transport.receiveNext r frame) now
  | .sending (.sendFrame data next) flush => { s with sent := s.sent ++ [data], pc := .sending next flush }
  | .sending (.waitFlowControl next) flush =>
    match s.bus with
    | [] => s
    | frame :: rest =>
      let s := { s with bus := rest }
      if frame.pci = pciFc && frame.low ≠ fcWait then
        { s with
          pc := .sending
            (next frame.low (getElem frame 1 Frame.one_lt).toNat (getElem frame 2 Frame.two_lt).toNat) flush }
      else s
  | .sending .returned none => { s with pc := .top }
  | .sending .returned (some due) => { s with pc := .flushing due }
  | .sending (.raised message) _ => { s with pc := .crashed message }
  | .finished => s
  | .crashed _ => s

/-- The deadline of a wait passes. `_loop` catches the `TimeoutError` of `receive` only. -/
def expire (s : EcuThread) : EcuThread :=
  match s.pc with
  | .waiting | .receiving _ => { s with pc := .top }
  | .sending (.waitFlowControl _) _ => { s with pc := .crashed "timed out waiting for ISO-TP frame" }
  | _ => s

inductive Event where
  | arrive (frame : Frame)
  | run (now : ℕ)
  | expire
  | stop

def step (s : EcuThread) : Event → EcuThread
  | .arrive frame => { s with bus := s.bus ++ [frame] }
  | .run now => s.run now
  | .expire => s.expire
  | .stop => { s with stop := true }

/-! ## Tame steps -/

/-- The step does not meet what `_loop` lets through: the frame it reads is one the thread tolerates, and
a wait for a grant does not expire. -/
def Tame (s : EcuThread) : Event → Prop
  | .run _ => ∀ frame ∈ s.bus.head?, s.pc.Tolerates frame
  | .expire => s.pc.awaitsGrant = false
  | _ => True

instance (s : EcuThread) : ∀ e, Decidable (Tame s e)
  | .run _ => (Option.decidableForallMem s.bus.head? : Decidable (∀ frame ∈ s.bus.head?, s.pc.Tolerates frame))
  | .expire => inferInstanceAs (Decidable (s.pc.awaitsGrant = false))
  | .arrive _ | .stop => isTrue trivial

/-- What a tame run keeps of the thread's place; it ends by `stop` only. -/
def Sound (stop : Bool) : LoopPc → Prop
  | .receiving r => r.totalLength ≤ 4095
  | .sending call _ => Py.Granted call
  | .finished => stop = true
  | .crashed _ => False
  | _ => True

structure Alive (s : EcuThread) : Prop where
  sized : s.ecu.Sized
  sound : Sound s.stop s.pc

/-- A request in reception or received is at most a message long, and nothing is raised. -/
def Bounded : Py.Receipt → Prop
  | .waiting r => r.totalLength ≤ 4095
  | .returned request => request.length ≤ 4095
  | .raised _ => False

variable {s : EcuThread} {frame : Frame}

theorem bounded_receiveFirst (h : LoopPc.waiting.Tolerates frame) :
    Bounded (transport.receiveFirst frame).2 := by
  unfold Py.IsoTpTransport.receiveFirst
  rcases h with hsf | ⟨hff, hlong⟩
  · rw [if_pos hsf]
    exact Nat.le_trans (List.length_take_le _ _) (Nat.le_trans (Nat.le_of_lt (UInt8.toNat_lt _)) (by decide))
  · rw [if_neg (by rw [hff]; decide), if_neg (by rw [hff]; decide)]
    unfold IsotpRx.declaredOf at hlong
    dsimp only
    rw [if_neg (by unfold sfPayloadMax; omega), Py.IsoTpTransport.grantBlock_waiting]
    exact declaredOf_le frame

theorem bounded_resume {r : Py.Reception} (hr : r.totalLength ≤ 4095) : Bounded (transport.resume r).2 := by
  by_cases hopen : r.payload.length < r.totalLength
  · obtain ⟨count, hcount⟩ := Py.IsoTpTransport.resume_open (t := transport) hopen
    rw [hcount]
    exact hr
  · rw [Py.IsoTpTransport.resume_closed hopen]
    exact Nat.le_trans (List.length_take_le _ _) hr

theorem bounded_receiveNext {r : Py.Reception} (hr : r.totalLength ≤ 4095)
    (h : (LoopPc.receiving r).Tolerates frame) : Bounded (transport.receiveNext r frame).2 := by
  unfold Py.IsoTpTransport.receiveNext
  by_cases hcf : frame.pci = pciCf
  · rw [if_neg (fun hne => hne hcf), if_neg (fun hne => hne (h hcf))]
    refine bounded_resume ?_
    exact hr
  · rw [if_pos hcf]
    exact hr

theorem alive_answer (h : s.ecu.Sized) {request : List UInt8} (hrequest : request.length ≤ 4095) (now : ℕ) :
    Alive (s.answer request now) := by
  have hfits := VirtualEcu.handle_fits h request now hrequest
  unfold answer
  dsimp only
  split
  · exact ⟨hfits.sized, trivial⟩
  · next bytes hbytes =>
    obtain ⟨h1, hmax⟩ := hfits.length bytes hbytes
    exact ⟨hfits.sized, Py.granted_send _ h1 hmax⟩

theorem alive_received (h : s.ecu.Sized) {outcome : List (List UInt8) × Py.Receipt}
    (hbounded : Bounded outcome.2) (now : ℕ) : Alive (s.received outcome now) := by
  unfold received
  cases houtcome : outcome.2 with
  | waiting r =>
    rw [houtcome] at hbounded
    exact ⟨h, hbounded⟩
  | returned request =>
    rw [houtcome] at hbounded
    refine alive_answer ?_ hbounded now
    exact h
  | raised message =>
    rw [houtcome] at hbounded
    exact hbounded.elim

theorem Alive.run (h : Alive s) {now : ℕ} (htame : Tame s (.run now)) : Alive (s.run now) := by
  have hpc := h.sound
  unfold Tame at htame
  unfold EcuThread.run
  cases hs : s.pc with
  | top =>
    dsimp only
    split
    · next hstop => exact ⟨h.sized, hstop⟩
    · exact ⟨h.sized, trivial⟩
  | flushing due =>
    dsimp only
    have hexpired := VirtualEcu.sized_expireSession h.sized now
    split
    · exact ⟨hexpired, trivial⟩
    · next deadline response rest hdeferred =>
      split
      · have hentry := h.sized.deferred (deadline, response) (by rw [hdeferred]; exact List.mem_cons_self ..)
        refine ⟨⟨h.sized.dids, h.sized.routines, fun entry hmem => h.sized.deferred entry ?_⟩,
          Py.granted_send _ hentry.1 hentry.2⟩
        rw [hdeferred]
        exact List.mem_cons_of_mem _ hmem
      · exact ⟨hexpired, trivial⟩
  | waiting =>
    rw [hs] at htame
    dsimp only
    split
    · exact h
    · next frame rest hbus =>
      refine alive_received ?_ (bounded_receiveFirst (htame frame (by rw [hbus]; rfl))) now
      exact h.sized
  | receiving r =>
    rw [hs] at htame hpc
    dsimp only
    split
    · exact h
    · next frame rest hbus =>
      refine alive_received ?_ (bounded_receiveNext hpc (htame frame (by rw [hbus]; rfl))) now
      exact h.sized
  | sending call flush =>
    rw [hs] at htame hpc
    cases hpc with
    | sendFrame hnext => exact ⟨h.sized, hnext⟩
    | waitFlowControl hnext =>
      dsimp only
      split
      · exact h
      · next frame rest hbus =>
        have hgrant := htame frame (by rw [hbus]; rfl)
        split
        · next hfc =>
          obtain ⟨hpci, hlow⟩ := by simpa using hfc
          have hcts : frame.low = fcCts := (hgrant hpci).resolve_right hlow
          refine ⟨h.sized, ?_⟩
          rw [hcts]
          exact hnext _ _
        · exact ⟨h.sized, .waitFlowControl hnext⟩
    | returned => cases flush <;> exact ⟨h.sized, trivial⟩
  | finished => exact h
  | crashed message =>
    rw [hs] at hpc
    exact hpc.elim

/-- **One tame step.** -/
theorem Alive.step (h : Alive s) (e : Event) (htame : Tame s e) : Alive (s.step e) := by
  cases e with
  | arrive frame => exact ⟨h.sized, h.sound⟩
  | run now => exact h.run htame
  | expire =>
    unfold Tame at htame
    unfold EcuThread.step expire
    dsimp only
    split
    · exact ⟨h.sized, trivial⟩
    · exact ⟨h.sized, trivial⟩
    · next next flush hs =>
      rw [hs] at htame
      cases htame
    · exact h
  | stop =>
    refine ⟨h.sized, ?_⟩
    have hsound := h.sound
    unfold EcuThread.step
    dsimp only
    cases hs : s.pc with
    | finished => rfl
    | _ =>
      rw [hs] at hsound
      exact hsound

theorem Alive.after (h : Alive s) (es : List Event) (htame : AllSteps EcuThread.step s Tame es) :
    Alive (after EcuThread.step s es) :=
  after_invariant_of (I := Alive) h (fun _ e h htame => h.step e htame) es htame

end EcuThread

end DualCan.Emu
