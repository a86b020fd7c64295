import DualCan.Emu.Loop

/-!
# The virtual ECU after a tame run

In a run whose steps are all tame the thread is never ended by an exception (`Alive`); when it has read all
its frames and was not stopped it comes back to its wait for a request, and a request that arrives there,
of one frame or of many, gets to `_handle` whole. One step that is not tame is enough to end the thread.
-/

namespace DualCan.Emu

open DualCan.Isotp DualCan.Run

namespace EcuThread

variable {s : EcuThread} {frame : Frame}

/-! ## Back to the next request -/

/-- The thread comes to its next wait for a request by tame steps. -/
def Recovers (s : EcuThread) : Prop :=
  ∃ es, AllSteps step s Tame es ∧ (Run.after step s es).pc = .waiting ∧ (Run.after step s es).bus = []

theorem Recovers.of_step {e : Event} (htame : Tame s e) (h : Recovers (s.step e)) : Recovers s := by
  obtain ⟨es, hes, hpc, hbus⟩ := h
  exact ⟨e :: es, allSteps_cons.2 ⟨htame, hes⟩, hpc, hbus⟩

theorem tame_run (hbus : s.bus = []) (now : ℕ) : Tame s (.run now) := by
  unfold Tame
  rw [hbus]
  nofun

theorem Recovers.of_run (hbus : s.bus = []) (now : ℕ) (h : Recovers (s.run now)) : Recovers s :=
  .of_step (tame_run hbus now) h

/-- The tester's grant. -/
def cts : Frame := Frame.fill 0xCC [0x30, 0x00, 0x00]

/-- A granted call of `send` returns when the tester grants what it waits for. -/
theorem recovers_of_sent {call : Py.Call} (hcall : Py.Granted call) {flush : Option ℕ}
    (hret : ∀ sent, Recovers { s with pc := .sending .returned flush, sent := sent }) (hbus : s.bus = [])
    (hpc : s.pc = .sending call flush) : Recovers s := by
  induction hcall generalizing s with
  | @sendFrame data next hnext ih =>
    refine .of_run hbus 0 ?_
    unfold run
    rw [hpc]
    exact ih hret hbus rfl
  | @waitFlowControl next hnext ih =>
    have hread : (s.step (.arrive cts)).run 0 =
        { s with
          bus := []
          pc := .sending
            (next fcCts (getElem cts 1 Frame.one_lt).toNat (getElem cts 2 Frame.two_lt).toNat) flush } := by
      have hcts : (cts.pci = pciFc && cts.low ≠ fcWait) = true := by decide
      unfold step run
      dsimp only
      rw [hpc, hbus]
      dsimp only [List.nil_append]
      rw [if_pos hcts]
      rfl
    have htame : Tame (s.step (.arrive cts)) (.run 0) := by
      unfold Tame step
      dsimp only
      rw [hpc, hbus]
      rintro frame ⟨⟩
      exact fun _ => Or.inl (by decide)
    refine .of_step (e := .arrive cts) trivial (.of_step htame ?_)
    change Recovers ((s.step (.arrive cts)).run 0)
    rw [hread]
    refine ih _ _ (fun sent => ?_) rfl rfl
    have hs := hret sent
    rwa [hbus] at hs
  | returned =>
    have hs := hret s.sent
    rwa [← hpc] at hs

theorem recovers_of_flushing {due : ℕ} (hsized : s.ecu.Sized) (hbus : s.bus = [])
    (hpc : s.pc = .flushing due) : Recovers s := by
  induction hn : s.ecu.deferred generalizing s with
  | nil =>
    refine .of_run hbus 0 ?_
    unfold run
    rw [hpc, hn]
    exact ⟨[], allSteps_nil, rfl, hbus⟩
  | cons entry rest ih =>
    obtain ⟨deadline, response⟩ := entry
    refine .of_run hbus 0 ?_
    unfold run
    rw [hpc, hn]
    dsimp only
    split
    · have hentry := hsized.deferred (deadline, response) (by rw [hn]; exact List.mem_cons_self ..)
      have hrest : ∀ e ∈ rest, 1 ≤ e.2.length ∧ e.2.length ≤ 4095 := by
        intro e he
        exact hsized.deferred e (by rw [hn]; exact List.mem_cons_of_mem _ he)
      refine recovers_of_sent (Py.granted_send _ hentry.1 hentry.2) (fun sent => ?_) hbus rfl
      refine .of_run hbus 0 ?_
      exact ih ⟨hsized.dids, hsized.routines, hrest⟩ hbus rfl rfl
    · exact ⟨[], allSteps_nil, rfl, hbus⟩

theorem recovers_of_top (hsized : s.ecu.Sized) (hstop : s.stop = false) (hbus : s.bus = [])
    (hpc : s.pc = .top) : Recovers s := by
  refine .of_run hbus 0 ?_
  unfold run
  rw [hpc, hstop]
  exact recovers_of_flushing hsized hbus rfl

/-- **The thread comes back to its wait for a request** when it has read what was sent to it and is not
stopped. -/
theorem Alive.recovers (h : Alive s) (hstop : s.stop = false) (hbus : s.bus = []) : Recovers s := by
  have hsound := h.sound
  cases hpc : s.pc with
  | top => exact recovers_of_top h.sized hstop hbus hpc
  | flushing due => exact recovers_of_flushing h.sized hbus hpc
  | waiting => exact ⟨[], allSteps_nil, hpc, hbus⟩
  | receiving r =>
    have htame : Tame s .expire := by
      unfold Tame
      rw [hpc]
      rfl
    refine .of_step htame ?_
    unfold EcuThread.step expire
    dsimp only
    rw [hpc]
    exact recovers_of_top h.sized hstop hbus rfl
  | sending call flush =>
    rw [hpc] at hsound
    refine recovers_of_sent hsound (fun sent => .of_run hbus 0 ?_) hbus hpc
    cases flush with
    | none => exact recovers_of_top h.sized hstop hbus rfl
    | some due => exact recovers_of_flushing h.sized hbus rfl
  | finished =>
    rw [hpc, hstop] at hsound
    cases hsound
  | crashed message =>
    rw [hpc] at hsound
    exact hsound.elim

/-! ## A request is handled -/

theorem after_arrivals (s : EcuThread) (frames : List Frame) :
    after step s (frames.map .arrive) = { s with bus := s.bus ++ frames } := by
  induction frames generalizing s with
  | nil =>
    rw [List.append_nil]
    rfl
  | cons frame frames ih =>
    rw [List.map_cons, after_cons, ih]
    unfold step
    dsimp only
    rw [List.append_assoc]
    rfl

variable {request : List UInt8} {padding : UInt8}

theorem run_waiting (hpc : s.pc = .waiting) {rest : List Frame} (hbus : s.bus = frame :: rest) (now : ℕ) :
    s.run now = received { s with bus := rest } (transport.receiveFirst frame) now := by
  unfold run
  rw [hpc, hbus]

theorem run_receiving {r : Py.Reception} (hpc : s.pc = .receiving r) {rest : List Frame}
    (hbus : s.bus = frame :: rest) (now : ℕ) :
    s.run now = received { s with bus := rest } (transport.receiveNext r frame) now := by
  unfold run
  rw [hpc, hbus]

theorem received_waiting {outcome : List (List UInt8) × Py.Receipt} {r : Py.Reception}
    (h : outcome.2 = .waiting r) (now : ℕ) :
    s.received outcome now = { s with sent := s.sent ++ outcome.1, pc := .receiving r } := by
  unfold received
  rw [h]

theorem received_returned {outcome : List (List UInt8) × Py.Receipt} (h : outcome.2 = .returned request)
    (now : ℕ) : s.received outcome now = answer { s with sent := s.sent ++ outcome.1 } request now := by
  unfold received
  rw [h]

/-- The next Consecutive Frame of a request. -/
theorem run_segment {k blockCount : ℕ} (hk : k < cfCount request) (hlong : 7 < request.length)
    (hpc : s.pc = .receiving (Py.IsoTpTransport.receptionAt request blockCount k))
    (hbus : s.bus = (segments padding request).drop (k + 1)) (now : ℕ) :
    (k + 1 = cfCount request ∧ ∃ sent, s.run now = answer { s with bus := [], sent := sent } request now) ∨
    (k + 1 < cfCount request ∧ ∃ count sent, s.run now =
      { s with
        bus := (segments padding request).drop (k + 1 + 1)
        pc := .receiving (Py.IsoTpTransport.receptionAt request count (k + 1))
        sent := sent }) := by
  have hhead : s.bus = cfAt padding request (k + 1) :: (segments padding request).drop (k + 1 + 1) := by
    have hsegment : (segments padding request)[k + 1]? = some (cfAt padding request (k + 1)) :=
      segments_cf hlong (Nat.succ_pos k) hk
    obtain ⟨hin, hget⟩ := List.getElem?_eq_some_iff.1 hsegment
    rw [hbus, List.drop_eq_getElem_cons hin, hget]
  have hrun := run_receiving hpc hhead now
  rcases Py.IsoTpTransport.receiveNext_segment transport padding hk blockCount with
    ⟨hend, hreturned⟩ | ⟨hmore, count, hwaiting⟩
  · have hlast : (segments padding request).drop (k + 1 + 1) = [] := by
      have hlength : (segments padding request).length = k + 1 + 1 := by rw [length_segments_mf hlong, ← hend]
      exact List.drop_eq_nil_of_le (Nat.le_of_eq hlength)
    rw [hlast] at hrun
    exact Or.inl ⟨hend, _, hrun.trans (received_returned hreturned now)⟩
  · exact Or.inr ⟨hmore, count, _, hrun.trans (received_waiting hwaiting now)⟩

/-- The rest of a request's frames, one in each step. -/
theorem answer_of_receiving (s : EcuThread) (padding : UInt8) (k blockCount : ℕ) (times : List ℕ) (now : ℕ)
    (hlen : k + times.length + 1 = cfCount request) (hlong : 7 < request.length)
    (hpc : s.pc = .receiving (Py.IsoTpTransport.receptionAt request blockCount k))
    (hbus : s.bus = (segments padding request).drop (k + 1)) :
    ∃ sent, after step s (times.map .run ++ [.run now]) =
      answer { s with bus := [], sent := sent } request now := by
  induction times generalizing s k blockCount with
  | nil =>
    rw [List.length_nil, Nat.add_zero] at hlen
    rcases run_segment (by omega) hlong hpc hbus now with ⟨-, sent, hrun⟩ | ⟨hmore, -⟩
    · exact ⟨sent, hrun⟩
    · omega
  | cons time times ih =>
    rw [List.length_cons] at hlen
    rcases run_segment (by omega) hlong hpc hbus time with ⟨hend, -⟩ | ⟨-, count, sent, hrun⟩
    · omega
    · rw [List.map_cons, List.cons_append, after_cons]
      change ∃ sent, after step (s.run time) (times.map .run ++ [.run now]) = _
      rw [hrun]
      exact ih _ (k + 1) count (by omega) rfl rfl

/-- **A request that arrives while the thread waits is handled**: its frames are read, the first and the
later ones, and `_handle` gets the request at the end. -/
theorem answers_request (hpc : s.pc = .waiting) (hbus : s.bus = []) (h1 : 1 ≤ request.length)
    (hmax : request.length ≤ 4095) (times : List ℕ) (now : ℕ)
    (hlen : times.length + 1 = (segments padding request).length) :
    ∃ sent, after step s ((segments padding request).map .arrive ++ (times.map .run ++ [.run now])) =
      answer { s with sent := sent } request now := by
  rw [after_append, after_arrivals, hbus, List.nil_append]
  by_cases hs : request.length ≤ 7
  · rw [segments_sf hs] at hlen ⊢
    obtain rfl : times = [] := List.length_eq_zero_iff.1 (by simpa using hlen)
    have hreturned : (transport.receiveFirst (IsotpTx.sfFrame padding request)).2 = .returned request := by
      rw [Py.IsoTpTransport.receiveFirst_single hs]
    refine ⟨s.sent ++ (transport.receiveFirst (IsotpTx.sfFrame padding request)).1, ?_⟩
    rw [List.map_nil, List.nil_append, after_cons, after_nil]
    have hrun := run_waiting (s := { s with bus := [IsotpTx.sfFrame padding request] }) hpc rfl now
    exact hrun.trans (received_returned hreturned now)
  · have hlong : 7 < request.length := by omega
    have hwaiting := Py.IsoTpTransport.receiveFirst_multi transport padding hlong hmax
    have hcf : 1 ≤ cfCount request := by
      unfold cfCount
      omega
    rw [length_segments_mf hlong] at hlen
    have htail : segments padding request =
        IsotpTx.ffFrame padding request.length (request.take ffPayloadMax) ::
          (segments padding request).drop 1 := by
      rw [segments_mf hlong]
      rfl
    cases times with
    | nil =>
      rw [List.length_nil] at hlen
      omega
    | cons time times =>
      rw [List.length_cons] at hlen
      have hrun := (run_waiting (s := { s with bus := segments padding request }) hpc htail time).trans
        (received_waiting hwaiting time)
      rw [List.map_cons, List.cons_append, after_cons]
      change ∃ sent, after step (run { s with bus := segments padding request } time)
        (times.map .run ++ [.run now]) = _
      rw [hrun]
      refine answer_of_receiving _ padding 0 0 times now ?_ hlong rfl rfl
      omega

/-! ## Survival -/

/-- **The virtual ECU survives a tame run**: no exception ends the thread; unless it was stopped it comes
back to its wait for a request; and there it handles any request of 1 to 4095 bytes. -/
theorem loop_survives (ecu : VirtualEcu) (hsized : ecu.Sized) (es : List Event)
    (htame : AllSteps step (start ecu) Tame es) :
    (∀ message, (after step (start ecu) es).pc ≠ .crashed message) ∧
    ((after step (start ecu) es).stop = false → (after step (start ecu) es).bus = [] →
      Recovers (after step (start ecu) es)) ∧
    ((after step (start ecu) es).pc = .waiting → (after step (start ecu) es).bus = [] →
      ∀ (request : List UInt8) (padding : UInt8) (times : List ℕ) (now : ℕ), 1 ≤ request.length →
        request.length ≤ 4095 → times.length + 1 = (segments padding request).length →
        ∃ sent, after step (after step (start ecu) es)
            ((segments padding request).map .arrive ++ (times.map .run ++ [.run now])) =
          answer { after step (start ecu) es with sent := sent } request now) := by
  have hstart : Alive (start ecu) := ⟨hsized, trivial⟩
  have halive := hstart.after es htame
  refine ⟨fun message hcrashed => ?_, halive.recovers, fun hpc hbus request padding times now h1 hmax hlen => ?_⟩
  · have hsound := halive.sound
    rw [hcrashed] at hsound
    exact hsound
  · exact answers_request hpc hbus h1 hmax times now hlen

/-- The request frame of `bytes`, at most seven. -/
def single (bytes : List UInt8) : Frame := Frame.fill 0xCC (UInt8.ofNat bytes.length :: bytes)

/-- A stray First Frame that gets a Flow Control frame and is given up, then a request that is answered. -/
def tameRun : List Event :=
  [.run 0, .run 0, .arrive (Frame.fill 0 [0x10, 0x14]), .run 0, .expire, .run 50, .run 50,
    .arrive (single [0x3E, 0x00]), .run 60, .run 60, .run 60, .run 60, .run 60]

theorem loop_survives_tameRun :
    (after step (start (VirtualEcu.init "ecu1")) tameRun).sent.length = 2 ∧
      ∀ message, (after step (start (VirtualEcu.init "ecu1")) tameRun).pc ≠ .crashed message := by
  constructor
  · decide +kernel
  · exact (loop_survives _ (VirtualEcu.init_sized "ecu1" (by decide)) tameRun (by decide +kernel)).1

/-- A stray Consecutive Frame, a stray Flow Control frame, a First Frame that declares 5 bytes, a First
Frame with the second Consecutive Frame after it, and a read of the VIN whose response is not granted. -/
def fatalRuns : List (List Event) :=
  [[.run 0, .run 0, .arrive (Frame.fill 0 [0x21]), .run 0],
    [.run 0, .run 0, .arrive (Frame.fill 0 [0x30]), .run 0],
    [.run 0, .run 0, .arrive (Frame.fill 0 [0x10, 0x05]), .run 0],
    [.run 0, .run 0, .arrive (Frame.fill 0 [0x10, 0x14]), .run 0, .arrive (Frame.fill 0 [0x22]), .run 0],
    [.run 0, .run 0, .arrive (single [0x22, 0xF1, 0x90]), .run 0, .run 0, .expire]]

/-- A thread that an exception has ended sends nothing any more. -/
theorem silent_of_exception (h : s.pc.exception.isSome = true) (es : List Event) :
    (after step s es).sent = s.sent := by
  have hends : (after step s es).pc = s.pc ∧ (after step s es).sent = s.sent := by
    refine after_invariant (I := fun t : EcuThread => t.pc = s.pc ∧ t.sent = s.sent) ⟨rfl, rfl⟩ ?_ es
    rintro t e ⟨hpc, hsent⟩
    cases hs : s.pc with
    | crashed message =>
      rw [hs] at hpc
      cases e with
      | arrive frame => exact ⟨hpc, hsent⟩
      | run now =>
        unfold step run
        dsimp only
        rw [hpc]
        exact ⟨hpc, hsent⟩
      | expire =>
        unfold step expire
        dsimp only
        rw [hpc]
        exact ⟨hpc, hsent⟩
      | stop => exact ⟨hpc, hsent⟩
    | _ =>
      rw [hs] at h
      cases h
  exact hends.2

/-- Each of them ends the thread, and whatever follows is not answered. -/
theorem thread_ended :
    (fatalRuns.all fun es => (after step (start (VirtualEcu.init "ecu1")) es).pc.exception.isSome) = true ∧
      ∀ es ∈ fatalRuns, ∀ es', (after step (after step (start (VirtualEcu.init "ecu1")) es) es').sent =
        (after step (start (VirtualEcu.init "ecu1")) es).sent := by
  have hends : (fatalRuns.all fun es =>
      (after step (start (VirtualEcu.init "ecu1")) es).pc.exception.isSome) = true := by decide +kernel
  refine ⟨hends, fun es hes => ?_⟩
  exact silent_of_exception (List.all_eq_true.1 hends es hes)

end EcuThread

end DualCan.Emu
