import DualCan.Uds.Authority
import DualCan.Uds.Reply

/-!
# Every request is answered

Which requests the main loop has something to send for. A response is lost where it does not fit the
response buffer, so each service's reply is measured; the one reply without a bound of its own is that of a
read, whose length the request decides.
-/

namespace DualCan.Uds

open DualCan.Run

/-! ## Replies that are sent -/

/-- `APP_ServiceIsotp` has a response to send. -/
def Reply.sent (reply : Reply) : Bool :=
  (reply.result = .response || reply.result = .responsePending) && reply.response ≠ []

theorem negative_sent {capacity : ℕ} (h : 3 ≤ capacity) (service nrc : UInt8) :
    (negative capacity service nrc).sent = true := by
  unfold negative
  rw [if_neg (Nat.not_lt.2 h)]
  rfl

theorem responsePending_sent {capacity : ℕ} (h : 3 ≤ capacity) (service : UInt8) :
    (responsePending capacity service).sent = true := by
  unfold responsePending negative
  simp only [if_neg (Nat.not_lt.2 h)]
  rfl

theorem positive_sent {capacity : ℕ} {first : UInt8} {bytes : List UInt8}
    (h : bytes.length + 1 ≤ capacity) : (positive false capacity (first :: bytes)).sent = true := by
  unfold positive
  rw [if_neg Bool.false_ne_true, if_neg (by rw [List.length_cons]; omega)]
  rfl

/-- The services whose sub-function may ask for no positive response. -/
def hasSuppressBit (service : UInt8) : Bool :=
  service = sidDiagnosticSessionControl || service = sidSecurityAccess ||
    service = sidRoutineControl || service = sidTesterPresent

/-- The request asks for no positive response. -/
def suppresses (service : UInt8) : List UInt8 → Bool
  | [] => false
  | sub :: _ => hasSuppressBit service && sub &&& suppressPositiveResponse ≠ 0

theorem masked_zero {service sub : UInt8} {rest : List UInt8} (h : suppresses service (sub :: rest) = false)
    (hservice : hasSuppressBit service = true) : sub &&& suppressPositiveResponse = 0 := by
  simpa [suppresses, hservice] using h

namespace UdsServer

variable {σ : Type}

/-! ## Reads -/

/-- The identifiers that a read request names. -/
def identifiers : List UInt8 → List UInt16
  | high :: low :: rest => word16 high low :: identifiers rest
  | _ => []

/-- The value that a read returns for an identifier. -/
def readable (server : UdsServer σ) (did : UInt16) : Option (List UInt8) :=
  (server.findDid did).bind fun found =>
    if sessionAllowed found.2.readSessionsMask server.session then some found.2.data else none

/-- A well-formed read of identifiers that all have a value, for which `UdsServer_ReadDid` counts more bytes
than the buffer has: three for each identifier with its value, and one for the service. -/
def ReadOverflows (value : UInt16 → Option (List UInt8)) (args : List UInt8) (capacity : ℕ) : Prop :=
  2 ≤ args.length ∧ args.length % 2 = 0 ∧ ∃ values : List (List UInt8),
    (identifiers args).map value = values.map some ∧
      capacity < 1 + (values.map fun value => 3 + value.length).sum

theorem readEntries_ok {server : UdsServer σ} {args : List UInt8}
    {entries : List (UInt8 × UInt8 × Did σ)} (h : server.readEntries args = .ok entries) :
    (identifiers args).map server.readable = entries.map fun e => some e.2.2.data := by
  induction args using identifiers.induct generalizing entries with
  | case1 high low rest ih =>
    unfold readEntries at h
    cases hfind : server.findDid (word16 high low) with
    | none =>
      simp only [hfind] at h
      cases h
    | some found =>
      simp only [hfind] at h
      split at h
      · cases h
      rename_i hallowed
      cases hrest : server.readEntries rest with
      | error nrc =>
        rw [hrest] at h
        cases h
      | ok tail =>
        rw [hrest] at h
        cases h
        have hvalue : server.readable (word16 high low) = some found.2.data := by
          rw [readable, hfind, Option.bind_some, if_pos (by simpa using hallowed)]
        simp only [identifiers, List.map_cons, hvalue, ih hrest]
  | case2 args hargs =>
    unfold readEntries at h
    split at h
    · exact absurd rfl (hargs _ _ _)
    · cases h
      unfold identifiers
      split
      · exact absurd rfl (hargs _ _ _)
      · rfl

theorem readEntries_error {server : UdsServer σ} {args : List UInt8} {nrc : UInt8}
    (h : server.readEntries args = .error nrc) : none ∈ (identifiers args).map server.readable := by
  induction args using identifiers.induct with
  | case1 high low rest ih =>
    unfold readEntries at h
    rw [identifiers, List.map_cons, List.mem_cons]
    cases hfind : server.findDid (word16 high low) with
    | none =>
      left
      rw [readable, hfind, Option.bind_none]
    | some found =>
      simp only [hfind] at h
      split at h
      · rename_i hrefused
        left
        rw [readable, hfind, Option.bind_some, if_neg (by simpa using hrefused)]
      · right
        cases hrest : server.readEntries rest with
        | error nrc' =>
          rw [hrest] at h
          cases h
          exact ih hrest
        | ok tail =>
          rw [hrest] at h
          cases h
  | case2 args hargs =>
    unfold readEntries at h
    split at h
    · exact absurd rfl (hargs _ _ _)
    · cases h

theorem readDid_sent (server : UdsServer σ) (args : List UInt8) {capacity : ℕ} (hroom : 3 ≤ capacity) :
    (server.readDid args capacity).sent = true ↔ ¬ReadOverflows server.readable args capacity := by
  unfold readDid ReadOverflows
  by_cases hlength : args.length < 2 ∨ args.length % 2 ≠ 0
  · rw [if_pos hlength]
    refine iff_of_true (negative_sent hroom ..) ?_
    rintro ⟨htwo, heven, -⟩
    omega
  rw [if_neg hlength]
  have htwo : 2 ≤ args.length := by omega
  have heven : args.length % 2 = 0 := by omega
  cases hread : server.readEntries args with
  | error nrc =>
    refine iff_of_true (negative_sent hroom ..) ?_
    rintro ⟨-, -, values, hvalues, -⟩
    have hnone := readEntries_error hread
    rw [hvalues, List.mem_map] at hnone
    obtain ⟨value, -, hvalue⟩ := hnone
    cases hvalue
  | ok entries =>
    have hvalues := readEntries_ok hread
    have hmap : entries.map (fun e => some e.2.2.data) = (entries.map fun e => e.2.2.data).map some := by
      rw [List.map_map]
      rfl
    have hsum : (entries.map fun e => 3 + e.2.2.data.length).sum =
        ((entries.map fun e => e.2.2.data).map fun value => 3 + value.length).sum := by
      rw [List.map_map]
      rfl
    dsimp only
    by_cases hover : 1 + (entries.map fun e => 3 + e.2.2.data.length).sum > capacity
    · rw [if_pos hover]
      refine iff_of_false Bool.false_ne_true (not_not.2 ⟨htwo, heven, _, hvalues.trans hmap, ?_⟩)
      rw [← hsum]
      exact hover
    · rw [if_neg hover]
      refine iff_of_true rfl ?_
      rintro ⟨-, -, values, hsame, hmore⟩
      rw [hvalues, hmap] at hsame
      have heq := List.map_injective_iff.2 (fun _ _ => Option.some.inj) hsame
      rw [← heq, ← hsum] at hmore
      exact hover hmore

/-! ## The other services -/

theorem sessionControl_sent (server : UdsServer σ) (now : UInt32) (args : List UInt8) {capacity : ℕ}
    (hroom : 6 ≤ capacity) (hsuppress : suppresses sidDiagnosticSessionControl args = false) :
    (server.sessionControl now args capacity).1.sent = true := by
  match args with
  | [] => exact negative_sent (by omega) ..
  | [subfunction] =>
    have hbit := masked_zero hsuppress rfl
    unfold sessionControl
    dsimp only
    split
    · exact negative_sent (by omega) ..
    · rw [decide_eq_false (not_not.2 hbit)]
      exact positive_sent hroom
  | _ :: _ :: _ => exact negative_sent (by omega) ..

theorem testerPresent_sent (server : UdsServer σ) (now : UInt32) (args : List UInt8) {capacity : ℕ}
    (hroom : 3 ≤ capacity) (hsuppress : suppresses sidTesterPresent args = false) :
    (server.testerPresent now args capacity).1.sent = true := by
  match args with
  | [] => exact negative_sent hroom ..
  | [subfunction] =>
    have hbit := masked_zero hsuppress rfl
    unfold testerPresent
    dsimp only
    split
    · exact negative_sent hroom ..
    · rw [decide_eq_false (not_not.2 hbit)]
      exact positive_sent (by simpa using Nat.le_of_succ_le hroom)
  | _ :: _ :: _ => exact negative_sent hroom ..

theorem securityAccess_sent (server : UdsServer σ) (now : UInt32) (args : List UInt8) {capacity : ℕ}
    (hroom : 6 ≤ capacity) (hsuppress : suppresses sidSecurityAccess args = false) :
    (server.securityAccess now args capacity).1.sent = true := by
  match args with
  | [] => exact negative_sent (by omega) ..
  | sub :: data =>
    have hbit := masked_zero hsuppress rfl
    rw [securityAccess_reply, decide_eq_false (not_not.2 hbit), Access.answer]
    split
    · exact negative_sent (by omega) ..
    · exact positive_sent hroom
    · exact positive_sent hroom
    · split
      · exact positive_sent (by simpa using Nat.le_trans (by decide) hroom)
      · exact negative_sent (by omega) ..

theorem writeDid_sent (server : UdsServer σ) (args : List UInt8) {capacity : ℕ} (hroom : 3 ≤ capacity) :
    (server.writeDid args capacity).1.sent = true := by
  rcases writeDid_cases server args capacity with
    ⟨-, nrc, -, h⟩ | ⟨index, entry, data, -, ⟨-, h⟩ | ⟨-, high, low, h⟩⟩
  · rw [h]
    exact negative_sent hroom ..
  · rw [h]
    exact responsePending_sent hroom _
  · rw [h]
    exact positive_sent hroom

/-! ## Routine results -/

/-- The stored results fit their buffers. -/
def ResultsFit (server : UdsServer σ) : Prop :=
  ∀ index, (server.routineResult index).length ≤ routineResultMax

/-- The handlers write at most the bytes they are given room for. -/
def HandlersFit (routines : List (Routine σ)) : Prop :=
  ∀ routine ∈ routines, ∀ subfunction data capacity env dids,
    (routine.handler subfunction data capacity env dids).result.length ≤ capacity

theorem ResultsFit.of_work {a b : UdsServer σ} (hwork : a.work = b.work) (h : b.ResultsFit) :
    a.ResultsFit := by
  have hresult : a.routineResult = b.routineResult := congrArg Work.routineResult hwork
  intro index
  rw [hresult]
  exact h index

theorem ResultsFit.call {server : UdsServer σ} (h : server.ResultsFit) (env : σ) (index : ℕ)
    (routine : Routine σ) (subfunction : UInt8) (data : List UInt8) :
    (server.callRoutine env index routine subfunction data).2.ResultsFit := by
  intro other
  change (Function.update server.routineResult index _ other).length ≤ routineResultMax
  rw [Function.update_apply]
  split
  · exact List.length_take_le ..
  · exact h other

theorem ResultsFit.drop {server : UdsServer σ} (h : server.ResultsFit) (index : ℕ) :
    (server.dropPendingRoutine index).ResultsFit := by
  unfold dropPendingRoutine
  split
  · exact h
  · exact h

theorem ResultsFit.routineControl {server : UdsServer σ} (h : server.ResultsFit) (env : σ)
    (args : List UInt8) (capacity : ℕ) : (server.routineControl env args capacity).2.1.ResultsFit := by
  rcases routineControl_cases server env args capacity with
    ⟨-, reply, next, -, hreject, rfl | ⟨-, -, -, -, index, -, -, -, rfl⟩⟩ |
    ⟨index, routine, sub, data, haccept, hrun⟩
  · rw [hreject]
    exact h
  · rw [hreject]
    exact h.drop index
  obtain ⟨-, -, -, -, -, -, hsub⟩ := acceptedRoutine_some haccept
  rw [hrun]
  rcases runRoutine_cases (server.dropPendingRoutine index) env data capacity index routine
      (sub &&& subfunctionMask) (sub &&& suppressPositiveResponse ≠ 0) hsub with
    ⟨-, reply, -, hstep⟩ | ⟨-, ⟨-, hstep⟩ | ⟨-, hstep⟩⟩
  · rw [hstep]
    exact h.drop index
  · rw [hstep]
    exact (h.drop index).call _ _ _ _ _
  · rw [hstep]
    exact (h.drop index).call _ _ _ _ _

theorem ResultsFit.pollPending {server : UdsServer σ} (h : server.ResultsFit) (env : σ) (capacity : ℕ) :
    (server.pollPending env capacity).2.1.ResultsFit := by
  unfold UdsServer.pollPending
  split
  · rcases pollWrite_cases server env capacity with
      hfail | ⟨entry, save, -, -, -, ⟨-, hfail⟩ | ⟨-, hdone⟩⟩
    · rw [hfail]
      exact h
    · rw [hfail]
      exact h
    · rw [hdone]
      exact h
  split
  · unfold pollRoutine
    split
    · exact h
    dsimp only
    split
    · exact h.call _ _ _ _ _
    · exact h.call _ _ _ _ _
  · exact h

theorem ResultsFit.writeDid {server : UdsServer σ} (h : server.ResultsFit) (args : List UInt8)
    (capacity : ℕ) : (server.writeDid args capacity).2.ResultsFit := by
  rcases writeDid_cases server args capacity with
    ⟨-, nrc, -, hstep⟩ | ⟨index, entry, data, -, ⟨-, hstep⟩ | ⟨-, high, low, hstep⟩⟩
  all_goals
    rw [hstep]
    exact h

theorem ResultsFit.step {s : UdsServer σ × σ} (h : s.1.ResultsFit) (e : Event) :
    (step s e).1.ResultsFit := by
  refine step_keeps ?_ ?_ ?_ ?_ s e h
  · exact fun hwork hserver => hserver.of_work hwork
  · exact fun args capacity hserver => hserver.writeDid args capacity
  · exact fun env args capacity hserver => hserver.routineControl env args capacity
  · exact fun env capacity hserver => hserver.pollPending env capacity

theorem routineControl_sent {server : UdsServer σ} (hresults : server.ResultsFit)
    (hhandlers : HandlersFit server.routines) (env : σ) (args : List UInt8) {capacity : ℕ}
    (hroom : 4 + routineResultMax ≤ capacity) (hsuppress : suppresses sidRoutineControl args = false) :
    (server.routineControl env args capacity).1.sent = true := by
  have hthree : 3 ≤ capacity := by omega
  cases haccept : server.acceptedRoutine args with
  | none =>
    rw [routineControl_refused server env haccept]
    exact negative_sent hthree ..
  | some accepted =>
    obtain ⟨index, routine, sub, data⟩ := accepted
    obtain ⟨high, low, rfl, hget, -, -, hsub⟩ := acceptedRoutine_some haccept
    have hbit := masked_zero hsuppress rfl
    rw [routineControl_accepted server env haccept, runRoutine_reply _ _ _ _ _ _ _ _ hsub,
      decide_eq_false (not_not.2 hbit)]
    split
    · exact responsePending_sent hthree _
    split
    · rename_i result hresult
      have hfits : result.length ≤ routineResultMax := by
        unfold answerResult at hresult
        split at hresult
        · cases hresult
          exact hhandlers routine (List.mem_of_getElem? hget) ..
        split at hresult
        · cases hresult
          exact hresults.drop index index
        · cases hresult
      apply positive_sent
      simp only [List.length_cons]
      omega
    · exact negative_sent hthree ..

/-- The reply to any request that does not suppress it is sent, but for a read that overflows. -/
theorem dispatch_sent {server : UdsServer σ} (hresults : server.ResultsFit)
    (hhandlers : HandlersFit server.routines) (env : σ) (now : UInt32) {service : UInt8}
    {args : List UInt8} {capacity : ℕ} (hroom : 4 + routineResultMax ≤ capacity)
    (hsuppress : suppresses service args = false) :
    (server.dispatch env now service args capacity).1.sent = true ↔
      ¬(service = sidReadDataByIdentifier ∧ ReadOverflows server.readable args capacity) := by
  have hsix : 6 ≤ capacity := Nat.le_trans (by decide) hroom
  have hthree : 3 ≤ capacity := Nat.le_trans (by decide) hroom
  by_cases h22 : service = sidReadDataByIdentifier
  · subst h22
    change (finish now (server.readDid args capacity, server, env)).1.sent = true ↔ _
    rw [finish_reply, readDid_sent server args hthree]
    exact ⟨fun h hover => h hover.2, fun h hover => h ⟨rfl, hover⟩⟩
  refine iff_of_true ?_ fun hover => h22 hover.1
  by_cases h10 : service = sidDiagnosticSessionControl
  · subst h10
    exact server.sessionControl_sent now args hsix hsuppress
  by_cases h27 : service = sidSecurityAccess
  · subst h27
    change (finish now (_, _, env)).1.sent = true
    rw [finish_reply]
    exact server.securityAccess_sent now args hsix hsuppress
  by_cases h2E : service = sidWriteDataByIdentifier
  · subst h2E
    change (finish now (_, _, env)).1.sent = true
    rw [finish_reply]
    exact server.writeDid_sent args hthree
  by_cases h31 : service = sidRoutineControl
  · subst h31
    change (finish now (server.routineControl env args capacity)).1.sent = true
    rw [finish_reply]
    exact routineControl_sent hresults hhandlers env args hroom hsuppress
  by_cases h3E : service = sidTesterPresent
  · subst h3E
    exact server.testerPresent_sent now args hthree hsuppress
  simp only [dispatch, if_neg h10, if_neg h22, if_neg h27, if_neg h2E, if_neg h31, if_neg h3E]
  exact negative_sent hthree ..

end UdsServer

/-! ## The ECU -/

open UdsServer

section
variable {τ : Type} {variant : UdsEcuVariant} {storage : Option (UdsDidStorage τ)} {hooks : UdsEcuHooks τ}

theorem routineHandler_fits (variant : UdsEcuVariant) (storage : Option (UdsDidStorage τ))
    (hooks : UdsEcuHooks τ) : HandlersFit
      [selfTestRoutine variant storage hooks, eraseRoutine variant storage hooks] := by
  have hfit : ∀ routine subfunction data capacity env dids,
      (routineHandler variant storage hooks routine subfunction data capacity env dids).result.length ≤
        capacity := by
    intro routine subfunction data capacity env dids
    have hbyte : ∀ byte : UInt8, (if 0 < capacity then [byte] else []).length ≤ capacity := by
      intro byte
      split
      · assumption
      · exact Nat.zero_le _
    unfold routineHandler
    dsimp only
    split
    · exact Nat.zero_le _
    split
    · exact Nat.zero_le _
    split
    · exact Nat.zero_le _
    split
    · exact hbyte _
    split
    · exact Nat.zero_le _
    · exact hbyte _
  intro routine hmem subfunction data capacity env dids
  simp only [List.mem_cons, List.not_mem_nil, or_false] at hmem
  rcases hmem with rfl | rfl
  · exact hfit .selfTest subfunction data capacity env dids
  · exact hfit .erase subfunction data capacity env dids

theorem Did.spec_readSessionsMask {σ : Type} (entry : Did σ) :
    entry.spec.readSessionsMask = entry.readSessionsMask := rfl

theorem find_eq_findDid {σ : Type} (server : UdsServer σ) (did : UInt16) :
    server.dids.find? (fun entry => entry.did = did) = (server.findDid did).map Prod.snd := by
  rw [List.find?_eq_bind_findIdx?_getElem?, UdsServer.findDid, findIndexed, Option.map_bind]
  congr 1
  funext index
  rw [Function.comp_apply, Option.map_map]
  exact (Option.map_id' ..).symm

/-- Every identifier of the ECU is readable in every session. -/
theorem Built.readable {server : UdsServer (EcuEnv τ)} (h : Built variant storage hooks server)
    (did : UInt16) : server.readable did = didValue server.dids did := by
  unfold UdsServer.readable didValue
  rw [find_eq_findDid]
  cases hfound : server.findDid did with
  | none => rfl
  | some found =>
    obtain ⟨index, entry⟩ := found
    obtain ⟨base, hbase, hspec⟩ := h.entry (findIndexed_some hfound).1
    have hmask : entry.readSessionsMask = 0 := by
      have hread : entry.spec.readSessionsMask = (attachedSpec storage base).readSessionsMask := by
        rw [hspec]
      have hmem := List.mem_of_getElem? hbase
      simp only [didDbInit, List.mem_cons, List.not_mem_nil, or_false] at hmem
      rw [← Did.spec_readSessionsMask, hread]
      rcases hmem with rfl | rfl | rfl | rfl | rfl | rfl <;> rfl
    rw [Option.bind_some, hmask]
    rfl

variable {world : τ} {s : UdsServer (EcuEnv τ) × EcuEnv τ}

theorem ecu_resultsFit (h : initWithHooks variant storage hooks world = some s) (es : List Event) :
    (after step s es).1.ResultsFit := by
  refine after_invariant (I := fun t : UdsServer (EcuEnv τ) × EcuEnv τ => t.1.ResultsFit) ?_
    (fun t e ht => ht.step e) es
  obtain ⟨server, hinit, rfl⟩ := Option.map_eq_some_iff.1 h
  intro index
  rw [init_routineResult hinit]
  exact Nat.zero_le _

/-- **What is sent, in every state of the ECU**: every request that does not suppress its positive response
gets a response or NRC 0x78, unless it reads identifiers for which the server counts more bytes than the
buffer has. -/
theorem request_answered_iff (h : initWithHooks variant storage hooks world = some s) (es : List Event)
    (now : UInt32) {service : UInt8} {args : List UInt8} {capacity : ℕ} (hroom : 300 ≤ capacity)
    (hsuppress : suppresses service args = false) :
    let t := after step s es
    (respond t (.process now (service :: args) capacity)).1.sent = true ↔
      ¬(service = sidReadDataByIdentifier ∧ ReadOverflows (didValue t.1.dids) args capacity) := by
  intro t
  have hbuilt : Built variant storage hooks t.1 := (Built.init h).after es
  have hvalue : (t.1.tick now).readable = didValue t.1.dids := by
    funext did
    have htick : Built variant storage hooks (t.1.tick now) := (hbuilt.step (e := .tick now))
    rw [htick.readable, tick_dids]
  rw [← hvalue]
  apply dispatch_sent
  · exact (ecu_resultsFit h es).of_work (t.1.tick_work now)
  · rw [tick_routines, hbuilt.routines]
    exact routineHandler_fits variant storage hooks
  · exact Nat.le_trans (by decide) hroom
  · exact hsuppress

end

/-- Fifteen reads of the vehicle identification number in one request. -/
def readVinFifteen : List UInt8 := (List.replicate 15 [0xF1, 0x90]).flatten

/-- Fourteen of them are answered. -/
theorem request_answered_readVin :
    (respond plainEcu (.process 0 (sidReadDataByIdentifier :: readVinFifteen.drop 2) 300)).1.sent = true := by
  refine (request_answered_iff init_plainCallbacks [] 0 (Nat.le_refl 300) rfl).2 ?_
  rintro ⟨-, -, -, values, hvalues, hover⟩
  have hvin : (identifiers (readVinFifteen.drop 2)).map (didValue plainEcu.1.dids) =
      (List.replicate 14 UdsEcuVariant.f407.vin).map some := by
    decide +kernel
  rw [after_nil, hvin] at hvalues
  have heq := List.map_injective_iff.2 (fun _ _ => Option.some.inj) hvalues
  rw [← heq] at hover
  exact absurd hover (by decide)

/-- Every request that does not suppress its positive response is answered. -/
def AllAnswered {τ : Type} (s : UdsServer (EcuEnv τ) × EcuEnv τ) : Prop :=
  ∀ es now service args capacity, 300 ≤ capacity → suppresses service args = false →
    (respond (after step s es) (.process now (service :: args) capacity)).1.sent = true

/-- Fifteen of them, 286 bytes of response, are counted as 301 and get no response at all. -/
theorem not_allAnswered_readVin : ¬AllAnswered plainEcu := by
  intro h
  have hsent := h [] 0 sidReadDataByIdentifier readVinFifteen 300 (Nat.le_refl 300) rfl
  exact absurd hsent (by decide +kernel)

end DualCan.Uds
