import DualCan.Uds.Answered

/-!
# UDS: reading identifiers into a bounded response

`exactRead` says what a read should answer: the first identifier that cannot be read decides the refusal, else
the response is the identifiers with their data if it fits. `UdsServer_ReadDid` counts one byte more for each
identifier than it writes, so it differs on the capacities between the two counts, and only there.
-/

namespace DualCan.Uds

namespace UdsServer

variable {σ : Type} {server : UdsServer σ} {args : List UInt8} {capacity : ℕ}

/-- The first identifier, in request order, that is unknown or not readable in the session. -/
def firstUnreadable (server : UdsServer σ) (args : List UInt8) : Option UInt16 :=
  (identifiers args).find? fun did => (server.readable did).isNone

/-- Why an identifier cannot be read. -/
def refusalOf (server : UdsServer σ) (did : UInt16) : UInt8 :=
  if (server.findDid did).isNone then nrcRequestOutOfRange
  else nrcSubfunctionNotSupportedInActiveSession

/-- The identifiers, each with its two bytes and its current data, in request order. -/
def recordsOf (server : UdsServer σ) : List UInt8 → List UInt8
  | high :: low :: rest =>
    high :: low :: ((server.readable (word16 high low)).getD [] ++ recordsOf server rest)
  | _ => []

/-- The positive response to a read. -/
def exactResponse (server : UdsServer σ) (args : List UInt8) : List UInt8 :=
  (sidReadDataByIdentifier + 0x40) :: server.recordsOf args

/-- The answer a read of well-formed length is meant to have. -/
def exactRead (server : UdsServer σ) (args : List UInt8) (capacity : ℕ) : Reply :=
  match server.firstUnreadable args with
  | some did => ⟨.response, [sidNegativeResponse, sidReadDataByIdentifier, server.refusalOf did]⟩
  | none =>
    if (server.exactResponse args).length ≤ capacity then ⟨.response, server.exactResponse args⟩
    else ⟨.bufferTooSmall, []⟩

/-- Every identifier can be read, and the response fits, but not with one byte more for each identifier. -/
def CountedOut (server : UdsServer σ) (args : List UInt8) (capacity : ℕ) : Prop :=
  server.firstUnreadable args = none ∧ (server.exactResponse args).length ≤ capacity ∧
    capacity < (server.exactResponse args).length + args.length / 2

/-! ## The first loop -/

theorem readable_eq_some {did : UInt16} {found : ℕ × Did σ} (hfind : server.findDid did = some found)
    (hallowed : sessionAllowed found.2.readSessionsMask server.session = true) :
    server.readable did = some found.2.data := by
  rw [readable, hfind, Option.bind_some, if_pos hallowed]

theorem readable_eq_none {did : UInt16} {found : ℕ × Did σ} (hfind : server.findDid did = some found)
    (hrefused : sessionAllowed found.2.readSessionsMask server.session = false) :
    server.readable did = none := by
  rw [readable, hfind, Option.bind_some, if_neg (by simp [hrefused])]

theorem readable_unknown {did : UInt16} (hfind : server.findDid did = none) :
    server.readable did = none := by
  rw [readable, hfind, Option.bind_none]

/-- The loop stops at the first identifier that cannot be read. -/
theorem readEntries_refused {did : UInt16} (h : server.firstUnreadable args = some did) :
    server.readEntries args = .error (server.refusalOf did) := by
  induction args using identifiers.induct with
  | case1 high low rest ih =>
    rw [firstUnreadable, identifiers] at h
    unfold readEntries
    cases hfind : server.findDid (word16 high low) with
    | none =>
      rw [List.find?_cons_of_pos (by rw [readable_unknown hfind]; rfl)] at h
      obtain rfl := Option.some.inj h
      simp [refusalOf, hfind]
    | some found =>
      cases hallowed : sessionAllowed found.2.readSessionsMask server.session with
      | false =>
        rw [List.find?_cons_of_pos (by rw [readable_eq_none hfind hallowed]; rfl)] at h
        obtain rfl := Option.some.inj h
        simp [refusalOf, hfind, hallowed]
      | true =>
        rw [List.find?_cons_of_neg (by rw [readable_eq_some hfind hallowed]; simp)] at h
        simp only [hallowed, Bool.not_true, Bool.false_eq_true, if_false, ih h]
        rfl
  | case2 args hargs =>
    rw [firstUnreadable, identifiers] at h
    · cases h
    · exact hargs

/-- Otherwise the entries carry the records, and their count exceeds the bytes of these by one for each. -/
theorem readEntries_readable (h : server.firstUnreadable args = none) (heven : args.length % 2 = 0) :
    ∃ entries, server.readEntries args = .ok entries ∧
      (entries.flatMap fun e => e.1 :: e.2.1 :: e.2.2.data) = server.recordsOf args ∧
      (entries.map fun e => 3 + e.2.2.data.length).sum =
        (server.recordsOf args).length + args.length / 2 := by
  induction args using identifiers.induct with
  | case1 high low rest ih =>
    rw [firstUnreadable, identifiers] at h
    unfold readEntries recordsOf
    cases hfind : server.findDid (word16 high low) with
    | none =>
      rw [List.find?_cons_of_pos (by rw [readable_unknown hfind]; rfl)] at h
      cases h
    | some found =>
      cases hallowed : sessionAllowed found.2.readSessionsMask server.session with
      | false =>
        rw [List.find?_cons_of_pos (by rw [readable_eq_none hfind hallowed]; rfl)] at h
        cases h
      | true =>
        have hvalue := readable_eq_some hfind hallowed
        rw [List.find?_cons_of_neg (by rw [hvalue]; simp)] at h
        simp only [List.length_cons] at heven ⊢
        obtain ⟨entries, hread, hbytes, hsum⟩ := ih h (by omega)
        refine ⟨(high, low, found.2) :: entries, ?_, ?_, ?_⟩
        · simp only [hallowed, Bool.not_true, Bool.false_eq_true, if_false, hread]
          rfl
        · rw [List.flatMap_cons, hbytes, hvalue]
          rfl
        · rw [List.map_cons, List.sum_cons, hsum, hvalue]
          simp only [Option.getD_some, List.length_append]
          omega
  | case2 args hargs =>
    obtain rfl : args = [] := by
      cases args with
      | nil => rfl
      | cons high rest =>
        cases rest with
        | nil => cases heven
        | cons low rest => exact absurd rfl (hargs high low rest)
    exact ⟨[], rfl, rfl, rfl⟩

/-- What a read of well-formed length answers. -/
theorem readDid_eq_exactRead_iff (htwo : 2 ≤ args.length) (heven : args.length % 2 = 0)
    (hroom : 3 ≤ capacity) :
    server.readDid args capacity = server.exactRead args capacity ↔ ¬server.CountedOut args capacity := by
  unfold readDid exactRead CountedOut
  rw [if_neg (by omega)]
  cases hfirst : server.firstUnreadable args with
  | some did =>
    rw [readEntries_refused hfirst]
    simp only [negative, if_neg (Nat.not_lt.2 hroom), reduceCtorEq, false_and, not_false_eq_true]
  | none =>
    obtain ⟨entries, hread, hbytes, hsum⟩ := readEntries_readable hfirst heven
    have hlen : (server.exactResponse args).length = (server.recordsOf args).length + 1 := rfl
    rw [hread]
    simp only [hbytes, hsum, true_and]
    by_cases hcounted : 1 + ((server.recordsOf args).length + args.length / 2) > capacity
    · rw [if_pos hcounted]
      by_cases hfits : (server.exactResponse args).length ≤ capacity
      · rw [if_pos hfits]
        constructor
        · intro h
          cases h
        · intro h
          exact absurd ⟨hfits, by omega⟩ h
      · rw [if_neg hfits]
        exact ⟨fun _ h => hfits h.1, fun _ => rfl⟩
    · rw [if_neg hcounted, if_pos (by omega)]
      exact ⟨fun _ h => by omega, fun _ => rfl⟩

/-- **ReadDataByIdentifier** answers exactly, for every table, request and session, unless the response fits
and one byte more for each identifier does not. -/
theorem read_exact_iff (server : UdsServer σ) (env : σ) (now : UInt32) (args : List UInt8) (capacity : ℕ)
    (htwo : 2 ≤ args.length) (heven : args.length % 2 = 0) (hroom : 3 ≤ capacity) :
    (server.process env now (sidReadDataByIdentifier :: args) capacity).1 =
        (server.tick now).exactRead args capacity ↔
      ¬(server.tick now).CountedOut args capacity := by
  have hreply : (server.process env now (sidReadDataByIdentifier :: args) capacity).1 =
      (server.tick now).readDid args capacity := by
    change (finish now ((server.tick now).readDid args capacity, server.tick now, env)).1 = _
    rw [finish_reply]
  rw [hreply]
  exact readDid_eq_exactRead_iff htwo heven hroom

/-- A table with one identifier of one byte, readable in every session. -/
def oneByteConfig : UdsServerConfig Unit where
  dids := [{
    did := 0xF190
    data := [0x31]
    hasStorage := false
    storageCapacity := 0
    readSessionsMask := 0
    writeSessionsMask := 0
    writeRequiredSession := 0
    writeRequiresUnlock := false
    storageSave := none }]
  routines := []
  p2ServerMs := 0
  p2StarServerMs := 0
  s3ServerMs := 0
  supportedSessionsMask := 0
  securitySalt := 0

/-- The server of that table. -/
def oneByteServer : UdsServer Unit := (init oneByteConfig).get (by decide +kernel)

/-- Four bytes are enough for the response `62 F1 90 31`, and the read is refused. -/
theorem read_refuses_room :
    (oneByteServer.process () 0 [0x22, 0xF1, 0x90] 4).1 = ⟨.bufferTooSmall, []⟩ ∧
      (oneByteServer.tick 0).exactRead [0xF1, 0x90] 4 = ⟨.response, [0x62, 0xF1, 0x90, 0x31]⟩ := by
  constructor <;> decide +kernel

theorem read_exact_five :
    (oneByteServer.process () 0 [0x22, 0xF1, 0x90] 5).1 = ⟨.response, [0x62, 0xF1, 0x90, 0x31]⟩ := by
  have hroom : ¬(oneByteServer.tick 0).CountedOut [0xF1, 0x90] 5 := by
    rintro ⟨-, -, hlt⟩
    revert hlt
    decide +kernel
  rw [show [0x22, 0xF1, 0x90] = sidReadDataByIdentifier :: [0xF1, 0x90] from rfl,
    (read_exact_iff oneByteServer () 0 [0xF1, 0x90] 5 (by decide) (by decide) (by decide)).2 hroom]
  decide +kernel

end UdsServer

end DualCan.Uds
