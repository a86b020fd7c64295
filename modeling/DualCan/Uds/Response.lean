import DualCan.Uds.ReadDid
import Mathlib.Algebra.Order.BigOperators.Group.List
import Mathlib.Algebra.Order.Group.Nat

/-!
# What is written to the response

Every function of the server checks the capacity before it stores the bytes of its response one after another.
`UdsServer_ReadDid` alone counts, in a 32-bit sum, what a list of identifiers needs, and counts a 16-bit index up
along their data; neither wraps for lengths of the source's types, so its stores are those of the response, and
no store is beyond the capacity.
-/

namespace DualCan.Uds

/-- A store `response[index] = byte`. -/
abbrev Store := ℕ × UInt8

/-- Bytes stored one after another. -/
def storesFrom (index : ℕ) : List UInt8 → List Store
  | [] => []
  | byte :: bytes => (index, byte) :: storesFrom (index + 1) bytes

/-- The stores of a call, and the length that it returns. -/
structure Written where
  stores : List Store
  length : ℕ

/-- A response stored from its first byte on. -/
def Reply.written (reply : Reply) : Written := ⟨storesFrom 0 reply.response, reply.response.length⟩

namespace UdsServer

variable {σ : Type}

/-! ## The stores of `UdsServer_ReadDid` -/

/-- What the first loop adds up. -/
def requiredLength (entries : List (UInt8 × UInt8 × Did σ)) (required : UInt32) : UInt32 :=
  entries.foldl (fun required e => required + (3 + UInt32.ofNat e.2.2.data.length)) required

/-- The inner loop: the stores, and the index afterwards. -/
def dataStores (responseIndex : UInt16) : List UInt8 → List Store × UInt16
  | [] => ([], responseIndex)
  | byte :: data =>
    let (stores, next) := dataStores (responseIndex + 1) data
    ((responseIndex.toNat, byte) :: stores, next)

/-- The second loop: the stores, and the index afterwards. -/
def recordStores (responseIndex : UInt16) : List (UInt8 × UInt8 × Did σ) → List Store × UInt16
  | [] => ([], responseIndex)
  | (high, low, entry) :: entries =>
    let (data, next) := dataStores (responseIndex + 2) entry.data
    let (rest, last) := recordStores next entries
    ((responseIndex.toNat, high) :: (responseIndex.toNat + 1, low) :: (data ++ rest), last)

/-- `UdsServer_ReadDid` with its stores. -/
def readDidWritten (server : UdsServer σ) (args : List UInt8) (capacity : ℕ) : Written :=
  if args.length < 2 ∨ args.length % 2 ≠ 0 then
    (negative capacity sidReadDataByIdentifier nrcIncorrectLength).written
  else
    match server.readEntries args with
    | .error nrc => (negative capacity sidReadDataByIdentifier nrc).written
    | .ok entries =>
      if (requiredLength entries 1).toNat > capacity then ⟨[], 0⟩
      else
        let (records, responseIndex) := recordStores 1 entries
        ⟨(0, sidReadDataByIdentifier + 0x40) :: records, responseIndex.toNat⟩

/-- `UdsServer_Process` with its stores, for a request with a service identifier. -/
def processWritten (server : UdsServer σ) (env : σ) (now : UInt32) (service : UInt8) (args : List UInt8)
    (capacity : ℕ) : Written :=
  if service = sidReadDataByIdentifier then (server.tick now).readDidWritten args capacity
  else (server.process env now (service :: args) capacity).1.written

/-- `UdsServer_PollPending` with its stores. -/
def pollWritten (server : UdsServer σ) (env : σ) (capacity : ℕ) : Written :=
  (server.pollPending env capacity).1.written

/-- The request and the data of the identifiers have lengths of 16 bits, as in the source. -/
structure Sized (server : UdsServer σ) (request : List UInt8) : Prop where
  request : request.length < 2 ^ 16
  data : ∀ entry ∈ server.dids, entry.data.length < 2 ^ 16

end UdsServer

/-! ## Stores one after another -/

theorem storesFrom_append (index : ℕ) (bytes bytes' : List UInt8) :
    storesFrom index (bytes ++ bytes') = storesFrom index bytes ++ storesFrom (index + bytes.length) bytes' := by
  induction bytes generalizing index with
  | nil => rfl
  | cons byte bytes ih =>
    have hindex : index + 1 + bytes.length = index + (bytes.length + 1) := by omega
    rw [List.cons_append, storesFrom, storesFrom, ih, List.length_cons, hindex]
    rfl

theorem storesFrom_lt {index : ℕ} {bytes : List UInt8} {store : Store} (h : store ∈ storesFrom index bytes) :
    store.1 < index + bytes.length := by
  induction bytes generalizing index with
  | nil => cases h
  | cons byte bytes ih =>
    rw [List.length_cons]
    rcases List.mem_cons.1 h with rfl | h
    · exact Nat.lt_add_of_pos_right (Nat.succ_pos _)
    · have hlt := ih h
      omega

namespace UdsServer

variable {σ : Type}

theorem toNat_add_lt {responseIndex : UInt16} {n : ℕ} {k : UInt16} (hk : k.toNat = n)
    (h : responseIndex.toNat + n < 2 ^ 16) : (responseIndex + k).toNat = responseIndex.toNat + n := by
  rw [UInt16.toNat_add, hk, Nat.mod_eq_of_lt h]

/-- The index does not wrap while it stays below the capacity. -/
theorem dataStores_eq {responseIndex : UInt16} {data : List UInt8}
    (h : responseIndex.toNat + data.length < 2 ^ 16) :
    (dataStores responseIndex data).1 = storesFrom responseIndex.toNat data ∧
      (dataStores responseIndex data).2.toNat = responseIndex.toNat + data.length := by
  induction data generalizing responseIndex with
  | nil => exact ⟨rfl, rfl⟩
  | cons byte data ih =>
    rw [List.length_cons] at h ⊢
    have hnext : (responseIndex + 1).toNat = responseIndex.toNat + 1 := toNat_add_lt rfl (by omega)
    have hrest : (responseIndex + 1).toNat + data.length < 2 ^ 16 := by omega
    obtain ⟨hstores, hlast⟩ := ih hrest
    rw [hnext] at hstores hlast
    refine ⟨?_, ?_⟩
    · rw [dataStores, storesFrom, ← hstores]
    · rw [dataStores, hlast]
      omega

/-- The bytes of the records. -/
def recordBytes (entries : List (UInt8 × UInt8 × Did σ)) : List UInt8 :=
  entries.flatMap fun e => e.1 :: e.2.1 :: e.2.2.data

theorem recordStores_eq {responseIndex : UInt16} {entries : List (UInt8 × UInt8 × Did σ)}
    (h : responseIndex.toNat + (recordBytes entries).length < 2 ^ 16) :
    (recordStores responseIndex entries).1 = storesFrom responseIndex.toNat (recordBytes entries) ∧
      (recordStores responseIndex entries).2.toNat = responseIndex.toNat + (recordBytes entries).length := by
  induction entries generalizing responseIndex with
  | nil => exact ⟨rfl, rfl⟩
  | cons e entries ih =>
    obtain ⟨high, low, entry⟩ := e
    have hbytes : recordBytes ((high, low, entry) :: entries) =
        high :: low :: (entry.data ++ recordBytes entries) := rfl
    rw [hbytes, List.length_cons, List.length_cons, List.length_append] at h ⊢
    have hnext : (responseIndex + 2).toNat = responseIndex.toNat + 2 := toNat_add_lt rfl (by omega)
    have hdata : (responseIndex + 2).toNat + entry.data.length < 2 ^ 16 := by omega
    obtain ⟨hstores, hafter⟩ := dataStores_eq hdata
    have hrest : (dataStores (responseIndex + 2) entry.data).2.toNat + (recordBytes entries).length < 2 ^ 16 := by
      omega
    obtain ⟨hstores', hlast⟩ := ih hrest
    rw [hafter, hnext] at hstores' hlast
    rw [hnext] at hstores
    refine ⟨?_, ?_⟩
    · rw [recordStores, storesFrom, storesFrom, storesFrom_append, ← hstores, ← hstores']
    · rw [recordStores, hlast]
      omega

/-- What the source budgets covers what it writes. -/
theorem length_recordBytes (entries : List (UInt8 × UInt8 × Did σ)) :
    (recordBytes entries).length ≤ (entries.map fun e => 3 + e.2.2.data.length).sum := by
  induction entries with
  | nil => exact Nat.le_refl 0
  | cons e entries ih =>
    have hbytes : recordBytes (e :: entries) = e.1 :: e.2.1 :: (e.2.2.data ++ recordBytes entries) := rfl
    rw [hbytes, List.length_cons, List.length_cons, List.length_append, List.map_cons, List.sum_cons]
    omega

/-! ## The 32-bit sum -/

/-- The entries that the first loop finds are entries of the table, one for two bytes of the request. -/
theorem readEntries_found {server : UdsServer σ} {args : List UInt8} {entries : List (UInt8 × UInt8 × Did σ)}
    (h : server.readEntries args = .ok entries) :
    2 * entries.length ≤ args.length ∧ ∀ e ∈ entries, e.2.2 ∈ server.dids := by
  induction args using identifiers.induct generalizing entries with
  | case1 high low rest ih =>
    unfold readEntries at h
    cases hfind : server.findDid (word16 high low) with
    | none =>
      simp only [hfind] at h
      cases h
    | some found =>
      simp only [hfind] at h
      split at h
      · cases h
      cases hrest : server.readEntries rest with
      | error nrc =>
        rw [hrest] at h
        cases h
      | ok tail =>
        rw [hrest] at h
        cases h
        obtain ⟨hlength, hmem⟩ := ih hrest
        have hentry : found.2 ∈ server.dids := List.mem_of_getElem? (findIndexed_some hfind).1
        refine ⟨?_, List.forall_mem_cons.2 ⟨hentry, hmem⟩⟩
        rw [List.length_cons, List.length_cons, List.length_cons]
        omega
  | case2 args hargs =>
    rw [readEntries] at h
    · cases h
      exact ⟨Nat.zero_le _, List.forall_mem_nil _⟩
    · exact hargs

/-- The sum does not wrap while what it has to reach fits in 32 bits. -/
theorem requiredLength_toNat {entries : List (UInt8 × UInt8 × Did σ)} {required : UInt32}
    (h : required.toNat + (entries.map fun e => 3 + e.2.2.data.length).sum < 2 ^ 32) :
    (requiredLength entries required).toNat =
      required.toNat + (entries.map fun e => 3 + e.2.2.data.length).sum := by
  induction entries generalizing required with
  | nil => rfl
  | cons e entries ih =>
    rw [List.map_cons, List.sum_cons] at h ⊢
    have hlength : (UInt32.ofNat e.2.2.data.length).toNat = e.2.2.data.length :=
      UInt32.toNat_ofNat_of_lt' (by simp only [UInt32.size]; omega)
    have hadd : (3 + UInt32.ofNat e.2.2.data.length).toNat = 3 + e.2.2.data.length := by
      rw [UInt32.toNat_add, hlength]
      exact Nat.mod_eq_of_lt (by simp only [UInt32.reduceToNat]; omega)
    have hnext : (required + (3 + UInt32.ofNat e.2.2.data.length)).toNat =
        required.toNat + (3 + e.2.2.data.length) := by
      rw [UInt32.toNat_add, hadd]
      exact Nat.mod_eq_of_lt (by omega)
    have hrest := ih (by rw [hnext]; omega)
    rw [requiredLength, List.foldl_cons, ← requiredLength, hrest, hnext]
    omega

/-- At most 32767 identifiers of less than 65536 bytes each. -/
theorem Sized.sum_lt {server : UdsServer σ} {service : UInt8} {args : List UInt8}
    {entries : List (UInt8 × UInt8 × Did σ)} (h : server.Sized (service :: args))
    (hentries : server.readEntries args = .ok entries) :
    1 + (entries.map fun e => 3 + e.2.2.data.length).sum < 2 ^ 32 := by
  obtain ⟨hlength, hmem⟩ := readEntries_found hentries
  have hrequest := h.request
  rw [List.length_cons] at hrequest
  have hsum : (entries.map fun e => 3 + e.2.2.data.length).sum ≤
      (entries.map fun e => 3 + e.2.2.data.length).length * (2 ^ 16 + 2) := by
    apply List.sum_le_card_nsmul
    intro n hn
    obtain ⟨e, he, rfl⟩ := List.mem_map.1 hn
    have hdata := h.data _ (hmem e he)
    omega
  rw [List.length_map] at hsum
  have hcount : entries.length ≤ 2 ^ 15 - 1 := by omega
  have hproduct := Nat.mul_le_mul_right (2 ^ 16 + 2) hcount
  omega

/-- The stores of `UdsServer_ReadDid` are its response. -/
theorem readDidWritten_eq {server : UdsServer σ} {service : UInt8} {args : List UInt8}
    (h : server.Sized (service :: args)) (capacity : UInt16) :
    server.readDidWritten args capacity.toNat = (server.readDid args capacity.toNat).written := by
  unfold readDidWritten readDid
  by_cases hshort : args.length < 2 ∨ args.length % 2 ≠ 0
  · rw [if_pos hshort, if_pos hshort]
  rw [if_neg hshort, if_neg hshort]
  cases hentries : server.readEntries args with
  | error nrc => rfl
  | ok entries =>
    have hrequired : (requiredLength entries 1).toNat = 1 + (entries.map fun e => 3 + e.2.2.data.length).sum :=
      requiredLength_toNat (h.sum_lt hentries)
    dsimp only
    rw [hrequired]
    by_cases hroom : 1 + (entries.map fun e => 3 + e.2.2.data.length).sum > capacity.toNat
    · rw [if_pos hroom, if_pos hroom]
      rfl
    rw [if_neg hroom, if_neg hroom]
    have hcapacity := capacity.toNat_lt
    have hlength := length_recordBytes entries
    have hindex : (1 : UInt16).toNat + (recordBytes entries).length < 2 ^ 16 := by
      rw [UInt16.toNat_one]
      omega
    obtain ⟨hstores, hlast⟩ := recordStores_eq hindex
    rw [hstores, hlast, UInt16.toNat_one, Nat.add_comm]
    rfl

end UdsServer

/-! ## Room for the response -/

namespace Reply

/-- The response fits in the buffer. -/
def Fits (reply : Reply) (capacity : ℕ) : Prop :=
  reply.response.length ≤ capacity

end Reply

/-- No store is beyond the capacity, and neither is the length. -/
structure Written.Within (written : Written) (capacity : ℕ) : Prop where
  stores : ∀ store ∈ written.stores, store.1 < capacity
  length : written.length ≤ capacity

theorem Reply.Fits.within {reply : Reply} {capacity : ℕ} (h : reply.Fits capacity) :
    reply.written.Within capacity where
  stores store hstore := by
    have hlt := storesFrom_lt hstore
    rw [Nat.zero_add] at hlt
    exact Nat.lt_of_lt_of_le hlt h
  length := h

namespace UdsServer

variable {σ : Type}

@[simp] theorem empty_fits (result : ProcessResult) (capacity : ℕ) : Reply.Fits ⟨result, []⟩ capacity :=
  Nat.zero_le capacity

@[simp] theorem negative_fits (capacity : ℕ) (service nrc : UInt8) : (negative capacity service nrc).Fits capacity := by
  unfold negative
  split
  · exact empty_fits ..
  · rename_i hroom
    exact Nat.not_lt.1 hroom

@[simp] theorem responsePending_fits (capacity : ℕ) (service : UInt8) :
    (responsePending capacity service).Fits capacity := by
  unfold responsePending
  dsimp only
  split
  · exact negative_fits capacity service nrcResponsePending
  · exact negative_fits ..

@[simp] theorem positive_fits (suppress : Bool) (capacity : ℕ) (bytes : List UInt8) :
    (positive suppress capacity bytes).Fits capacity := by
  unfold positive
  split
  · exact empty_fits ..
  split
  · exact empty_fits ..
  · rename_i hroom
    exact Nat.not_lt.1 hroom

@[simp] theorem routinePositive_fits (subfunction : UInt8) (routineId : UInt16) (result : List UInt8)
    (suppress : Bool) (capacity : ℕ) :
    (routinePositive subfunction routineId result suppress capacity).Fits capacity :=
  positive_fits ..

section Services

variable (server : UdsServer σ) (env : σ) (now : UInt32) (args data : List UInt8) (capacity index : ℕ)

theorem sessionControl_fits : (server.sessionControl now args capacity).1.Fits capacity := by
  unfold sessionControl
  split
  · dsimp only
    split <;> simp
  · simp

theorem readDid_fits : (server.readDid args capacity).Fits capacity := by
  unfold readDid
  split
  · simp
  split
  · simp
  rename_i entries _
  split
  · simp
  · rename_i hroom
    have hlength := length_recordBytes entries
    have hbytes : ((sidReadDataByIdentifier + 0x40) :: recordBytes entries).length ≤ capacity := by
      rw [List.length_cons]
      omega
    exact hbytes

theorem securityAccess_fits : (server.securityAccess now args capacity).1.Fits capacity := by
  unfold securityAccess
  split
  · simp
  dsimp only
  split
  · simp
  split
  · simp
  split
  · simp
  split
  · unfold requestSeed
    split <;> simp
  split
  · split
    · simp
    · unfold evaluateKey
      dsimp only
      split
      · split <;> simp
      · simp
  · simp

theorem writeDid_fits : (server.writeDid args capacity).1.Fits capacity := by
  unfold writeDid
  repeat' split
  all_goals simp

theorem runRoutine_fits (routine : Routine σ) (subfunction : UInt8) (suppress : Bool) :
    (server.runRoutine env index routine subfunction suppress data capacity).1.Fits capacity := by
  unfold runRoutine
  dsimp only [callRoutine]
  repeat' split
  all_goals simp

theorem routineControl_fits : (server.routineControl env args capacity).1.Fits capacity := by
  unfold routineControl
  split
  · dsimp only
    split
    · simp
    · repeat' split
      all_goals simp [runRoutine_fits]
  · simp

theorem testerPresent_fits : (server.testerPresent now args capacity).1.Fits capacity := by
  unfold testerPresent
  split
  · split <;> simp
  · simp

theorem dispatch_fits (service : UInt8) : (server.dispatch env now service args capacity).1.Fits capacity := by
  unfold dispatch
  split
  · exact sessionControl_fits ..
  split
  · rw [finish_reply]
    exact readDid_fits ..
  split
  · rw [finish_reply]
    exact securityAccess_fits ..
  split
  · rw [finish_reply]
    exact writeDid_fits ..
  split
  · rw [finish_reply]
    exact routineControl_fits ..
  split
  · exact testerPresent_fits ..
  · exact negative_fits ..

theorem pollPending_fits : (server.pollPending env capacity).1.Fits capacity := by
  unfold pollPending
  split
  · unfold pollWrite
    repeat' split
    all_goals simp
  split
  · unfold pollRoutine
    dsimp only [callRoutine]
    repeat' split
    all_goals simp
  · simp

/-- The stores of `UdsServer_Process` are its response. -/
theorem processWritten_eq (capacity : UInt16) (service : UInt8) (h : server.Sized (service :: args)) :
    server.processWritten env now service args capacity.toNat =
      (server.process env now (service :: args) capacity.toNat).1.written := by
  unfold processWritten
  split
  · rename_i h22
    subst h22
    have htick : (server.tick now).Sized (sidReadDataByIdentifier :: args) :=
      ⟨h.request, by rw [tick_dids]; exact h.data⟩
    have hprocess : server.process env now (sidReadDataByIdentifier :: args) capacity.toNat =
        finish now ((server.tick now).readDid args capacity.toNat, server.tick now, env) := rfl
    rw [readDidWritten_eq htick, hprocess, finish_reply]
  · rfl

end Services

/-! ## The shape of a response -/

/-- What may be answered to a service. -/
def Answers (service : UInt8) (response : List UInt8) : Prop :=
  response = [] ∨ (∃ nrc, response = [sidNegativeResponse, service, nrc]) ∨
    response.head? = some (service + 0x40)

/-- What may be answered later: to the pending write, or to the pending routine request. -/
def AnswersPending (server : UdsServer σ) (response : List UInt8) : Prop :=
  response = [] ∨ (∃ nrc, response = [sidNegativeResponse, sidWriteDataByIdentifier, nrc]) ∨
    (server.pendingDidWrite = true ∧ ∃ entry, server.dids[server.pendingDidIndex]? = some entry ∧
      [0x6E, high16 entry.did, low16 entry.did] <+: response) ∨
    (server.pendingRoutineResponse = true ∧
      ∃ routine, server.routines[server.pendingRoutineIndex]? = some routine ∧
        [0x71, server.pendingRoutineSubfunction, high16 routine.routineId, low16 routine.routineId] <+: response)

theorem process_answers (server : UdsServer σ) (env : σ) (now : UInt32) (service : UInt8) (args : List UInt8)
    (capacity : ℕ) : Answers service (server.process env now (service :: args) capacity).1.response := by
  rcases dispatch_isFor (server.tick now) env now args capacity service with hnone | hnegative | ⟨-, hpositive⟩
  · exact Or.inl hnone
  · exact Or.inr (Or.inl hnegative)
  · exact Or.inr (Or.inr hpositive)

theorem negative_response_cases (capacity : ℕ) (service nrc : UInt8) :
    (negative capacity service nrc).response = [] ∨
      (negative capacity service nrc).response = [sidNegativeResponse, service, nrc] := by
  unfold negative
  split
  · exact Or.inl rfl
  · exact Or.inr rfl

theorem positive_response_cases (suppress : Bool) (capacity : ℕ) (bytes : List UInt8) :
    (positive suppress capacity bytes).response = [] ∨ (positive suppress capacity bytes).response = bytes := by
  unfold positive
  split
  · exact Or.inl rfl
  split
  · exact Or.inl rfl
  · exact Or.inr rfl

theorem pollWrite_answers (server : UdsServer σ) (env : σ) (capacity : ℕ) (h : server.pendingDidWrite = true) :
    server.AnswersPending (server.pollWrite env capacity).1.response := by
  have hfailure : server.AnswersPending
      (negative capacity sidWriteDataByIdentifier nrcGeneralProgrammingFailure).response := by
    rcases negative_response_cases capacity sidWriteDataByIdentifier nrcGeneralProgrammingFailure with hnone | hsome
    · exact Or.inl hnone
    · exact Or.inr (Or.inl ⟨_, hsome⟩)
  unfold pollWrite
  dsimp only
  split
  · exact hfailure
  rename_i entry hentry
  split
  · exact hfailure
  split
  · exact hfailure
  split
  · exact hfailure
  · dsimp only
    rcases positive_response_cases false capacity
      [sidWriteDataByIdentifier + 0x40, high16 entry.did, low16 entry.did] with hnone | hsome
    · exact Or.inl hnone
    · refine Or.inr (Or.inr (Or.inl ⟨h, entry, hentry, ?_⟩))
      rw [hsome]
      exact List.prefix_refl _

theorem pollRoutine_answers (server : UdsServer σ) (env : σ) (capacity : ℕ)
    (h : server.pendingRoutineResponse = true) :
    server.AnswersPending (server.pollRoutine env capacity).1.response := by
  unfold pollRoutine
  split
  · exact Or.inl rfl
  rename_i routine hroutine
  dsimp only [callRoutine]
  split
  · exact Or.inl rfl
  · unfold routinePositive
    dsimp only
    rcases positive_response_cases server.pendingRoutineSuppressPositive capacity
      ((sidRoutineControl + 0x40) :: server.pendingRoutineSubfunction :: high16 routine.routineId ::
        low16 routine.routineId :: (routine.handler routineRequestResults server.pendingRoutineData routineResultMax
          env server.dids).result) with hnone | hsome
    · exact Or.inl hnone
    · refine Or.inr (Or.inr (Or.inr ⟨h, routine, hroutine, ?_⟩))
      rw [hsome]
      exact List.prefix_append [_, _, _, _] _

theorem pollPending_answers (server : UdsServer σ) (env : σ) (capacity : ℕ) :
    server.AnswersPending (server.pollPending env capacity).1.response := by
  unfold pollPending
  split
  · rename_i hwrite
    exact pollWrite_answers server env capacity hwrite
  split
  · rename_i hroutine
    exact pollRoutine_answers server env capacity hroutine
  · exact Or.inl rfl

/-- What the two entry points store stays within the capacity and is their response, which has the shape of an
answer to the request, or to what is pending. -/
theorem responses_wellFormed (server : UdsServer σ) (env : σ) (now : UInt32) (service : UInt8)
    (args : List UInt8) (capacity : UInt16) (h : server.Sized (service :: args)) :
    server.processWritten env now service args capacity.toNat =
        (server.process env now (service :: args) capacity.toNat).1.written ∧
      (server.processWritten env now service args capacity.toNat).Within capacity.toNat ∧
      Answers service (server.process env now (service :: args) capacity.toNat).1.response ∧
      (server.pollWritten env capacity.toNat).Within capacity.toNat ∧
      server.AnswersPending (server.pollPending env capacity.toNat).1.response := by
  have hwritten := server.processWritten_eq env now args capacity service h
  refine ⟨hwritten, ?_, server.process_answers env now service args capacity.toNat, ?_,
    server.pollPending_answers env capacity.toNat⟩
  · rw [hwritten]
    exact ((server.tick now).dispatch_fits env now args capacity.toNat service).within
  · exact (server.pollPending_fits env capacity.toNat).within

/-- The one-byte identifier needs four bytes and is counted with five. -/
theorem responses_wellFormed_oneByte :
    (oneByteServer.processWritten () 0 sidReadDataByIdentifier [0xF1, 0x90] 5).stores =
        [(0, 0x62), (1, 0xF1), (2, 0x90), (3, 0x31)] ∧
      (oneByteServer.processWritten () 0 sidReadDataByIdentifier [0xF1, 0x90] 5).Within 5 :=
  have hsized : oneByteServer.Sized [sidReadDataByIdentifier, 0xF1, 0x90] :=
    ⟨by decide, by decide +kernel⟩
  ⟨by decide +kernel,
    (responses_wellFormed oneByteServer () 0 sidReadDataByIdentifier [0xF1, 0x90] 5 hsized).2.1⟩

end UdsServer

end DualCan.Uds
