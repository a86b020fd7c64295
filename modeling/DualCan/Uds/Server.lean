import DualCan.Run.Clock
import Mathlib.Data.List.Basic
import Mathlib.Logic.Function.Basic

/-!
# The UDS server

`UdsServer_t` and the services of `uds_server.c`. Handlers and storage callbacks act on an environment `σ`
(what their context pointers reach); a routine handler may also replace the identifier table, as the ECU's
parameter erase does. A request or response is the list of its bytes, an entry's `data` and `length` are one
list, and a response buffer is given by its capacity.
-/

namespace DualCan.Uds

open DualCan.Clock

/-! ## Constants -/

def sidDiagnosticSessionControl : UInt8 := 0x10
def sidReadDataByIdentifier : UInt8 := 0x22
def sidSecurityAccess : UInt8 := 0x27
def sidWriteDataByIdentifier : UInt8 := 0x2E
def sidRoutineControl : UInt8 := 0x31
def sidTesterPresent : UInt8 := 0x3E
def sidNegativeResponse : UInt8 := 0x7F

def sessionDefault : UInt8 := 0x01
def sessionProgramming : UInt8 := 0x02
def sessionExtended : UInt8 := 0x03

def securityRequestSeed : UInt8 := 0x01
def securitySendKey : UInt8 := 0x02

def routineStart : UInt8 := 0x01
def routineStop : UInt8 := 0x02
def routineRequestResults : UInt8 := 0x03

def nrcServiceNotSupported : UInt8 := 0x11
def nrcSubfunctionNotSupported : UInt8 := 0x12
def nrcIncorrectLength : UInt8 := 0x13
def nrcConditionsNotCorrect : UInt8 := 0x22
def nrcRequestSequenceError : UInt8 := 0x24
def nrcRequestOutOfRange : UInt8 := 0x31
def nrcSecurityAccessDenied : UInt8 := 0x33
def nrcInvalidKey : UInt8 := 0x35
def nrcExceedNumberOfAttempts : UInt8 := 0x36
def nrcRequiredTimeDelayNotExpired : UInt8 := 0x37
def nrcGeneralProgrammingFailure : UInt8 := 0x72
def nrcResponsePending : UInt8 := 0x78
def nrcSubfunctionNotSupportedInActiveSession : UInt8 := 0x7E

def suppressPositiveResponse : UInt8 := 0x80
def subfunctionMask : UInt8 := 0x7F
def maxDids : ℕ := 16
def maxRoutines : ℕ := 8
def routineResultMax : ℕ := 16
def pendingRoutineDataMax : ℕ := 16
def pendingDidDataMax : ℕ := 64

def securityMaxAttempts : UInt8 := 3
def securityDelayMs : UInt32 := 10000
def defaultSecuritySalt : UInt32 := 0x50324341
def defaultSeed : UInt32 := 0x12345678

def defaultSessionMask : UInt8 := 0x0E
def extendedProgrammingMask : UInt8 := 0x0C

def defaultP2ServerMs : UInt16 := 50
def defaultP2StarServerMs : UInt16 := 5000
def defaultS3ServerMs : UInt16 := 5000

/-! ## Data -/

inductive ProcessResult where
  | noResponse
  | response
  | bufferTooSmall
  | responsePending
  deriving DecidableEq, Repr

/-- A result and the bytes of the response. -/
structure Reply where
  result : ProcessResult
  response : List UInt8
  deriving DecidableEq, Repr

/-- `UdsDid_t`. -/
structure Did (σ : Type) where
  did : UInt16
  data : List UInt8
  hasStorage : Bool
  storageCapacity : ℕ
  readSessionsMask : UInt8
  writeSessionsMask : UInt8
  writeRequiredSession : UInt8
  writeRequiresUnlock : Bool
  storageSave : Option (UInt16 → List UInt8 → σ → Bool × σ)

inductive RoutineStatus where
  | idle
  | running
  | complete
  | failed
  deriving DecidableEq, Repr

/-- What a routine handler returns: its status and result, and what it made of its context. -/
structure Handled (σ : Type) where
  status : RoutineStatus
  result : List UInt8
  env : σ
  dids : List (Did σ)

/-- `UdsRoutine_t`. `UdsServer_Init` refuses a routine without a handler. -/
structure Routine (σ : Type) where
  routineId : UInt16
  sessionsMask : UInt8
  requiresUnlock : Bool
  handler : UInt8 → List UInt8 → ℕ → σ → List (Did σ) → Handled σ

/-- `UdsServerConfig_t`. -/
structure UdsServerConfig (σ : Type) where
  dids : List (Did σ)
  routines : List (Routine σ)
  p2ServerMs : UInt16
  p2StarServerMs : UInt16
  s3ServerMs : UInt16
  supportedSessionsMask : UInt8
  securitySalt : UInt32

/-- `UdsServer_t`. -/
structure UdsServer (σ : Type) where
  dids : List (Did σ)
  routines : List (Routine σ)
  p2ServerMs : UInt16
  p2StarServerMs : UInt16
  s3ServerMs : UInt16
  supportedSessionsMask : UInt8
  securitySalt : UInt32
  session : UInt8
  s3Active : Bool
  s3DeadlineMs : UInt32
  sessionTimeoutCount : UInt32
  seedState : UInt32
  pendingSeed : UInt32
  seedPending : Bool
  securityUnlocked : Bool
  securityAttempts : UInt8
  securityDelayUntilMs : UInt32
  routineState : ℕ → RoutineStatus
  routineResult : ℕ → List UInt8
  pendingRoutineResponse : Bool
  pendingRoutineIndex : ℕ
  pendingRoutineSubfunction : UInt8
  pendingRoutineSuppressPositive : Bool
  pendingRoutineData : List UInt8
  pendingDidWrite : Bool
  pendingDidIndex : ℕ
  pendingDidData : List UInt8

/-! ## The seed and key transform -/

/-- `UdsSecurity_ComputeKey`. -/
def computeKey (seed salt : UInt32) : UInt32 :=
  let key := seed ^^^ salt
  let key := (key <<< 13) ||| (key >>> 19)
  let key := key + 0x9E3779B9
  key ^^^ (key >>> 16)

/-- `UdsSecurity_NextSeed`: the seed and the state afterwards. -/
def nextSeed (state : UInt32) : UInt32 × UInt32 :=
  let value := if state = 0 then defaultSeed else state
  let value := value ^^^ (value <<< 13)
  let value := value ^^^ (value >>> 17)
  let value := value ^^^ (value <<< 5)
  (if value = 0 ∨ value = 0xFFFFFFFF then defaultSeed else value, value)

/-! ## Helpers -/

/-- The first element satisfying `p`, with its index. -/
def findIndexed {α : Type*} (p : α → Bool) (l : List α) : Option (ℕ × α) :=
  (l.findIdx? p).bind fun index => l[index]?.map fun entry => (index, entry)

/-- Two bytes, high byte first. -/
def word16 (high low : UInt8) : UInt16 := (high.toUInt16 <<< 8) ||| low.toUInt16

/-- Four bytes, highest first. -/
def word32 (b0 b1 b2 b3 : UInt8) : UInt32 :=
  (b0.toUInt32 <<< 24) ||| (b1.toUInt32 <<< 16) ||| (b2.toUInt32 <<< 8) ||| b3.toUInt32

def high16 (value : UInt16) : UInt8 := (value >>> 8).toUInt8

def low16 (value : UInt16) : UInt8 := (value &&& 0x00FF).toUInt8

/-- `UdsServer_Negative`. -/
def negative (capacity : ℕ) (service nrc : UInt8) : Reply :=
  if capacity < 3 then ⟨.bufferTooSmall, []⟩
  else ⟨.response, [sidNegativeResponse, service, nrc]⟩

/-- `UdsServer_ResponsePending`. -/
def responsePending (capacity : ℕ) (service : UInt8) : Reply :=
  let reply := negative capacity service nrcResponsePending
  if reply.result = .response then { reply with result := .responsePending } else reply

/-- A positive response of at most `capacity` bytes, unless it is suppressed. -/
def positive (suppress : Bool) (capacity : ℕ) (bytes : List UInt8) : Reply :=
  if suppress then ⟨.noResponse, []⟩
  else if capacity < bytes.length then ⟨.bufferTooSmall, []⟩
  else ⟨.response, bytes⟩

/-- A reply after which `UdsServer_Process` keeps the session alive. -/
def Reply.keepsSession (reply : Reply) : Bool :=
  reply.result = .responsePending ||
    (reply.result = .response && reply.response ≠ [] &&
      reply.response.head? ≠ some sidNegativeResponse)

/-- `UdsServer_SessionAllowed`. -/
def sessionAllowed (sessionsMask session : UInt8) : Bool :=
  if sessionsMask = 0 then true
  else if session = 0 ∨ session > 7 then false
  else sessionsMask &&& (1 <<< session) ≠ 0

namespace UdsServer

variable {σ : Type}

/-- `UdsServer_FindDid`, with the entry's index. -/
def findDid (server : UdsServer σ) (did : UInt16) : Option (ℕ × Did σ) :=
  findIndexed (fun entry => entry.did == did) server.dids

/-- `UdsServer_FindRoutineIndex`, with the routine. -/
def findRoutine (server : UdsServer σ) (routineId : UInt16) : Option (ℕ × Routine σ) :=
  findIndexed (fun routine => routine.routineId == routineId) server.routines

/-- `UdsServer_ClearPendingDid`. -/
def clearPendingDid (server : UdsServer σ) : UdsServer σ :=
  { server with pendingDidWrite := false, pendingDidIndex := 0, pendingDidData := [] }

/-- `UdsServer_ClearPendingRoutine`. -/
def clearPendingRoutine (server : UdsServer σ) : UdsServer σ :=
  { server with
    pendingRoutineResponse := false
    pendingRoutineIndex := 0
    pendingRoutineSubfunction := 0
    pendingRoutineSuppressPositive := false
    pendingRoutineData := [] }

/-- `UdsServer_LockSecurityState`, also `UdsServer_LockSecurity`. -/
def lockSecurityState (server : UdsServer σ) : UdsServer σ :=
  { server with
    securityUnlocked := false
    seedPending := false
    pendingSeed := 0
    securityAttempts := 0 }

/-- `UdsServer_SecurityDelayActive`. -/
def securityDelayActive (server : UdsServer σ) (now : UInt32) : Bool × UdsServer σ :=
  if server.securityDelayUntilMs = 0 then (false, server)
  else if reached now server.securityDelayUntilMs then
    (false, { server with securityDelayUntilMs := 0, securityAttempts := 0 })
  else (true, server)

/-- `UdsServer_SetSession`. -/
def setSession (server : UdsServer σ) (session : UInt8) (now : UInt32) : UdsServer σ :=
  let server := if session ≠ server.session then server.lockSecurityState else server
  let server := { server with session := session }
  if session = sessionDefault then { server with s3Active := false, s3DeadlineMs := 0 }
  else { server with s3Active := true, s3DeadlineMs := now + server.s3ServerMs.toUInt32 }

/-- `UdsServer_KeepSessionAlive`. -/
def keepSessionAlive (server : UdsServer σ) (now : UInt32) : UdsServer σ :=
  if server.s3Active then { server with s3DeadlineMs := now + server.s3ServerMs.toUInt32 } else server

/-! ## Services

Each takes the request bytes after the service identifier. -/

/-- `UdsServer_SessionControl`. -/
def sessionControl (server : UdsServer σ) (now : UInt32) (args : List UInt8) (capacity : ℕ) :
    Reply × UdsServer σ :=
  match args with
  | [subfunction] =>
    let requested := subfunction &&& subfunctionMask
    if requested < sessionDefault ∨ requested > sessionExtended ∨
        !sessionAllowed server.supportedSessionsMask requested then
      (negative capacity sidDiagnosticSessionControl nrcSubfunctionNotSupported, server)
    else
      (positive (subfunction &&& suppressPositiveResponse ≠ 0) capacity
        [sidDiagnosticSessionControl + 0x40, requested, high16 server.p2ServerMs,
          low16 server.p2ServerMs, high16 (server.p2StarServerMs / 10),
          low16 (server.p2StarServerMs / 10)], server.setSession requested now)
  | _ => (negative capacity sidDiagnosticSessionControl nrcIncorrectLength, server)

/-- The first loop of `UdsServer_ReadDid`: the entries asked for, or the response code of the first that
cannot be read. -/
def readEntries (server : UdsServer σ) : List UInt8 → Except UInt8 (List (UInt8 × UInt8 × Did σ))
  | high :: low :: rest =>
    match server.findDid (word16 high low) with
    | none => .error nrcRequestOutOfRange
    | some (_, entry) =>
      if !sessionAllowed entry.readSessionsMask server.session then
        .error nrcSubfunctionNotSupportedInActiveSession
      else (readEntries server rest).map ((high, low, entry) :: ·)
  | _ => .ok []

/-- `UdsServer_ReadDid`. -/
def readDid (server : UdsServer σ) (args : List UInt8) (capacity : ℕ) : Reply :=
  if args.length < 2 ∨ args.length % 2 ≠ 0 then
    negative capacity sidReadDataByIdentifier nrcIncorrectLength
  else
    match server.readEntries args with
    | .error nrc => negative capacity sidReadDataByIdentifier nrc
    | .ok entries =>
      -- the source budgets one byte more for each entry than it writes
      if 1 + (entries.map fun e => 3 + e.2.2.data.length).sum > capacity then ⟨.bufferTooSmall, []⟩
      else
        ⟨.response, (sidReadDataByIdentifier + 0x40) ::
          entries.flatMap fun e => e.1 :: e.2.1 :: e.2.2.data⟩

/-- The four bytes of a seed. -/
def seedBytes (seed : UInt32) : List UInt8 :=
  [(seed >>> 24).toUInt8, (seed >>> 16).toUInt8, (seed >>> 8).toUInt8, seed.toUInt8]

/-- The seed request of `UdsServer_SecurityAccess`. -/
def requestSeed (server : UdsServer σ) (suppress : Bool) (capacity : ℕ) : Reply × UdsServer σ :=
  if server.securityUnlocked then
    (positive suppress capacity
      ((sidSecurityAccess + 0x40) :: securityRequestSeed :: seedBytes 0), server)
  else
    let (seed, state) := nextSeed server.seedState
    (positive suppress capacity
      ((sidSecurityAccess + 0x40) :: securityRequestSeed :: seedBytes seed),
      { server with seedState := state, pendingSeed := seed, seedPending := true })

/-- The comparison of a key in `UdsServer_SecurityAccess`. -/
def evaluateKey (server : UdsServer σ) (now key : UInt32) (suppress : Bool) (capacity : ℕ) :
    Reply × UdsServer σ :=
  let expected := computeKey server.pendingSeed server.securitySalt
  let server := { server with seedPending := false, pendingSeed := 0 }
  if key ≠ expected then
    let server := { server with securityAttempts := server.securityAttempts + 1 }
    if server.securityAttempts ≥ securityMaxAttempts then
      (negative capacity sidSecurityAccess nrcExceedNumberOfAttempts,
        { server with securityAttempts := 0, securityDelayUntilMs := now + securityDelayMs })
    else (negative capacity sidSecurityAccess nrcInvalidKey, server)
  else
    (positive suppress capacity [sidSecurityAccess + 0x40, securitySendKey],
      { server with securityUnlocked := true, securityAttempts := 0, securityDelayUntilMs := 0 })

/-- `UdsServer_SecurityAccess`. -/
def securityAccess (server : UdsServer σ) (now : UInt32) (args : List UInt8) (capacity : ℕ) :
    Reply × UdsServer σ :=
  match args with
  | [] => (negative capacity sidSecurityAccess nrcIncorrectLength, server)
  | sub :: data =>
    let subfunction := sub &&& subfunctionMask
    let suppress : Bool := sub &&& suppressPositiveResponse ≠ 0
    if subfunction ≠ securityRequestSeed ∧ subfunction ≠ securitySendKey then
      (negative capacity sidSecurityAccess nrcSubfunctionNotSupported, server)
    else if server.session ≠ sessionExtended ∧ server.session ≠ sessionProgramming then
      (negative capacity sidSecurityAccess nrcSubfunctionNotSupportedInActiveSession, server)
    else
      match server.securityDelayActive now with
      | (true, server) => (negative capacity sidSecurityAccess nrcRequiredTimeDelayNotExpired, server)
      | (false, server) =>
        if subfunction = securityRequestSeed then server.requestSeed suppress capacity
        else
          match data with
          | [k0, k1, k2, k3] =>
            if !server.seedPending then
              (negative capacity sidSecurityAccess nrcRequestSequenceError, server)
            else server.evaluateKey now (word32 k0 k1 k2 k3) suppress capacity
          | _ => (negative capacity sidSecurityAccess nrcIncorrectLength, server)

/-- `UdsServer_WriteDid`. -/
def writeDid (server : UdsServer σ) (args : List UInt8) (capacity : ℕ) : Reply × UdsServer σ :=
  match args with
  | high :: low :: data =>
    match server.findDid (word16 high low) with
    | none => (negative capacity sidWriteDataByIdentifier nrcRequestOutOfRange, server)
    | some (index, entry) =>
      if !entry.hasStorage ∨ entry.writeSessionsMask = 0 then
        (negative capacity sidWriteDataByIdentifier nrcRequestOutOfRange, server)
      else if !sessionAllowed entry.writeSessionsMask server.session then
        (negative capacity sidWriteDataByIdentifier nrcSubfunctionNotSupportedInActiveSession, server)
      else if entry.writeRequiresUnlock ∧ !server.securityUnlocked then
        (negative capacity sidWriteDataByIdentifier nrcSecurityAccessDenied, server)
      else if entry.writeRequiredSession ≠ 0 ∧ server.session ≠ entry.writeRequiredSession then
        (negative capacity sidWriteDataByIdentifier nrcConditionsNotCorrect, server)
      else if data.length > entry.storageCapacity then
        (negative capacity sidWriteDataByIdentifier nrcRequestOutOfRange, server)
      else if entry.storageSave.isSome then
        if data.length > pendingDidDataMax then
          (negative capacity sidWriteDataByIdentifier nrcRequestOutOfRange, server)
        else
          (responsePending capacity sidWriteDataByIdentifier,
            { server.clearPendingDid with
              pendingDidWrite := true
              pendingDidIndex := index
              pendingDidData := data })
      else
        (positive false capacity [sidWriteDataByIdentifier + 0x40, high, low],
          { server with dids := server.dids.set index { entry with data := data } })
  | _ => (negative capacity sidWriteDataByIdentifier nrcIncorrectLength, server)

/-- A call of a routine's handler with the bookkeeping after it: the status becomes the routine's state,
and the result is stored (`UdsServer_StoreRoutineResult`). -/
def callRoutine (server : UdsServer σ) (env : σ) (index : ℕ) (routine : Routine σ)
    (subfunction : UInt8) (data : List UInt8) : Handled σ × UdsServer σ :=
  let handled := routine.handler subfunction data routineResultMax env server.dids
  (handled, { server with
    dids := handled.dids
    routineState := Function.update server.routineState index handled.status
    routineResult :=
      Function.update server.routineResult index (handled.result.take routineResultMax) })

/-- `UdsServer_RoutinePositive`. -/
def routinePositive (subfunction : UInt8) (routineId : UInt16) (result : List UInt8)
    (suppress : Bool) (capacity : ℕ) : Reply :=
  positive suppress capacity
    ((sidRoutineControl + 0x40) :: subfunction :: high16 routineId :: low16 routineId :: result)

/-- `UdsServer_ArmPendingRoutine`. -/
def armPendingRoutine (server : UdsServer σ) (index : ℕ) (subfunction : UInt8) (suppress : Bool)
    (data : List UInt8) : UdsServer σ :=
  { server with
    pendingRoutineResponse := true
    pendingRoutineIndex := index
    pendingRoutineSubfunction := subfunction
    pendingRoutineSuppressPositive := suppress
    pendingRoutineData := data.take pendingRoutineDataMax }

/-- A known routine's request is a new one: it drops the pending response of the same routine. -/
def dropPendingRoutine (server : UdsServer σ) (index : ℕ) : UdsServer σ :=
  if server.pendingRoutineResponse ∧ server.pendingRoutineIndex = index then
    server.clearPendingRoutine
  else server

/-- The end of `UdsServer_RoutineControl`, once the routine is known and the request is authorised. -/
def runRoutine (server : UdsServer σ) (env : σ) (index : ℕ) (routine : Routine σ)
    (subfunction : UInt8) (suppress : Bool) (data : List UInt8) (capacity : ℕ) :
    Reply × UdsServer σ × σ :=
  if subfunction = routineStart then
    if server.routineState index = .running then
      (negative capacity sidRoutineControl nrcConditionsNotCorrect, server, env)
    else
      let (handled, server) := server.callRoutine env index routine routineStart data
      (routinePositive subfunction routine.routineId handled.result suppress capacity, server,
        handled.env)
  else if subfunction = routineStop then
    if server.routineState index ≠ .running then
      (negative capacity sidRoutineControl nrcRequestSequenceError, server, env)
    else
      let (handled, server) := server.callRoutine env index routine routineStop data
      (routinePositive subfunction routine.routineId handled.result suppress capacity, server,
        handled.env)
  else if server.routineState index = .idle then
    (negative capacity sidRoutineControl nrcRequestSequenceError, server, env)
  else if server.routineState index = .complete ∨ server.routineState index = .failed then
    (routinePositive subfunction routine.routineId (server.routineResult index) suppress capacity,
      server, env)
  else
    let (handled, server) := server.callRoutine env index routine routineRequestResults data
    if handled.status = .running then
      (responsePending capacity sidRoutineControl,
        server.armPendingRoutine index subfunction suppress data, handled.env)
    else
      (routinePositive subfunction routine.routineId handled.result suppress capacity, server,
        handled.env)

/-- `UdsServer_RoutineControl`. -/
def routineControl (server : UdsServer σ) (env : σ) (args : List UInt8) (capacity : ℕ) :
    Reply × UdsServer σ × σ :=
  match args with
  | sub :: high :: low :: data =>
    let subfunction := sub &&& subfunctionMask
    let suppress : Bool := sub &&& suppressPositiveResponse ≠ 0
    match server.findRoutine (word16 high low) with
    | none => (negative capacity sidRoutineControl nrcRequestOutOfRange, server, env)
    | some (index, routine) =>
      let server := server.dropPendingRoutine index
      if subfunction ≠ routineStart ∧ subfunction ≠ routineStop ∧
          subfunction ≠ routineRequestResults then
        (negative capacity sidRoutineControl nrcSubfunctionNotSupported, server, env)
      else if !sessionAllowed routine.sessionsMask server.session then
        (negative capacity sidRoutineControl nrcSubfunctionNotSupportedInActiveSession, server, env)
      else if routine.requiresUnlock ∧ !server.securityUnlocked then
        (negative capacity sidRoutineControl nrcSecurityAccessDenied, server, env)
      else server.runRoutine env index routine subfunction suppress data capacity
  | _ => (negative capacity sidRoutineControl nrcIncorrectLength, server, env)

/-- `UdsServer_TesterPresent`. -/
def testerPresent (server : UdsServer σ) (now : UInt32) (args : List UInt8) (capacity : ℕ) :
    Reply × UdsServer σ :=
  match args with
  | [subfunction] =>
    if subfunction &&& subfunctionMask ≠ 0 then
      (negative capacity sidTesterPresent nrcSubfunctionNotSupported, server)
    else
      (positive (subfunction &&& suppressPositiveResponse ≠ 0) capacity
        [sidTesterPresent + 0x40, 0x00], server.keepSessionAlive now)
  | _ => (negative capacity sidTesterPresent nrcIncorrectLength, server)

/-! ## Entry points -/

/-- `UdsServer_Init`: `none` where it returns `false`. -/
def init (config : UdsServerConfig σ) : Option (UdsServer σ) :=
  if config.dids.length > maxDids ∨ config.routines.length > maxRoutines then none
  else if config.dids.any fun entry => 0 < entry.storageCapacity && !entry.hasStorage then none
  else if ¬(config.dids.map Did.did).Nodup then none
  else if ¬(config.routines.map Routine.routineId).Nodup then none
  else
    some {
      dids := config.dids
      routines := config.routines
      p2ServerMs := if config.p2ServerMs = 0 then defaultP2ServerMs else config.p2ServerMs
      p2StarServerMs :=
        if config.p2StarServerMs = 0 then defaultP2StarServerMs else config.p2StarServerMs
      s3ServerMs := if config.s3ServerMs = 0 then defaultS3ServerMs else config.s3ServerMs
      supportedSessionsMask :=
        if config.supportedSessionsMask = 0 then defaultSessionMask
        else config.supportedSessionsMask
      securitySalt := if config.securitySalt = 0 then defaultSecuritySalt else config.securitySalt
      session := sessionDefault
      s3Active := false
      s3DeadlineMs := 0
      sessionTimeoutCount := 0
      seedState := defaultSeed
      pendingSeed := 0
      seedPending := false
      securityUnlocked := false
      securityAttempts := 0
      securityDelayUntilMs := 0
      routineState := fun _ => .idle
      routineResult := fun _ => []
      pendingRoutineResponse := false
      pendingRoutineIndex := 0
      pendingRoutineSubfunction := 0
      pendingRoutineSuppressPositive := false
      pendingRoutineData := []
      pendingDidWrite := false
      pendingDidIndex := 0
      pendingDidData := [] }

/-- `UdsServer_Tick`. -/
def tick (server : UdsServer σ) (now : UInt32) : UdsServer σ :=
  if server.s3Active ∧ reached now server.s3DeadlineMs then
    let server := { server with
      session := sessionDefault
      s3Active := false
      s3DeadlineMs := 0
      sessionTimeoutCount := server.sessionTimeoutCount + 1 }
    server.lockSecurityState
  else server

/-- The end of `UdsServer_Process`. -/
def finish (now : UInt32) (outcome : Reply × UdsServer σ × σ) : Reply × UdsServer σ × σ :=
  if outcome.1.keepsSession then (outcome.1, outcome.2.1.keepSessionAlive now, outcome.2.2)
  else outcome

/-- `UdsServer_Process` after the tick, for a request with a service identifier. -/
def dispatch (server : UdsServer σ) (env : σ) (now : UInt32) (service : UInt8)
    (args : List UInt8) (capacity : ℕ) : Reply × UdsServer σ × σ :=
  if service = sidDiagnosticSessionControl then
    let (reply, server) := server.sessionControl now args capacity
    (reply, server, env)
  else if service = sidReadDataByIdentifier then
    finish now (server.readDid args capacity, server, env)
  else if service = sidSecurityAccess then
    let (reply, server) := server.securityAccess now args capacity
    finish now (reply, server, env)
  else if service = sidWriteDataByIdentifier then
    let (reply, server) := server.writeDid args capacity
    finish now (reply, server, env)
  else if service = sidRoutineControl then
    finish now (server.routineControl env args capacity)
  else if service = sidTesterPresent then
    let (reply, server) := server.testerPresent now args capacity
    (reply, server, env)
  else (negative capacity service nrcServiceNotSupported, server, env)

/-- `UdsServer_Process`. -/
def process (server : UdsServer σ) (env : σ) (now : UInt32) (request : List UInt8) (capacity : ℕ) :
    Reply × UdsServer σ × σ :=
  match request with
  | [] => (negative capacity 0 nrcIncorrectLength, server.tick now, env)
  | service :: args => (server.tick now).dispatch env now service args capacity

/-- The pending write of `UdsServer_PollPending`. -/
def pollWrite (server : UdsServer σ) (env : σ) (capacity : ℕ) : Reply × UdsServer σ × σ :=
  let failure (env : σ) :=
    (negative capacity sidWriteDataByIdentifier nrcGeneralProgrammingFailure,
      server.clearPendingDid, env)
  match server.dids[server.pendingDidIndex]? with
  | none => failure env
  | some entry =>
    match entry.storageSave with
    | none => failure env
    | some save =>
      if !entry.hasStorage ∨ server.pendingDidData.length > entry.storageCapacity then failure env
      else
        match save entry.did server.pendingDidData env with
        | (false, env) => failure env
        | (true, env) =>
          let entry := { entry with data := server.pendingDidData }
          let server := { server with dids := server.dids.set server.pendingDidIndex entry }
          (positive false capacity
            [sidWriteDataByIdentifier + 0x40, high16 entry.did, low16 entry.did],
            server.clearPendingDid, env)

/-- The pending routine of `UdsServer_PollPending`. -/
def pollRoutine (server : UdsServer σ) (env : σ) (capacity : ℕ) : Reply × UdsServer σ × σ :=
  match server.routines[server.pendingRoutineIndex]? with
  | none => (⟨.noResponse, []⟩, server, env)
  | some routine =>
    let (handled, next) := server.callRoutine env server.pendingRoutineIndex routine
      routineRequestResults server.pendingRoutineData
    if handled.status = .running then (⟨.noResponse, []⟩, next, handled.env)
    else
      (routinePositive server.pendingRoutineSubfunction routine.routineId handled.result
        server.pendingRoutineSuppressPositive capacity, next.clearPendingRoutine, handled.env)

/-- `UdsServer_PollPending`. -/
def pollPending (server : UdsServer σ) (env : σ) (capacity : ℕ) : Reply × UdsServer σ × σ :=
  if server.pendingDidWrite then server.pollWrite env capacity
  else if server.pendingRoutineResponse then server.pollRoutine env capacity
  else (⟨.noResponse, []⟩, server, env)

/-! ## Runs -/

/-- A call of one of the server's entry points. -/
inductive Event where
  | process (now : UInt32) (request : List UInt8) (capacity : ℕ)
  | pollPending (capacity : ℕ)
  | tick (now : UInt32)
  | lockSecurity
  deriving DecidableEq

/-- The reply to an event, none for a tick or a lock, and what it leaves. -/
def respond (s : UdsServer σ × σ) : Event → Reply × UdsServer σ × σ
  | .process now request capacity => s.1.process s.2 now request capacity
  | .pollPending capacity => s.1.pollPending s.2 capacity
  | .tick now => (⟨.noResponse, []⟩, s.1.tick now, s.2)
  | .lockSecurity => (⟨.noResponse, []⟩, s.1.lockSecurityState, s.2)

def step (s : UdsServer σ × σ) (e : Event) : UdsServer σ × σ := (respond s e).2

end UdsServer

end DualCan.Uds
