import DualCan.Uds.Ecu

/-!
# The virtual ECU

`virtual_ecu.py` with the parts of `can_health.py`, `dids.py` and `security.py` it uses. Times are whole
milliseconds; every read of the clock during a request gives the same time. Integers are natural numbers,
a dictionary is a function to `Option`, and a request or response is the list of its bytes.
-/

namespace DualCan.Emu

open DualCan.Uds

/-! ## `security.py` -/

def defaultSecuritySalt : ℕ := 0x50324341

def defaultSeed : ℕ := 0x12345678

def seedToKey (seed salt : ℕ) : ℕ :=
  let value := (seed ^^^ salt) &&& 0xFFFFFFFF
  let value := ((value <<< 13) ||| (value >>> 19)) &&& 0xFFFFFFFF
  let value := (value + 0x9E3779B9) &&& 0xFFFFFFFF
  let value := value ^^^ (value >>> 16)
  value &&& 0xFFFFFFFF

/-- `SeedGenerator.next_seed`: the seed, and the generator's state afterwards. -/
def nextSeed (state : ℕ) : ℕ × ℕ :=
  let value := state
  let value := value ^^^ ((value <<< 13) &&& 0xFFFFFFFF)
  let value := value ^^^ (value >>> 17)
  let value := value ^^^ ((value <<< 5) &&& 0xFFFFFFFF)
  let value := value &&& 0xFFFFFFFF
  (if value = 0 ∨ value = 0xFFFFFFFF then defaultSeed else value,
    if value = 0 then defaultSeed else value)

/-! ## `can_health.py` -/

inductive CanBusState where
  | errorActive
  | errorPassive
  | busOff
  deriving DecidableEq, Repr

/-- `CanHealthMonitor`, with its default thresholds. The error counts are kept as their sum, which is all
the virtual ECU reads. -/
structure CanHealthMonitor where
  busOffThreshold : ℕ := 256
  tec : ℕ := 0
  recCount : ℕ := 0
  state : CanBusState := .errorActive
  errorTotal : ℕ := 0
  busOffEvents : ℕ := 0
  recoverySuccesses : ℕ := 0
  recoveryFailures : ℕ := 0
  consecutiveRecoveryFailures : ℕ := 0

namespace CanHealthMonitor

def enterBusOff (health : CanHealthMonitor) : CanHealthMonitor :=
  { health with
    busOffEvents := if health.state ≠ .busOff then health.busOffEvents + 1 else health.busOffEvents
    state := .busOff
    tec := max health.tec health.busOffThreshold }

def markRecovered (health : CanHealthMonitor) : CanHealthMonitor :=
  { health with
    state := .errorActive
    tec := 0
    recCount := 0
    recoverySuccesses := health.recoverySuccesses + 1
    consecutiveRecoveryFailures := 0 }

end CanHealthMonitor

/-! ## Data -/

def didCanHealth : UInt16 := 0xF192
def didFaultControl : UInt16 := 0xF1A0

/-- The name of the profile that stands for a variant. -/
def profile : UdsEcuVariant → String
  | .f407 => "ecu1"
  | .f103 => "ecu2"

def defaultVin : List UInt8 := ascii "P2TESTVIN00000001"

def vinByEcu (name : String) : Option (List UInt8) :=
  if name = "ecu1" then some (ascii "P2F407TESTVIN0001")
  else if name = "ecu2" then some (ascii "P2F103TESTVIN0001")
  else none

def defaultHardwareVersion : List UInt8 := ascii "PROJECT2-HW-A"

def hardwareVersionByEcu (name : String) : Option (List UInt8) :=
  if name = "ecu1" then some (ascii "F407-HW-REV-A")
  else if name = "ecu2" then some (ascii "F103-HW-REV-A")
  else none

/-- `default_dids`. -/
def defaultDids (name : String) (did : UInt16) : Option (List UInt8) :=
  if did = didVin then some ((vinByEcu name).getD defaultVin)
  else if did = didHardware then some ((hardwareVersionByEcu name).getD defaultHardwareVersion)
  else if did = didCustom then some [0x00, 0x01]
  else if did = didDtc then some [0, 0, 0, 0]
  else if did = didFaultControl then some [0, 0]
  else if did = didName then some (ascii name)
  else if did = didSoftware then some (ascii "V1.0")
  else none

structure DidWriteRule where
  sessions : List UInt8
  requiresUnlock : Bool
  requiredSession : Option UInt8
  maxLength : Option ℕ

/-- `default_write_rules`. -/
def defaultWriteRules (did : UInt16) : Option DidWriteRule :=
  if did = didCustom then some ⟨[sessionExtended, sessionProgramming], true, none, some 16⟩
  else if did = didDtc then some ⟨[sessionExtended, sessionProgramming], true, none, some 4⟩
  else if did = didVin then
    some ⟨[sessionExtended, sessionProgramming], true, some sessionProgramming, some 17⟩
  else if did = didFaultControl then
    some ⟨[sessionDefault, sessionExtended, sessionProgramming], false, none, some 16⟩
  else none

inductive RoutineState where
  | idle
  | running
  | complete
  deriving DecidableEq, Repr

structure VirtualRoutine where
  sessions : List UInt8 := [sessionExtended, sessionProgramming]
  requiresUnlock : Bool := false
  pollsUntilComplete : ℕ := 1
  result : List UInt8 := [0x00]
  state : RoutineState := .idle
  polls : ℕ := 0

namespace VirtualRoutine

def start (routine : VirtualRoutine) : List UInt8 × VirtualRoutine :=
  ([], { routine with state := .running, polls := 0 })

def stop (routine : VirtualRoutine) : List UInt8 × VirtualRoutine :=
  ([0x00], { routine with state := .idle, polls := 0 })

def requestResults (routine : VirtualRoutine) : (RoutineState × List UInt8) × VirtualRoutine :=
  match routine.state with
  | .complete => ((.complete, routine.result), routine)
  | .idle => ((.idle, []), routine)
  | .running =>
    let routine := { routine with polls := routine.polls + 1 }
    if routine.polls ≥ routine.pollsUntilComplete then
      ((.complete, routine.result), { routine with state := .complete })
    else ((.running, []), routine)

end VirtualRoutine

/-- `default_routines`. -/
def defaultRoutines (routineId : UInt16) : Option VirtualRoutine :=
  if routineId = 0x0203 then some { pollsUntilComplete := 2 }
  else if routineId = 0x0301 then some { pollsUntilComplete := 1 }
  else if routineId = 0xFF00 then some { requiresUnlock := true, pollsUntilComplete := 2 }
  else none

structure EcuFaultState where
  commLossUntil : ℕ := 0
  busOffUntil : ℕ := 0
  nrcForService : UInt8 → Option UInt8 := fun _ => none

/-- The state of `VirtualEcu` that answering a request reads or writes. -/
structure VirtualEcu where
  supportedSessions : List UInt8
  session : UInt8
  s3TimeoutMs : ℕ
  sessionTimeoutCount : ℕ
  s3Deadline : Option ℕ
  dids : UInt16 → Option (List UInt8)
  writableDids : UInt16 → Option DidWriteRule
  routines : UInt16 → Option VirtualRoutine
  securitySalt : ℕ
  pendingDelayMs : ℕ
  seedState : ℕ
  pendingSeed : Option ℕ
  securityUnlocked : Bool
  securityAttempts : ℕ
  securityDelayUntil : ℕ
  fault : EcuFaultState
  health : CanHealthMonitor
  deferred : List (ℕ × List UInt8)

def securityMaxAttempts : ℕ := 3
def securityDelayMs : ℕ := 10000

namespace VirtualEcu

/-- `VirtualEcu.__init__` with the default arguments. -/
def init (name : String) : VirtualEcu where
  supportedSessions := [0x01, 0x02, 0x03]
  session := sessionDefault
  s3TimeoutMs := 5000
  sessionTimeoutCount := 0
  s3Deadline := none
  dids := fun did =>
    if did = didCanHealth then some ((defaultDids name did).getD (List.replicate 7 0))
    else defaultDids name did
  writableDids := defaultWriteRules
  routines := defaultRoutines
  securitySalt := defaultSecuritySalt &&& 0xFFFFFFFF
  pendingDelayMs := 50
  seedState := defaultSeed
  pendingSeed := none
  securityUnlocked := false
  securityAttempts := 0
  securityDelayUntil := 0
  fault := {}
  health := {}
  deferred := []

def negative (service nrc : UInt8) : Option (List UInt8) := some [sidNegativeResponse, service, nrc]

def lockSecurity (ecu : VirtualEcu) : VirtualEcu :=
  { ecu with securityUnlocked := false, pendingSeed := none, securityAttempts := 0 }

def keepSessionAlive (ecu : VirtualEcu) (now : ℕ) : VirtualEcu :=
  if ecu.session ≠ sessionDefault then { ecu with s3Deadline := some (now + ecu.s3TimeoutMs) } else ecu

def expireSession (ecu : VirtualEcu) (now : ℕ) : VirtualEcu :=
  match ecu.s3Deadline with
  | none => ecu
  | some deadline =>
    if deadline ≤ now then
      lockSecurity { ecu with
        session := sessionDefault
        s3Deadline := none
        sessionTimeoutCount := ecu.sessionTimeoutCount + 1 }
    else ecu

/-! ## Services

Each takes the request bytes after the service identifier. -/

def sessionControl (ecu : VirtualEcu) (args : List UInt8) (now : ℕ) :
    Option (List UInt8) × VirtualEcu :=
  match args with
  | [] => (negative sidDiagnosticSessionControl 0x13, ecu)
  | subfunction :: _ =>
    let session := subfunction &&& 0x7F
    if session ∉ ecu.supportedSessions then (negative sidDiagnosticSessionControl 0x12, ecu)
    else
      let ecu := if session ≠ ecu.session then ecu.lockSecurity else ecu
      let ecu := { ecu with session := session }
      let ecu :=
        { ecu with
          s3Deadline := if session = sessionDefault then none else some (now + ecu.s3TimeoutMs) }
      if subfunction &&& 0x80 ≠ 0 then (none, ecu)
      else (some [0x50, session, 0x00, 0x32, 0x01, 0xF4], ecu)

def testerPresent (ecu : VirtualEcu) (args : List UInt8) (now : ℕ) : Option (List UInt8) × VirtualEcu :=
  match args with
  | [] => (negative sidTesterPresent 0x13, ecu)
  | subfunction :: _ =>
    if subfunction &&& 0x7F ≠ 0 then (negative sidTesterPresent 0x12, ecu)
    else
      let ecu := ecu.keepSessionAlive now
      if subfunction &&& 0x80 ≠ 0 then (none, ecu) else (some [0x7E, 0x00], ecu)

/-- The big-endian bytes of a 32-bit number. -/
def toBytes4 (value : ℕ) : List UInt8 :=
  [(value >>> 24).toUInt8, (value >>> 16).toUInt8, (value >>> 8).toUInt8, value.toUInt8]

/-- The number with the big-endian bytes. -/
def fromBytes (bytes : List UInt8) : ℕ := bytes.foldl (fun value byte => value * 256 + byte.toNat) 0

/-- `_security_access` once a key is to be compared. -/
def compareKey (ecu : VirtualEcu) (seed : ℕ) (data : List UInt8) (suppress : Bool) (now : ℕ) :
    Option (List UInt8) × VirtualEcu :=
  let key := fromBytes data
  let expected := seedToKey seed ecu.securitySalt
  let ecu := { ecu with pendingSeed := none }
  if key ≠ expected then
    let ecu := { ecu with securityAttempts := ecu.securityAttempts + 1 }
    if ecu.securityAttempts ≥ securityMaxAttempts then
      (negative sidSecurityAccess 0x36,
        { ecu with securityAttempts := 0, securityDelayUntil := now + securityDelayMs })
    else (negative sidSecurityAccess 0x35, ecu)
  else
    let ecu := { ecu with securityUnlocked := true, securityAttempts := 0 }
    (if suppress then none else some [0x67, securitySendKey], ecu)

def securityAccess (ecu : VirtualEcu) (args : List UInt8) (now : ℕ) :
    Option (List UInt8) × VirtualEcu :=
  match args with
  | [] => (negative sidSecurityAccess 0x13, ecu)
  | sub :: data =>
    let subfunction := sub &&& 0x7F
    let suppress : Bool := sub &&& 0x80 ≠ 0
    if subfunction ≠ securityRequestSeed ∧ subfunction ≠ securitySendKey then
      (negative sidSecurityAccess 0x12, ecu)
    else if ecu.session ≠ sessionExtended ∧ ecu.session ≠ sessionProgramming then
      (negative sidSecurityAccess 0x7E, ecu)
    else if now < ecu.securityDelayUntil then (negative sidSecurityAccess 0x37, ecu)
    else if subfunction = securityRequestSeed then
      if ecu.securityUnlocked then
        (if suppress then none else some ([0x67, securityRequestSeed] ++ List.replicate 4 0), ecu)
      else
        let (seed, state) := nextSeed ecu.seedState
        (if suppress then none else some ([0x67, securityRequestSeed] ++ toBytes4 seed),
          { ecu with seedState := state, pendingSeed := some seed })
    else if data.length ≠ 4 then (negative sidSecurityAccess 0x13, ecu)
    else
      match ecu.pendingSeed with
      | none => (negative sidSecurityAccess 0x24, ecu)
      | some seed => ecu.compareKey seed data suppress now

def healthPayload (ecu : VirtualEcu) : List UInt8 :=
  let code := match ecu.health.state with
    | .errorActive => 0
    | .errorPassive => 1
    | .busOff => 2
  [code, min ecu.health.tec 0xFF, min ecu.health.recCount 0xFF, min ecu.health.busOffEvents 0xFF,
    min ecu.health.recoverySuccesses 0xFF, min ecu.health.recoveryFailures 0xFF,
    min ecu.health.errorTotal 0xFF].map Nat.toUInt8

def readDid (ecu : VirtualEcu) (args : List UInt8) : Option (List UInt8) :=
  match args with
  | high :: low :: _ =>
    match ecu.dids (word16 high low) with
    | none => negative sidReadDataByIdentifier 0x31
    | some stored =>
      let value := if word16 high low = didCanHealth then ecu.healthPayload else stored
      some (0x62 :: high :: low :: value)
  | _ => negative sidReadDataByIdentifier 0x13

/-- `_fault_duration`, in milliseconds. -/
def faultDuration (value : List UInt8) : ℕ :=
  match value with
  | _ :: high :: low :: _ => (word16 high low).toNat
  | [_, seconds] => 1000 * seconds.toNat
  | _ => 0

def applyFault (ecu : VirtualEcu) (value : List UInt8) (now : ℕ) : VirtualEcu :=
  match value with
  | [] => ecu
  | mode :: rest =>
    if mode = 0x00 then
      { ecu with
        health := if ecu.health.state = .busOff then ecu.health.markRecovered else ecu.health
        fault := {} }
    else if mode = 0x01 ∧ value.length ≥ 5 then
      { ecu with dids := Function.update ecu.dids didDtc (some (rest.take 4)) }
    else if mode = 0x02 ∧ value.length ≥ 2 then
      { ecu with fault := { ecu.fault with commLossUntil := now + 1000 * (rest.headD 0).toNat } }
    else if mode = 0x03 ∧ value.length ≥ 2 then
      { ecu with
        fault := { ecu.fault with busOffUntil := now + faultDuration value }
        health := ecu.health.enterBusOff }
    else if mode = 0x04 ∧ value.length ≥ 3 then
      { ecu with
        fault := { ecu.fault with
          nrcForService :=
            Function.update ecu.fault.nrcForService (rest.headD 0) (some (rest.tail.headD 0)) } }
    else ecu

def writeDid (ecu : VirtualEcu) (args : List UInt8) (now : ℕ) : Option (List UInt8) × VirtualEcu :=
  match args with
  | high :: low :: value =>
    let did := word16 high low
    match ecu.writableDids did with
    | none => (negative sidWriteDataByIdentifier 0x31, ecu)
    | some rule =>
      if ecu.session ∉ rule.sessions then (negative sidWriteDataByIdentifier 0x7E, ecu)
      else if rule.requiresUnlock ∧ !ecu.securityUnlocked then
        (negative sidWriteDataByIdentifier 0x33, ecu)
      else if rule.requiredSession.isSome ∧ some ecu.session ≠ rule.requiredSession then
        (negative sidWriteDataByIdentifier 0x22, ecu)
      else if rule.maxLength.any (· < value.length) then (negative sidWriteDataByIdentifier 0x31, ecu)
      else
        let ecu := if did = didFaultControl then ecu.applyFault value now else ecu
        (some [0x6E, high, low], { ecu with dids := Function.update ecu.dids did (some value) })
  | _ => (negative sidWriteDataByIdentifier 0x13, ecu)

def routineControl (ecu : VirtualEcu) (args : List UInt8) (now : ℕ) :
    Option (List UInt8) × VirtualEcu :=
  match args with
  | sub :: high :: low :: _ =>
    let subfunction := sub &&& 0x7F
    let suppress : Bool := sub &&& 0x80 ≠ 0
    let routineId := word16 high low
    let answer (code : UInt8) (payload : List UInt8) :=
      if suppress then none else some ([0x71, code, high, low] ++ payload)
    let store (routine : VirtualRoutine) :=
      { ecu with routines := Function.update ecu.routines routineId (some routine) }
    match ecu.routines routineId with
    | none => (negative sidRoutineControl 0x31, ecu)
    | some routine =>
      if subfunction ≠ routineStart ∧ subfunction ≠ routineStop ∧
          subfunction ≠ routineRequestResults then
        (negative sidRoutineControl 0x12, ecu)
      else if ecu.session ∉ routine.sessions then (negative sidRoutineControl 0x7E, ecu)
      else if routine.requiresUnlock ∧ !ecu.securityUnlocked then (negative sidRoutineControl 0x33, ecu)
      else if subfunction = routineStart then
        if routine.state = .running then (negative sidRoutineControl 0x22, ecu)
        else
          let (payload, routine) := routine.start
          (answer routineStart payload, store routine)
      else if subfunction = routineStop then
        if routine.state ≠ .running then (negative sidRoutineControl 0x24, ecu)
        else
          let (payload, routine) := routine.stop
          (answer routineStop payload, store routine)
      else if routine.state = .idle then (negative sidRoutineControl 0x24, ecu)
      else
        let ((state, payload), routine) := routine.requestResults
        if state = .running then
          let final := [0x71, routineRequestResults, high, low] ++ routine.result
          (negative sidRoutineControl 0x78,
            { store { routine with state := .complete } with
              deferred := ecu.deferred ++ [(now + ecu.pendingDelayMs, final)] })
        else (answer routineRequestResults payload, store routine)
  | _ => (negative sidRoutineControl 0x13, ecu)

/-! ## Requests -/

/-- The end of `_handle`: a positive response keeps the session alive. -/
def finish (now : ℕ) (outcome : Option (List UInt8) × VirtualEcu) : Option (List UInt8) × VirtualEcu :=
  if outcome.1.any fun bytes => bytes.head? ≠ some sidNegativeResponse then
    (outcome.1, outcome.2.keepSessionAlive now)
  else outcome

/-- The services of `_handle` but session control. -/
def serve (ecu : VirtualEcu) (service : UInt8) (args : List UInt8) (now : ℕ) :
    Option (List UInt8) × VirtualEcu :=
  finish now <|
    if service = sidTesterPresent then ecu.testerPresent args now
    else if service = sidReadDataByIdentifier then (ecu.readDid args, ecu)
    else if service = sidSecurityAccess then ecu.securityAccess args now
    else if service = sidWriteDataByIdentifier then ecu.writeDid args now
    else if service = sidRoutineControl then ecu.routineControl args now
    else (negative service 0x11, ecu)

/-- `_handle` at the time `now`. -/
def handle (ecu : VirtualEcu) (request : List UInt8) (now : ℕ) : Option (List UInt8) × VirtualEcu :=
  let ecu := ecu.expireSession now
  if now < ecu.fault.commLossUntil ∨ now < ecu.fault.busOffUntil then (none, ecu)
  else
    let ecu :=
      if ecu.fault.busOffUntil ≠ 0 then
        { ecu with
          fault := { ecu.fault with busOffUntil := 0 }
          health := ecu.health.markRecovered }
      else ecu
    match request with
    | [] => (negative 0x00 0x10, ecu)
    | service :: args =>
      match ecu.fault.nrcForService service with
      | some nrc => (negative service nrc, ecu)
      | none =>
        if service = sidDiagnosticSessionControl then ecu.sessionControl args now
        else ecu.serve service args now

end VirtualEcu

end DualCan.Emu
