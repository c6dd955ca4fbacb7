import Wan.Library.Bytes
import Wan.Library.InsertionMap

/-!
# The session store of `Web/Session/Session.hpp`

Apart from the first check of `Create`, which reads no session, an operation holds
`MemberMutex` for its whole body, so a run is a sequence of operations.  What an operation
reads from the steady clock and from the random pool is among its arguments.
-/

namespace Wan.Web.Session

open Wan.Library Wan.Library.Bytes

/-- A reading of `std::chrono::steady_clock`: nanoseconds in 64 bits. -/
abbrev TimePoint := Int64

/-- `std::chrono::seconds`. -/
abbrev Seconds := Int64

/-- The nanoseconds of a second. -/
def nanoseconds : Int64 := 1000000000

/-- What an operation throws. -/
inductive Failure where
  /-- `std::invalid_argument`. -/
  | invalidArgument (what : String)
  /-- `std::length_error`. -/
  | lengthError (what : String)
  /-- `std::runtime_error`. -/
  | runtimeError (what : String)
  deriving DecidableEq, Repr

/-- `std::unordered_map<std::string, std::string>`. -/
abbrev Values := InsertionMap (Prod.fst : Bytes × Bytes → Bytes)

/-- `SessionData`. -/
structure SessionData where
  id : Bytes
  values : Values
  expires : TimePoint

/-- `SessionConfig`. -/
structure SessionConfig where
  maxSessions : UInt64 := 10000
  maxValuesPerSession : UInt64 := 64
  maxKeySize : UInt64 := 256
  maxValueSize : UInt64 := 64 * 1024

/-- `MemberSessions`. A session is stored under its own identifier. -/
abbrev Sessions := InsertionMap SessionData.id

/-- `SessionStore`, without its mutex. -/
structure SessionStore where
  config : SessionConfig
  sessions : Sessions

/-- `ValidateConfiguration`. -/
def validateConfiguration (config : SessionConfig) : Except Failure Unit :=
  if config.maxSessions == 0 || config.maxValuesPerSession == 0 || config.maxKeySize == 0 ||
      config.maxValueSize == 0 then
    .error (.invalidArgument "session resource limits must be positive")
  else .ok ()

/-- The constructor. -/
def SessionStore.construct (config : SessionConfig) : Except Failure SessionStore := do
  validateConfiguration config
  return { config := config, sessions := .empty }

/-- `IsTtlRepresentable`. The subtraction wraps around when the clock is negative. -/
def isTtlRepresentable (ttl : Seconds) (now : TimePoint) : Bool :=
  decide (0 < ttl) && decide (ttl ≤ (Int64.maxValue - now) / nanoseconds)

example : isTtlRepresentable 3600 0 = true := by decide

/-- `CleanupExpiredLocked`. -/
def cleanupExpiredLocked (sessions : Sessions) (now : TimePoint) : Sessions :=
  sessions.filter fun session => !decide (session.expires ≤ now)

/-- A digit under `std::hex`. -/
def hexDigit (digit : Nat) : UInt8 :=
  if digit < 10 then char '0' + digit.toUInt8 else char 'a' + (digit - 10).toUInt8

/-- `GenerateId`, from what the random pool wrote to `Bytes`. -/
def generateId (block : Vector UInt8 32) : Bytes :=
  text "sess_" ++ block.toList.flatMap fun byte =>
    [hexDigit (byte.toNat / 16), hexDigit (byte.toNat % 16)]

/-- The loop of `Create` that looks for an identifier that is not taken. -/
def allocateId (sessions : Sessions) (random : Nat → Vector UInt8 32) : Option Bytes :=
  ((List.range 16).map fun attempt => generateId (random attempt)).find? fun id =>
    (sessions.find? id).isNone

namespace SessionStore

/-- `Create`. It reads the clock once before it takes the mutex and once after. -/
def create (store : SessionStore) (ttl : Seconds) (first now : TimePoint)
    (random : Nat → Vector UInt8 32) : Except Failure SessionData × SessionStore :=
  if ttl ≤ 0 || !isTtlRepresentable ttl first then
    (.error (.invalidArgument "session lifetime must be positive and representable"), store)
  else if !isTtlRepresentable ttl now then
    (.error (.invalidArgument "session lifetime is outside the steady clock range"), store)
  else
    let sessions := cleanupExpiredLocked store.sessions now
    if store.config.maxSessions.toNat ≤ sessions.size then
      (.error (.lengthError "session store capacity exhausted"), { store with sessions })
    else
      match allocateId sessions random with
      | none =>
          (.error (.runtimeError "unable to allocate a unique session id"), { store with sessions })
      | some id =>
          let session : SessionData :=
            { id, values := .empty, expires := now + ttl * nanoseconds }
          (.ok session, { store with sessions := sessions.assign session })

/-- `Get`. -/
def get (store : SessionStore) (id : Bytes) (now : TimePoint) :
    Option SessionData × SessionStore :=
  match store.sessions.find? id with
  | none => (none, store)
  | some session =>
      if session.expires ≤ now then
        (none, { store with sessions := store.sessions.erase id })
      else (some session, store)

/-- `Set`. -/
def set (store : SessionStore) (id key value : Bytes) (now : TimePoint) :
    Except Failure Unit × SessionStore :=
  match store.sessions.find? id with
  | none => (.ok (), store)
  | some session =>
      if session.expires ≤ now then
        (.ok (), { store with sessions := store.sessions.erase id })
      else if store.config.maxKeySize.toNat < key.length ||
          store.config.maxValueSize.toNat < value.length then
        (.error (.lengthError "session key or value exceeds configured limits"), store)
      else if (session.values.find? key).isNone &&
          decide (store.config.maxValuesPerSession.toNat ≤ session.values.size) then
        (.error (.lengthError "session value count exceeds configured limit"), store)
      else
        let session := { session with values := session.values.assign (key, value) }
        (.ok (), { store with sessions := store.sessions.assign session })

/-- `Destroy`. -/
def destroy (store : SessionStore) (id : Bytes) : SessionStore :=
  { store with sessions := store.sessions.erase id }

/-- `Cleanup`. -/
def cleanup (store : SessionStore) (now : TimePoint) : SessionStore :=
  { store with sessions := cleanupExpiredLocked store.sessions now }

end SessionStore

/-- A call of an operation, with what it reads from outside the store. -/
inductive Call where
  | create (ttl : Seconds) (first now : TimePoint) (random : Nat → Vector UInt8 32)
  | get (id : Bytes) (now : TimePoint)
  | set (id key value : Bytes) (now : TimePoint)
  | destroy (id : Bytes)
  | cleanup (now : TimePoint)

/-- What a call returns. -/
inductive Reply where
  | created (session : SessionData)
  | got (session : Option SessionData)
  | done

/-- The call, and what it leaves of the store. -/
def Call.run (store : SessionStore) : Call → Except Failure Reply × SessionStore
  | .create ttl first now random =>
      let (outcome, later) := store.create ttl first now random
      (outcome.map .created, later)
  | .get id now =>
      let (session, later) := store.get id now
      (.ok (.got session), later)
  | .set id key value now =>
      let (outcome, later) := store.set id key value now
      (outcome.map fun _ => .done, later)
  | .destroy id => (.ok .done, store.destroy id)
  | .cleanup now => (.ok .done, store.cleanup now)

end Wan.Web.Session
