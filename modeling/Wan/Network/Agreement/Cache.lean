import Wan.Library.Failure
import Wan.Library.Machine
import Wan.Network.Agreement.Atomicity

/-!
# The text that messages keep

`ToString` keeps the text until an operation of the message invalidates it.  A reference that
`Header()` has returned stays in the hands of the program, and what is written through it
invalidates nothing.  Neither does an operation that runs out of memory before its last statement.
-/

namespace Wan.Network

open Wan.Library Wan.Library.Program

/-- How a header class sets its length and its checksum. The checksum copies the content, and
only the length is set when the memory runs out there. -/
class HeaderChecksum (Header : Type) [HeaderConstraint Header] where
  setContentLength : Header → Bytes → Header
  calculate_calculate : ∀ (digests : Digests) (header : Header) (content : Bytes),
    HeaderConstraint.calculateAndSetChecksum digests
        (HeaderConstraint.calculateAndSetChecksum digests header content) content =
      HeaderConstraint.calculateAndSetChecksum digests header content
  setContentLength_calculate : ∀ (digests : Digests) (header : Header) (content : Bytes),
    setContentLength (HeaderConstraint.calculateAndSetChecksum digests header content) content =
      HeaderConstraint.calculateAndSetChecksum digests header content

instance : HeaderChecksum RequestHeader where
  setContentLength header content := { header with contentLength := content.length.toUInt64 }
  calculate_calculate _ _ _ := rfl
  setContentLength_calculate _ _ _ := rfl

instance : HeaderChecksum ResponseHeader where
  setContentLength header content := { header with contentLength := content.length.toUInt64 }
  calculate_calculate _ _ _ := rfl
  setContentLength_calculate _ _ _ := rfl

namespace Message

variable {Header Value : Type} [HeaderConstraint Header]

/-- `SetMessage`. -/
def setMessage (request : Message Header) (body : Bytes) : Message Header :=
  { request with message := body }.invalidateCache

/-- What `SetStatusCode` and `SetStatusMessage` do with a setter of the header. -/
def setHeader (response : Message Header) (setter : Header → Except InvalidArgument Header) :
    Except InvalidArgument (Message Header) := do
  let header ← setter response.header
  return { response with header := header }.invalidateCache

/-- `SetStatusCode`. -/
def setStatusCode (response : Message ResponseHeader) (code : UInt16) :
    Except InvalidArgument (Message ResponseHeader) := response.setHeader (·.set (.statusCode code))

/-- `SetStatusMessage`. -/
def setStatusMessage (response : Message ResponseHeader) (message : Bytes) :
    Except InvalidArgument (Message ResponseHeader) :=
  response.setHeader (·.set (.statusMessage message))

/-- The text of the present header and body. -/
def fresh (digests : Digests) (request : Message Header) : Bytes :=
  HeaderConstraint.toString
    (HeaderConstraint.calculateAndSetChecksum digests request.header request.message) ++
      request.message

/-- `ToString` returns the text of the present header and body. -/
def Coherent (digests : Digests) (request : Message Header) : Prop :=
  (request.toString digests).cachedFull = request.fresh digests

/-- The messages of a program by number, and whether it has a reference to their headers. -/
structure World (Header : Type) where
  objects : Nat → Option (Message Header)
  references : Nat → Bool

/-- The operations of a program on messages. What a moved-from message is left with is
unspecified, and so is what is left of a header or a text that is written when the memory runs
out. A constructor that throws leaves no message, a setter that throws leaves the message as it
is, and a move that runs out of memory ends the program. -/
inductive Command (Header Value : Type) where
  | construct (id : Nat) (header : Header) (body : Bytes)
  | copy (id source : Nat)
  | move (id source : Nat) (left : Message Header)
  /-- The copy assignment, with the header that is left if the memory runs out. -/
  | assign (id source : Nat) (torn : Option Header)
  | moveAssign (id source : Nat) (left : Message Header)
  | destroy (id : Nat)
  | header (id : Nat)
  /-- An assignment through a reference to the header. -/
  | write (id : Nat) (header : Header)
  | setMessage (id : Nat) (body : Bytes)
  | setHeader (id : Nat) (setter : Header → Except InvalidArgument Header)
  /-- `ToString` and `Size`, with the header and the text that are left if the memory runs out. -/
  | toString (id : Nat) (torn : Option (Header × Bytes))
  | fromString (id : Nat) (around : Surroundings) (data : Bytes)
  /-- `ToJson`, and whether the memory is enough for the checksum. -/
  | toJson (id : Nat) (enough : Bool)
  | fromJson (id : Nat) (around : Surroundings) (value : Value)

namespace World

/-- The world of a program that starts. -/
def empty : World Header := ⟨fun _ => none, fun _ => false⟩

/-- A message takes a new value. -/
def put (world : World Header) (id : Nat) (object : Message Header) : World Header :=
  { world with objects := Function.update world.objects id (some object) }

/-- A new message comes into being. -/
def create (world : World Header) (id : Nat) (object : Message Header) : Option (World Header) :=
  if (world.objects id).isNone then some (world.put id object) else none

/-- A command, which is possible only on messages that exist. -/
def step [HeaderParsers Header] [HeaderChecksum Header] (digests : Digests)
    (json : JsonLibrary Value) (world : World Header) :
    Command Header Value → Option (World Header)
  | .construct id header body => world.create id (.new header body)
  | .copy id source => do
      let other ← world.objects source
      world.create id (.new other.header other.message)
  | .move id source left => do
      let other ← world.objects source
      let created ← world.create id other
      return created.put source left.invalidateCache
  | .assign id source torn => do
      let object ← world.objects id
      let other ← world.objects source
      return if id = source then world else
        match torn with
        | some header => world.put id { object with header := header }
        | none => world.put id
            { object with header := other.header, message := other.message }.invalidateCache
  | .moveAssign id source left => do
      let _ ← world.objects id
      let other ← world.objects source
      return if id = source then world else (world.put id other).put source left.invalidateCache
  | .destroy id =>
      some ⟨Function.update world.objects id none, Function.update world.references id false⟩
  | .header id => do
      let object ← world.objects id
      return { world.put id object.invalidateCache with
        references := Function.update world.references id true }
  | .write id header => do
      let object ← world.objects id
      if world.references id then some (world.put id { object with header := header }) else none
  | .setMessage id body => do
      let object ← world.objects id
      return world.put id (object.setMessage body)
  | .setHeader id setter => do
      let object ← world.objects id
      return match object.setHeader setter with
        | .error _ => world
        | .ok object => world.put id object
  | .toString id torn => do
      let object ← world.objects id
      return match torn with
        | none => world.put id (object.toString digests)
        -- A text that is kept is returned, which needs no memory.
        | some (header, text) =>
            if object.fullCacheValid then world
            else world.put id { object with header := header, cachedFull := text }
  | .fromString id around data => do
      let object ← world.objects id
      let (_, last) ← (runFromString digests around data).run.run object
      return world.put id last
  | .toJson id enough => do
      let object ← world.objects id
      return world.put id <| if enough then (object.toJson digests json).1 else
        { object with header := HeaderChecksum.setContentLength object.header object.message }
  | .fromJson id around value => do
      let object ← world.objects id
      let (_, last) ← (runFromJson json digests around value).run.run object
      return world.put id last

/-- A message keeps no text. -/
def Bare (world : World Header) (id : Nat) : Prop :=
  ∀ object ∈ world.objects id, object.fullCacheValid = false

/-- Only while a message keeps no text is its header written through a reference, or does the memory
run out while its header and its body are assigned. -/
def Timely (world : World Header) : Command Header Value → Prop
  | .write id _ => world.Bare id
  | .assign id source torn => id ≠ source → torn.isSome → world.Bare id
  | .fromString id around _ => around.exhausted = some ⟨.message, .assigning⟩ → world.Bare id
  | .fromJson id around _ => around.exhausted = some ⟨.message, .assigning⟩ → world.Bare id
  | _ => True

end World

section Coherence

variable {digests : Digests} {json : JsonLibrary Value} {request : Message Header}
  {world later : World Header} {command : Command Header Value} {id : Nat}

/-- A text that is kept is the text of the present header and body. -/
structure Cached (digests : Digests) (request : Message Header) : Prop where
  settled : request.fullCacheValid = true →
    HeaderConstraint.calculateAndSetChecksum digests request.header request.message = request.header
  kept : request.fullCacheValid = true →
    request.cachedFull = HeaderConstraint.toString request.header ++ request.message

theorem Cached.coherent (cached : Cached digests request) : Coherent digests request := by
  rw [Coherent, toString, fresh]
  split
  next valid => rw [cached.kept valid, cached.settled valid]
  next => rfl

theorem Cached.of_invalid (invalid : request.fullCacheValid = false) : Cached digests request :=
  ⟨fun valid => absurd (valid.symm.trans invalid) nofun,
    fun valid => absurd (valid.symm.trans invalid) nofun⟩

theorem Cached.toString [HeaderChecksum Header] (cached : Cached digests request) :
    Cached digests (request.toString digests) := by
  rw [Message.toString]
  split
  next => exact cached
  next => exact ⟨fun _ => HeaderChecksum.calculate_calculate .., fun _ => rfl⟩

/-- The JSON form sets the length and the checksum to what they are when a text is kept. -/
theorem Cached.toJson (cached : Cached digests request) :
    Cached digests (request.toJson digests json).1 := by
  cases valid : request.fullCacheValid with
  | false => exact .of_invalid valid
  | true =>
      have same : (request.toJson digests json).1 = request := by
        rw [Message.toJson]
        dsimp only
        rw [cached.settled valid]
      rw [same]
      exact cached

/-- So it does when the memory runs out before the checksum is set. -/
theorem Cached.setContentLength [HeaderChecksum Header] (cached : Cached digests request) :
    Cached digests { request with
      header := HeaderChecksum.setContentLength request.header request.message } := by
  by_cases valid : request.fullCacheValid
  · have same : HeaderChecksum.setContentLength request.header request.message =
        request.header := by
      rw [← cached.settled valid]
      exact HeaderChecksum.setContentLength_calculate ..
    rw [same]
    exact cached
  · exact .of_invalid (eq_false_of_ne_true valid)

section Parsers

variable [HeaderParsers Header] [HeaderMeaning Header] {around : Surroundings}
  (timely : around.exhausted = some ⟨.message, .assigning⟩ → request.fullCacheValid = false)
include timely

/-- The cache is invalidated by the last statement, after the one that may run out of memory. -/
theorem Cached.commit (cached : Cached digests request) {candidate : Header} {body : Bytes} :
    Runs (Message.commit digests around candidate body) request (fun _ => Cached digests)
      fun _ => Cached digests := by
  simp only [Message.commit, runs_bind, runs_allocate, runs_refuse, runs_onPart, runs_modify]
  refine ⟨fun _ => cached, fun _ => ⟨fun _ => cached, fun _ => ?_⟩⟩
  apply HeaderMeaning.assign_runs.mono
  · exact fun _ _ _ => .of_invalid rfl
  · rintro _ last ⟨-, here, -⟩
    exact .of_invalid (timely here)

theorem Cached.fromString (cached : Cached digests request) {data : Bytes} :
    Runs (runFromString digests around data) request (fun _ => Cached digests)
      fun _ => Cached digests := by
  simp only [runFromString, runs_bind, runs_require, runs_allocate, runs_get, runs_onLocal]
  refine ⟨fun _ => cached, fun parts _ => ⟨fun _ => cached, fun _ => ?_⟩⟩
  apply HeaderMeaning.fromString_runs.mono
  · exact fun _ candidate _ => cached.commit timely
  · exact fun _ _ _ => cached

theorem Cached.fromJson (cached : Cached digests request) {value : Value} :
    Runs (runFromJson json digests around value) request (fun _ => Cached digests)
      fun _ => Cached digests := by
  simp only [runFromJson, runs_absorb, runs_bind, runs_require, runs_allocate, runs_get,
    runs_onLocal]
  refine ⟨fun _ => cached, fun parts _ => ⟨fun _ => cached, fun _ => ?_⟩⟩
  cases read : (HeaderMeaning.ofJson json around.nowMs parts.1 : Option Header) with
  | none =>
      apply (HeaderMeaning.fromJson_none read).mono
      · exact fun _ _ never => never.elim
      · exact fun _ _ _ => cached
  | some other =>
      apply (HeaderMeaning.fromJson_some read).mono
      · exact fun _ candidate _ => cached.commit timely
      · exact fun _ _ _ => cached

end Parsers

/-- Every message of a world is coherent. -/
def World.Cached (digests : Digests) (world : World Header) : Prop :=
  ∀ id, ∀ object ∈ world.objects id, Message.Cached digests object

omit [HeaderConstraint Header] in
theorem World.objects_put {object : Message Header} {other : Nat} :
    (world.put id object).objects other =
      if other = id then some object else world.objects other := Function.update_apply ..

theorem World.Cached.put (cached : world.Cached digests) {object : Message Header}
    (fresh : Message.Cached digests object) : (world.put id object).Cached digests := by
  intro other stored member
  rw [World.objects_put] at member
  split at member
  next =>
    cases member
    exact fresh
  next => exact cached other stored member

theorem World.Cached.create (cached : world.Cached digests) {object : Message Header}
    (fresh : Message.Cached digests object) (created : world.create id object = some later) :
    later.Cached digests := by
  rw [World.create] at created
  split at created
  next =>
    cases created
    exact cached.put fresh
  next => cases created

variable [HeaderParsers Header] [HeaderMeaning Header] [HeaderChecksum Header]

/-- A command keeps all messages coherent, unless it changes the header of a message that keeps a
text and does not come to invalidate it. -/
theorem World.Cached.step (cached : world.Cached digests)
    (timely : world.Timely command) (taken : world.step digests json command = some later) :
    later.Cached digests := by
  cases command with
  | construct id header body => exact cached.create (.of_invalid rfl) taken
  | copy id source =>
      rcases Option.bind_eq_some_iff.mp taken with ⟨other, stored, created⟩
      exact cached.create (.of_invalid rfl) created
  | move id source left =>
      rcases Option.bind_eq_some_iff.mp taken with ⟨other, stored, taken⟩
      rcases Option.bind_eq_some_iff.mp taken with ⟨middle, created, done⟩
      cases done
      exact (cached.create (cached source other stored) created).put (.of_invalid rfl)
  | assign id source torn =>
      rcases Option.bind_eq_some_iff.mp taken with ⟨object, stored, taken⟩
      rcases Option.bind_eq_some_iff.mp taken with ⟨other, present, done⟩
      cases done
      split
      next => exact cached
      next different =>
        cases torn with
        | none => exact cached.put (.of_invalid rfl)
        | some header => exact cached.put (.of_invalid (timely different rfl object stored))
  | moveAssign id source left =>
      rcases Option.bind_eq_some_iff.mp taken with ⟨object, stored, taken⟩
      rcases Option.bind_eq_some_iff.mp taken with ⟨other, present, done⟩
      cases done
      split
      · exact cached
      · exact (cached.put (cached source other present)).put (.of_invalid rfl)
  | destroy id =>
      cases taken
      intro other stored member
      by_cases same : other = id
      · rw [same] at member
        simp at member
      · dsimp only at member
        rw [Function.update_of_ne same] at member
        exact cached other stored member
  | header id =>
      rcases Option.bind_eq_some_iff.mp taken with ⟨object, stored, done⟩
      cases done
      have put : (world.put id object.invalidateCache).Cached digests := cached.put (.of_invalid rfl)
      exact put
  | write id header =>
      rcases Option.bind_eq_some_iff.mp taken with ⟨object, stored, taken⟩
      split at taken
      next =>
        cases taken
        exact cached.put (.of_invalid (timely object stored))
      next => cases taken
  | setMessage id body =>
      rcases Option.bind_eq_some_iff.mp taken with ⟨object, stored, done⟩
      cases done
      exact cached.put (.of_invalid rfl)
  | setHeader id setter =>
      rcases Option.bind_eq_some_iff.mp taken with ⟨object, stored, done⟩
      cases done
      cases changed : object.setHeader setter with
      | error _ => exact cached
      | ok changed' =>
          rw [Message.setHeader] at changed
          rcases bind_eq_ok.mp changed with ⟨header, -, done⟩
          cases done
          exact cached.put (.of_invalid rfl)
  | toString id torn =>
      rcases Option.bind_eq_some_iff.mp taken with ⟨object, stored, done⟩
      cases done
      cases torn with
      | none => exact cached.put (cached id object stored).toString
      | some left =>
          dsimp only
          split
          next => exact cached
          next invalid => exact cached.put (.of_invalid (eq_false_of_ne_true invalid))
  | fromString id around data =>
      rcases Option.bind_eq_some_iff.mp taken with ⟨object, stored, taken⟩
      rcases Option.bind_eq_some_iff.mp taken with ⟨⟨outcome, last⟩, ended, done⟩
      cases done
      have bare : around.exhausted = some ⟨.message, .assigning⟩ → object.fullCacheValid = false :=
        fun here => timely here object stored
      have last := ((cached id object stored).fromString bare).ended ended
      cases outcome with
      | ok _ => exact cached.put last
      | error _ => exact cached.put last
  | toJson id enough =>
      rcases Option.bind_eq_some_iff.mp taken with ⟨object, stored, done⟩
      cases done
      cases enough with
      | true => exact cached.put (cached id object stored).toJson
      | false => exact cached.put (cached id object stored).setContentLength
  | fromJson id around value =>
      rcases Option.bind_eq_some_iff.mp taken with ⟨object, stored, taken⟩
      rcases Option.bind_eq_some_iff.mp taken with ⟨⟨outcome, last⟩, ended, done⟩
      cases done
      have bare : around.exhausted = some ⟨.message, .assigning⟩ → object.fullCacheValid = false :=
        fun here => timely here object stored
      have last := ((cached id object stored).fromJson bare).ended ended
      cases outcome with
      | ok _ => exact cached.put last
      | error _ => exact cached.put last

/-- As long as a header is written through a reference, or left half assigned, only while its
message keeps no text, `ToString` returns the text of the present header and body. -/
theorem coherent_of_reaches
    (reaches : Machine.Reaches (World.step digests json) World.Timely .empty world) :
    ∀ id, ∀ object ∈ world.objects id, Coherent digests object := by
  have cached : world.Cached digests := by
    apply reaches.invariant
    · intro id object member
      cases member
    · intro world later command timely taken cached
      exact cached.step timely taken
  intro id object member
  exact (cached id object member).coherent

end Coherence

section Stale

/-- Digests that are not asked for. -/
def noDigests : Digests := ⟨fun _ => [], fun _ => []⟩

/-- A header with a method only. -/
def asking (method : String) : RequestHeader :=
  { RequestHeader.default 0 with method := Bytes.text method }

/-- A request whose text has been asked for. -/
def served : Message RequestHeader := (Message.new (asking "GET") []).toString noDigests

/-- A program has only this request, and asks for its header. -/
def asked : World RequestHeader :=
  { ((World.empty.put 0 (.new (asking "GET") [])).put 0 served).put 0 served.invalidateCache with
    references := Function.update (fun _ => false) 0 true }

/-- The method is written through the reference after the text has been asked for, and before it is
asked for again. -/
theorem coherent_written_before :
    Coherent noDigests { served.invalidateCache with header := asking "PUT" } := by
  have constructed : World.Timely .empty
      (.construct 0 (asking "GET") [] : Command RequestHeader JsonValue) := trivial
  have turned : World.Timely (World.empty.put 0 (.new (asking "GET") []))
      (.toString 0 none : Command RequestHeader JsonValue) := trivial
  have called : World.Timely ((World.empty.put 0 (.new (asking "GET") [])).put 0 served)
      (.header 0 : Command RequestHeader JsonValue) := trivial
  have timely : asked.Timely (.write 0 (asking "PUT") : Command RequestHeader JsonValue) := by
    intro object stored
    cases stored
    rfl
  have reached : Machine.Reaches (World.step noDigests JsonValue.library) World.Timely .empty
      asked := .step (.step (.step .start constructed rfl) turned rfl) called rfl
  have written : Machine.Reaches (World.step noDigests JsonValue.library) World.Timely .empty
      (asked.put 0 { served.invalidateCache with header := asking "PUT" }) :=
    .step reached timely rfl
  exact coherent_of_reaches written 0 _ rfl

/-- The method is written through the reference after the text has been asked for. -/
theorem not_coherent_written_after :
    ¬∀ (commands : List (Command RequestHeader JsonValue)) (world : World RequestHeader),
      commands.foldlM (World.step noDigests JsonValue.library) .empty = some world →
        ∀ id, ∀ object ∈ world.objects id, Coherent noDigests object := by
  intro always
  have stale := always [.construct 0 (asking "GET") [], .header 0, .toString 0 none,
    .write 0 (asking "PUT")] _ rfl 0 _ rfl
  revert stale
  rw [Coherent]
  decide +kernel

end Stale

end Message

end Wan.Network
