import Wan.Network.Agreement.JsonForm
import Wan.Network.Agreement.RequestText
import Wan.Network.Agreement.ResponseText

/-!
# The JSON round trip of messages
-/

namespace Wan.Network

open Wan.Library

variable {Value : Type} {json : JsonLibrary Value} {nowMs : Int} {now : TimePoint}

theorem toMilliseconds_bounds {timestamp : TimePoint} (recent : Recent nowMs timestamp) :
    0 ≤ toMilliseconds timestamp ∧ -2 ^ 63 ≤ toMilliseconds timestamp ∧
      toMilliseconds timestamp < 2 ^ 63 := by
  rcases recent.exists_milliseconds with ⟨milliseconds, equal, small, _⟩
  rw [equal]
  omega

/-- Members that are found beside the entries of a header. -/
theorem ProtocolHeader.entries_of_holds {header : ProtocolHeader}
    {members back : List (Bytes × Value)}
    (inside : ∀ member, member ∈ members ↔
      member ∈ fields json header ++ entryFields json header ++ back)
    (unmarked : ∀ member ∈ fields json header ++ back, ¬ headerText <+: member.1) (key : Bytes)
    (value : Value) : (headerText ++ key, value) ∈ members ↔
      ∃ text, (key, text) ∈ header.headers.toList ∧ value = json.ofString text := by
  rw [inside]
  constructor
  · intro member
    rcases List.mem_append.mp member with member | isBack
    · rcases List.mem_append.mp member with isField | isEntry
      · exact absurd (List.prefix_append ..) (unmarked _ (List.mem_append_left _ isField))
      · rcases List.mem_map.mp isEntry with ⟨entry, isEntry, equal⟩
        have sameKey : entry.1 = key := List.append_cancel_left (congrArg Prod.fst equal)
        exact ⟨entry.2, sameKey ▸ isEntry, (congrArg Prod.snd equal).symm⟩
    · exact absurd (List.prefix_append ..) (unmarked _ (List.mem_append_right _ isBack))
  · intro found
    rcases found with ⟨text, isEntry, rfl⟩
    exact List.mem_append_left _ (List.mem_append_right _ (List.mem_map_of_mem isEntry))

/-- What the value of a header with further members gives back. -/
theorem ProtocolHeader.exists_members (lawful : json.Lawful) {header : ProtocolHeader}
    (accepted : Accepted header.headers) {own : List (Bytes × Value)}
    (distinct : ((fields json header ++ own).map Prod.fst).Nodup)
    (unmarked : ∀ member ∈ fields json header ++ own, ¬ headerText <+: member.1) :
    ∃ members,
      json.members (json.setAll (header.toJson json) own) = some members ∧
      fromJson json (json.setAll (header.toJson json) own) = some header ∧
      ∀ {key value}, (key, value) ∈ own → JsonLibrary.find members key = some value := by
  have different := different_keys json header distinct unmarked
  rcases JsonLibrary.holds_setAll lawful different with ⟨members, isObject, inside⟩
  rw [JsonLibrary.setAll_append, ← toJson_eq] at isObject
  refine ⟨members, isObject, ?_, ?_⟩
  · apply fromJson_of_mem lawful accepted isObject
    · intro member isField
      exact (inside member).mpr (List.mem_append_left _ (List.mem_append_left _ isField))
    · exact entries_of_holds inside unmarked
  · intro key value isOwn
    exact JsonLibrary.find_of_mem lawful isObject ((inside _).mpr (List.mem_append_right _ isOwn))

namespace RequestHeader

variable {header : RequestHeader}

/-- The members behind those of the common fields. -/
def ownFields (json : JsonLibrary Value) (header : RequestHeader) : List (Bytes × Value) :=
  [(Bytes.text "method", json.ofString header.method),
    (Bytes.text "target", json.ofString header.target),
    (Bytes.text "user_agent", json.ofString header.userAgent),
    (Bytes.text "timestamp", json.ofSigned (toMilliseconds header.timestamp))]

theorem toJson_eq : header.toJson json =
    json.setAll (header.toProtocolHeader.toJson json) (ownFields json header) := rfl

/-- The keys of all fields. -/
def fieldKeys : List Bytes := [Bytes.text "protocol_type", Bytes.text "checksum_type",
  Bytes.text "checksum_value", Bytes.text "content_length", Bytes.text "version",
  Bytes.text "method",
  Bytes.text "target", Bytes.text "user_agent", Bytes.text "timestamp"]

theorem map_fields (json : JsonLibrary Value) (header : RequestHeader) :
    (ProtocolHeader.fields json header.toProtocolHeader ++ ownFields json header).map Prod.fst =
      fieldKeys := rfl

theorem fieldKeys_distinct : fieldKeys.Nodup := by decide

theorem fieldKeys_unmarked : ∀ key ∈ fieldKeys, ¬ ProtocolHeader.headerText <+: key := by decide

/-- A header is read from the value that it gives. -/
theorem parseJson_toJson (lawful : json.Lawful) (kept : Kept header) (method : header.method ≠ [])
    (target : header.target ≠ []) (recent : Recent nowMs header.timestamp) :
    parseJson json nowMs (header.toJson json) = some header := by
  rcases ProtocolHeader.exists_members lawful kept.headers
    (by rw [map_fields]; exact fieldKeys_distinct)
    (fun member inside => fieldKeys_unmarked member.1
      (map_fields json header ▸ List.mem_map_of_mem inside)) with ⟨members, isObject, common, own⟩
  rw [← toJson_eq] at isObject common
  have shortMethod := (validMethod_iff.mp (kept.method.resolve_left method)).2.1
  have shortTarget := (validTarget_iff.mp (kept.target.resolve_left target)).2.1
  have shortAgent := (validUserAgent_iff.mp kept.userAgent).1
  rcases toMilliseconds_bounds recent with ⟨notNegative, low, high⟩
  have valid : ¬ (header.method = [] ∨ 10 < header.method.length ∨ header.target = [] ∨
      2048 < header.target.length ∨ 512 < header.userAgent.length ∨
      toMilliseconds header.timestamp < 0 ∨
      nowMs + 86400000 < toMilliseconds header.timestamp) := by
    simp only [method, target, false_or, not_or, not_lt]
    exact ⟨shortMethod, shortTarget, shortAgent, notNegative, recent.recent⟩
  rw [parseJson, common, isObject]
  simp only [Option.bind_eq_bind, Option.bind_some]
  rw [own (.head _), own (.tail _ (.head _)), own (.tail _ (.tail _ (.head _))),
    own (.tail _ (.tail _ (.tail _ (.head _))))]
  simp only [Option.bind_some, lawful.asString_ofString, lawful.toSigned_ofSigned low high]
  rw [if_neg valid, ofMilliseconds_toMilliseconds recent.whole]
  rfl

end RequestHeader

namespace ResponseHeader

variable {header : ResponseHeader}

/-- The members behind those of the common fields. -/
def ownFields (json : JsonLibrary Value) (header : ResponseHeader) : List (Bytes × Value) :=
  [(Bytes.text "status_code", json.ofUnsigned header.statusCode.toNat),
    (Bytes.text "status_message", json.ofString header.statusMessage),
    (Bytes.text "server", json.ofString header.server),
    (Bytes.text "timestamp", json.ofSigned (toMilliseconds header.timestamp))]

theorem toJson_eq : header.toJson json =
    json.setAll (header.toProtocolHeader.toJson json) (ownFields json header) := rfl

/-- The keys of all fields. -/
def fieldKeys : List Bytes := [Bytes.text "protocol_type", Bytes.text "checksum_type",
  Bytes.text "checksum_value", Bytes.text "content_length", Bytes.text "version",
  Bytes.text "status_code", Bytes.text "status_message", Bytes.text "server",
  Bytes.text "timestamp"]

theorem map_fields (json : JsonLibrary Value) (header : ResponseHeader) :
    (ProtocolHeader.fields json header.toProtocolHeader ++ ownFields json header).map Prod.fst =
      fieldKeys := rfl

theorem fieldKeys_distinct : fieldKeys.Nodup := by decide

theorem fieldKeys_unmarked : ∀ key ∈ fieldKeys, ¬ ProtocolHeader.headerText <+: key := by decide

/-- A header is read from the value that it gives. -/
theorem parseJson_toJson (lawful : json.Lawful) (kept : Kept header)
    (recent : Recent nowMs header.timestamp) :
    parseJson json nowMs (header.toJson json) = some header := by
  rcases ProtocolHeader.exists_members lawful kept.headers
    (by rw [map_fields]; exact fieldKeys_distinct)
    (fun member inside => fieldKeys_unmarked member.1
      (map_fields json header ▸ List.mem_map_of_mem inside)) with ⟨members, isObject, common, own⟩
  rw [← toJson_eq] at isObject common
  have code := header.statusCode.toNat_lt
  rcases validStatusCode_iff.mp kept.statusCode with ⟨lowCode, highCode⟩
  rcases validStatusMessage_iff.mp kept.statusMessage with ⟨nonempty, shortMessage, _⟩
  have shortServer := (validServer_iff.mp kept.server).1
  rcases toMilliseconds_bounds recent with ⟨notNegative, low, high⟩
  have valid : ¬ (header.statusCode.toNat < 100 ∨ 599 < header.statusCode.toNat ∨
      header.statusMessage = [] ∨ 256 < header.statusMessage.length ∨ 512 < header.server.length ∨
      toMilliseconds header.timestamp < 0 ∨
      nowMs + 86400000 < toMilliseconds header.timestamp) := by
    simp only [nonempty, false_or, not_or, not_lt]
    exact ⟨lowCode, highCode, shortMessage, shortServer, notNegative, recent.recent⟩
  rw [parseJson, common, isObject]
  simp only [Option.bind_eq_bind, Option.bind_some]
  rw [own (.head _), own (.tail _ (.head _)), own (.tail _ (.tail _ (.head _))),
    own (.tail _ (.tail _ (.tail _ (.head _))))]
  have wide : header.statusCode.toNat < 2 ^ 64 := by omega
  simp only [Option.bind_some, lawful.asString_ofString, lawful.toSigned_ofSigned low high,
    lawful.isNumber_ofUnsigned wide, lawful.toUnsigned_ofUnsigned code wide, if_true]
  rw [if_neg valid, ofMilliseconds_toMilliseconds recent.whole]
  simp

end ResponseHeader

namespace Message

variable {digests : Digests} {Header : Type} [HeaderConstraint Header]

/-- The members of the value of a message. -/
def fields (json : JsonLibrary Value) (digests : Digests) (sender : Message Header) :
    List (Bytes × Value) :=
  [(Bytes.text "header", HeaderConstraint.toJson json
      (HeaderConstraint.calculateAndSetChecksum digests sender.header sender.message)),
    (Bytes.text "body", json.ofString sender.message)]

theorem toJson_eq (sender : Message Header) : (sender.toJson digests json).2 =
    json.setAll json.emptyObject (fields json digests sender) := rfl

/-- The parts of the value of a message. -/
theorem partsOfJson_toJson (lawful : json.Lawful) (sender : Message Header) :
    partsOfJson json (sender.toJson digests json).2 = some (HeaderConstraint.toJson json
      (HeaderConstraint.calculateAndSetChecksum digests sender.header sender.message),
        sender.message) := by
  have keys : (fields json digests sender).map Prod.fst =
      [Bytes.text "header", Bytes.text "body"] := rfl
  have different : ((fields json digests sender).map Prod.fst).Nodup := by
    rw [keys]
    decide
  rcases JsonLibrary.holds_setAll lawful different with ⟨members, isObject, inside⟩
  have isHeader := JsonLibrary.find_of_mem lawful isObject ((inside _).mpr (.head _))
  have isBody := JsonLibrary.find_of_mem lawful isObject ((inside _).mpr (.tail _ (.head _)))
  rw [toJson_eq, partsOfJson, isObject]
  simp only [Option.bind_eq_bind, Option.bind_some]
  rw [isHeader, isBody]
  simp only [Option.bind_some, lawful.asString_ofString]
  rfl

/-- A message whose computed header is read from its value, and fits the body, comes back
from its value. -/
theorem fromJson_toJson {sender receiver : Message Header} {header : Header} (lawful : json.Lawful)
    (computed : HeaderConstraint.calculateAndSetChecksum digests sender.header sender.message =
      header)
    (read : HeaderConstraint.fromJson json nowMs receiver.header
      (HeaderConstraint.toJson json header) = (header, true))
    (verified : HeaderConstraint.verifyIntegrity digests header sender.message = true) :
    receiver.fromJson digests json nowMs (sender.toJson digests json).2 =
      ({ receiver with
          header := header, message := sender.message, fullCacheValid := false }, true) := by
  rw [fromJson, partsOfJson_toJson lawful, computed]
  dsimp only
  rw [read, verified]
  rfl

theorem verifyIntegrity_calculateAndSetChecksum (header : ProtocolHeader) (content : Bytes) :
    (header.calculateAndSetChecksum digests content).verifyIntegrity digests content = true := by
  simp [ProtocolHeader.verifyIntegrity, ProtocolHeader.calculateAndSetChecksum]

/-- Messages come back from their values with their headers, with the length and the
checksum computed anew, and with their bodies. -/
theorem json_roundtrip (lawful : json.Lawful) :
    (∀ (setters : List RequestHeader.Setter) (sender receiver : Message RequestHeader),
      setters.foldlM RequestHeader.set (RequestHeader.default now) = .ok sender.header →
      sender.header.method ≠ [] → sender.header.target ≠ [] → Recent nowMs sender.header.timestamp →
      receiver.fromJson digests json nowMs (sender.toJson digests json).2 =
        ({ receiver with
          header := { sender.header with
            toProtocolHeader := sender.header.calculateAndSetChecksum digests sender.message }
          message := sender.message
          fullCacheValid := false }, true)) ∧
    ∀ (start : ResponseHeader) (setters : List ResponseHeader.Setter)
      (sender receiver : Message ResponseHeader),
      ResponseHeader.Created now start →
      setters.foldlM ResponseHeader.set start = .ok sender.header →
      Recent nowMs sender.header.timestamp →
      receiver.fromJson digests json nowMs (sender.toJson digests json).2 =
        ({ receiver with
          header := { sender.header with
            toProtocolHeader := sender.header.calculateAndSetChecksum digests sender.message }
          message := sender.message
          fullCacheValid := false }, true) := by
  constructor
  · intro setters sender receiver built method target recent
    have kept := RequestHeader.kept_default.foldlM built
    apply fromJson_toJson lawful rfl
    · change RequestHeader.fromJson json nowMs _ (RequestHeader.toJson json _) = _
      rw [RequestHeader.fromJson, RequestHeader.parseJson_toJson lawful]
      · exact ⟨kept.method, kept.target, kept.userAgent, kept.headers⟩
      · exact method
      · exact target
      · exact recent
    · exact verifyIntegrity_calculateAndSetChecksum ..
  · intro start setters sender receiver created built recent
    have kept := created.kept.foldlM built
    apply fromJson_toJson lawful rfl
    · change ResponseHeader.fromJson json nowMs _ (ResponseHeader.toJson json _) = _
      rw [ResponseHeader.fromJson, ResponseHeader.parseJson_toJson lawful]
      · exact ⟨kept.statusCode, kept.statusMessage, kept.server, kept.headers⟩
      · exact recent
    · exact verifyIntegrity_calculateAndSetChecksum ..

/-- A request and a response with entries and the body `hello`. -/
theorem json_roundtrip_example :
    let request := (Message.new (RequestHeader.default 5) []).fromJson ⟨id, id⟩ JsonValue.library 0
      ((Message.new RequestHeader.greeting (Bytes.text "hello")).toJson ⟨id, id⟩
        JsonValue.library).2
    let response := (Message.new (ResponseHeader.default 5) []).fromJson ⟨id, id⟩
      JsonValue.library 0 ((Message.new ResponseHeader.created (Bytes.text "hello")).toJson ⟨id, id⟩
        JsonValue.library).2
    (request.2 = true ∧ request.1.message = Bytes.text "hello" ∧
      request.1.header.headers = RequestHeader.greeting.headers) ∧
    response.2 = true ∧ response.1.message = Bytes.text "hello" ∧
      response.1.header.headers = ResponseHeader.created.headers := by
  intro request response
  have requested : request = _ := (json_roundtrip JsonValue.library_lawful).1 _ _ _
    RequestHeader.built_greeting RequestHeader.sendable_greeting.method
    RequestHeader.sendable_greeting.target recent_zero
  have responded : response = _ := (json_roundtrip JsonValue.library_lawful).2 _ _ _ _ .default
    ResponseHeader.built_created recent_zero
  rw [requested, responded]
  exact ⟨⟨rfl, rfl, rfl⟩, rfl, rfl, rfl⟩

end Message

end Wan.Network
