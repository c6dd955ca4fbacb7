import Wan.Network.Agreement.Header

/-!
# JSON values, and the JSON form of `ProtocolHeader`

Boost.JSON is given by the operations that the protocol calls, together with what they
promise: objects have unique keys, and strings and numbers in range are kept as they are.
The wrapper `Protocol::Json` adds a cache of the serialized text, which is not used here.
-/

namespace Wan.Network

open Wan.Library

/-- The operations of `boost::json::value` that the protocol uses. -/
structure JsonLibrary (Value : Type) where
  /-- `if_object`, with the members of the object. -/
  members : Value → Option (List (Bytes × Value))
  /-- `object{}`. -/
  emptyObject : Value
  /-- The assignment to `as_object()[Key]`. -/
  assign : Value → Bytes → Value → Value
  /-- `value_from` of a string. -/
  ofString : Bytes → Value
  /-- `as_string`, if the value `is_string`. -/
  asString : Value → Option Bytes
  /-- `value_from` of an unsigned integer. -/
  ofUnsigned : Nat → Value
  /-- `value_to` an unsigned type with so many values; it may throw. -/
  toUnsigned : Nat → Value → Option Nat
  /-- `value_from` of a signed integer. -/
  ofSigned : Int → Value
  /-- `value_to` the signed integers of 64 bits; it may throw. -/
  toSigned : Value → Option Int
  /-- `is_number`. -/
  isNumber : Value → Bool

namespace JsonLibrary

variable {Value : Type} (json : JsonLibrary Value)

/-- What the documentation of the library promises. -/
structure Lawful : Prop where
  unique : ∀ {value members}, json.members value = some members → (members.map Prod.fst).Nodup
  members_emptyObject : json.members json.emptyObject = some []
  members_assign : ∀ {object members} (key value),
    json.members object = some members → ∃ members',
      json.members (json.assign object key value) = some members' ∧
      ∀ member, member ∈ members' ↔ member = (key, value) ∨ (member ∈ members ∧ member.1 ≠ key)
  asString_ofString : ∀ text, json.asString (json.ofString text) = some text
  toUnsigned_ofUnsigned : ∀ {bound number}, number < bound → number < 2 ^ 64 →
    json.toUnsigned bound (json.ofUnsigned number) = some number
  toSigned_ofSigned : ∀ {number}, -2 ^ 63 ≤ number → number < 2 ^ 63 →
    json.toSigned (json.ofSigned number) = some number
  isNumber_ofUnsigned : ∀ {number}, number < 2 ^ 64 → json.isNumber (json.ofUnsigned number) = true

/-- `Json::Set`. -/
def set (object : Value) (key : Bytes) (value : Value) : Value :=
  match json.members object with
  | none => json.assign json.emptyObject key value
  | some _ => json.assign object key value

/-- `find` on the members of an object. -/
def find (members : List (Bytes × Value)) (key : Bytes) : Option Value :=
  (members.find? fun member => member.1 = key).map Prod.snd

/-- What an object holds, in no order. -/
def Holds (object : Value) (content : Bytes × Value → Prop) : Prop :=
  ∃ members, json.members object = some members ∧ ∀ member, member ∈ members ↔ content member

variable {json} {object value : Value} {members : List (Bytes × Value)} {key : Bytes}
  {content : Bytes × Value → Prop}

theorem find_eq_some (unique : (members.map Prod.fst).Nodup) :
    find members key = some value ↔ (key, value) ∈ members := by
  induction members with
  | nil => simp [find]
  | cons member members ih =>
      rw [List.map_cons, List.nodup_cons] at unique
      rw [find, List.find?_cons, List.mem_cons]
      by_cases same : member.1 = key
      · have absent : (key, value) ∉ members := fun inside =>
          unique.1 (same ▸ List.mem_map_of_mem (f := Prod.fst) inside)
        rw [decide_eq_true same, or_iff_left absent]
        constructor
        · intro found
          cases found
          exact Prod.ext same.symm rfl
        · intro equal
          rw [← equal]
          rfl
      · have different : (key, value) ≠ member := fun equal => same (equal ▸ rfl)
        rw [decide_eq_false same, or_iff_right different]
        exact ih unique.2

theorem holds_emptyObject (lawful : json.Lawful) : json.Holds json.emptyObject fun _ => False :=
  ⟨[], lawful.members_emptyObject, fun _ => by simp⟩

/-- `Set` stores the value and keeps all other members. -/
theorem Holds.set (holds : json.Holds object content) (lawful : json.Lawful) (key : Bytes)
    (value : Value) : json.Holds (json.set object key value)
      fun member => member = (key, value) ∨ (content member ∧ member.1 ≠ key) := by
  rcases holds with ⟨members, isObject, inside⟩
  rcases lawful.members_assign key value isObject with ⟨members', isObject', inside'⟩
  refine ⟨members', ?_, fun member => ?_⟩
  · rw [JsonLibrary.set, isObject]
    exact isObject'
  · rw [inside' member, inside member]

end JsonLibrary

/-- JSON values without arrays and literals. -/
inductive JsonValue where
  | object (members : List (Bytes × JsonValue))
  | string (text : Bytes)
  | number (value : Int)

namespace JsonValue

/-- The members that no earlier one hides. -/
def visible : List (Bytes × JsonValue) → List (Bytes × JsonValue)
  | [] => []
  | member :: members => member :: (visible members).filter fun other => other.1 ≠ member.1

/-- A library on these values. -/
def library : JsonLibrary JsonValue where
  members
    | object members => some (visible members)
    | _ => none
  emptyObject := object []
  assign value key member :=
    match value with
    | object members => object ((key, member) :: members)
    | _ => value
  ofString := string
  asString
    | string text => some text
    | _ => none
  ofUnsigned value := number value
  toUnsigned bound
    | number value => if 0 ≤ value ∧ value < bound then some value.toNat else none
    | _ => none
  ofSigned := number
  toSigned
    | number value => if -2 ^ 63 ≤ value ∧ value < 2 ^ 63 then some value else none
    | _ => none
  isNumber
    | number _ => true
    | _ => false

theorem visible_unique (members : List (Bytes × JsonValue)) :
    ((visible members).map Prod.fst).Nodup := by
  induction members with
  | nil => exact List.nodup_nil
  | cons member members ih =>
      rw [visible, List.map_cons, List.nodup_cons]
      constructor
      · intro inside
        rcases List.mem_map.mp inside with ⟨other, isOther, same⟩
        exact of_decide_eq_true (List.mem_filter.mp isOther).2 same
      · exact ih.sublist (List.filter_sublist.map Prod.fst)

theorem library_lawful : library.Lawful where
  unique := by
    intro value members isObject
    cases value with
    | object given =>
        cases isObject
        exact visible_unique given
    | string | number => cases isObject
  members_emptyObject := rfl
  members_assign := by
    intro value members key member isObject
    cases value with
    | object given =>
        cases isObject
        refine ⟨_, rfl, fun other => ?_⟩
        rw [visible, List.mem_cons, List.mem_filter, decide_eq_true_iff]
    | string | number => cases isObject
  asString_ofString _ := rfl
  toUnsigned_ofUnsigned := by
    intro bound number small _
    exact if_pos ⟨Int.natCast_nonneg number, Int.ofNat_lt.mpr small⟩
  toSigned_ofSigned low high := if_pos ⟨low, high⟩
  isNumber_ofUnsigned _ := rfl

end JsonValue

namespace ProtocolHeader

variable {Value : Type} (json : JsonLibrary Value)

/-- The text in front of the keys of header entries. -/
def headerText : Bytes := Bytes.text "header_"

/-- `ToJson`. -/
def toJson (header : ProtocolHeader) : Value :=
  let object := json.emptyObject
  let object := json.set object (Bytes.text "protocol_type")
    (json.ofUnsigned header.protocolType.value)
  let object := json.set object (Bytes.text "checksum_type")
    (json.ofUnsigned header.checksumType.value)
  let object := json.set object (Bytes.text "checksum_value")
    (json.ofUnsigned header.checksumValue.toNat)
  let object := json.set object (Bytes.text "content_length")
    (json.ofUnsigned header.contentLength.toNat)
  let object := json.set object (Bytes.text "version") (json.ofUnsigned header.version.toNat)
  header.headers.toList.foldl
    (fun object entry => json.set object (headerText ++ entry.1) (json.ofString entry.2)) object

/-- `Read`. -/
def read (members : List (Bytes × Value)) (key : Bytes) (bound : Nat) : Option Nat :=
  (JsonLibrary.find members key).bind (json.toUnsigned bound)

/-- The loop of `FromJson` over all members. The checks on a header entry are those of
`SetHeader`. -/
def readHeaders : List (Bytes × Value) → HeaderMap → Option HeaderMap
  | [], headers => some headers
  | (key, value) :: members, headers =>
      if headerText <+: key then
        match json.asString value with
        | none => none
        | some text =>
            if acceptable (key.drop headerText.length) text then
              readHeaders members (headers.insert (key.drop headerText.length, text))
            else none
      else
        readHeaders members headers

/-- `FromJson`. The result does not depend on the fields of the header it is called on,
which keeps them if there is none. -/
def fromJson (value : Value) : Option ProtocolHeader := do
  let members ← json.members value
  let version ← read json members (Bytes.text "version") (2 ^ 32)
  let contentLength ← read json members (Bytes.text "content_length") (2 ^ 64)
  let checksumValue ← read json members (Bytes.text "checksum_value") (2 ^ 32)
  let protocolType ← read json members (Bytes.text "protocol_type") (2 ^ 8)
  let checksumType ← read json members (Bytes.text "checksum_type") (2 ^ 8)
  let protocolType ← ProtocolType.ofValue protocolType
  let checksumType ← ChecksumType.ofValue checksumType
  let headers ← readHeaders json members .empty
  return {
    version := version.toUInt32
    checksumValue := checksumValue.toUInt32
    contentLength := contentLength.toUInt64
    checksumType := checksumType
    headers := headers
    protocolType := protocolType }

end ProtocolHeader

end Wan.Network
