import Wan.Network.Agreement.Written
import Wan.Network.Agreement.Message

/-!
# The JSON form of headers

Objects that are made of members with different keys hold just these members, and what
`FromJson` reads depends on the members it looks for and on those that start with
`header_` only.
-/

namespace Wan.Network

open Wan.Library

namespace JsonLibrary

variable {Value : Type} {json : JsonLibrary Value} {object value : Value}
  {members fields held : List (Bytes × Value)} {key text : Bytes} {number bound : Nat}

/-- Set several members. -/
def setAll (json : JsonLibrary Value) (object : Value) (fields : List (Bytes × Value)) : Value :=
  fields.foldl (fun object field => json.set object field.1 field.2) object

theorem setAll_append (more : List (Bytes × Value)) : json.setAll object (fields ++ more) =
    json.setAll (json.setAll object fields) more := List.foldl_append

theorem Holds.setAll (lawful : json.Lawful) (holds : json.Holds object (· ∈ held))
    (different : ((held ++ fields).map Prod.fst).Nodup) :
    json.Holds (json.setAll object fields) (· ∈ held ++ fields) := by
  induction fields generalizing object held with
  | nil =>
      rw [List.append_nil]
      exact holds
  | cons field fields ih =>
      have fresh : ∀ member ∈ held, member.1 ≠ field.1 := by
        intro member inside same
        rw [List.map_append, List.nodup_append] at different
        exact different.2.2 member.1 (List.mem_map_of_mem inside) field.1
          (List.mem_map_of_mem (List.mem_cons_self ..)) same
      have grown : json.Holds (json.set object field.1 field.2) (· ∈ held ++ [field]) := by
        rcases holds.set lawful field.1 field.2 with ⟨members, isObject, inside⟩
        refine ⟨members, isObject, fun member => ?_⟩
        apply (inside member).trans
        simp only [List.mem_append, List.mem_singleton]
        constructor
        · intro cases
          exact cases.elim .inr fun old => .inl old.1
        · intro cases
          exact cases.elim (fun old => .inr ⟨old, fresh member old⟩) .inl
      have shifted : held ++ field :: fields = held ++ [field] ++ fields := by
        rw [List.append_assoc, List.singleton_append]
      rw [shifted] at different ⊢
      exact ih grown different

/-- An object that is made of members with different keys holds just these. -/
theorem holds_setAll (lawful : json.Lawful) (different : (fields.map Prod.fst).Nodup) :
    json.Holds (json.setAll json.emptyObject fields) (· ∈ fields) := by
  have empty : json.Holds json.emptyObject (· ∈ []) := by
    rcases holds_emptyObject lawful with ⟨members, isObject, inside⟩
    refine ⟨members, isObject, fun member => ?_⟩
    rw [inside member]
    simp
  exact empty.setAll lawful different

theorem find_of_mem (lawful : json.Lawful) (isObject : json.members object = some members)
    (inside : (key, value) ∈ members) : find members key = some value :=
  (find_eq_some (lawful.unique isObject)).mpr inside

end JsonLibrary

namespace ProtocolHeader

variable {Value : Type} {json : JsonLibrary Value} {object : Value} {header : ProtocolHeader}
  {members : List (Bytes × Value)} {headers : HeaderMap}

/-- The members that the fields of a header make. -/
def fields (json : JsonLibrary Value) (header : ProtocolHeader) : List (Bytes × Value) :=
  [(Bytes.text "protocol_type", json.ofUnsigned header.protocolType.value),
    (Bytes.text "checksum_type", json.ofUnsigned header.checksumType.value),
    (Bytes.text "checksum_value", json.ofUnsigned header.checksumValue.toNat),
    (Bytes.text "content_length", json.ofUnsigned header.contentLength.toNat),
    (Bytes.text "version", json.ofUnsigned header.version.toNat)]

/-- The members that the entries of a header make. -/
def entryFields (json : JsonLibrary Value) (header : ProtocolHeader) : List (Bytes × Value) :=
  header.headers.toList.map fun entry => (headerText ++ entry.1, json.ofString entry.2)

theorem toJson_eq : header.toJson json =
    json.setAll json.emptyObject (fields json header ++ entryFields json header) := by
  rw [JsonLibrary.setAll_append, entryFields, JsonLibrary.setAll, List.foldl_map]
  rfl

/-- The keys of the entries differ from each other and from all keys without their start. -/
theorem different_keys (json : JsonLibrary Value) (header : ProtocolHeader)
    {front back : List (Bytes × Value)}
    (different : ((front ++ back).map Prod.fst).Nodup)
    (unmarked : ∀ member ∈ front ++ back, ¬ headerText <+: member.1) :
    ((front ++ entryFields json header ++ back).map Prod.fst).Nodup := by
  have entries : ((entryFields json header).map Prod.fst).Nodup := by
    rw [entryFields, List.map_map, List.Nodup, List.pairwise_map]
    apply header.headers.sorted.imp
    intro first second before same
    have equal : first.1 = second.1 := List.append_cancel_left same
    have never : Bytes.before second.1 second.1 = false := Library.lt_irrefl second.1
    rw [equal, never] at before
    cases before
  have marked : ∀ key ∈ (entryFields json header).map Prod.fst, headerText <+: key := by
    intro key isKey
    rcases List.mem_map.mp isKey with ⟨member, isMember, rfl⟩
    rcases List.mem_map.mp isMember with ⟨entry, _, rfl⟩
    exact List.prefix_append ..
  have notMarked : ∀ key ∈ (front ++ back).map Prod.fst, ¬ headerText <+: key := by
    intro key isKey
    rcases List.mem_map.mp isKey with ⟨member, isMember, rfl⟩
    exact unmarked member isMember
  have order : (front ++ entryFields json header ++ back).Perm
      (entryFields json header ++ (front ++ back)) := by
    rw [← List.append_assoc]
    exact List.Perm.append_right back List.perm_append_comm
  rw [(order.map Prod.fst).nodup_iff, List.map_append, List.nodup_append]
  refine ⟨entries, different, ?_⟩
  intro key isEntry other isOther same
  exact notMarked other isOther (same ▸ marked key isEntry)

/-- What the loop over the members reads. -/
theorem readHeaders_of_valid (different : (members.map Prod.fst).Nodup)
    (valid : ∀ key value, (headerText ++ key, value) ∈ members →
      ∃ text, json.asString value = some text ∧ acceptable key text = true)
    (fresh : ∀ entry ∈ headers.toList, headerText ++ entry.1 ∉ members.map Prod.fst) :
    ∃ headers', readHeaders json members headers = some headers' ∧
      ∀ entry, entry ∈ headers'.toList ↔ entry ∈ headers.toList ∨
        ∃ value, (headerText ++ entry.1, value) ∈ members ∧ json.asString value = some entry.2 := by
  induction members generalizing headers with
  | nil => exact ⟨headers, rfl, by simp⟩
  | cons member members ih =>
      rcases member with ⟨key, value⟩
      rw [List.map_cons, List.nodup_cons] at different
      have validLater : ∀ key value, (headerText ++ key, value) ∈ members →
          ∃ text, json.asString value = some text ∧ acceptable key text = true :=
        fun key value inside => valid key value (List.mem_cons_of_mem _ inside)
      by_cases marked : headerText <+: key
      · rcases marked with ⟨name, rfl⟩
        rcases valid name value (List.mem_cons_self ..) with ⟨text, isText, accepted⟩
        have absent : headers.find? name = none := by
          rw [OrderedMap.find?_eq_none]
          intro entry inside
          rw [← Bool.not_eq_true, Bytes.equivalent_before]
          intro same
          apply fresh entry inside
          rw [same, List.map_cons]
          exact List.mem_cons_self ..
        have freshLater : ∀ entry ∈ (headers.insert (name, text)).toList,
            headerText ++ entry.1 ∉ members.map Prod.fst := by
          intro entry inside
          rcases (OrderedMap.mem_insert absent).mp inside with rfl | old
          · exact different.1
          · intro later
            exact fresh entry old (List.mem_cons_of_mem _ later)
        rcases ih different.2 validLater freshLater with ⟨headers', read, inside⟩
        refine ⟨headers', ?_, fun entry => ?_⟩
        · rw [readHeaders, if_pos (List.prefix_append ..), isText, List.drop_left]
          dsimp only
          rw [if_pos accepted, read]
        · rw [inside entry, OrderedMap.mem_insert absent]
          constructor
          · intro cases
            rcases cases with (rfl | old) | ⟨value', later, isText'⟩
            · exact .inr ⟨value, List.mem_cons_self .., isText⟩
            · exact .inl old
            · exact .inr ⟨value', List.mem_cons_of_mem _ later, isText'⟩
          · intro cases
            rcases cases with old | ⟨value', inside', isText'⟩
            · exact .inl (.inr old)
            rcases List.mem_cons.mp inside' with equal | later
            · have sameKey : entry.1 = name := List.append_cancel_left (congrArg Prod.fst equal)
              have sameValue : value' = value := congrArg Prod.snd equal
              rw [sameValue, isText] at isText'
              exact .inl (.inl (Prod.ext sameKey (Option.some.inj isText').symm))
            · exact .inr ⟨value', later, isText'⟩
      · rcases ih different.2 validLater
          (fun entry inside later => fresh entry inside (List.mem_cons_of_mem _ later)) with
          ⟨headers', read, inside⟩
        refine ⟨headers', ?_, fun entry => ?_⟩
        · rw [readHeaders, if_neg marked, read]
        · rw [inside entry]
          apply or_congr_right
          constructor
          · intro found
            rcases found with ⟨value', later, isText⟩
            exact ⟨value', List.mem_cons_of_mem _ later, isText⟩
          · intro found
            rcases found with ⟨value', inside', isText⟩
            rcases List.mem_cons.mp inside' with equal | later
            · exact absurd ⟨entry.1, congrArg Prod.fst equal⟩ marked
            · exact ⟨value', later, isText⟩

/-- An object with the members of a header, and no others that start like entries, gives
the header. -/
theorem fromJson_of_mem (lawful : json.Lawful) (accepted : Accepted header.headers)
    (isObject : json.members object = some members)
    (present : ∀ member ∈ fields json header, member ∈ members)
    (entries : ∀ key value, (headerText ++ key, value) ∈ members ↔
      ∃ text, (key, text) ∈ header.headers.toList ∧ value = json.ofString text) :
    fromJson json object = some header := by
  have field : ∀ {key number bound}, (key, json.ofUnsigned number) ∈ members → number < bound →
      number < 2 ^ 64 → read json members key bound = some number := by
    intro key number bound inside small smaller
    rw [read, JsonLibrary.find_of_mem lawful isObject inside]
    exact lawful.toUnsigned_ofUnsigned small smaller
  have valid : ∀ key value, (headerText ++ key, value) ∈ members →
      ∃ text, json.asString value = some text ∧ acceptable key text = true := by
    intro key value inside
    rcases (entries key value).mp inside with ⟨text, isEntry, rfl⟩
    exact ⟨text, lawful.asString_ofString text, accepted _ isEntry⟩
  have fresh : ∀ entry ∈ (OrderedMap.empty : HeaderMap).toList,
      headerText ++ entry.1 ∉ members.map Prod.fst := by
    intro entry none
    cases none
  rcases readHeaders_of_valid (lawful.unique isObject) valid fresh with
    ⟨headers, readHeaders, inside⟩
  have same : headers = header.headers := by
    apply OrderedMap.ext_mem
    intro entry
    rw [inside entry]
    constructor
    · intro cases
      rcases cases with none | ⟨value, isMember, isText⟩
      · cases none
      · rcases (entries _ _).mp isMember with ⟨text, isEntry, rfl⟩
        rw [lawful.asString_ofString] at isText
        cases isText
        exact isEntry
    · intro isEntry
      exact .inr ⟨_, (entries entry.1 _).mpr ⟨entry.2, isEntry, rfl⟩, lawful.asString_ofString _⟩
  have protocolType := header.protocolType.value_lt
  have checksumType := header.checksumType.value_lt
  have checksumValue := header.checksumValue.toNat_lt
  have contentLength := header.contentLength.toNat_lt
  have version := header.version.toNat_lt
  rw [fromJson, isObject, Option.bind_eq_bind, Option.bind_some,
    field (present _ (by simp [fields])) version (by omega),
    field (present _ (by simp [fields])) contentLength contentLength,
    field (present _ (by simp [fields])) checksumValue (by omega),
    field (present _ (by simp [fields])) protocolType (by omega),
    field (present _ (by simp [fields])) checksumType (by omega), readHeaders, same]
  simp

end ProtocolHeader

end Wan.Network
