import Wan.Library.Percent
import Wan.Web.Context.Cookies

/-!
# The query of a request

The constructor parses the target.  A segment goes to the next `&`, and its key to the next
`=` unless that one stands behind the `&`.
-/

namespace Wan.Web.Context

open Wan.Library

/-- `MemberQueryParams`. -/
abbrev QueryParams := InsertionMap (Prod.fst : Bytes × Bytes → Bytes)

/-- The loop of `DecodeQueryComponent`. -/
def decodeQueryComponentFrom (value : Bytes) (index : Nat) (decoded : Bytes) : Bytes :=
  if inside : index < value.length then
    if value[index] = Bytes.char '+' then
      decodeQueryComponentFrom value (index + 1) (decoded ++ [Bytes.char ' '])
    else if escape : value[index] = Bytes.char '%' ∧ index + 2 < value.length then
      match Bytes.hexValue value[index + 1], Bytes.hexValue value[index + 2] with
      | some high, some low =>
          decodeQueryComponentFrom value (index + 3) (decoded ++ [high <<< 4 ||| low])
      | _, _ => decodeQueryComponentFrom value (index + 1) (decoded ++ [value[index]])
    else decodeQueryComponentFrom value (index + 1) (decoded ++ [value[index]])
  else decoded
termination_by value.length - index

/-- `DecodeQueryComponent`. -/
def decodeQueryComponent (value : Bytes) : Bytes := decodeQueryComponentFrom value 0 []

/-- The key and the value that an iteration of `ParseQuery` reads. -/
def nextParam (queryStr : Bytes) (ampersandPos : Option Nat) : Bytes × Bytes :=
  let segmentEnd := ampersandPos.getD queryStr.length
  match queryStr.idxOf? (Bytes.char '=') with
  | some equalsPos =>
      if ampersandPos.all (equalsPos < ·) then
        (decodeQueryComponent (substr queryStr 0 equalsPos),
          decodeQueryComponent
            (substr queryStr (equalsPos + 1) (sizeSub (sizeSub segmentEnd equalsPos) 1)))
      else (decodeQueryComponent (substr queryStr 0 segmentEnd), [])
  | none => (decodeQueryComponent (substr queryStr 0 segmentEnd), [])

/-- The loop of `ParseQuery`. -/
def parseQueryFrom (params : QueryParams) (queryStr : Bytes) : QueryParams :=
  if queryStr = [] then params
  else
    let ampersandPos := queryStr.idxOf? (Bytes.char '&')
    let assigned := params.assign (nextParam queryStr ampersandPos)
    match ampersandPos with
    | some position => parseQueryFrom assigned (queryStr.drop (position + 1))
    | none => assigned
termination_by queryStr.length
decreasing_by
  next nonempty =>
  have positive := List.length_pos_iff.mpr nonempty
  rw [List.length_drop]
  omega

/-- `ParseQuery`. -/
def parseQuery (params : QueryParams) (target : Bytes) : QueryParams :=
  match target.idxOf? (Bytes.char '?') with
  | none => params
  | some queryPos => parseQueryFrom params (target.drop (queryPos + 1))

/-- `MemberQueryParams` of a new context. -/
def queryParams (target : Bytes) : QueryParams := parseQuery .empty target

/-- `Query`. -/
def query (params : QueryParams) (name : Bytes) : Bytes :=
  ((params.find? name).map Prod.snd).getD []

/-- `HasQuery`. -/
def hasQuery (params : QueryParams) (name : Bytes) : Bool := (params.find? name).isSome

/-- The segments of a query, where the last one is left out when it is empty. -/
def querySegments (query : Bytes) : List Bytes :=
  let segments := query.splitOn (Bytes.char '&')
  if segments.getLast? = some [] then segments.dropLast else segments

/-- What a segment stands for: it is cut at its first `=`, and the parts are decoded. -/
def param (segment : Bytes) : Bytes × Bytes :=
  ((binding segment).getD (segment, [])).map Bytes.formDecode Bytes.formDecode

/-- What a target stands for. -/
def params (target : Bytes) : List (Bytes × Bytes) :=
  match target.idxOf? (Bytes.char '?') with
  | none => []
  | some position => (querySegments (target.drop (position + 1))).map param

/-- How a list of parameters is written. -/
def encodeQuery (encoding : Bytes.PercentEncoding) (entries : List (Bytes × Bytes)) : Bytes :=
  List.intercalate [Bytes.char '&'] (entries.map fun entry =>
    encoding.encode entry.1 ++ Bytes.char '=' :: encoding.encode entry.2)

section Decode

variable {value decoded : Bytes} {index : Nat}

/-- The loop decodes what is left of the component. -/
theorem decodeQueryComponentFrom_eq : decodeQueryComponentFrom value index decoded =
    decoded ++ Bytes.formDecode (value.drop index) := by
  fun_induction decodeQueryComponentFrom value index decoded with
  | case1 index decoded inside plus ih =>
      rw [ih, List.drop_eq_getElem_cons inside, plus, Bytes.formDecode_cons (by decide),
        List.append_assoc]
      rfl
  | case2 index decoded inside plus escape high low isHigh isLow ih =>
      have escaped : Bytes.ofHex value[index + 1] value[index + 2] = some (high <<< 4 ||| low) := by
        rw [Bytes.ofHex, isHigh, isLow]
        rfl
      rw [ih, List.drop_eq_getElem_cons inside, escape.1,
        List.drop_eq_getElem_cons (show index + 1 < value.length by omega),
        List.drop_eq_getElem_cons escape.2, Bytes.formDecode_escape escaped, List.append_assoc]
      rfl
  | case3 index decoded inside plus escape malformed ih =>
      have unreadable : Bytes.ofHex value[index + 1] value[index + 2] = none := by
        cases isHigh : Bytes.hexValue value[index + 1] with
        | none => rw [Bytes.ofHex, isHigh, Option.bind_eq_bind, Option.bind_none]
        | some high =>
            cases isLow : Bytes.hexValue value[index + 2] with
            | none => rw [Bytes.ofHex, isHigh, isLow]; rfl
            | some low => exact (malformed high low isHigh isLow).elim
      rw [ih, List.drop_eq_getElem_cons inside, escape.1,
        List.drop_eq_getElem_cons (show index + 1 < value.length by omega),
        List.drop_eq_getElem_cons escape.2, Bytes.formDecode_malformed unreadable,
        List.append_assoc]
      rfl
  | case4 index decoded inside plus escape ih =>
      rw [ih, List.drop_eq_getElem_cons inside, List.append_assoc, List.singleton_append]
      by_cases percent : value[index] = Bytes.char '%'
      · have short : (value.drop (index + 1)).length < 2 := by
          have last : ¬index + 2 < value.length := fun more => escape ⟨percent, more⟩
          rw [List.length_drop]
          omega
        rw [percent, Bytes.formDecode_truncated short]
      · rw [Bytes.formDecode_cons percent, Bytes.unplus, if_neg plus]
  | case5 index decoded inside =>
      rw [List.drop_eq_nil_of_le (Nat.le_of_not_lt inside)]
      exact (List.append_nil decoded).symm

theorem decodeQueryComponent_eq : decodeQueryComponent value = Bytes.formDecode value :=
  decodeQueryComponentFrom_eq

end Decode

section Loop

variable {queryParams : QueryParams} {segment rest : Bytes}

/-- An iteration reads the segment in front of the next separator. -/
theorem nextParam_cons (clean : Bytes.char '&' ∉ segment) :
    nextParam (segment ++ Bytes.char '&' :: rest) (some segment.length) = param segment := by
  have whole : substr (segment ++ Bytes.char '&' :: rest) 0 segment.length = segment := by
    rw [substr, List.drop_zero, List.take_left]
  by_cases present : Bytes.char '=' ∈ segment
  · rcases List.eq_append_cons_of_mem present with ⟨key, value, rfl, free⟩
    have equals : ((key ++ Bytes.char '=' :: value) ++ Bytes.char '&' :: rest).idxOf?
        (Bytes.char '=') = some key.length := by
      rw [List.append_assoc]
      exact idxOf?_append_cons free
    rw [nextParam, equals, param, binding_append free]
    simp [substr, sizeSub, decodeQueryComponent_eq]
  · have entry : param segment = (decodeQueryComponent segment, []) := by
      rw [param, binding_eq_none.mpr present, decodeQueryComponent_eq]
      rfl
    rw [nextParam, entry, Option.getD_some, whole]
    split
    next equalsPos found =>
      rcases List.idxOf?_eq_some_iff.mp found with ⟨inside, isEquals, -⟩
      have behind : ¬equalsPos < segment.length := by
        intro before
        rw [List.getElem_append_left before] at isEquals
        exact present (isEquals ▸ List.getElem_mem before)
      rw [Option.all_some, if_neg (by simpa using behind)]
    next => rfl

/-- The last iteration reads all that is left. -/
theorem nextParam_last : nextParam segment none = param segment := by
  by_cases present : Bytes.char '=' ∈ segment
  · rcases List.eq_append_cons_of_mem present with ⟨key, value, rfl, free⟩
    rw [nextParam, idxOf?_append_cons free, param, binding_append free]
    simp [substr, sizeSub, decodeQueryComponent_eq]
  · rw [nextParam, List.idxOf?_eq_none_iff.mpr present, param, binding_eq_none.mpr present]
    simp [substr, decodeQueryComponent_eq, Bytes.formDecode]

theorem querySegments_last (clean : Bytes.char '&' ∉ segment) :
    querySegments segment = if segment = [] then [] else [segment] := by
  rw [querySegments, List.splitOn_eq_singleton clean]
  simp

theorem querySegments_cons (clean : Bytes.char '&' ∉ segment) :
    querySegments (segment ++ Bytes.char '&' :: rest) = segment :: querySegments rest := by
  rw [querySegments, querySegments, List.splitOn_append_cons_self_of_not_mem clean]
  rcases List.exists_cons_of_ne_nil (List.splitOn_ne_nil (Bytes.char '&') rest) with
    ⟨first, later, split⟩
  rw [split, List.getLast?_cons_cons, List.dropLast_cons_cons]
  split <;> rfl

/-- The loop assigns one parameter for each segment. -/
theorem parseQueryFrom_eq (queryStr : Bytes) : parseQueryFrom queryParams queryStr =
    ((querySegments queryStr).map param).foldl .assign queryParams := by
  induction queryStr using split_induction (Bytes.char '&') generalizing queryParams with
  | last segment clean =>
      rw [querySegments_last clean, parseQueryFrom, List.idxOf?_eq_none_iff.mpr clean]
      split
      next => rfl
      next => exact congrArg (InsertionMap.assign queryParams) nextParam_last
  | cons segment rest clean ih =>
      rw [querySegments_cons clean, parseQueryFrom, if_neg (by simp), idxOf?_append_cons clean]
      simp only [drop_behind, nextParam_cons clean, ih]
      rfl

/-- The parameters of a target are what it stands for. -/
theorem queryParams_eq (target : Bytes) :
    Context.queryParams target = (params target).foldl .assign .empty := by
  rw [Context.queryParams, parseQuery, params]
  cases target.idxOf? (Bytes.char '?') with
  | none => rfl
  | some position => exact parseQueryFrom_eq _

end Loop

section Encode

variable (encoding : Bytes.PercentEncoding) {entries : List (Bytes × Bytes)}

/-- A written parameter is read back. -/
theorem param_encode (entry : Bytes × Bytes) :
    param (encoding.encode entry.1 ++ Bytes.char '=' :: encoding.encode entry.2) = entry := by
  rw [param, binding_append (encoding.not_mem_encode (by decide) _), Option.getD_some,
    Prod.map_apply, encoding.formDecode_encode, encoding.formDecode_encode]

theorem not_mem_entry (entry : Bytes × Bytes) : Bytes.char '&' ∉
    encoding.encode entry.1 ++ Bytes.char '=' :: encoding.encode entry.2 := by
  rw [List.mem_append, List.mem_cons]
  rintro (inKey | same | inValue)
  · exact encoding.not_mem_encode (by decide) _ inKey
  · exact absurd same (by decide)
  · exact encoding.not_mem_encode (by decide) _ inValue

/-- A written list of parameters has one segment for each of them. -/
theorem querySegments_encodeQuery : querySegments (encodeQuery encoding entries) =
    entries.map fun entry =>
      encoding.encode entry.1 ++ Bytes.char '=' :: encoding.encode entry.2 := by
  by_cases nil : entries = []
  · rw [nil]
    rfl
  · rw [querySegments, encodeQuery, List.splitOn_intercalate]
    · rw [if_neg]
      intro last
      rcases List.mem_map.mp (List.mem_of_getLast? last) with ⟨entry, -, empty⟩
      simp at empty
    · intro segment member
      rcases List.mem_map.mp member with ⟨entry, -, rfl⟩
      exact not_mem_entry encoding entry
    · simpa using nil

/-- A query stands for the parameters that it was written for. -/
theorem params_encodeQuery {path : Bytes} (free : Bytes.char '?' ∉ path) :
    params (path ++ Bytes.char '?' :: encodeQuery encoding entries) = entries := by
  rw [params, idxOf?_append_cons free]
  simp only [drop_behind]
  rw [querySegments_encodeQuery, List.map_map]
  conv_rhs => rw [← List.map_id entries]
  exact List.map_congr_left fun entry _ => param_encode encoding entry

end Encode

/-- The parameters of a target are the ones that its segments stand for, where the last one of
a key counts; and what is written into a target is read back. -/
theorem find?_queryParams :
    (∀ target key, (queryParams target).find? key =
      (params target).reverse.find? fun entry => entry.1 = key) ∧
    ∀ (encoding : Bytes.PercentEncoding) (path : Bytes) (entries : List (Bytes × Bytes)),
      Bytes.char '?' ∉ path → (entries.map Prod.fst).Nodup → ∀ key,
        (queryParams (path ++ Bytes.char '?' :: encodeQuery encoding entries)).find? key =
          entries.find? fun entry => entry.1 = key := by
  constructor
  · intro target key
    rw [queryParams_eq, InsertionMap.find?_foldl_assign]
    exact Option.or_none ..
  · intro encoding path entries free distinct key
    rw [queryParams_eq, params_encodeQuery encoding free]
    exact InsertionMap.find?_foldl_assign_of_nodup distinct

/-- Reserved bytes in keys and values, and an empty value. -/
theorem find?_queryParams_reserved :
    let entries := [(Bytes.text "a b&", Bytes.text "1=2+%"), (Bytes.text "%41", []),
      ([], Bytes.text "?")]
    let target := Bytes.text "/search" ++ Bytes.char '?' :: encodeQuery .strict entries
    (queryParams target).find? (Bytes.text "a b&") =
        some (Bytes.text "a b&", Bytes.text "1=2+%") ∧
      (queryParams target).find? (Bytes.text "%41") = some (Bytes.text "%41", []) ∧
      (queryParams target).find? [] = some ([], Bytes.text "?") ∧
      (queryParams target).find? (Bytes.text "A") = none := by
  intro entries target
  have read := find?_queryParams.2 .strict (Bytes.text "/search") entries (by decide) (by decide)
  exact ⟨(read _).trans (by decide), (read _).trans (by decide), (read _).trans (by decide),
    (read _).trans (by decide)⟩

end Wan.Web.Context
