import Mathlib.Data.Bool.AllAny
import Wan.Library.Failure
import Wan.Web.Context.Cookies

/-!
# The cookies of a response

`SetCookie` writes a cookie with its attributes into one field of the response.  Another
request brings the names and the values back in a single field.  The library that keeps the
fields leaves out the blanks around a value.
-/

namespace Wan.Web.Context

open Wan.Library

/-- `CookieOptions`. -/
structure CookieOptions where
  maxAge : Int64 := 0
  path : Bytes := Bytes.text "/"
  domain : Bytes := []
  secure : Bool := false
  httpOnly : Bool := false
  sameSite : Bytes := []

/-- `std::invalid_argument`. -/
structure InvalidArgument where
  what : String
deriving DecidableEq

/-- `HasForbidden`. -/
def hasForbidden (bytes forbidden : Bytes) : Bool := Bytes.hasAny forbidden bytes

/-- The bytes below the blank, and `DEL`. -/
def isControl (byte : UInt8) : Bool := byte < 0x20 || byte == 0x7f

/-- `HasControl`. -/
def hasControl (bytes : Bytes) : Bool := bytes.any isControl

/-- The check of `SetCookie`. -/
def isInvalid (name value : Bytes) (opts : CookieOptions) : Bool :=
  name.isEmpty || hasForbidden name (Bytes.text "=;," ++ Bytes.crlf) ||
    hasForbidden value (Bytes.text ";" ++ Bytes.crlf) ||
    hasForbidden opts.path (Bytes.text ";" ++ Bytes.crlf) ||
    hasForbidden opts.domain (Bytes.text ";," ++ Bytes.crlf) ||
    hasForbidden opts.sameSite (Bytes.text ";," ++ Bytes.crlf) ||
    hasControl name || hasControl value || hasControl opts.path || hasControl opts.domain ||
    hasControl opts.sameSite

/-- `CookieStr`. -/
def cookieStr (name value : Bytes) (opts : CookieOptions) : Bytes :=
  name ++ Bytes.text "=" ++ value ++
    (if opts.maxAge ≠ 0 then
      Bytes.text "; Max-Age=" ++ Bytes.signedDecimal opts.maxAge.toInt else []) ++
    (if opts.path ≠ [] then Bytes.text "; Path=" ++ opts.path else []) ++
    (if opts.domain ≠ [] then Bytes.text "; Domain=" ++ opts.domain else []) ++
    (if opts.secure then Bytes.text "; Secure" else []) ++
    (if opts.httpOnly then Bytes.text "; HttpOnly" else []) ++
    (if opts.sameSite ≠ [] then Bytes.text "; SameSite=" ++ opts.sameSite else [])

variable {Exception : Type}

/-- How one more `Set-Cookie` field is inserted into a response: it is the last one, with the value
that was given but for the blanks and tabs at its ends. -/
structure Inserts (insert : List Bytes → Bytes → Except Exception (List Bytes)) : Prop where
  appends : ∀ fields value later, insert fields value = .ok later →
    later = fields ++ [Bytes.trim (Bytes.text " \t") value]

/-- `SetCookie`, with what `insert` does to the `Set-Cookie` fields of the response. -/
def setCookie (insert : List Bytes → Bytes → Except Exception (List Bytes)) (fields : List Bytes)
    (name value : Bytes) (opts : CookieOptions) :
    Except (InvalidArgument ⊕ Exception) (List Bytes) :=
  if isInvalid name value opts then .error (.inl ⟨"invalid cookie component"⟩)
  else (insert fields (cookieStr name value opts)).mapError .inr

/-- The arguments of a call of `SetCookie`. -/
structure ResponseCookie where
  name : Bytes
  value : Bytes
  opts : CookieOptions

/-- Calls of `SetCookie`, one after the other. -/
def setCookies (insert : List Bytes → Bytes → Except Exception (List Bytes)) (fields : List Bytes)
    (cookies : List ResponseCookie) : Except (InvalidArgument ⊕ Exception) (List Bytes) :=
  cookies.foldlM (fun fields cookie =>
    setCookie insert fields cookie.name cookie.value cookie.opts) fields

/-- The name and the value of a cookie as they are written. -/
def ResponseCookie.pair (cookie : ResponseCookie) : Bytes :=
  cookie.name ++ Bytes.char '=' :: cookie.value

/-- The attributes that were asked for. -/
def CookieOptions.attributes (opts : CookieOptions) : List Bytes :=
  (if opts.maxAge ≠ 0 then [Bytes.text "Max-Age=" ++ Bytes.signedDecimal opts.maxAge.toInt]
    else []) ++
    (if opts.path ≠ [] then [Bytes.text "Path=" ++ opts.path] else []) ++
    (if opts.domain ≠ [] then [Bytes.text "Domain=" ++ opts.domain] else []) ++
    (if opts.secure then [Bytes.text "Secure"] else []) ++
    (if opts.httpOnly then [Bytes.text "HttpOnly"] else []) ++
    (if opts.sameSite ≠ [] then [Bytes.text "SameSite=" ++ opts.sameSite] else [])

/-- The `Cookie` field that brings cookies back. -/
def cookieField (cookies : List ResponseCookie) : Bytes :=
  (Bytes.text "; ").intercalate (cookies.map ResponseCookie.pair)

/-- The fields consist of the cookies and their attributes, and the cookies come back as they
are. -/
structure RoundTrip (cookies : List ResponseCookie) (fields : List Bytes) : Prop where
  parts : fields.map (List.splitOn (Bytes.char ';')) = cookies.map fun cookie =>
    cookie.pair :: cookie.opts.attributes.map (Bytes.char ' ' :: ·)
  clean : ∀ field ∈ fields, ∀ byte ∈ field, isControl byte = false
  recovered : (cookies.map ResponseCookie.name).Nodup → ∀ name,
    (ofRequest (some (cookieField cookies))).parseCookies.cookies.find? name =
      (cookies.map fun cookie => (cookie.name, cookie.value)).find? fun entry => entry.1 = name

/-- No blank stands in front of the name, or behind the last part of the field. -/
def ResponseCookie.Unpadded (cookie : ResponseCookie) : Prop :=
  cookie.name.head? ≠ some (Bytes.char ' ') ∧
    (cookie.opts.attributes.getLast?.getD cookie.pair).getLast? ≠ some (Bytes.char ' ')

instance (cookie : ResponseCookie) : Decidable cookie.Unpadded :=
  inferInstanceAs (Decidable (_ ∧ _))

section Written

variable {name value : Bytes} {opts : CookieOptions} {cookie : ResponseCookie}
variable {cookies : List ResponseCookie} {fields later : List Bytes} {Exception : Type}
variable {insert : List Bytes → Bytes → Except Exception (List Bytes)}

/-- What the check of `SetCookie` lets through. -/
structure Accepted (cookie : ResponseCookie) : Prop where
  nonempty : cookie.name ≠ []
  noEquals : Bytes.char '=' ∉ cookie.name
  noSeparator : ∀ bytes ∈ [cookie.name, cookie.value, cookie.opts.path, cookie.opts.domain,
    cookie.opts.sameSite], Bytes.char ';' ∉ bytes
  noControl : ∀ bytes ∈ [cookie.name, cookie.value, cookie.opts.path, cookie.opts.domain,
    cookie.opts.sameSite], ∀ byte ∈ bytes, isControl byte = false

theorem not_mem_of_not_hasForbidden {bytes forbidden : Bytes} {byte : UInt8}
    (free : hasForbidden bytes forbidden = false) (member : byte ∈ forbidden) : byte ∉ bytes := by
  intro inside
  rw [hasForbidden, Bytes.hasAny, List.any_eq_false] at free
  exact free byte inside (by simpa using member)

theorem accepted_of_valid (valid : isInvalid cookie.name cookie.value cookie.opts = false) :
    Accepted cookie := by
  simp only [isInvalid, Bool.or_eq_false_iff] at valid
  rcases valid with ⟨⟨⟨⟨⟨⟨⟨⟨⟨⟨nonempty, inName⟩, inValue⟩, inPath⟩, inDomain⟩, inSameSite⟩, name⟩,
    value⟩, path⟩, domain⟩, sameSite⟩
  refine ⟨by simpa using nonempty, not_mem_of_not_hasForbidden inName (by decide), ?_, ?_⟩
  · simp only [List.forall_mem_cons]
    exact ⟨not_mem_of_not_hasForbidden inName (by decide),
      not_mem_of_not_hasForbidden inValue (by decide),
      not_mem_of_not_hasForbidden inPath (by decide),
      not_mem_of_not_hasForbidden inDomain (by decide),
      not_mem_of_not_hasForbidden inSameSite (by decide), List.forall_mem_nil _⟩
  · simp only [hasControl, List.any_eq_false, Bool.not_eq_true] at name value path domain sameSite
    simp only [List.forall_mem_cons]
    exact ⟨name, value, path, domain, sameSite, List.forall_mem_nil _⟩

/-- A call that is accepted writes one field. -/
theorem setCookie_ok (inserts : Inserts insert)
    (accepted : setCookie insert fields cookie.name cookie.value cookie.opts = .ok later) :
    Accepted cookie ∧ later = fields ++
      [Bytes.trim (Bytes.text " \t") (cookieStr cookie.name cookie.value cookie.opts)] := by
  rw [setCookie] at accepted
  split at accepted
  next => cases accepted
  next valid =>
    refine ⟨accepted_of_valid (by simpa using valid), ?_⟩
    cases inserted : insert fields (cookieStr cookie.name cookie.value cookie.opts) with
    | error exception =>
        rw [inserted] at accepted
        cases accepted
    | ok written =>
        rw [inserted] at accepted
        cases accepted
        exact inserts.appends _ _ _ inserted

/-- Accepted calls write one field each. -/
theorem setCookies_ok (inserts : Inserts insert)
    (accepted : setCookies insert fields cookies = .ok later) :
    (∀ cookie ∈ cookies, Accepted cookie) ∧ later = fields ++ cookies.map fun cookie =>
      Bytes.trim (Bytes.text " \t") (cookieStr cookie.name cookie.value cookie.opts) := by
  induction cookies generalizing fields with
  | nil =>
      cases accepted
      exact ⟨List.forall_mem_nil _, (List.append_nil _).symm⟩
  | cons cookie cookies ih =>
      rw [setCookies, List.foldlM_cons] at accepted
      rcases bind_eq_ok.mp accepted with ⟨middle, first, others⟩
      rcases setCookie_ok inserts first with ⟨valid, rfl⟩
      rcases ih others with ⟨rest, rfl⟩
      refine ⟨List.forall_mem_cons.mpr ⟨valid, rest⟩, ?_⟩
      rw [List.append_assoc, List.singleton_append, List.map_cons]

section Optional

variable {part : Bytes} {condition : Prop} [Decidable condition]

/-- A part that may be left out is written behind a separator. -/
theorem flatMap_optional : ((if condition then [part] else []).map (Bytes.char ' ' :: ·)).flatMap
    ([Bytes.char ';'] ++ ·) = if condition then Bytes.text "; " ++ part else [] := by
  split
  · exact List.append_nil _
  · rfl

theorem forall_optional {P : Bytes → Prop} (holds : P part) :
    ∀ other ∈ if condition then [part] else [], P other := by
  split
  · exact List.forall_mem_singleton.mpr holds
  · exact List.forall_mem_nil P

end Optional

/-- A field is the cookie and its attributes, joined. -/
theorem cookieStr_eq : cookieStr cookie.name cookie.value cookie.opts =
    [Bytes.char ';'].intercalate
      (cookie.pair :: cookie.opts.attributes.map (Bytes.char ' ' :: ·)) := by
  rw [Bytes.intercalate_cons, cookieStr, CookieOptions.attributes, ResponseCookie.pair]
  simp only [List.map_append, List.flatMap_append, flatMap_optional, ← List.append_assoc]
  simp [Bytes.text]

theorem mem_signedDecimal {number : Int} {byte : UInt8}
    (member : byte ∈ Bytes.signedDecimal number) :
    byte = Bytes.char '-' ∨ Bytes.isDigit byte = true := by
  rw [Bytes.signedDecimal] at member
  split at member
  · rcases List.mem_cons.mp member with rfl | digit
    · exact .inl rfl
    · exact .inr (Bytes.isDigit_of_mem_decimal digit)
  · exact .inr (Bytes.isDigit_of_mem_decimal member)

/-- The bytes of an attribute: its name, a number, or a component of the options. -/
theorem forall_attributes {P : UInt8 → Prop}
    (letters : ∀ byte ∈ Bytes.text "Max-Age=Path=Domain=SecureHttpOnlySameSite=", P byte)
    (digits : ∀ byte, Bytes.isDigit byte = true → P byte)
    (components : ∀ bytes ∈ [opts.path, opts.domain, opts.sameSite], ∀ byte ∈ bytes, P byte) :
    ∀ part ∈ opts.attributes, ∀ byte ∈ part, P byte := by
  have number : ∀ byte ∈ Bytes.signedDecimal opts.maxAge.toInt, P byte := by
    intro byte member
    rcases mem_signedDecimal member with rfl | digit
    · exact letters _ (by decide)
    · exact digits byte digit
  have named : ∀ name bytes : Bytes, (∀ byte ∈ name,
      byte ∈ Bytes.text "Max-Age=Path=Domain=SecureHttpOnlySameSite=") →
        (∀ byte ∈ bytes, P byte) → ∀ byte ∈ name ++ bytes, P byte := by
    intro name bytes known holds
    rw [List.forall_mem_append]
    exact ⟨fun byte member => letters byte (known byte member), holds⟩
  simp only [List.forall_mem_cons] at components
  rcases components with ⟨path, domain, sameSite, -⟩
  simp only [CookieOptions.attributes, List.forall_mem_append]
  refine ⟨⟨⟨⟨⟨?_, ?_⟩, ?_⟩, ?_⟩, ?_⟩, ?_⟩
  · exact forall_optional (named _ _ (List.all_iff_forall_prop.mp (by decide)) number)
  · exact forall_optional (named _ _ (List.all_iff_forall_prop.mp (by decide)) path)
  · exact forall_optional (named _ _ (List.all_iff_forall_prop.mp (by decide)) domain)
  · exact forall_optional fun byte member =>
      letters byte (List.all_iff_forall_prop.mp (by decide) byte member)
  · exact forall_optional fun byte member =>
      letters byte (List.all_iff_forall_prop.mp (by decide) byte member)
  · exact forall_optional (named _ _ (List.all_iff_forall_prop.mp (by decide)) sameSite)

/-- No part of an accepted cookie contains a separator or a control byte. -/
theorem Accepted.parts (accepted : Accepted cookie) :
    ∀ part ∈ cookie.pair :: cookie.opts.attributes.map (Bytes.char ' ' :: ·),
      ∀ byte ∈ part, byte ≠ Bytes.char ';' ∧ isControl byte = false := by
  have checked : ∀ bytes ∈ [cookie.name, cookie.value, cookie.opts.path, cookie.opts.domain,
      cookie.opts.sameSite], ∀ byte ∈ bytes,
        byte ≠ Bytes.char ';' ∧ isControl byte = false := by
    intro bytes component byte member
    refine ⟨?_, accepted.noControl bytes component byte member⟩
    rintro rfl
    exact accepted.noSeparator bytes component member
  have digits : ∀ byte, Bytes.isDigit byte = true →
      byte ≠ Bytes.char ';' ∧ isControl byte = false := by
    intro byte digit
    rw [Bytes.isDigit, Bool.and_eq_true, decide_eq_true_eq, decide_eq_true_eq,
      UInt8.le_iff_toNat_le, UInt8.le_iff_toNat_le] at digit
    have bounds : 48 ≤ byte.toNat ∧ byte.toNat ≤ 57 := digit
    constructor
    · rintro rfl
      exact absurd bounds (by decide)
    · rw [isControl, Bool.or_eq_false_iff, decide_eq_false_iff_not, UInt8.lt_iff_toNat_lt,
        beq_eq_false_iff_ne]
      refine ⟨Nat.not_lt.mpr (Nat.le_trans (by decide) bounds.1), ?_⟩
      rintro rfl
      exact absurd bounds (by decide)
  rw [List.forall_mem_cons]
  constructor
  · simp only [List.forall_mem_cons] at checked
    rw [ResponseCookie.pair, List.forall_mem_append, List.forall_mem_cons]
    exact ⟨checked.1, by decide, checked.2.1⟩
  · intro part member byte inside
    rcases List.mem_map.mp member with ⟨attr, written, rfl⟩
    rcases List.mem_cons.mp inside with rfl | inside
    · decide
    · refine forall_attributes (List.all_iff_forall_prop.mp (by decide)) digits ?_ attr written
        byte inside
      intro bytes component
      exact checked bytes (by simp_all)

theorem Accepted.split (accepted : Accepted cookie) :
    (cookieStr cookie.name cookie.value cookie.opts).splitOn (Bytes.char ';') =
      cookie.pair :: cookie.opts.attributes.map (Bytes.char ' ' :: ·) := by
  rw [cookieStr_eq, List.splitOn_intercalate]
  · intro part member present
    exact (accepted.parts part member _ present).1 rfl
  · exact List.cons_ne_nil _ _

theorem attributes_ne_nil : ∀ part ∈ opts.attributes, part ≠ [] := by
  simp only [CookieOptions.attributes, List.forall_mem_append]
  refine ⟨⟨⟨⟨⟨?_, ?_⟩, ?_⟩, ?_⟩, ?_⟩, ?_⟩ <;> exact forall_optional nofun

/-- A field ends as its last part does. -/
theorem getLast?_cookieStr : (cookieStr cookie.name cookie.value cookie.opts).getLast? =
    (cookie.opts.attributes.getLast?.getD cookie.pair).getLast? := by
  have named : ∀ part ∈ cookie.opts.attributes, part ≠ [] := attributes_ne_nil
  rw [cookieStr_eq, Bytes.intercalate_cons]
  rcases List.eq_nil_or_concat cookie.opts.attributes with none | ⟨attrs, last, same⟩
  · rw [none]
    exact congrArg _ (List.append_nil _)
  · rw [same] at named ⊢
    rw [List.concat_eq_append] at named ⊢
    have present : last ≠ [] := named last List.mem_concat_self
    have ending : (cookie.pair ++ ((attrs ++ [last]).map (Bytes.char ' ' :: ·)).flatMap
        ([Bytes.char ';'] ++ ·)) = cookie.pair ++ (attrs.map (Bytes.char ' ' :: ·)).flatMap
          ([Bytes.char ';'] ++ ·) ++ Bytes.text "; " ++ last := by
      simp [List.flatMap_append, Bytes.text]
    rw [ending, List.getLast?_append_of_ne_nil _ present, List.getLast?_concat]
    rfl

theorem Accepted.clean (accepted : Accepted cookie) :
    ∀ byte ∈ cookieStr cookie.name cookie.value cookie.opts, isControl byte = false := by
  intro byte member
  rw [cookieStr_eq, Bytes.intercalate_cons, List.mem_append, List.mem_flatMap] at member
  rcases member with inPair | ⟨part, written, inside⟩
  · exact (accepted.parts _ List.mem_cons_self byte inPair).2
  · rcases List.mem_cons.mp inside with rfl | inside
    · decide
    · exact (accepted.parts part (List.mem_cons_of_mem _ written) byte inside).2

end Written

section Recovered

variable {cookie first : ResponseCookie} {cookies later : List ResponseCookie} {name : Bytes}

/-- The segments of the field that brings cookies back. -/
theorem segments_cookieField (accepted : ∀ cookie ∈ first :: later, Accepted cookie) :
    segments (cookieField (first :: later)) =
      first.pair :: later.map fun cookie => skipBlanks cookie.pair := by
  have free : ∀ cookie ∈ first :: later, Bytes.char ';' ∉ cookie.pair := by
    intro cookie member present
    exact ((accepted cookie member).parts _ List.mem_cons_self _ present).1 rfl
  have joined : cookieField (first :: later) = [Bytes.char ';'].intercalate
      (first.pair :: later.map fun cookie => Bytes.char ' ' :: cookie.pair) := by
    rw [cookieField, List.map_cons, Bytes.intercalate_cons, Bytes.intercalate_cons,
      List.flatMap_map, List.flatMap_map]
    rfl
  rw [segments, Bytes.segments, joined, List.splitOn_intercalate]
  · exact congrArg (List.cons _) List.map_map
  · rw [List.forall_mem_cons]
    refine ⟨free first List.mem_cons_self, ?_⟩
    intro part member present
    rcases List.mem_map.mp member with ⟨cookie, stands, rfl⟩
    rcases List.mem_cons.mp present with same | inside
    · exact absurd same (by decide)
    · exact free cookie (List.mem_cons_of_mem _ stands) inside
  · exact List.cons_ne_nil _ _

theorem skipBlanks_pair :
    skipBlanks cookie.pair = skipBlanks cookie.name ++ Bytes.char '=' :: cookie.value := by
  rw [ResponseCookie.pair]
  induction cookie.name with
  | nil => rfl
  | cons byte name ih =>
      rw [List.cons_append, skipBlanks, skipBlanks, List.dropWhile_cons, List.dropWhile_cons]
      split
      · exact ih
      · rfl

theorem not_mem_skipBlanks (accepted : Accepted cookie) :
    Bytes.char '=' ∉ skipBlanks cookie.name := by
  intro present
  exact accepted.noEquals ((Bytes.mem_dropWhile (by decide)).mp present)

/-- What is parsed from the field: the first cookie, and the others without the blanks at the
start of their names. -/
theorem parseCookies_cookieField (accepted : ∀ cookie ∈ first :: later, Accepted cookie) :
    (ofRequest (some (cookieField (first :: later)))).parseCookies.cookies =
      ((first.name, first.value) :: later.map fun cookie =>
        (skipBlanks cookie.name, cookie.value)).foldl .assign .empty := by
  have others : ∀ cookie ∈ later, binding (skipBlanks cookie.pair) =
      some (skipBlanks cookie.name, cookie.value) := by
    intro cookie member
    rw [skipBlanks_pair]
    exact binding_append (not_mem_skipBlanks (accepted cookie (List.mem_cons_of_mem _ member)))
  have bound : bindings (cookieField (first :: later)) =
      (first.name, first.value) :: later.map fun cookie =>
        (skipBlanks cookie.name, cookie.value) := by
    have own : binding first.pair = some (first.name, first.value) :=
      binding_append (accepted first List.mem_cons_self).noEquals
    rw [bindings, segments_cookieField accepted, List.filterMap_cons_some own, List.filterMap_map,
      ← List.filterMap_eq_map]
    exact congrArg _ (List.filterMap_congr others)
  have ordered : Ordered (segments (cookieField (first :: later))) := by
    rw [segments_cookieField accepted]
    refine List.pairwise_of_forall_mem_list ?_
    intro segment member _ _ absent
    refine absurd ?_ absent
    rcases List.mem_cons.mp member with rfl | behind
    · exact List.mem_append_right _ List.mem_cons_self
    · rcases List.mem_map.mp behind with ⟨cookie, stands, rfl⟩
      rw [skipBlanks_pair]
      exact List.mem_append_right _ List.mem_cons_self
  rw [← bound]
  exact parseCookiesFrom_of_ordered ordered

theorem skipBlanks_eq_self (visible : name.head? ≠ some (Bytes.char ' ')) :
    skipBlanks name = name := by
  cases name with
  | nil => rfl
  | cons byte name =>
      rw [skipBlanks, List.dropWhile_cons, if_neg]
      rintro same
      exact visible (congrArg some (beq_iff_eq.mp same))

/-- Cookies with distinct names come back as they are if no name but the first one starts with a
blank. -/
theorem find?_cookieField (accepted : ∀ cookie ∈ cookies, Accepted cookie)
    (distinct : (cookies.map ResponseCookie.name).Nodup)
    (visible : ∀ cookie ∈ cookies.tail, cookie.name.head? ≠ some (Bytes.char ' ')) :
    (ofRequest (some (cookieField cookies))).parseCookies.cookies.find? name =
      (cookies.map fun cookie => (cookie.name, cookie.value)).find? fun entry =>
        entry.1 = name := by
  cases cookies with
  | nil =>
      have parsed : (ofRequest (some (cookieField []))).parseCookies.cookies = .empty := by
        change parseCookiesFrom .empty [] = .empty
        rw [parseCookiesFrom, dif_pos rfl]
      rw [parsed]
      rfl
  | cons first later =>
      have kept : (later.map fun cookie => (skipBlanks cookie.name, cookie.value)) =
          later.map fun cookie => (cookie.name, cookie.value) := by
        apply List.map_congr_left
        intro cookie member
        rw [skipBlanks_eq_self (visible cookie member)]
      rw [parseCookies_cookieField accepted, kept]
      apply InsertionMap.find?_foldl_assign_of_nodup
      rw [← List.map_cons (f := fun cookie : ResponseCookie => (cookie.name, cookie.value)),
        List.map_map]
      exact distinct

end Recovered

section Main

variable {cookie : ResponseCookie} {cookies : List ResponseCookie} {fields : List Bytes}
variable {Exception : Type} {insert : List Bytes → Bytes → Except Exception (List Bytes)}

/-- The value of a field is left as it is exactly if it has no blank at its ends: tabs are not
accepted. -/
theorem Accepted.trim_eq_self_iff (accepted : Accepted cookie) :
    Bytes.trim (Bytes.text " \t") (cookieStr cookie.name cookie.value cookie.opts) =
      cookieStr cookie.name cookie.value cookie.opts ↔ cookie.Unpadded := by
  have blank : ∀ byte ∈ cookieStr cookie.name cookie.value cookie.opts,
      byte ∉ Bytes.text " \t" ↔ byte ≠ Bytes.char ' ' := by
    intro byte member
    have printed := accepted.clean byte member
    refine not_congr ⟨fun inside => ?_, ?_⟩
    · rcases List.mem_cons.mp inside with same | tab
      · exact same
      · rw [List.mem_singleton.mp tab] at printed
        cases printed
    · rintro rfl
      decide
  have front : (cookieStr cookie.name cookie.value cookie.opts).head? = cookie.name.head? := by
    rw [cookieStr_eq, Bytes.intercalate_cons, ResponseCookie.pair]
    cases given : cookie.name with
    | nil => exact absurd given accepted.nonempty
    | cons byte name => rfl
  rw [Bytes.trim_eq_self_iff, ResponseCookie.Unpadded, ← front, ← getLast?_cookieStr]
  refine and_congr ⟨fun free same => ?_, fun free byte first => ?_⟩
    ⟨fun free same => ?_, fun free byte last => ?_⟩
  · exact free _ same (by decide)
  · exact (blank byte (List.mem_of_mem_head? first)).mpr fun same => free (same ▸ first)
  · exact free _ same (by decide)
  · exact (blank byte (List.mem_of_getLast? last)).mpr fun same => free (same ▸ last)

/-- The parts of a field are the cookie and its attributes exactly if its value is left as it
is. -/
theorem Accepted.split_trim (accepted : Accepted cookie) :
    (Bytes.trim (Bytes.text " \t") (cookieStr cookie.name cookie.value cookie.opts)).splitOn
        (Bytes.char ';') = cookie.pair :: cookie.opts.attributes.map (Bytes.char ' ' :: ·) ↔
      cookie.Unpadded := by
  rw [← accepted.trim_eq_self_iff, ← accepted.split]
  constructor
  · intro same
    have joined := congrArg [Bytes.char ';'].intercalate same
    rwa [List.intercalate_splitOn, List.intercalate_splitOn] at joined
  · intro same
    rw [same]

end Main

/-- A call with the default options. -/
def plain (name value : String) : ResponseCookie := ⟨Bytes.text name, Bytes.text value, {}⟩

/-- An insertion that never fails. -/
def insertTrimmed (fields : List Bytes) (value : Bytes) : Except Empty (List Bytes) :=
  .ok (fields ++ [Bytes.trim (Bytes.text " \t") value])

theorem inserts_insertTrimmed : Inserts insertTrimmed := by
  constructor
  intro fields value later inserted
  cases inserted
  rfl

end Wan.Web.Context
