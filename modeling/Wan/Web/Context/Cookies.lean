import Wan.Library.Positions
import Wan.Web.Context.Model

/-!
# The cookies of a request

The loop looks for the next `=` and for the next `;` in all of the text that is left.  A
segment without `=` is therefore taken for the start of a name, which goes on to the `=` of
a later segment.
-/

namespace Wan.Web.Context

open Wan.Library

/-- The segments of a `Cookie` value. -/
abbrev segments (header : Bytes) : List Bytes :=
  Bytes.segments (Bytes.char ';') (Bytes.char ' ') header

/-- What a segment binds: the name up to the first `=` and the value behind it. -/
def binding (segment : Bytes) : Option (Bytes × Bytes) :=
  (segment.idxOf? (Bytes.char '=')).map fun position =>
    (segment.take position, segment.drop (position + 1))

/-- The bindings of a `Cookie` value. -/
def bindings (header : Bytes) : List (Bytes × Bytes) := (segments header).filterMap binding

/-- The cookies are the bindings of the value, where the last one of a name counts, and none
of them contains a separator. -/
structure Exact (header : Bytes) (cookies : Cookies) : Prop where
  bound : ∀ name, cookies.find? name = (bindings header).reverse.find? fun entry => entry.1 = name
  clean : ∀ entry ∈ cookies.toList, Bytes.char ';' ∉ entry.1 ∧ Bytes.char ';' ∉ entry.2

/-- No segment without `=` comes before one with `=`. -/
def Ordered (segments : List Bytes) : Prop :=
  segments.Pairwise fun earlier later => Bytes.char '=' ∉ earlier → Bytes.char '=' ∉ later

instance (segments : List Bytes) : Decidable (Ordered segments) :=
  inferInstanceAs (Decidable (List.Pairwise _ _))

section Segment

variable {name value segment header rest : Bytes} {entry : Bytes × Bytes}

theorem binding_append (free : Bytes.char '=' ∉ name) :
    binding (name ++ Bytes.char '=' :: value) = some (name, value) := by
  rw [binding, idxOf?_append_cons free]
  simp

theorem binding_eq_none : binding segment = none ↔ Bytes.char '=' ∉ segment := by
  rw [binding, Option.map_eq_none_iff, List.idxOf?_eq_none_iff]

/-- The parts of a binding come from the segment. -/
theorem binding_subset (bound : binding segment = some entry) :
    entry.1 ⊆ segment ∧ entry.2 ⊆ segment := by
  rcases Option.map_eq_some_iff.mp bound with ⟨position, -, rfl⟩
  exact ⟨List.take_subset .., List.drop_subset ..⟩

theorem bindings_eq_nil (free : Bytes.char '=' ∉ header) : bindings header = [] := by
  rw [bindings, List.filterMap_eq_nil_iff]
  intro segment member
  rw [binding_eq_none]
  intro present
  exact free ((Bytes.mem_iff_segments (by decide) (by decide)).mpr ⟨segment, member, present⟩)

theorem segments_last (free : Bytes.char ';' ∉ segment) : segments segment = [segment] :=
  Bytes.segments_of_not_mem free

theorem segments_cons (free : Bytes.char ';' ∉ segment) :
    segments (segment ++ Bytes.char ';' :: rest) = segment :: segments (skipBlanks rest) :=
  Bytes.segments_append (by decide) free

theorem bindings_last (free : Bytes.char ';' ∉ segment) :
    bindings segment = (binding segment).toList := by
  rw [bindings, segments_last free, List.filterMap_cons]
  cases binding segment <;> rfl

theorem bindings_cons (free : Bytes.char ';' ∉ segment) :
    bindings (segment ++ Bytes.char ';' :: rest) =
      (binding segment).toList ++ bindings (skipBlanks rest) := by
  rw [bindings, segments_cons free, List.filterMap_cons, bindings]
  cases binding segment <;> rfl

/-- The segments behind a separator show whether the text behind it has an `=`. -/
theorem mem_iff_segments_skipBlanks : Bytes.char '=' ∈ rest ↔
    ∃ segment ∈ segments (skipBlanks rest), Bytes.char '=' ∈ segment := by
  rw [← Bytes.mem_iff_segments (by decide) (by decide)]
  exact (Bytes.mem_dropWhile (by decide)).symm

theorem not_mem_of_mem_bindings (member : entry ∈ bindings header) :
    Bytes.char ';' ∉ entry.1 ∧ Bytes.char ';' ∉ entry.2 := by
  rcases List.mem_filterMap.mp member with ⟨segment, stands, bound⟩
  have free := Bytes.not_mem_of_mem_segments stands
  have parts := binding_subset bound
  exact ⟨fun present => free (parts.1 present), fun present => free (parts.2 present)⟩

/-- A segment without `=` must be followed by such segments only. -/
theorem ordered_cons_of_not_mem {later : List Bytes} (free : Bytes.char '=' ∉ segment) :
    Ordered (segment :: later) ↔ ∀ other ∈ later, Bytes.char '=' ∉ other := by
  rw [Ordered, List.pairwise_cons]
  constructor
  · intro ordered other member
    exact ordered.1 other member free
  · intro none
    refine ⟨fun other member _ => none other member, List.pairwise_of_forall_mem_list ?_⟩
    intro _ _ other member _
    exact none other member

theorem ordered_cons_of_mem {later : List Bytes} (present : Bytes.char '=' ∈ segment) :
    Ordered (segment :: later) ↔ Ordered later := by
  rw [Ordered, List.pairwise_cons]
  exact and_iff_right fun _ _ free => absurd present free

end Segment

section Loop

variable {cookies : Cookies} {cookieString name value segment rest : Bytes}

/-- Every text is a last segment, or a segment with a separator and the text behind it. -/
@[elab_as_elim]
theorem segments_induction {motive : Bytes → Prop}
    (last : ∀ segment, Bytes.char ';' ∉ segment → motive segment)
    (cons : ∀ segment rest, Bytes.char ';' ∉ segment → motive (skipBlanks rest) →
      motive (segment ++ Bytes.char ';' :: rest))
    (cookieString : Bytes) : motive cookieString := by
  induction count : cookieString.length using Nat.strong_induction_on
    generalizing cookieString with
  | _ count ih =>
      by_cases separated : Bytes.char ';' ∈ cookieString
      · rcases List.eq_append_cons_of_mem separated with ⟨segment, rest, rfl, free⟩
        have nonempty : segment ++ Bytes.char ';' :: rest ≠ [] := by simp
        have shorter := length_skipBlanks_lt nonempty segment.length
        rw [drop_behind, count] at shorter
        exact cons segment rest free (ih _ shorter (skipBlanks rest) rfl)
      · exact last cookieString separated

theorem parseCookiesFrom_of_not_mem (free : Bytes.char '=' ∉ cookieString) :
    parseCookiesFrom cookies cookieString = cookies := by
  rw [parseCookiesFrom, List.idxOf?_eq_none_iff.mpr free]
  split <;> rfl

/-- A last segment with `=` is bound. -/
theorem parseCookiesFrom_last (free : Bytes.char '=' ∉ name)
    (last : Bytes.char ';' ∉ name ++ Bytes.char '=' :: value) :
    parseCookiesFrom cookies (name ++ Bytes.char '=' :: value) = cookies.assign (name, value) := by
  rw [parseCookiesFrom, dif_neg (by simp), idxOf?_append_cons free,
    List.idxOf?_eq_none_iff.mpr last]
  simp [substr, sizeSub]

/-- The first segment is bound when it has an `=`. -/
theorem parseCookiesFrom_cons (free : Bytes.char '=' ∉ name)
    (clean : Bytes.char ';' ∉ name ++ Bytes.char '=' :: value) :
    parseCookiesFrom cookies ((name ++ Bytes.char '=' :: value) ++ Bytes.char ';' :: rest) =
      parseCookiesFrom (cookies.assign (name, value)) (skipBlanks rest) := by
  have equals : ((name ++ Bytes.char '=' :: value) ++ Bytes.char ';' :: rest).idxOf?
      (Bytes.char '=') = some name.length := by
    rw [List.append_assoc]
    exact idxOf?_append_cons free
  rw [parseCookiesFrom, dif_neg (by simp), equals, idxOf?_append_cons clean]
  simp only [drop_behind]
  simp [substr, sizeSub]

variable (cookies) in
/-- Before a segment with `=`, one without it becomes part of a name. -/
theorem parseCookiesFrom_cons_of_not_mem (free : Bytes.char '=' ∉ segment)
    (clean : Bytes.char ';' ∉ segment) (present : Bytes.char '=' ∈ rest) :
    ∃ entry, Bytes.char ';' ∈ entry.1 ∧
      parseCookiesFrom cookies (segment ++ Bytes.char ';' :: rest) =
        parseCookiesFrom (cookies.assign entry) (skipBlanks rest) := by
  rcases List.eq_append_cons_of_mem present with ⟨front, back, rfl, absent⟩
  have ahead : Bytes.char '=' ∉ segment ++ Bytes.char ';' :: front := by
    rw [List.mem_append, List.mem_cons]
    rintro (inside | same | inside)
    · exact free inside
    · exact absurd same (by decide)
    · exact absent inside
  have equals : (segment ++ Bytes.char ';' :: (front ++ Bytes.char '=' :: back)).idxOf?
      (Bytes.char '=') = some (segment ++ Bytes.char ';' :: front).length := by
    rw [← List.cons_append, ← List.append_assoc]
    exact idxOf?_append_cons ahead
  rw [parseCookiesFrom, dif_neg (by simp), equals, idxOf?_append_cons clean]
  have name : substr (segment ++ Bytes.char ';' :: (front ++ Bytes.char '=' :: back)) 0
      (segment ++ Bytes.char ';' :: front).length = segment ++ Bytes.char ';' :: front := by
    rw [substr, List.drop_zero, ← List.cons_append, ← List.append_assoc, List.take_left]
  simp only [drop_behind, name]
  exact ⟨_, List.mem_append_right _ List.mem_cons_self, rfl⟩

theorem isSome_assign {entry : Bytes × Bytes} (stored : (cookies.find? name).isSome) :
    ((cookies.assign entry).find? name).isSome := by
  rw [InsertionMap.find?_assign]
  split
  · rfl
  · exact stored

variable (cookieString) in
/-- Parsing goes on with the names that are there. -/
theorem isSome_parseCookiesFrom (stored : (cookies.find? name).isSome) :
    ((parseCookiesFrom cookies cookieString).find? name).isSome := by
  fun_induction parseCookiesFrom cookies cookieString with
  | case1 => exact stored
  | case2 => exact stored
  | case3 cookies cookieString _ _ _ _ _ _ _ _ _ ih => exact ih (isSome_assign stored)
  | case4 => exact isSome_assign stored

/-- The cookies of a value whose segments are ordered are its bindings. -/
theorem parseCookiesFrom_of_ordered (ordered : Ordered (segments cookieString)) :
    parseCookiesFrom cookies cookieString = (bindings cookieString).foldl .assign cookies := by
  induction cookieString using segments_induction generalizing cookies with
  | last segment clean =>
      rw [bindings_last clean]
      by_cases present : Bytes.char '=' ∈ segment
      · rcases List.eq_append_cons_of_mem present with ⟨name, value, rfl, free⟩
        rw [parseCookiesFrom_last free clean, binding_append free]
        rfl
      · rw [parseCookiesFrom_of_not_mem present, binding_eq_none.mpr present]
        rfl
  | cons segment rest clean ih =>
      rw [segments_cons clean] at ordered
      by_cases present : Bytes.char '=' ∈ segment
      · rw [ordered_cons_of_mem present] at ordered
        rcases List.eq_append_cons_of_mem present with ⟨name, value, rfl, free⟩
        rw [parseCookiesFrom_cons free clean, ih ordered, bindings_cons clean, binding_append free]
        rfl
      · rw [ordered_cons_of_not_mem present] at ordered
        have absent : Bytes.char '=' ∉ segment ++ Bytes.char ';' :: rest := by
          rw [List.mem_append, List.mem_cons]
          rintro (inside | same | inside)
          · exact present inside
          · exact absurd same (by decide)
          · rcases mem_iff_segments_skipBlanks.mp inside with ⟨other, member, inside⟩
            exact ordered other member inside
        rw [parseCookiesFrom_of_not_mem absent, bindings_eq_nil absent]
        rfl

variable (cookies) in
/-- When a segment without `=` comes before one with `=`, some name contains a separator. -/
theorem exists_separator_of_not_ordered (unordered : ¬Ordered (segments cookieString)) :
    ∃ entry ∈ (parseCookiesFrom cookies cookieString).toList, Bytes.char ';' ∈ entry.1 := by
  induction cookieString using segments_induction generalizing cookies with
  | last segment clean =>
      rw [segments_last clean] at unordered
      exact absurd (List.pairwise_singleton ..) unordered
  | cons segment rest clean ih =>
      rw [segments_cons clean] at unordered
      by_cases present : Bytes.char '=' ∈ segment
      · rw [ordered_cons_of_mem present] at unordered
        rcases List.eq_append_cons_of_mem present with ⟨name, value, rfl, free⟩
        rw [parseCookiesFrom_cons free clean]
        exact ih _ unordered
      · rw [ordered_cons_of_not_mem present] at unordered
        have ahead : Bytes.char '=' ∈ rest := by
          rw [mem_iff_segments_skipBlanks]
          simpa using unordered
        rcases parseCookiesFrom_cons_of_not_mem cookies present clean ahead with
          ⟨entry, separated, same⟩
        have stored : ((cookies.assign entry).find? entry.1).isSome := by
          rw [InsertionMap.find?_assign, if_pos rfl]
          rfl
        rcases Option.isSome_iff_exists.mp
          (isSome_parseCookiesFrom (skipBlanks rest) stored) with ⟨kept, found⟩
        rw [same]
        refine ⟨kept, InsertionMap.mem_of_find? found, ?_⟩
        rw [InsertionMap.key_of_find? found]
        exact separated

end Loop

/-- The header is parsed once. -/
theorem parseCookies_parseCookies (context : Context) :
    context.parseCookies.parseCookies = context.parseCookies := by
  have parsed : context.parseCookies.cookiesParsed := by
    rw [parseCookies]
    split
    · assumption
    · split <;> rfl
  exact if_pos parsed

/-- The cookies of a request are exact if and only if its segments are ordered. -/
theorem exact_parseCookies_iff (header : Bytes) :
    Exact header (ofRequest (some header)).parseCookies.cookies ↔ Ordered (segments header) := by
  have parsed : (ofRequest (some header)).parseCookies.cookies =
      parseCookiesFrom .empty header := rfl
  rw [parsed]
  constructor
  · intro exact
    by_contra unordered
    rcases exists_separator_of_not_ordered .empty unordered with ⟨entry, stored, separated⟩
    exact (exact.clean entry stored).1 separated
  · intro ordered
    rw [parseCookiesFrom_of_ordered ordered]
    have bound : ∀ name, ((bindings header).foldl .assign (.empty : Cookies)).find? name =
        (bindings header).reverse.find? fun entry => entry.1 = name := by
      intro name
      rw [InsertionMap.find?_foldl_assign]
      exact Option.or_none
    refine ⟨bound, ?_⟩
    intro entry stored
    have found := InsertionMap.find?_of_mem stored
    rw [bound] at found
    exact not_mem_of_mem_bindings (List.mem_reverse.mp (List.mem_of_find?_eq_some found))

/-- `a; b=c` makes a cookie with the name `a; b`. -/
theorem not_exact_parseCookies_blank_name :
    ¬Exact (Bytes.text "a; b=c") (ofRequest (some (Bytes.text "a; b=c"))).parseCookies.cookies := by
  intro exact
  have unordered : ¬Ordered (segments (Bytes.text "a; b=c")) := by decide
  rcases exists_separator_of_not_ordered .empty unordered with ⟨entry, stored, separated⟩
  exact (exact.clean entry stored).1 separated


end Wan.Web.Context
