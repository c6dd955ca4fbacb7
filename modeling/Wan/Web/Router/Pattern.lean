import Mathlib.Data.List.Nodup
import Wan.Web.Router.Model

/-!
# Route patterns and what they match

A pattern that `validate` accepts is a list of tokens: literal bytes and parameters.
`captures` says what it means for tokens to match a path, without any tree.  The rest
of the module relates the two walks of `Insert` over a pattern to its tokens.
-/

namespace Wan.Web

open Wan.Library

/-- A piece of a route pattern. -/
inductive Token where
  | literal (byte : UInt8)
  | param (type : ParamType) (name : Bytes)
  deriving DecidableEq, Repr

namespace Token

/-- The names of the parameters among tokens. -/
def names : List Token → List Bytes
  | [] => []
  | .literal _ :: tokens => names tokens
  | .param _ name :: tokens => name :: names tokens

/-- Whether a token is a parameter. -/
def isParam : Token → Bool
  | .literal _ => false
  | .param _ _ => true

/-- Two parameters that differ either in their type or in their name, but not in both. -/
def Conflict : Token → Token → Prop
  | .param type name, .param otherType otherName =>
      (type = otherType ∧ name ≠ otherName) ∨ (type ≠ otherType ∧ name = otherName)
  | _, _ => False

instance : DecidableRel Conflict := by
  intro first second
  cases first <;> cases second <;> unfold Conflict <;> infer_instance

/-- Equal tokens, or parameters that agree in their type or in their name. -/
def Clash (first second : Token) : Prop := first = second ∨ Conflict first second

/-- Patterns that come apart at conflicting parameters. -/
def Conflicting (first second : List Token) : Prop :=
  ∃ stem left right rest rest', first = stem ++ left :: rest ∧ second = stem ++ right :: rest' ∧
    Conflict left right

theorem Conflict.ne {first second : Token} (conflict : Conflict first second) : first ≠ second := by
  intro same
  subst same
  cases first <;> simp [Conflict] at conflict

theorem Conflict.symm {first second : Token} (conflict : Conflict first second) :
    Conflict second first := by
  cases first <;> cases second <;> simp_all [Conflict, eq_comm]

theorem Conflicting.symm {first second : List Token} (conflicting : Conflicting first second) :
    Conflicting second first := by
  rcases conflicting with ⟨stem, left, right, rest, rest', isFirst, isSecond, conflict⟩
  exact ⟨stem, right, left, rest', rest, isSecond, isFirst, conflict.symm⟩

theorem Clash.symm {first second : Token} (clash : Clash first second) : Clash second first :=
  clash.imp Eq.symm Conflict.symm

@[simp] theorem names_append (first second : List Token) :
    names (first ++ second) = names first ++ names second := by
  induction first with
  | nil => rfl
  | cons token first ih => cases token <;> simp [names, ih]

@[simp] theorem names_literals (bytes : Bytes) : names (bytes.map .literal) = [] := by
  induction bytes with
  | nil => rfl
  | cons byte bytes ih => exact ih

end Token

section Captures

/-- What a parameter takes from the start of a path, and what it leaves: a string
parameter the maximal non-empty run without `/`, an integer parameter the maximal
non-empty run of digits, a path parameter the non-empty remainder. -/
def capture (type : ParamType) (path : Bytes) : Option (Bytes × Bytes) :=
  let taken := match type with
    | .none => []
    | .intParam => path.takeWhile Bytes.isDigit
    | .stringParam => path.takeWhile (· ≠ Bytes.char '/')
    | .pathParam => path
  if taken = [] then none else some (taken, path.drop taken.length)

/-- The names and values with which tokens match the whole path, if they do. -/
def captures : List Token → Bytes → Option (List (Bytes × Bytes))
  | [], path => if path = [] then some [] else none
  | .literal byte :: tokens, path =>
      if path.head? = some byte then captures tokens path.tail else none
  | .param type name :: tokens, path => do
      let (value, path) ← capture type path
      let captured ← captures tokens path
      return (name, value) :: captured

/-- Parameters as a map. -/
def record (captured : List (Bytes × Bytes)) (params : Params) : Params :=
  captured.foldl (fun params binding => Function.update params binding.1 (some binding.2)) params

variable {tokens : List Token} {path rest bytes : Bytes} {captured : List (Bytes × Bytes)}

/-- Only the empty list of tokens matches the empty path. -/
theorem captures_nil (matched : captures tokens [] = some captured) :
    tokens = [] ∧ captured = [] := by
  cases tokens with
  | nil =>
      rw [captures, if_pos rfl] at matched
      exact ⟨rfl, (Option.some.inj matched).symm⟩
  | cons token tokens =>
      cases token with
      | literal byte => simp [captures] at matched
      | param type name => cases type <;> simp [captures, capture] at matched

/-- Literal bytes match themselves. -/
theorem captures_literals : captures (bytes.map .literal ++ tokens) (bytes ++ path) =
    captures tokens path := by
  induction bytes with
  | nil => rfl
  | cons byte bytes ih =>
      rw [List.map_cons, List.cons_append, captures, List.cons_append, List.head?_cons, if_pos rfl,
        List.tail_cons, ih]

/-- Literal bytes match nothing but themselves. -/
theorem captures_literals_of_not (different : ¬bytes <+: path) :
    captures (bytes.map .literal ++ tokens) path = none := by
  induction bytes generalizing path with
  | nil => exact absurd (List.nil_prefix) different
  | cons byte bytes ih =>
      rw [List.map_cons, List.cons_append, captures]
      split
      · next start =>
        rcases path with _ | ⟨first, path⟩
        · simp at start
        · rw [List.head?_cons, Option.some.injEq] at start
          subst start
          apply ih
          intro inside
          exact different (List.cons_prefix_cons.mpr ⟨rfl, inside⟩)
      · rfl

theorem captures_param {type : ParamType} {name value : Bytes}
    (taken : capture type path = some (value, rest)) :
    captures (.param type name :: tokens) path =
      (captures tokens rest).map fun captured => (name, value) :: captured := by
  rw [captures, taken, Option.map_eq_bind]
  rfl

theorem captures_param_of_none {type : ParamType} {name : Bytes}
    (taken : capture type path = none) :
    captures (.param type name :: tokens) path = none := by
  rw [captures, taken]
  rfl

theorem capture_intParam : capture .intParam path =
    if path.takeWhile Bytes.isDigit = [] then none
    else some (path.takeWhile Bytes.isDigit, path.drop (path.takeWhile Bytes.isDigit).length) :=
  rfl

theorem capture_stringParam : capture .stringParam path =
    if path.takeWhile (· ≠ Bytes.char '/') = [] then none
    else some (path.takeWhile (· ≠ Bytes.char '/'),
      path.drop (path.takeWhile (· ≠ Bytes.char '/')).length) :=
  rfl

/-- What the source captures is what the parameter takes. -/
theorem capture_eq {type : ParamType} (path : Bytes) (isParam : type ≠ .none) :
    capture type path =
      if RadixTree.captureValue type path = [] then none
      else some (RadixTree.captureValue type path,
        path.drop (RadixTree.captureValue type path).length) := by
  cases type with
  | none => exact absurd rfl isParam
  | intParam =>
      have same : (fun byte => byte ≠ Bytes.char '/' &&
          (ParamType.intParam ≠ .intParam || Bytes.isDigit byte)) = Bytes.isDigit := by
        funext byte
        by_cases slash : byte = Bytes.char '/'
        · subst slash
          rfl
        · simp [slash]
      simp only [capture, RadixTree.captureValue, reduceCtorEq, if_false, same]
  | stringParam => simp [capture, RadixTree.captureValue]
  | pathParam => simp [capture, RadixTree.captureValue]

theorem record_cons (name value : Bytes) (params : Params) :
    record ((name, value) :: captured) params =
      record captured (Function.update params name (some value)) := rfl

/-- A map of captured parameters answers with the captured values. -/
theorem record_eq_lookup (distinct : (captured.map Prod.fst).Nodup) (params : Params)
    (name : Bytes) :
    record captured params name = (captured.lookup name).or (params name) := by
  induction captured generalizing params with
  | nil => rfl
  | cons binding captured ih =>
      rcases binding with ⟨key, value⟩
      rw [List.map_cons, List.nodup_cons] at distinct
      rw [record, List.foldl_cons, ← record, ih distinct.2]
      by_cases same : name = key
      · subst same
        have unbound : captured.lookup name = none := by
          rw [List.lookup_eq_none_iff]
          intro other member
          rw [bne_iff_ne]
          rintro equal
          exact distinct.1 (List.mem_map.mpr ⟨other, member, equal.symm⟩)
        simp [unbound]
      · have different : (name == key) = false := by simpa using same
        simp [List.lookup_cons, different, same]

/-- The captured names are those of the tokens. -/
theorem names_captures (matched : captures tokens path = some captured) :
    captured.map Prod.fst = Token.names tokens := by
  induction tokens generalizing path captured with
  | nil =>
      rw [captures] at matched
      split at matched
      · rw [← Option.some.inj matched]
        rfl
      · cases matched
  | cons token tokens ih =>
      cases token with
      | literal byte =>
          rw [captures] at matched
          split at matched
          · exact ih matched
          · cases matched
      | param type name =>
          rcases taken : capture type path with _ | ⟨value, rest⟩
          · rw [captures_param_of_none taken] at matched
            cases matched
          · rw [captures_param taken] at matched
            rcases Option.map_eq_some_iff.mp matched with ⟨later, more, rfl⟩
            rw [List.map_cons, Token.names, ih more]

end Captures

end Wan.Web
