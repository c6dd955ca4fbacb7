import Mathlib.Data.List.Chain
import Wan.Web.Router.Run

/-!
# Reaching routes

A string parameter takes everything up to the next `/` and an integer parameter all
digits.  A pattern that goes on with something that the parameter has taken already
cannot be matched by any path.
-/

namespace Wan.Web

open Wan.Library

namespace Token

/-- Whether the second token can match what the first one leaves. -/
def CanFollow : Token → Token → Prop
  | .param .stringParam _, .literal byte => byte = Bytes.char '/'
  | .param .stringParam _, .param type _ => type = .pathParam
  | .param .intParam _, .literal byte => Bytes.isDigit byte = false
  | .param .intParam _, .param type _ => type ≠ .intParam
  | _, _ => True

instance : DecidableRel CanFollow := fun first second =>
  match first, second with
  | .param .stringParam _, .literal byte => inferInstanceAs (Decidable (byte = Bytes.char '/'))
  | .param .stringParam _, .param type _ => inferInstanceAs (Decidable (type = .pathParam))
  | .param .intParam _, .literal byte => inferInstanceAs (Decidable (Bytes.isDigit byte = false))
  | .param .intParam _, .param type _ => inferInstanceAs (Decidable (type ≠ .intParam))
  | .literal _, _ | .param .none _, _ | .param .pathParam _, _ => isTrue trivial

/-- No parameter stands in the way of the token behind it. -/
def Unobstructed (tokens : List Token) : Prop := tokens.IsChain CanFollow

/-- A byte that a token matches. -/
def sample : Token → UInt8
  | .literal byte => byte
  | .param .intParam _ => Bytes.char '0'
  | .param .stringParam _ => Bytes.char 'a'
  | .param _ _ => Bytes.char '/'

end Token

section Matching

variable {type : ParamType} {name value path rest pattern : Bytes} {byte : UInt8}
  {token next : Token} {tokens : List Token}

/-- What a test takes from a path ends where the test fails. -/
theorem head_of_takeWhile {test : UInt8 → Bool}
    (start : (path.drop (path.takeWhile test).length).head? = some byte) :
    test byte = false := by
  induction path with
  | nil => cases start
  | cons first path ih =>
      rw [List.takeWhile_cons] at start
      split at start
      · exact ih start
      · next fails =>
        cases start
        exact Bool.not_eq_true _ ▸ fails

/-- A parameter leaves nothing that it would have taken. -/
theorem head_of_capture (taken : capture type path = some (value, rest))
    (start : rest.head? = some byte) :
    (type = .stringParam → byte = Bytes.char '/') ∧
      (type = .intParam → Bytes.isDigit byte = false) := by
  constructor
  · intro isString
    subst isString
    rw [capture_stringParam] at taken
    split at taken
    · cases taken
    · cases taken
      simpa using head_of_takeWhile start
  · intro isInt
    subst isInt
    rw [capture_intParam] at taken
    split at taken
    · cases taken
    · cases taken
      exact head_of_takeWhile start

/-- A parameter takes at least one byte that suits its type. -/
theorem start_of_capture (taken : capture type path ≠ none) :
    ∃ byte, path.head? = some byte ∧ (type = .stringParam → byte ≠ Bytes.char '/') ∧
      (type = .intParam → Bytes.isDigit byte = true) := by
  cases path with
  | nil => cases type <;> exact absurd rfl taken
  | cons first path =>
      refine ⟨first, rfl, ?_, ?_⟩
      · intro isString slash
        subst isString slash
        exact taken rfl
      · intro isInt
        subst isInt
        by_contra letter
        apply taken
        rw [capture_intParam, List.takeWhile_cons_of_neg letter, if_pos rfl]

/-- What a parameter leaves is matched by the tokens behind it. -/
theorem captures_param_ne_none (matched : captures (.param type name :: tokens) path ≠ none) :
    ∃ value rest, capture type path = some (value, rest) ∧ captures tokens rest ≠ none := by
  rcases taken : capture type path with _ | ⟨value, rest⟩
  · exact absurd (captures_param_of_none taken) matched
  · rw [captures_param taken, ne_eq, Option.map_eq_none_iff] at matched
    exact ⟨value, rest, rfl, matched⟩

/-- Whatever matches behind a parameter can follow it. -/
theorem canFollow_of_captures (taken : capture type path = some (value, rest))
    (matched : captures (next :: tokens) rest ≠ none) :
    Token.CanFollow (.param type name) next := by
  cases next with
  | literal byte =>
      have start : rest.head? = some byte := by
        by_contra different
        rw [captures, if_neg different] at matched
        exact matched rfl
      have leaves := head_of_capture taken start
      cases type with
      | stringParam => exact leaves.1 rfl
      | intParam => exact leaves.2 rfl
      | none => trivial
      | pathParam => trivial
  | param nextType nextName =>
      rcases captures_param_ne_none matched with ⟨nextValue, nextRest, nextTaken, -⟩
      have nonempty : capture nextType rest ≠ none := by simp [nextTaken]
      rcases start_of_capture nonempty with ⟨byte, start, isString, isInt⟩
      have leaves := head_of_capture taken start
      cases type with
      | none => trivial
      | pathParam => trivial
      | intParam =>
          change nextType ≠ .intParam
          intro again
          have digit := isInt again
          rw [leaves.2 rfl] at digit
          cases digit
      | stringParam =>
          have slash := leaves.1 rfl
          change nextType = .pathParam
          cases nextType with
          | none => simp [capture] at nextTaken
          | intParam =>
              have digit := isInt rfl
              rw [slash] at digit
              cases digit
          | stringParam => exact absurd slash (isString rfl)
          | pathParam => rfl

/-- A pattern that matches a path is not obstructed. -/
theorem unobstructed_of_captures (matched : captures tokens path ≠ none) :
    Token.Unobstructed tokens := by
  induction tokens generalizing path with
  | nil => exact .nil
  | cons token tokens ih =>
      rw [Token.Unobstructed, List.isChain_cons]
      cases token with
      | literal byte =>
          rw [captures] at matched
          split at matched
          · exact ⟨fun _ _ => trivial, ih matched⟩
          · exact absurd rfl matched
      | param type name =>
          rcases captures_param_ne_none matched with ⟨value, rest, taken, later⟩
          refine ⟨fun next isNext => ?_, ih later⟩
          rcases List.head?_eq_some_iff.mp isNext with ⟨more, rfl⟩
          exact canFollow_of_captures taken later

/-- What a test takes is what it takes of the front, if the rest starts with a byte that
fails it. -/
theorem takeWhile_sample {test : UInt8 → Bool} {first : UInt8} (passes : test first = true)
    (ends : ∀ byte, rest.head? = some byte → test byte = false) :
    (first :: rest).takeWhile test = [first] := by
  rw [List.takeWhile_cons_of_pos passes]
  cases rest with
  | nil => rfl
  | cons byte rest =>
      rw [List.takeWhile_cons_of_neg]
      rw [ends byte rfl]
      exact Bool.false_ne_true

theorem sample_not_digit (follows : Token.CanFollow (.param .intParam name) next) :
    Bytes.isDigit next.sample = false := by
  cases next with
  | literal byte => exact follows
  | param type name =>
      cases type with
      | intParam => exact absurd rfl follows
      | none => rfl
      | stringParam => rfl
      | pathParam => rfl

theorem sample_slash (follows : Token.CanFollow (.param .stringParam name) next) :
    next.sample = Bytes.char '/' := by
  cases next with
  | literal byte => exact follows
  | param type name =>
      cases follows
      rfl

/-- A pattern that is not obstructed matches its sample. -/
theorem captures_sample (parsed : RadixTree.Parsed pattern tokens)
    (unobstructed : Token.Unobstructed tokens) :
    captures tokens (tokens.map Token.sample) ≠ none := by
  induction parsed with
  | nil => exact Option.some_ne_none _
  | literal notOpen rest ih =>
      rw [List.map_cons, Token.sample, captures, List.head?_cons, if_pos rfl, List.tail_cons]
      exact ih (List.isChain_cons.mp unobstructed).2
  | @param spec path typeStr name type tokens closed parts named typed terminal rest ih =>
      have behind : ∀ byte, (tokens.map Token.sample).head? = some byte →
          ∃ next, Token.CanFollow (.param type name) next ∧ byte = next.sample := by
        intro byte start
        rw [List.head?_map] at start
        rcases Option.map_eq_some_iff.mp start with ⟨next, isNext, rfl⟩
        exact ⟨next, (List.isChain_cons.mp unobstructed).1 next isNext, rfl⟩
      have taken : capture type (Token.sample (.param type name) :: tokens.map Token.sample) =
          some ([Token.sample (.param type name)], tokens.map Token.sample) := by
        cases type with
        | none => exact absurd rfl (RadixTree.typeOf_ne_none typed)
        | intParam =>
            rw [capture_intParam, takeWhile_sample]
            · rfl
            · rfl
            · intro byte start
              rcases behind byte start with ⟨next, follows, rfl⟩
              exact sample_not_digit follows
        | stringParam =>
            rw [capture_stringParam, takeWhile_sample]
            · rfl
            · rfl
            · intro byte start
              rcases behind byte start with ⟨next, follows, rfl⟩
              rw [sample_slash follows]
              rfl
        | pathParam =>
            have noMore : tokens = [] := by
              have ends := terminal rfl
              subst ends
              cases rest
              rfl
            subst noMore
            rfl
      rw [List.map_cons, captures_param taken, ne_eq, Option.map_eq_none_iff]
      exact ih (List.isChain_cons.mp unobstructed).2

/-- Some path matches a pattern exactly if no parameter stands in the way. -/
theorem matchable_iff (parsed : RadixTree.Parsed pattern tokens) :
    (∃ path, captures tokens path ≠ none) ↔ Token.Unobstructed tokens := by
  constructor
  · intro someMatches
    rcases someMatches with ⟨path, matched⟩
    exact unobstructed_of_captures matched
  · intro unobstructed
    exact ⟨_, captures_sample parsed unobstructed⟩

end Matching

namespace RadixTree

section Reachable

variable {Handler : Type} {pattern : Bytes} {handler : Handler} {tree : RadixTree Handler}

/-- The only pattern of a router answers exactly those paths that it matches. -/
theorem answers_iff (accepted : insert empty pattern (some handler) = (tree, none)) :
    (∃ path found, search tree path = some found ∧ found.handler = handler) ↔
      ∃ path, captures (tokensOf pattern) path ≠ none := by
  have run : registerAll [(pattern, some handler)] = (tree, [(pattern, handler)]) := by
    rw [registerAll, List.foldl_cons, List.foldl_nil, register, accepted]
    rfl
  have invariant := registerAll_invariant [(pattern, some handler)]
  rw [run] at invariant
  apply exists_congr
  intro path
  have single := invariant.search_isSome path
  simp only [List.mem_singleton, exists_eq_left] at single
  rw [← single, Option.isSome_iff_exists]
  constructor
  · intro answered
    rcases answered with ⟨found, isFound, -⟩
    exact ⟨found, isFound⟩
  · intro answered
    rcases answered with ⟨found, isFound⟩
    rcases invariant.search_some isFound with ⟨tokens, captured, latest, -, -, -⟩
    have isRoute := List.mem_singleton.mp (History.mem_of_latest latest)
    exact ⟨found, isFound, (Prod.mk.inj isRoute).2⟩

theorem Parsed.of_accepted (accepted : insert empty pattern (some handler) = (tree, none)) :
    Parsed pattern (tokensOf pattern) := by
  by_cases valid : Valid pattern
  · exact (parsed_of_validate pattern valid.2).1
  · rcases insert_of_not_valid empty valid (some handler) with ⟨fault, refused⟩
    rw [refused] at accepted
    cases accepted

/-- A route that is accepted is reachable exactly if no string parameter is followed by
anything but `/` or a path parameter, and no integer parameter by a digit or an integer
parameter. -/
theorem reachable_iff (accepted : insert empty pattern (some handler) = (tree, none)) :
    (∃ path found, search tree path = some found ∧ found.handler = handler) ↔
      Token.Unobstructed (tokensOf pattern) := by
  rw [answers_iff accepted]
  exact matchable_iff (.of_accepted accepted)

theorem reachable_iff_example :
    (∃ path found, search (insert empty (Bytes.text "/user/<string:name>") (some 1)).1 path =
        some found ∧ found.handler = 1) ↔
      Token.Unobstructed (tokensOf (Bytes.text "/user/<string:name>")) :=
  reachable_iff (Prod.ext rfl (by decide +kernel))

/-- A string parameter that is followed by a letter is accepted and never reached. -/
theorem not_always_reachable :
    ¬∀ (pattern : Bytes) (handler : Nat) (tree : RadixTree Nat),
      insert empty pattern (some handler) = (tree, none) →
        ∃ path found, search tree path = some found ∧ found.handler = handler := by
  intro reachable
  have accepted : insert empty (Bytes.text "/<a>x") (some 0) =
      ((insert empty (Bytes.text "/<a>x") (some 0)).1, none) := Prod.ext rfl (by decide +kernel)
  have answered := (answers_iff accepted).mp (reachable _ _ _ accepted)
  have unobstructed := (matchable_iff (.of_accepted accepted)).mp answered
  have obstructed : ¬Token.Unobstructed (tokensOf (Bytes.text "/<a>x")) := by
    unfold Token.Unobstructed
    decide +kernel
  exact obstructed unobstructed

end Reachable

end RadixTree

end Wan.Web
