import Wan.Web.Router.Run

/-!
# Which of several patterns answers

A literal byte has precedence over a parameter.  Where two patterns that match a path first
come apart at a byte and a parameter, the one with the parameter never answers.
-/

namespace Wan.Web

open Wan.Library

variable {Handler : Type}

/-- Tokens that first differ where the first ones have a literal byte and the second ones a
parameter. -/
def Token.Precedes (first second : List Token) : Prop :=
  ∃ stem byte type name rest rest', first = stem ++ .literal byte :: rest ∧
    second = stem ++ .param type name :: rest'

namespace RadixTree

section Precedence

variable {routes : Routes Handler} {first second tokens : List Token} {registered : Registered Handler}
  {found : RouteMatch Handler} {path : Bytes}

/-- What is preferred has no parameter where the other tokens have a literal byte. -/
theorem Preferred.not_precedes (preferred : Preferred routes second first) :
    ¬Token.Precedes first second := by
  rintro ⟨stem, byte, type, name, rest, rest', isFirst, isSecond⟩
  rcases preferred with same | ⟨stem', left, right, later, later', isSecond', isFirst', apart,
    param, -⟩
  · rw [isFirst, isSecond] at same
    have heads := List.append_cancel_left same
    cases heads
  · rcases divergence_unique (isSecond.symm.trans isSecond') (isFirst.symm.trans isFirst') nofun apart
      with ⟨-, -, rfl⟩
    cases param

/-- The pattern that answers is not preceded by any pattern that matches. -/
theorem RouterInvariant.precedence (invariant : RouterInvariant registered)
    (isFound : search registered.1 path = some found) :
    ∃ older pattern younger captured,
      registered.2 = older ++ (pattern, found.handler) :: younger ∧
      (∀ later ∈ younger, tokensOf later.1 ≠ tokensOf pattern) ∧
      captures (tokensOf pattern) path = some captured ∧
      (found.params = fun name => captured.lookup name) ∧
      ∀ entry ∈ registered.2, captures (tokensOf entry.1) path ≠ none →
        ¬Token.Precedes (tokensOf entry.1) (tokensOf pattern) := by
  rcases invariant.search_some isFound with ⟨tokens, captured, latest, matched, params, preferred⟩
  rcases exists_latest latest with ⟨older, pattern, younger, split, rfl, others⟩
  refine ⟨older, pattern, younger, captured, split, others, matched, params, ?_⟩
  intro entry member matches_path
  have stored : (routesOf registered.2).Registered (tokensOf entry.1) :=
    ⟨entry.2, mem_routesOf.mpr ⟨entry, member, rfl⟩⟩
  exact Preferred.not_precedes (preferred _ stored matches_path)

/-- Of two patterns that match a path, one of which has literal bytes only, either both are the
same or the other one has a parameter first. -/
theorem precedes_of_literals (matched : captures tokens path ≠ none) :
    tokens = path.map .literal ∨ Token.Precedes (path.map .literal) tokens := by
  induction path generalizing tokens with
  | nil =>
      rcases Option.ne_none_iff_exists'.mp matched with ⟨captured, matched⟩
      exact .inl (captures_nil matched).1
  | cons byte path ih =>
      cases tokens with
      | nil => exact absurd rfl matched
      | cons token tokens =>
          cases token with
          | param type name => exact .inr ⟨[], byte, type, name, _, _, rfl, rfl⟩
          | literal other =>
              rw [captures] at matched
              split at matched
              next same =>
                cases same
                rcases ih matched with rfl | ⟨stem, byte', type, name, rest, rest', one, two⟩
                · exact .inl rfl
                · refine .inr ⟨.literal byte :: stem, byte', type, name, rest, rest', ?_, ?_⟩
                  · rw [List.map_cons, one, List.cons_append]
                  · rw [two, List.cons_append]
              next => exact absurd rfl matched

/-- A pattern without parameters stands for its own bytes. -/
theorem tokensOf_literals (free : Bytes.char '<' ∉ path) :
    tokensOf path = path.map .literal := by
  induction path with
  | nil => rfl
  | cons byte path ih =>
      rw [List.mem_cons, not_or] at free
      rw [tokensOf, parsePattern, if_pos (Ne.symm free.1), List.map_cons]
      exact congrArg _ (ih free.2)

/-- Literal tokens are those of one pattern only. -/
theorem Parsed.of_literals {pattern : Bytes} (parsed : Parsed pattern (path.map .literal)) :
    pattern = path := by
  induction path generalizing pattern with
  | nil =>
      cases parsed
      rfl
  | cons byte path ih =>
      rw [List.map_cons] at parsed
      cases parsed with
      | literal notOpen rest => rw [ih rest]

theorem captures_self : captures (path.map .literal) path = some [] := by
  have matched : captures (path.map .literal ++ []) (path ++ []) = captures [] [] :=
    captures_literals
  rw [List.append_nil, List.append_nil] at matched
  exact matched

/-- A pattern without parameters answers the path that it is. -/
theorem RouterInvariant.search_literals (invariant : RouterInvariant registered)
    (free : Bytes.char '<' ∉ path) (accepted : ∃ handler, (path, handler) ∈ registered.2) :
    ∃ found older younger, search registered.1 path = some found ∧
      registered.2 = older ++ (path, found.handler) :: younger ∧
      (∀ later ∈ younger, later.1 ≠ path) ∧ found.params = fun _ => none := by
  rcases accepted with ⟨handler, member⟩
  have own : captures (tokensOf path) path ≠ none := by
    rw [tokensOf_literals free, captures_self]
    exact Option.some_ne_none _
  have isSome := (invariant.search_isSome path).mpr ⟨_, member, own⟩
  rcases Option.isSome_iff_exists.mp isSome with ⟨found, isFound⟩
  rcases invariant.precedence isFound with
    ⟨older, pattern, younger, captured, split, others, matched, params, unpreceded⟩
  have answers : (pattern, found.handler) ∈ registered.2 := by
    rw [split]
    exact List.mem_append_right _ List.mem_cons_self
  have literals : tokensOf pattern = path.map .literal := by
    have compared := precedes_of_literals (by rw [matched]; exact Option.some_ne_none _)
    have refused := unpreceded _ member own
    rw [tokensOf_literals free] at refused
    exact compared.resolve_right refused
  have parsed := (parsed_of_validate pattern (invariant.valid _ answers).2).1
  rw [literals] at parsed
  cases parsed.of_literals
  refine ⟨found, older, younger, isFound, split, ?_, ?_⟩
  · intro later isLater same
    exact others later isLater (by rw [same])
  · rw [literals, captures_self] at matched
    cases matched
    exact params

end Precedence

/-- The pattern that answers a search is not preceded by any accepted pattern that matches, and
a pattern without parameters answers the path that it is. -/
theorem registerAll_precedence (registrations : List (Bytes × Option Handler)) (path : Bytes) :
    (∀ found, search (registerAll registrations).1 path = some found →
      ∃ older pattern younger captured,
        (registerAll registrations).2 = older ++ (pattern, found.handler) :: younger ∧
        (∀ later ∈ younger, tokensOf later.1 ≠ tokensOf pattern) ∧
        captures (tokensOf pattern) path = some captured ∧
        (found.params = fun name => captured.lookup name) ∧
        ∀ entry ∈ (registerAll registrations).2, captures (tokensOf entry.1) path ≠ none →
          ¬Token.Precedes (tokensOf entry.1) (tokensOf pattern)) ∧
    (Bytes.char '<' ∉ path → (∃ handler, (path, handler) ∈ (registerAll registrations).2) →
      ∃ found older younger, search (registerAll registrations).1 path = some found ∧
        (registerAll registrations).2 = older ++ (path, found.handler) :: younger ∧
        (∀ later ∈ younger, later.1 ≠ path) ∧ found.params = fun _ => none) := by
  have invariant := registerAll_invariant registrations
  exact ⟨fun found => invariant.precedence, invariant.search_literals⟩

example : (search (registerAll [(Bytes.text "/u/<name>", some 4), (Bytes.text "/u/me", some 5),
    (Bytes.text "/u/<int:id>", some 6)]).1 (Bytes.text "/u/me")).map RouteMatch.handler =
      some 5 := by
  decide +kernel

end RadixTree

end Wan.Web
