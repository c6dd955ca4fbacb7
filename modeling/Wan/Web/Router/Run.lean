import Mathlib.Data.List.Induction
import Wan.Web.Router.Insert
import Wan.Web.Router.Search

/-!
# Registering and searching routes

Runs of a router: patterns are registered one after the other, a refused pattern does not
stop the others, and afterwards paths are searched.  The accepted patterns, without the
tree, say what every search answers and which patterns are accepted.
-/

namespace Wan.Web

open Wan.Library

variable {Handler : Type}

namespace RadixTree

/-- What a run of registrations has led to: the tree and the accepted patterns. -/
abbrev Registered (Handler : Type) := RadixTree Handler × List (Bytes × Handler)

/-- One call of `Insert` in a run. -/
def register (registered : Registered Handler) (registration : Bytes × Option Handler) :
    Registered Handler :=
  match insert registered.1 registration.1 registration.2, registration.2 with
  | (tree, none), some handler => (tree, registered.2 ++ [(registration.1, handler)])
  | (tree, _), _ => (tree, registered.2)

/-- Registering patterns one after the other. -/
def registerAll (registrations : List (Bytes × Option Handler)) : Registered Handler :=
  registrations.foldl register (empty, [])

/-- The accepted patterns as routes. -/
def routesOf (accepted : List (Bytes × Handler)) : Routes Handler :=
  accepted.map fun entry => (tokensOf entry.1, entry.2)

/-- An absolute pattern that passes the first loop of `Insert`. -/
def Valid (pattern : Bytes) : Prop :=
  pattern.head? = some (Bytes.char '/') ∧ validate [] pattern 0 = .ok ()

/-- The tree is the one that the accepted patterns grow. -/
structure RouterInvariant (registered : Registered Handler) : Prop where
  grown : Grown (routesOf registered.2) [] registered.1
  bare : registered.1.pathPrefix = []
  valid : ∀ entry ∈ registered.2, Valid entry.1

section Registration

variable {registered : Registered Handler} {tree : RadixTree Handler} {pattern path : Bytes}
  {handler : Handler} {accepted : List (Bytes × Handler)}

theorem mem_routesOf {route : List Token × Handler} : route ∈ routesOf accepted ↔
    ∃ entry ∈ accepted, (tokensOf entry.1, entry.2) = route := by
  rw [routesOf, List.mem_map]

theorem routesOf_append {entry : Bytes × Handler} :
    routesOf (accepted ++ [entry]) = routesOf accepted ++ [(tokensOf entry.1, entry.2)] := by
  rw [routesOf, List.map_append]
  rfl

theorem RouterInvariant.empty : RouterInvariant ((RadixTree.empty, []) : Registered Handler) := by
  constructor
  · exact .fresh (fun ⟨_, member, _⟩ => nomatch member) rfl rfl
  · rfl
  · exact nofun

/-- The names of an accepted pattern are different from one another. -/
theorem RouterInvariant.distinct (invariant : RouterInvariant registered) :
    ∀ route ∈ routesOf registered.2, (Token.names route.1).Nodup := by
  intro route member
  rcases mem_routesOf.mp member with ⟨entry, isEntry, rfl⟩
  exact (parsed_of_validate entry.1 (invariant.valid entry isEntry).2).2.1

/-- Accepted patterns do not conflict. -/
theorem RouterInvariant.consistent (invariant : RouterInvariant registered) :
    ∀ first ∈ registered.2, ∀ second ∈ registered.2,
      ¬Token.Conflicting (tokensOf first.1) (tokensOf second.1) := by
  intro first isFirst second isSecond
  exact invariant.grown.consistent (mem_routesOf.mpr ⟨first, isFirst, rfl⟩)
    (mem_routesOf.mpr ⟨second, isSecond, rfl⟩) List.nil_prefix List.nil_prefix

variable (handler) in
/-- A valid pattern is accepted, or it conflicts with an accepted one and nothing changes
for the accepted ones. -/
theorem RouterInvariant.insertLoop (invariant : RouterInvariant registered)
    (valid : Valid pattern) :
    ((insertLoop handler pattern 0 registered.1).2 = none ∧
      RouterInvariant ((RadixTree.insertLoop handler pattern 0 registered.1).1,
        registered.2 ++ [(pattern, handler)])) ∨
    ((RadixTree.insertLoop handler pattern 0 registered.1).2 ≠ none ∧
      RouterInvariant ((RadixTree.insertLoop handler pattern 0 registered.1).1, registered.2) ∧
      ∃ entry ∈ registered.2, Token.Conflicting (tokensOf entry.1) (tokensOf pattern)) := by
  have parsed := (parsed_of_validate pattern valid.2).1
  have bare := (insertLoop_same handler pattern 0 registered.1).1.trans invariant.bare
  rcases insertLoop_grown handler parsed invariant.grown with ⟨grown, refused⟩
  cases fault : (RadixTree.insertLoop handler pattern 0 registered.1).2 with
  | none =>
      rw [fault, added, List.nil_append] at grown
      left
      refine ⟨rfl, ?_, bare, ?_⟩
      · rw [routesOf_append]
        exact grown
      · intro entry member
        rcases List.mem_append.mp member with isOld | isNew
        · exact invariant.valid entry isOld
        · rw [List.mem_singleton.mp isNew]
          exact valid
  | some fault' =>
      rw [fault, added, List.append_nil] at grown
      right
      refine ⟨nofun, ⟨grown, bare, invariant.valid⟩, ?_⟩
      rcases refused (by simp [fault]) with ⟨route, member, -, conflicting⟩
      rcases mem_routesOf.mp member with ⟨entry, isEntry, rfl⟩
      exact ⟨entry, isEntry, conflicting⟩

theorem insert_of_valid (valid : Valid pattern) :
    insert tree pattern (some handler) = RadixTree.insertLoop handler pattern 0 tree := by
  rw [RadixTree.insert, if_neg (not_not.mpr valid.1)]
  simp only [valid.2]

variable (tree) in
theorem insert_of_not_valid (invalid : ¬Valid pattern) (handler : Option Handler) :
    ∃ fault, insert tree pattern handler = (tree, some fault) := by
  unfold RadixTree.insert
  split
  · exact ⟨_, rfl⟩
  next absolute =>
  split
  · exact ⟨_, rfl⟩
  split
  · exact ⟨_, rfl⟩
  · next passed => exact absurd ⟨not_not.mp absolute, passed⟩ invalid

/-- A registration of a valid pattern is refused only because of a conflict. -/
theorem RouterInvariant.register_valid (invariant : RouterInvariant registered)
    (valid : Valid pattern) (handler : Handler) :
    RouterInvariant (register registered (pattern, some handler)) ∧
      ((register registered (pattern, some handler)).2 = registered.2 ++ [(pattern, handler)] ∨
        (register registered (pattern, some handler)).2 = registered.2 ∧
          ∃ entry ∈ registered.2, Token.Conflicting (tokensOf entry.1) (tokensOf pattern)) := by
  have result : register registered (pattern, some handler) =
      ((RadixTree.insertLoop handler pattern 0 registered.1).1,
        if (RadixTree.insertLoop handler pattern 0 registered.1).2 = none then
          registered.2 ++ [(pattern, handler)] else registered.2) := by
    rw [register, insert_of_valid valid]
    rcases RadixTree.insertLoop handler pattern 0 registered.1 with ⟨tree, _ | fault⟩ <;> rfl
  rw [result]
  rcases invariant.insertLoop handler valid with
    ⟨accepted, grown⟩ | ⟨refused, grown, conflict⟩
  · rw [if_pos accepted]
    exact ⟨grown, .inl rfl⟩
  · rw [if_neg refused]
    exact ⟨grown, .inr ⟨rfl, conflict⟩⟩

/-- Nothing changes when a pattern is not valid or has no handler. -/
theorem register_refused {registration : Bytes × Option Handler}
    (refused : ¬Valid registration.1 ∨ registration.2 = none) :
    register registered registration = registered := by
  rcases registration with ⟨pattern, handler⟩
  by_cases valid : Valid pattern
  · rcases refused with invalid | absent
    · exact absurd valid invalid
    · dsimp only at absent
      rw [absent, register, RadixTree.insert, if_neg (not_not.mpr valid.1)]
  · rcases insert_of_not_valid registered.1 valid handler with ⟨fault, result⟩
    rw [register, result]

/-- Every registration keeps the invariant. -/
theorem RouterInvariant.register (invariant : RouterInvariant registered)
    (registration : Bytes × Option Handler) :
    RouterInvariant (register registered registration) := by
  rcases registration with ⟨pattern, handler⟩
  cases handler with
  | none =>
      rw [register_refused (.inr rfl)]
      exact invariant
  | some handler =>
      by_cases valid : Valid pattern
      · exact (invariant.register_valid valid handler).1
      · rw [register_refused (.inl valid)]
        exact invariant

/-- Every run keeps the invariant. -/
theorem registerAll_invariant (registrations : List (Bytes × Option Handler)) :
    RouterInvariant (registerAll registrations) := by
  induction registrations using List.reverseRecOn with
  | nil => exact .empty
  | append_singleton registrations registration ih =>
      rw [registerAll, List.foldl_append]
      exact ih.register registration

end Registration

section Searching

variable {registered : Registered Handler} {path : Bytes} {found : RouteMatch Handler}

/-- What a search in the tree of a run reports. -/
theorem RouterInvariant.reports (invariant : RouterInvariant registered) (path : Bytes) :
    Reports (routesOf registered.2) [] (fun _ => True) path (fun _ => none)
      (searchNode registered.1 path fun _ => none) := by
  have bare := invariant.bare
  apply Reports.of_no_literals bare
  apply searchNode_reports invariant.distinct
  · rw [bare]
    exact invariant.grown
  · exact fun _ _ => rfl

/-- What a search finds: a latest registration whose pattern matches, preferred to all
others. -/
theorem RouterInvariant.search_some (invariant : RouterInvariant registered)
    (isFound : search registered.1 path = some found) :
    ∃ tokens captured, (routesOf registered.2).latest tokens = some found.handler ∧
      captures tokens path = some captured ∧ found.params = (fun name => captured.lookup name) ∧
      ∀ other, (routesOf registered.2).Registered other → captures other path ≠ none →
        Preferred (routesOf registered.2) tokens other := by
  have reports := invariant.reports path
  rw [search] at isFound
  rcases result : searchNode registered.1 path fun _ => none with ⟨_ | handler, params⟩
  · rw [result] at isFound
    cases isFound
  · rw [result] at isFound reports
    cases isFound
    cases reports with
    | @found _ tokens captured isAmong latest matched preferred =>
        refine ⟨tokens, captured, latest, matched, ?_, fun other => preferred other trivial⟩
        funext name
        have names := names_captures matched
        have distinct := invariant.distinct _ (History.mem_of_latest latest)
        rw [List.nil_append, ← names] at distinct
        exact (record_eq_lookup distinct _ name).trans Option.or_none

/-- A search without result means that no pattern matches. -/
theorem RouterInvariant.search_none (invariant : RouterInvariant registered)
    (notFound : search registered.1 path = none) :
    ∀ entry ∈ registered.2, captures (tokensOf entry.1) path = none := by
  have reports := invariant.reports path
  rw [search] at notFound
  rcases result : searchNode registered.1 path fun _ => none with ⟨_ | handler, params⟩
  · rw [result] at reports
    intro entry member
    cases reports with
    | missed unmatched =>
        exact unmatched _ trivial ⟨entry.2, mem_routesOf.mpr ⟨entry, member, rfl⟩⟩
  · rw [result] at notFound
    cases notFound

/-- A latest registration, as an accepted pattern. -/
theorem exists_latest {accepted : List (Bytes × Handler)} {tokens : List Token} {handler : Handler}
    (latest : (routesOf accepted).latest tokens = some handler) :
    ∃ older pattern younger, accepted = older ++ (pattern, handler) :: younger ∧
      tokensOf pattern = tokens ∧ ∀ later ∈ younger, tokensOf later.1 ≠ tokens := by
  rcases History.exists_of_latest latest with ⟨older, younger, split, others⟩
  rcases List.map_eq_append_iff.mp split with ⟨before, rest, rfl, -, isRest⟩
  rcases List.map_eq_cons_iff.mp isRest with ⟨⟨pattern, handler⟩, after, rfl, isEntry, rfl⟩
  cases isEntry
  refine ⟨before, pattern, after, rfl, rfl, ?_⟩
  intro later member
  exact others _ (List.mem_map_of_mem member)

/-- A path is found exactly if an accepted pattern matches it. -/
theorem RouterInvariant.search_isSome (invariant : RouterInvariant registered) (path : Bytes) :
    (search registered.1 path).isSome ↔
      ∃ entry ∈ registered.2, captures (tokensOf entry.1) path ≠ none := by
  constructor
  · intro isFound
    rcases Option.isSome_iff_exists.mp isFound with ⟨found, isFound⟩
    rcases invariant.search_some isFound with ⟨tokens, captured, latest, matched, -, -⟩
    rcases mem_routesOf.mp (History.mem_of_latest latest) with ⟨entry, isEntry, same⟩
    refine ⟨entry, isEntry, ?_⟩
    rw [(Prod.mk.inj same).1, matched]
    exact Option.some_ne_none _
  · intro someMatches
    rcases someMatches with ⟨entry, member, matched⟩
    by_contra notFound
    rw [Option.not_isSome_iff_eq_none] at notFound
    exact matched (invariant.search_none notFound entry member)

/-- Soundness and completeness of the router. -/
theorem registerAll_search (registrations : List (Bytes × Option Handler)) (path : Bytes) :
    ((search (registerAll registrations).1 path).isSome ↔
      ∃ entry ∈ (registerAll registrations).2, captures (tokensOf entry.1) path ≠ none) ∧
    ∀ found, search (registerAll registrations).1 path = some found →
      ∃ older pattern younger captured,
        (registerAll registrations).2 = older ++ (pattern, found.handler) :: younger ∧
        (∀ later ∈ younger, tokensOf later.1 ≠ tokensOf pattern) ∧
        captures (tokensOf pattern) path = some captured ∧
        found.params = fun name => captured.lookup name := by
  have invariant := registerAll_invariant registrations
  constructor
  · exact invariant.search_isSome path
  · intro found isFound
    rcases invariant.search_some isFound with ⟨tokens, captured, latest, matched, params, -⟩
    rcases exists_latest latest with ⟨older, pattern, younger, isAccepted, rfl, others⟩
    exact ⟨older, pattern, younger, captured, isAccepted, others, matched, params⟩

theorem registerAll_search_example :
    ∃ found : RouteMatch Nat,
      search (registerAll [(Bytes.text "/u/<name>", some 4), (Bytes.text "/u/<int:id>", some 5)]).1
        (Bytes.text "/u/17") = some found ∧
      ∃ older pattern younger captured,
        (registerAll [(Bytes.text "/u/<name>", some 4), (Bytes.text "/u/<int:id>", some 5)]).2 =
          older ++ (pattern, found.handler) :: younger ∧
        (∀ later ∈ younger, tokensOf later.1 ≠ tokensOf pattern) ∧
        captures (tokensOf pattern) (Bytes.text "/u/17") = some captured ∧
        found.params = fun name => captured.lookup name := by
  have isFound : (search (registerAll [(Bytes.text "/u/<name>", some 4),
      (Bytes.text "/u/<int:id>", some 5)]).1 (Bytes.text "/u/17")).isSome := by decide +kernel
  rcases Option.isSome_iff_exists.mp isFound with ⟨found, isFound⟩
  exact ⟨found, isFound, (registerAll_search _ _).2 found isFound⟩

end Searching

end RadixTree

end Wan.Web
