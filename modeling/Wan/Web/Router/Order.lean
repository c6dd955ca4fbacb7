import Mathlib.Data.List.Perm.Basic
import Wan.Web.Router.Run

/-!
# The order of registrations

Which patterns are accepted does not depend on the order in which they are registered,
and neither does whether a path is found.  Which pattern answers may depend on it where
two parameters compete.
-/

namespace Wan.Web.RadixTree

open Wan.Library

variable {Handler : Type}

/-- Registering patterns with their handlers. -/
def registerPatterns (registrations : List (Bytes × Handler)) : Registered Handler :=
  registerAll (registrations.map fun entry => (entry.1, some entry.2))

/-- Every registration of a run is accepted. -/
def Accepted (registrations : List (Bytes × Handler)) : Prop :=
  (registerPatterns registrations).2 = registrations

section Acceptance

variable {registrations first second : List (Bytes × Handler)} {entry : Bytes × Handler}

theorem registerPatterns_append : registerPatterns (registrations ++ [entry]) =
    register (registerPatterns registrations) (entry.1, some entry.2) := by
  rw [registerPatterns, List.map_append, registerAll, List.foldl_append]
  rfl

theorem registerPatterns_invariant (registrations : List (Bytes × Handler)) :
    RouterInvariant (registerPatterns registrations) :=
  registerAll_invariant _

theorem register_cases (registered : Registered Handler) (entry : Bytes × Handler)
    (invariant : RouterInvariant registered) :
    (register registered (entry.1, some entry.2)).2 = registered.2 ++ [entry] ∨
      (register registered (entry.1, some entry.2)).2 = registered.2 := by
  by_cases valid : Valid entry.1
  · rcases (invariant.register_valid valid entry.2).2 with accepted | ⟨refused, -⟩
    · exact .inl accepted
    · exact .inr refused
  · rw [register_refused (.inl valid)]
    exact .inr rfl

variable (registrations) in
theorem registerPatterns_length :
    (registerPatterns registrations).2.length ≤ registrations.length := by
  induction registrations using List.reverseRecOn with
  | nil => exact Nat.le_refl _
  | append_singleton registrations entry ih =>
      rw [registerPatterns_append, List.length_append, List.length_singleton]
      rcases register_cases _ entry (registerPatterns_invariant registrations) with
        accepted | refused
      · rw [accepted, List.length_append, List.length_singleton]
        exact Nat.succ_le_succ ih
      · rw [refused]
        exact Nat.le_succ_of_le ih

/-- One more registration is accepted if it is valid and conflicts with none before. -/
theorem accepted_append : Accepted (registrations ++ [entry]) ↔
    Accepted registrations ∧ Valid entry.1 ∧
      ∀ other ∈ registrations, ¬Token.Conflicting (tokensOf other.1) (tokensOf entry.1) := by
  have invariant := registerPatterns_invariant registrations
  unfold Accepted
  rw [registerPatterns_append]
  constructor
  · intro accepted
    have before : (registerPatterns registrations).2 = registrations := by
      rcases register_cases _ entry invariant with more | same
      · exact List.append_cancel_right (more.symm.trans accepted)
      · have short := registerPatterns_length registrations
        rw [← same, accepted, List.length_append, List.length_singleton] at short
        omega
    have after := invariant.register (entry.1, some entry.2)
    refine ⟨before, after.valid entry (by simp [accepted]), ?_⟩
    intro other member
    exact after.consistent other (by simp [accepted, member]) entry (by simp [accepted])
  · intro condition
    rcases condition with ⟨before, valid, free⟩
    rcases (invariant.register_valid valid entry.2).2 with more | ⟨-, other, member, conflict⟩
    · rw [more, before]
    · rw [before] at member
      exact absurd conflict (free other member)

/-- A run accepts everything exactly if the patterns are valid and do not conflict. -/
theorem accepted_iff : Accepted registrations ↔
    (∀ entry ∈ registrations, Valid entry.1) ∧
      registrations.Pairwise fun one other =>
        ¬Token.Conflicting (tokensOf one.1) (tokensOf other.1) := by
  induction registrations using List.reverseRecOn with
  | nil => exact ⟨fun _ => ⟨nofun, .nil⟩, fun _ => rfl⟩
  | append_singleton registrations entry ih =>
      rw [accepted_append, ih, List.forall_mem_append, List.forall_mem_singleton,
        List.pairwise_append]
      simp only [List.pairwise_singleton, true_and, List.mem_singleton, forall_eq]
      tauto

/-- Acceptance does not depend on the order. -/
theorem Accepted.perm (sameSet : first.Perm second) (accepted : Accepted first) :
    Accepted second := by
  rw [accepted_iff] at accepted ⊢
  refine ⟨fun entry member => accepted.1 entry (sameSet.mem_iff.mpr member), ?_⟩
  apply accepted.2.perm sameSet
  intro one other free conflicting
  exact free conflicting.symm

end Acceptance

section Answers

variable {first second : List (Bytes × Handler)}

/-- Wherever two registered patterns that match the path come apart at two parameters, both
runs have introduced these parameters in the same order. -/
def SameIntroduction (first second : List (Bytes × Handler)) (path : Bytes) : Prop :=
  ∀ one ∈ first, ∀ other ∈ first, captures (tokensOf one.1) path ≠ none →
    captures (tokensOf other.1) path ≠ none → ∀ stem left right rest rest',
      tokensOf one.1 = stem ++ left :: rest → tokensOf other.1 = stem ++ right :: rest' →
        left.isParam → right.isParam → left ≠ right →
          ((routesOf first).Earlier (stem ++ [left]) (stem ++ [right]) ↔
            (routesOf second).Earlier (stem ++ [left]) (stem ++ [right]))

/-- What both runs prefer is the same pattern. -/
theorem preferred_unique (first second : List (Bytes × Handler)) {one other : List Token}
    (agreement : ∀ stem left right rest rest', one = stem ++ left :: rest →
      other = stem ++ right :: rest' → left.isParam → right.isParam → left ≠ right →
        ((routesOf first).Earlier (stem ++ [left]) (stem ++ [right]) ↔
          (routesOf second).Earlier (stem ++ [left]) (stem ++ [right])))
    (preferredOne : Preferred (routesOf first) one other)
    (preferredOther : Preferred (routesOf second) other one) : one = other := by
  rcases preferredOne with
    same | ⟨stem, left, right, rest, rest', oneEq, otherEq, apart, param, order⟩
  · exact same
  rcases preferredOther with same |
    ⟨stem', right', left', later', later, otherEq', oneEq', apart', param', order'⟩
  · exact same.symm
  rcases divergence_unique (oneEq.symm.trans oneEq') (otherEq.symm.trans otherEq') apart apart'.symm
    with ⟨rfl, rfl, rfl⟩
  have earlier := (agreement stem left right rest rest' oneEq otherEq param' param apart).mp
    (order param')
  exact (earlier.asymm (order' param)).elim

/-- Both runs find the same paths. -/
theorem search_isSome_perm (path : Bytes) (sameSet : first.Perm second)
    (acceptedFirst : Accepted first)
    (acceptedSecond : Accepted second) :
    (search (registerPatterns first).1 path).isSome ↔
      (search (registerPatterns second).1 path).isSome := by
  rw [(registerPatterns_invariant first).search_isSome,
    (registerPatterns_invariant second).search_isSome, acceptedFirst, acceptedSecond]
  simp only [sameSet.mem_iff]

/-- The value under a key does not depend on the order of different keys. -/
theorem latest_perm (sameSet : first.Perm second)
    (distinct : (first.map fun entry => tokensOf entry.1).Nodup) {tokens : List Token}
    {handler handler' : Handler} (latest : (routesOf first).latest tokens = some handler)
    (latest' : (routesOf second).latest tokens = some handler') : handler = handler' := by
  rcases mem_routesOf.mp (History.mem_of_latest latest) with ⟨one, isOne, oneEq⟩
  rcases mem_routesOf.mp (History.mem_of_latest latest') with ⟨other, isOther, otherEq⟩
  rw [Prod.mk.injEq] at oneEq otherEq
  have same := List.inj_on_of_nodup_map distinct isOne (sameSet.mem_iff.mpr isOther)
    (oneEq.1.trans otherEq.1.symm)
  rw [← oneEq.2, ← otherEq.2, same]

/-- Both runs give the same answer where they have introduced parameters in the same order. -/
theorem search_perm (path : Bytes) (sameSet : first.Perm second)
    (distinct : (first.map fun entry => tokensOf entry.1).Nodup) (acceptedFirst : Accepted first)
    (acceptedSecond : Accepted second) (introduction : SameIntroduction first second path) :
    search (registerPatterns first).1 path = search (registerPatterns second).1 path := by
  have found := search_isSome_perm path sameSet acceptedFirst acceptedSecond
  have invariant := registerPatterns_invariant first
  have invariant' := registerPatterns_invariant second
  rcases one : search (registerPatterns first).1 path with _ | ⟨handler, params⟩
  · rw [one] at found
    rw [eq_comm, ← Option.not_isSome_iff_eq_none, ← found]
    exact Bool.false_ne_true
  rcases other : search (registerPatterns second).1 path with _ | ⟨handler', params'⟩
  · rw [one, other] at found
    exact absurd (found.mp rfl) Bool.false_ne_true
  rcases invariant.search_some one with ⟨tokens, captured, latest, matched, paramsEq, preferred⟩
  rcases invariant'.search_some other with
    ⟨tokens', captured', latest', matched', paramsEq', preferred'⟩
  rw [acceptedFirst] at latest preferred
  rw [acceptedSecond] at latest' preferred'
  rcases mem_routesOf.mp (History.mem_of_latest latest) with ⟨entry, isEntry, entryEq⟩
  rcases mem_routesOf.mp (History.mem_of_latest latest') with ⟨entry', isEntry', entryEq'⟩
  rw [Prod.mk.injEq] at entryEq entryEq'
  have same : tokens = tokens' := by
    apply preferred_unique first second
    · rw [← entryEq.1, ← entryEq'.1]
      exact introduction entry isEntry entry' (sameSet.mem_iff.mpr isEntry')
        (by simp [entryEq.1, matched]) (by simp [entryEq'.1, matched'])
    · apply preferred tokens' _ (by simp [matched'])
      exact ⟨entry'.2, mem_routesOf.mpr ⟨entry', sameSet.mem_iff.mpr isEntry', by rw [entryEq'.1]⟩⟩
    · apply preferred' tokens _ (by simp [matched])
      exact ⟨entry.2, mem_routesOf.mpr ⟨entry, sameSet.mem_iff.mp isEntry, by rw [entryEq.1]⟩⟩
  subst same
  cases matched.symm.trans matched'
  have sameHandler := latest_perm sameSet distinct latest latest'
  dsimp only at sameHandler paramsEq paramsEq'
  rw [sameHandler, paramsEq, paramsEq']

/-- The order of registrations decides neither what is accepted nor what is found, and the
answers only where two spellings of a pattern or two parameters compete. -/
theorem registration_order (sameSet : first.Perm second) :
    (Accepted first ↔ Accepted second) ∧
      (Accepted first → ∀ path,
        ((search (registerPatterns first).1 path).isSome ↔
          (search (registerPatterns second).1 path).isSome) ∧
        ((first.map fun entry => tokensOf entry.1).Nodup → SameIntroduction first second path →
          search (registerPatterns first).1 path = search (registerPatterns second).1 path)) := by
  refine ⟨⟨.perm sameSet, .perm sameSet.symm⟩, ?_⟩
  intro accepted path
  constructor
  · exact search_isSome_perm path sameSet accepted (accepted.perm sameSet)
  · intro distinct introduction
    exact search_perm path sameSet distinct accepted (accepted.perm sameSet) introduction

/-- Two parameters that both match the path, and a literal registered before or after the second
one. -/
theorem registration_order_example :
    let first := [(Bytes.text "/<int:a>", 0), (Bytes.text "/<string:b>", 1), (Bytes.text "/c", 2)]
    let second := [(Bytes.text "/<int:a>", 0), (Bytes.text "/c", 2), (Bytes.text "/<string:b>", 1)]
    Accepted second ∧
      (search (registerPatterns second).1 (Bytes.text "/5")).isSome ∧
      search (registerPatterns first).1 (Bytes.text "/5") =
        search (registerPatterns second).1 (Bytes.text "/5") := by
  intro first second
  have accepted : Accepted first := by unfold Accepted; decide +kernel
  have order := @registration_order Nat first second (.cons _ (.swap _ _ _))
  have found := order.2 accepted (Bytes.text "/5")
  refine ⟨order.1.mp accepted, found.1.mp (by decide +kernel), ?_⟩
  apply found.2 (by decide +kernel)
  have place : ∀ {type name stem left rest}, [Token.literal (Bytes.char '/'), .param type name] =
      stem ++ left :: rest → left.isParam → stem = [.literal (Bytes.char '/')] ∧
        left = .param type name := by
    intro type name stem left rest split isParam
    rcases stem with _ | ⟨head, _ | ⟨next, stem⟩⟩
    · cases split
      cases isParam
    · cases split
      exact ⟨rfl, rfl⟩
    · simp at split
  -- The integer is there from the start in both runs.
  have sooner : ∀ more, (routesOf ((Bytes.text "/<int:a>", 0) :: more)).Earlier
      [.literal (Bytes.char '/'), .param .intParam (Bytes.text "a")]
      [.literal (Bytes.char '/'), .param .stringParam (Bytes.text "b")] := by
    intro more
    exact .of_head (by decide +kernel) (by decide +kernel) (routesOf more)
  have param : ∀ entry ∈ first, captures (tokensOf entry.1) (Bytes.text "/5") ≠ none →
      tokensOf entry.1 = [.literal (Bytes.char '/'), .param .intParam (Bytes.text "a")] ∨
        tokensOf entry.1 = [.literal (Bytes.char '/'), .param .stringParam (Bytes.text "b")] := by
    decide +kernel
  intro one inOne other inOther matched matched' stem left right rest rest' split split'
    isParam isParam' different
  rcases param one inOne matched with leftEq | leftEq <;> rw [leftEq] at split <;>
    rcases param other inOther matched' with rightEq | rightEq <;> rw [rightEq] at split' <;>
    obtain ⟨rfl, rfl⟩ := place split isParam <;> obtain ⟨-, rfl⟩ := place split' isParam'
  · exact absurd rfl different
  · exact ⟨fun _ => sooner _, fun _ => sooner _⟩
  · exact ⟨fun earlier => (earlier.asymm (sooner _)).elim,
      fun earlier => (earlier.asymm (sooner _)).elim⟩
  · exact absurd rfl different

/-- Two parameters that both match answer in the order in which they were registered. -/
theorem registration_order_matters :
    ¬∀ first second : List (Bytes × Nat), first.Perm second → (first.map Prod.fst).Nodup →
      (Accepted first ↔ Accepted second) ∧
        (Accepted first → ∀ path,
          search (registerPatterns first).1 path = search (registerPatterns second).1 path) := by
  intro independent
  have answers := (independent [(Bytes.text "/<int:a>", 0), (Bytes.text "/<string:b>", 1)]
    [(Bytes.text "/<string:b>", 1), (Bytes.text "/<int:a>", 0)] (.swap _ _ _) (by decide +kernel)).2
    (by unfold Accepted; decide +kernel) (Bytes.text "/5")
  have first : (search (registerPatterns [(Bytes.text "/<int:a>", 0),
      (Bytes.text "/<string:b>", 1)]).1 (Bytes.text "/5")).map RouteMatch.handler = some 0 := by
    decide +kernel
  have second : (search (registerPatterns [(Bytes.text "/<string:b>", 1),
      (Bytes.text "/<int:a>", 0)]).1 (Bytes.text "/5")).map RouteMatch.handler = some 1 := by
    decide +kernel
  rw [answers, second] at first
  cases first

example : (search (registerPatterns [(Bytes.text "/<a>", 0), (Bytes.text "/<string:a>", 1)]).1
    (Bytes.text "/x")).map RouteMatch.handler = some 1 := by
  decide +kernel

end Answers

end Wan.Web.RadixTree
