import Mathlib.Data.List.Induction
import Wan.Web.Middleware.Model

/-!
# The order of the middlewares

`Ordered` relates a chain to the sequence of `Use` calls that built it.  `Layered` is
what an onion looks like from outside: each middleware is invoked inside the call of
`Next` of the one before it, down to the final handler or to a middleware that does not
call `Next`.  `Run` leaves such a trace when no middleware calls `Next` twice.
-/

namespace Wan.Web.Onion

open Wan.Library

variable {Context Exception : Type}

section Registration

/-- By priority, and among middlewares of one priority by registration. -/
abbrev Sooner : Middleware Context Exception × Nat → Middleware Context Exception × Nat → Prop :=
  Precedes (fun registration => registration.1.priority) Prod.snd

/-- A chain holds the registered middlewares, by priority and registration. -/
structure Ordered (used : List (Middleware Context Exception))
    (chain : MiddlewareChain Context Exception)
    (registrations : List (Middleware Context Exception × Nat)) : Prop where
  perm : registrations.Perm used.zipIdx
  sooner : registrations.Pairwise Sooner
  holds : chain.memberMiddlewares = registrations.map Prod.fst

/-- `Use` puts a middleware behind those of its priority. -/
theorem Ordered.use {used : List (Middleware Context Exception)}
    {chain : MiddlewareChain Context Exception}
    {registrations : List (Middleware Context Exception × Nat)}
    (ordered : Ordered used chain registrations) (m : Middleware Context Exception) :
    Ordered (used ++ [m]) (chain.use m)
      ((registrations ++ [(m, used.length)]).insertionSort
        (NotAfter fun registration => registration.1.priority)) where
  perm := by
    apply (List.perm_insertionSort ..).trans
    rw [List.zipIdx_append, Nat.zero_add]
    exact ordered.perm.append_right _
  sooner := by
    apply pairwise_stableSort_append ordered.sooner
    intro registration isIn
    have place := List.snd_lt_of_mem_zipIdx (ordered.perm.mem_iff.1 isIn)
    rwa [Nat.add_zero] at place
  holds := by
    rw [MiddlewareChain.use, ordered.holds, List.map_insertionSort _ (NotAfter Middleware.priority)
      Prod.fst]
    · rw [List.map_append]
      rfl
    · intro one _ other _
      exact Iff.rfl

/-- Any sequence of `Use` calls leaves its middlewares in order. -/
theorem ordered_uses (used : List (Middleware Context Exception)) :
    ∃ registrations, Ordered used (used.foldl MiddlewareChain.use {}) registrations := by
  induction used using List.reverseRecOn with
  | nil => exact ⟨[], .refl _, .nil, rfl⟩
  | append_singleton used m ih =>
      obtain ⟨registrations, ordered⟩ := ih
      rw [List.foldl_append]
      exact ⟨_, ordered.use m⟩

end Registration

section Layers

/-- No path through what is left to do awaits `Next` again. -/
def Activity.Over : Activity Context Exception → Prop
  | .finish _ _ => True
  | .next _ _ => False

/-- At most one await of `Next` on every path. -/
def Activity.AtMostOnce : Activity Context Exception → Prop
  | .finish _ _ => True
  | .next _ resume => ∀ ctx inner, (resume ctx inner).Over

/-- What the part of a chain from a position on does to a context, how it ends, and its trace.
A middleware that awaits `Next` goes on with the context and the outcome that the rest of the
chain leaves. -/
inductive Layered (finalHandler : Handler Context Exception)
    (middlewares : List (Middleware Context Exception)) :
    Nat → Context → Context → Outcome Exception → List (Event Exception) → Prop where
  | handled {ctx last : Context} {outcome : Outcome Exception} :
      finalHandler ctx = (last, outcome) →
      Layered finalHandler middlewares middlewares.length ctx last outcome [.handled outcome]
  | stopped {position : Nat} {m : Middleware Context Exception} {ctx last : Context}
      {outcome : Outcome Exception} :
      middlewares[position]? = some m → m.fn ctx = .finish last outcome →
      Layered finalHandler middlewares position ctx last outcome
        [.invoked position, .left position outcome]
  | around {position : Nat} {m : Middleware Context Exception} {ctx passed between last : Context}
      {resume : Context → Outcome Exception → Activity Context Exception}
      {inner outcome : Outcome Exception} {core : List (Event Exception)} :
      middlewares[position]? = some m → m.fn ctx = .next passed resume →
      Layered finalHandler middlewares (position + 1) passed between inner core →
      resume between inner = .finish last outcome →
      Layered finalHandler middlewares position ctx last outcome
        (.invoked position :: .called position :: core ++
          [.resumed position inner, .left position outcome])

/-- A middleware that awaits `Next` once leaves its events around those of `Next`. -/
theorem Activity.drive_next
    {next : Running Context Exception → Option (Ended Context Exception)} {position : Nat}
    {ctx later : Context} {inner outcome : Outcome Exception}
    {resume : Context → Outcome Exception → Activity Context Exception}
    {running between : Running Context Exception}
    (nested : next ({ running with ctx }.record (.called position)) = some (inner, between))
    (rest : resume between.ctx inner = .finish later outcome) :
    (Activity.next ctx resume).drive next position running =
      some (outcome, { between.record (.resumed position inner) with ctx := later }.record
        (.left position outcome)) := by
  rw [Activity.drive, nested]
  change (resume between.ctx inner).drive _ _ _ = _
  rw [rest, Activity.drive]

/-- `Next` leaves a layer for each middleware that it reaches. -/
theorem MiddlewareChain.next_layered {chain : MiddlewareChain Context Exception}
    (finalHandler : Handler Context Exception)
    (once : ∀ m ∈ chain.memberMiddlewares, ∀ ctx, (m.fn ctx).AtMostOnce) :
    ∀ (depth : Nat) (running : Running Context Exception), running.index ≤ chain.size →
      chain.size < running.index + depth →
      ∃ outcome after layer, chain.next finalHandler depth running = some (outcome, after) ∧
        after.trace = running.trace ++ layer ∧
        Layered finalHandler chain.memberMiddlewares running.index running.ctx after.ctx outcome
          layer := by
  intro depth
  induction depth with
  | zero =>
      intro running within deep
      exact absurd deep (Nat.not_lt.2 within)
  | succ depth ih =>
      intro running within deep
      rw [MiddlewareChain.next]
      cases reached : chain.memberMiddlewares[running.index]? with
      | none =>
          have last : running.index = chain.size :=
            Nat.le_antisymm within (List.getElem?_eq_none_iff.1 reached)
          refine ⟨_, _, _, rfl, rfl, ?_⟩
          rw [last]
          exact .handled rfl
      | some mw =>
          have inside : running.index < chain.size := (List.getElem?_eq_some_iff.1 reached).1
          have single := once mw (List.mem_of_getElem? reached) running.ctx
          dsimp only
          cases act : mw.fn running.ctx with
          | finish ctx outcome =>
              refine ⟨_, _, [.invoked running.index, .left running.index outcome], rfl, ?_,
                .stopped reached act⟩
              exact List.append_assoc ..
          | next ctx resume =>
              rw [act] at single
              let entered := Running.record { running with index := running.index + 1 }
                (.invoked running.index)
              obtain ⟨inner, between, core, nested, traced, layered⟩ :=
                ih (Running.record { entered with ctx } (.called running.index)) inside
                  (by change chain.size < running.index + 1 + depth; omega)
              have finished := single between.ctx inner
              cases rest : resume between.ctx inner with
              | next _ _ =>
                  rw [rest] at finished
                  exact finished.elim
              | finish later outcome =>
                  refine ⟨outcome, _, _, Activity.drive_next nested rest, ?_,
                    .around reached act layered rest⟩
                  change between.trace ++ _ ++ _ = _
                  rw [traced]
                  change running.trace ++ _ ++ _ ++ core ++ _ ++ _ = _
                  simp only [List.append_assoc, List.cons_append, List.nil_append]

end Layers

section Reading

/-- The positions of the middlewares that are invoked, one after the other. -/
def invocations (trace : List (Event Exception)) : List Nat :=
  trace.filterMap fun
    | .invoked position => some position
    | _ => none

/-- How often the final handler is invoked. -/
def handlings (trace : List (Event Exception)) : Nat :=
  trace.countP fun
    | .handled _ => true
    | _ => false

/-- The position that an event names. -/
def Event.position? : Event Exception → Option Nat
  | .invoked position | .called position | .resumed position _ | .left position _ => some position
  | .handled _ => none

variable {finalHandler : Handler Context Exception}
variable {middlewares : List (Middleware Context Exception)} {position : Nat} {ctx last : Context}
variable {outcome : Outcome Exception} {trace : List (Event Exception)}

/-- A layer names no middleware in front of it. -/
theorem Layered.position_le
    (layered : Layered finalHandler middlewares position ctx last outcome trace) :
    ∀ event ∈ trace, ∀ named, event.position? = some named → position ≤ named := by
  induction layered with
  | handled handles =>
      intro event isIn named names
      rw [List.mem_singleton] at isIn
      rw [isIn] at names
      cases names
  | stopped isAt acts =>
      intro event isIn named names
      simp only [List.mem_cons, List.not_mem_nil, or_false] at isIn
      rcases isIn with rfl | rfl
      · exact (Option.some.inj names).le
      · exact (Option.some.inj names).le
  | around isAt calls layered resumes ih =>
      intro event isIn named names
      simp only [List.mem_cons, List.cons_append, List.mem_append, List.not_mem_nil, or_false]
        at isIn
      rcases isIn with rfl | rfl | isIn | rfl | rfl
      · exact (Option.some.inj names).le
      · exact (Option.some.inj names).le
      · exact Nat.le_of_succ_le (ih event isIn named names)
      · exact (Option.some.inj names).le
      · exact (Option.some.inj names).le

/-- The middlewares are invoked one after the other, up to some position. -/
theorem Layered.invocations
    (layered : Layered finalHandler middlewares position ctx last outcome trace) :
    ∃ count, position + count ≤ middlewares.length ∧
      invocations trace = List.range' position count := by
  induction layered with
  | handled handles => exact ⟨0, Nat.le_refl _, rfl⟩
  | stopped isAt acts => exact ⟨1, (List.getElem?_eq_some_iff.mp isAt).1, rfl⟩
  | @around position _ _ _ _ _ _ inner outcome core isAt calls layered resumes ih =>
      obtain ⟨count, within, read⟩ := ih
      refine ⟨count + 1, by omega, ?_⟩
      rw [List.range'_succ, ← read]
      change position :: Onion.invocations (core ++ _) = _
      rw [Onion.invocations, List.filterMap_append]
      exact congrArg _ (List.append_nil _)

/-- The final handler is invoked at most once. -/
theorem Layered.handlings_le
    (layered : Layered finalHandler middlewares position ctx last outcome trace) :
    handlings trace ≤ 1 := by
  induction layered with
  | handled handles => exact Nat.le_refl _
  | stopped isAt acts => exact Nat.zero_le _
  | @around position _ _ _ _ _ _ inner outcome core isAt calls layered resumes ih =>
      change handlings (core ++ _) ≤ 1
      rw [handlings, List.countP_append]
      exact ih

/-- The final handler is invoked when all middlewares call `Next`, and only then. -/
theorem Layered.handlings_eq_one
    (layered : Layered finalHandler middlewares position ctx last outcome trace) :
    handlings trace = 1 ↔
      ∀ caller, position ≤ caller → caller < middlewares.length → .called caller ∈ trace := by
  induction layered with
  | handled handles =>
      exact iff_of_true rfl fun caller behind inside => absurd inside (Nat.not_lt.2 behind)
  | @stopped position _ _ _ outcome isAt acts =>
      refine iff_of_false Nat.zero_ne_one fun all => ?_
      have isIn := all position (Nat.le_refl _) (List.getElem?_eq_some_iff.mp isAt).1
      simp at isIn
  | @around position _ _ _ _ _ _ inner outcome core isAt calls layered resumes ih =>
      have same : handlings (.invoked position :: .called position :: core ++
          [.resumed position inner, .left position outcome]) = handlings core := by
        change handlings (core ++ _) = _
        rw [handlings, List.countP_append]
        rfl
      rw [same, ih]
      constructor
      · intro all caller behind below
        rcases behind.eq_or_lt with rfl | behind
        · simp
        · simp [all caller behind below]
      · intro all caller behind below
        have isIn := all caller (Nat.le_of_succ_le behind) below
        have other : caller ≠ position := Nat.ne_of_gt behind
        simpa [other] using isIn

/-- Behind a middleware that does not call `Next` nothing is invoked. -/
theorem Layered.stops
    (layered : Layered finalHandler middlewares position ctx last outcome trace)
    {stopper : Nat} (reached : .invoked stopper ∈ trace) (silent : .called stopper ∉ trace) :
    handlings trace = 0 ∧ ∀ later, stopper < later → .invoked later ∉ trace := by
  induction layered with
  | handled handles => simp at reached
  | @stopped position _ _ _ outcome isAt acts =>
      have here : stopper = position := by simpa using reached
      refine ⟨rfl, fun later behind isIn => ?_⟩
      have same : later = position := by simpa using isIn
      omega
  | @around position _ _ _ _ _ _ inner outcome core isAt calls layered resumes ih =>
      have apart : stopper ≠ position := by
        rintro rfl
        simp at silent
      have reached : .invoked stopper ∈ core := by simpa [apart] using reached
      have silent : .called stopper ∉ core := by
        intro isIn
        exact silent (by simp [isIn])
      obtain ⟨unhandled, uninvoked⟩ := ih reached silent
      have behind : position + 1 ≤ stopper := layered.position_le _ reached stopper rfl
      constructor
      · change handlings (core ++ _) = 0
        rw [handlings, List.countP_append]
        exact unhandled
      · intro later after isIn
        have other : later ≠ position := by omega
        exact uninvoked later after (by simpa [other] using isIn)

end Reading

section Run

/-- `Run` leaves the layers of the whole chain. -/
theorem MiddlewareChain.run_layered {chain : MiddlewareChain Context Exception}
    (once : ∀ m ∈ chain.memberMiddlewares, ∀ ctx, (m.fn ctx).AtMostOnce)
    (ctx : Context) (finalHandler : Handler Context Exception) :
    ∃ outcome after, chain.run ctx finalHandler = some (outcome, after) ∧
      Layered finalHandler chain.memberMiddlewares 0 ctx after.ctx outcome after.trace := by
  rw [MiddlewareChain.run]
  split
  next isEmpty =>
    refine ⟨_, _, rfl, ?_⟩
    rw [List.isEmpty_iff.1 isEmpty]
    exact .handled rfl
  next =>
    obtain ⟨outcome, after, layer, ran, traced, layered⟩ :=
      MiddlewareChain.next_layered finalHandler once (chain.size + 1) { ctx }
        (Nat.zero_le _) (by change chain.size < 0 + (chain.size + 1); omega)
    refine ⟨outcome, after, ran, ?_⟩
    rw [traced]
    exact layered

/-- Whatever middlewares are registered, in whatever order, `Run` invokes them by priority
and registration, each at most once and inside the call of `Next` of the one before it: the
context and the outcome that it leaves are those of the layers. The final handler is invoked
once if all of them call `Next`, and otherwise not at all; behind a middleware that does not
call `Next` nothing is invoked. -/
theorem MiddlewareChain.run_in_order (used : List (Middleware Context Exception))
    (ctx : Context) (finalHandler : Handler Context Exception)
    (once : ∀ m ∈ used, ∀ ctx, (m.fn ctx).AtMostOnce) :
    ∃ registrations outcome after,
      Ordered used (used.foldl MiddlewareChain.use {}) registrations ∧
      (used.foldl MiddlewareChain.use {}).run ctx finalHandler = some (outcome, after) ∧
      Layered finalHandler (registrations.map Prod.fst) 0 ctx after.ctx outcome after.trace ∧
      (∃ count ≤ used.length, invocations after.trace = List.range count) ∧
      handlings after.trace ≤ 1 ∧
      (handlings after.trace = 1 ↔ ∀ caller < used.length, .called caller ∈ after.trace) ∧
      ∀ stopper, .invoked stopper ∈ after.trace → .called stopper ∉ after.trace →
        handlings after.trace = 0 ∧ ∀ later, stopper < later → .invoked later ∉ after.trace := by
  obtain ⟨registrations, ordered⟩ := ordered_uses used
  have size : (registrations.map Prod.fst).length = used.length := by
    rw [List.length_map, ordered.perm.length_eq, List.length_zipIdx]
  have once : ∀ m ∈ (used.foldl MiddlewareChain.use {}).memberMiddlewares, ∀ ctx,
      (m.fn ctx).AtMostOnce := by
    intro m isIn
    rw [ordered.holds, (ordered.perm.map Prod.fst).mem_iff, List.zipIdx_map_fst] at isIn
    exact once m isIn
  obtain ⟨outcome, after, ran, layered⟩ := MiddlewareChain.run_layered once ctx finalHandler
  rw [ordered.holds] at layered
  refine ⟨registrations, outcome, after, ordered, ran, layered, ?_, layered.handlings_le, ?_,
    fun stopper => layered.stops⟩
  · obtain ⟨count, within, read⟩ := layered.invocations
    rw [Nat.zero_add, size] at within
    exact ⟨count, within, by rw [read, List.range_eq_range']⟩
  · rw [layered.handlings_eq_one, size]
    exact forall_congr' fun caller => ⟨fun all => all (Nat.zero_le _), fun all _ => all⟩

/-- Three middlewares are registered; the second one in the order refuses the request. -/
theorem MiddlewareChain.run_in_order_refused :
    let pass : MiddlewareFn (List Nat) String := fun ctx =>
      .next (ctx ++ [0]) fun ctx inner => .finish (ctx ++ [1]) inner
    let deny : MiddlewareFn (List Nat) String := fun ctx => .finish (ctx ++ [2]) (.error "denied")
    let used : List (Middleware (List Nat) String) := [⟨pass, 20, "late"⟩, ⟨deny, 10, "deny"⟩,
      ⟨pass, -5, "first"⟩]
    let finalHandler : Handler (List Nat) String := fun ctx => (ctx ++ [3], .ok ())
    ∃ registrations outcome after,
      Ordered used (used.foldl MiddlewareChain.use {}) registrations ∧
      (used.foldl MiddlewareChain.use {}).run [] finalHandler = some (outcome, after) ∧
      after.ctx = [0, 2, 1] ∧ invocations after.trace = [0, 1] ∧ handlings after.trace = 0 := by
  intro pass deny used finalHandler
  obtain ⟨registrations, outcome, after, ordered, ran, -⟩ :=
    MiddlewareChain.run_in_order used [] finalHandler (by
      intro m isIn ctx
      simp only [used, List.mem_cons, List.not_mem_nil, or_false] at isIn
      rcases isIn with rfl | rfl | rfl
      · exact fun _ _ => trivial
      · trivial
      · exact fun _ _ => trivial)
  refine ⟨registrations, outcome, after, ordered, ran, ?_⟩
  have read : ((used.foldl MiddlewareChain.use {}).run [] finalHandler).map
      (fun ended => (ended.2.ctx, invocations ended.2.trace, handlings ended.2.trace)) =
      some ([0, 2, 1], [0, 1], 0) := rfl
  rw [ran] at read
  injection read with read
  injection read with ctx read
  injection read with invoked handled
  exact ⟨ctx, invoked, handled⟩

end Run

end Wan.Web.Onion
