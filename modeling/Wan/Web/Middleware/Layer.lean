import Wan.Web.Middleware.Order
import Wan.Web.Middleware.Total

/-!
# The outermost middleware

A chain is its first middleware around the chain of the others, as long as that middleware awaits
`Next` at most once.  A second await would not run the others again: the index that the frames
share has passed them.
-/

namespace Wan.Web.Onion

variable {Context Exception : Type}

/-- The same frame in a chain that is longer by one at its start. -/
structure Behind (running longer : Running Context Exception) : Prop where
  index : longer.index = running.index + 1
  ctx : longer.ctx = running.ctx

theorem Behind.record {running longer : Running Context Exception} (behind : Behind running longer)
    (event other : Event Exception) : Behind (running.record event) (longer.record other) :=
  ⟨behind.index, behind.ctx⟩

/-- Both end alike, or both not at all. -/
abbrev Alike : Option (Ended Context Exception) → Option (Ended Context Exception) → Prop :=
  Option.Rel fun ended longer => ended.1 = longer.1 ∧ Behind ended.2 longer.2

/-- A middleware does the same over alike calls of `Next`. -/
theorem Activity.drive_alike
    {next longerNext : Running Context Exception → Option (Ended Context Exception)}
    (alike : ∀ running longer, Behind running longer → Alike (next running) (longerNext longer))
    (position other : Nat) (activity : Activity Context Exception)
    {running longer : Running Context Exception} (behind : Behind running longer) :
    Alike (activity.drive next position running) (activity.drive longerNext other longer) := by
  induction activity generalizing running longer with
  | finish ctx outcome => exact .some ⟨rfl, behind.index, rfl⟩
  | next ctx resume ih =>
      have called := alike (Running.record { running with ctx } (.called position))
        (Running.record { longer with ctx } (.called other)) ⟨behind.index, rfl⟩
      rw [drive, drive]
      revert called
      generalize next (Running.record { running with ctx } (.called position)) = ended
      generalize longerNext (Running.record { longer with ctx } (.called other)) = longerEnded
      intro called
      cases called with
      | none => exact .none
      | @some first second same =>
          obtain ⟨inner, between⟩ := first
          obtain ⟨longerInner, longerBetween⟩ := second
          obtain ⟨rfl, stays⟩ := same
          have resumed := ih between.ctx inner
            (stays.record (.resumed position inner) (.resumed other inner))
          change Alike ((resume between.ctx inner).drive next position _)
            ((resume longerBetween.ctx inner).drive longerNext other _)
          rw [stays.ctx]
          exact resumed

namespace MiddlewareChain

/-- Behind the first middleware the longer chain does what the others do. -/
theorem next_alike (m : Middleware Context Exception) (rest : List (Middleware Context Exception))
    (finalHandler : Handler Context Exception) (depth : Nat)
    {running longer : Running Context Exception} (behind : Behind running longer) :
    Alike (next ⟨rest⟩ finalHandler depth running)
      (next ⟨m :: rest⟩ finalHandler depth longer) := by
  induction depth generalizing running longer with
  | zero => exact .none
  | succ depth ih =>
      have same : (m :: rest)[longer.index]? = rest[running.index]? := by
        rw [behind.index, List.getElem?_cons_succ]
      rw [next, next]
      dsimp only
      rw [same]
      cases rest[running.index]? with
      | none =>
          dsimp only
          rw [handle, handle, behind.ctx]
          exact .some ⟨rfl, behind.index, rfl⟩
      | some mw =>
          dsimp only
          rw [behind.ctx]
          exact Activity.drive_alike (fun _ _ => ih) _ _ _
            ⟨congrArg (· + 1) behind.index, rfl⟩

/-- `Run` is `Next` from the first position on. -/
theorem run_eq_next (chain : MiddlewareChain Context Exception) (ctx : Context)
    (finalHandler : Handler Context Exception) :
    chain.run ctx finalHandler = chain.next finalHandler (chain.size + 1) { ctx } := by
  rw [run]
  split
  next isEmpty =>
    have none : chain.memberMiddlewares[0]? = none := by
      rw [List.isEmpty_iff.1 isEmpty]
      rfl
    rw [next]
    dsimp only
    rw [none]
  next => rfl

variable {m : Middleware Context Exception} {rest : List (Middleware Context Exception)}
variable {finalHandler : Handler Context Exception} {ctx later last : Context}
variable {outcome inner : Outcome Exception}

/-- A first middleware that awaits `Next` once has the others run in between. -/
theorem run_cons_next
    {resume : Context → Outcome Exception → Activity Context Exception}
    {between : Running Context Exception} (act : m.fn ctx = .next later resume)
    (ran : run ⟨rest⟩ later finalHandler = some (inner, between))
    (resumed : resume between.ctx inner = .finish last outcome) :
    ∃ after, run ⟨m :: rest⟩ ctx finalHandler = some (outcome, after) ∧ after.ctx = last := by
  let invoked : Running Context Exception := Running.record { index := 1, ctx } (.invoked 0)
  have behind : Behind { ctx := later }
      (Running.record { invoked with ctx := later } (.called 0)) := ⟨rfl, rfl⟩
  have alike := next_alike m rest finalHandler (rest.length + 1) behind
  rw [run_eq_next] at ran
  rw [show next ⟨rest⟩ finalHandler (rest.length + 1) { ctx := later } = some (inner, between)
    from ran] at alike
  generalize nested : next ⟨m :: rest⟩ finalHandler (rest.length + 1)
    (Running.record { invoked with ctx := later } (.called 0)) = ended at alike
  cases alike with
  | @some _ second same =>
      obtain ⟨longerInner, longerBetween⟩ := second
      obtain ⟨rfl, stays⟩ := same
      rw [← stays.ctx] at resumed
      rw [run_eq_next, next]
      dsimp only [List.getElem?_cons_zero]
      rw [act]
      exact ⟨_, Activity.drive_next nested resumed, rfl⟩

/-- The middleware that every other one is registered behind, or has a greater priority than, is
the outermost. -/
theorem first_of_uses (before after : List (Middleware Context Exception))
    (later : ∀ other ∈ before, m.priority < other.priority)
    (notSooner : ∀ other ∈ after, m.priority ≤ other.priority) :
    ∃ rest, (before ++ m :: after).foldl MiddlewareChain.use {} = ⟨m :: rest⟩ ∧
      rest.Perm (before ++ after) := by
  obtain ⟨registrations, ordered⟩ := ordered_uses (before ++ m :: after)
  have all : ((before ++ m :: after).foldl MiddlewareChain.use {}).memberMiddlewares.Perm
      (before ++ m :: after) := by
    rw [ordered.holds]
    exact (ordered.perm.map Prod.fst).trans (by rw [List.zipIdx_map_fst])
  have registered : (m, before.length) ∈ registrations := by
    rw [ordered.perm.mem_iff, List.mk_mem_zipIdx_iff_getElem?]
    simp
  obtain _ | ⟨head, tail⟩ := registrations
  · cases registered
  · rcases List.mem_cons.mp registered with isHead | inTail
    · have holds := ordered.holds
      rw [← isHead, List.map_cons] at holds
      rw [holds] at all
      refine ⟨tail.map Prod.fst, ?_, (all.trans List.perm_middle).cons_inv⟩
      exact congrArg MiddlewareChain.mk holds
    · -- Whatever stands in front of the middleware is sooner than it.
      have sooner := (List.pairwise_cons.mp ordered.sooner).1 _ inTail
      obtain ⟨other, position⟩ := head
      have isOther : (before ++ m :: after)[position]? = some other := by
        rw [← List.mk_mem_zipIdx_iff_getElem?, ← ordered.perm.mem_iff]
        exact List.mem_cons_self
      rcases Nat.lt_trichotomy position before.length with front | same | behind
      · rw [List.getElem?_append_left front] at isOther
        have greater := later other (List.mem_of_getElem? isOther)
        exact absurd sooner.key_le (not_le.mpr greater)
      · have tie : other = m := by
          rw [same] at isOther
          simpa using isOther.symm
        subst tie
        exact absurd (sooner.serial_lt rfl) (by simp [same])
      · have inAfter : other ∈ after := by
          rw [List.getElem?_append_right (Nat.le_of_lt behind)] at isOther
          obtain ⟨distance, apart⟩ := Nat.exists_eq_add_of_lt behind
          rw [show position - before.length = distance + 1 by omega,
            List.getElem?_cons_succ] at isOther
          exact List.mem_of_getElem? isOther
        have tie : other.priority = m.priority :=
          le_antisymm sooner.key_le (notSooner other inAfter)
        have order : position < before.length := sooner.serial_lt tie
        omega

end MiddlewareChain

end Wan.Web.Onion
