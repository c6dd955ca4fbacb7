import Wan.Transport.Completion.Handlers

/-!
# Handlers are called

Whoever has decided a call completes it, every turn brings the parties closer to their end, and
without a state that cannot be allocated or a coroutine that is destroyed somebody decides every
call.
-/

namespace Wan.Transport.Completion

open Wan.Fault Wan.Library

/-- The party comes to complete the call. -/
def Party.drives : Party → List Nat
  | .spawn call | .bridge call | .complete call _ => [call]
  | _ => []

/-- There is memory for the states, and no coroutine is destroyed. -/
def Undisturbed (_ : State) : Party → Outcome → Prop
  | .share _, .throws | .bridge _, .destroyed => False
  | _, _ => True

/-- Nothing is dropped, as somebody comes for every handler that is stored. -/
structure Driven (shared : State) (parties : Multiset Party) : Prop where
  driven : ∀ call ∈ shared.stored, call ∈ gather Party.drives parties
  dropped : shared.dropped = []

section Undisturbed

variable {platform : Platform} {shared later : State} {party : Party} {outcome : Outcome}
  {left : List Party} {parties others : Multiset Party} {call : Nat}

/-- Whoever drives a call has a pointer to its state. -/
theorem points_of_drives (drives : call ∈ gather Party.drives parties) :
    call ∈ gather Party.points parties := by
  obtain ⟨party, member, drives⟩ := mem_gather.mp drives
  refine mem_gather.mpr ⟨party, member, ?_⟩
  cases party with
  | spawn | bridge | complete => exact drives
  | begin | share | leave | invoke => cases drives

/-- A pointer that is not the last one of a state with a handler destroys nothing. -/
theorem release_keeps (more : call ∈ shared.stored → call ∈ shared.pointers.erase call) :
    (shared.release call).stored = shared.stored ∧
      (shared.release call).dropped = shared.dropped := by
  rw [State.release]
  split
  next last => exact absurd (more last.1) last.2
  next => exact ⟨rfl, rfl⟩

theorem Driven.more (driven : Driven shared others) : Driven shared (left + others) := by
  refine ⟨fun call there => ?_, driven.dropped⟩
  rw [gather_add]
  exact Multiset.mem_add.mpr (.inr (driven.driven call there))

theorem Driven.release (driven : Driven shared others)
    (pointed : ((shared.release call).pointers : Multiset Nat) = gather Party.points others) :
    Driven (shared.release call) others := by
  have kept := @release_keeps shared call fun there => by
    rw [← release_pointers, ← Multiset.mem_coe, pointed]
    exact points_of_drives (driven.driven call there)
  exact ⟨kept.1 ▸ driven.driven, kept.2.trans driven.dropped⟩

/-- A handler that is called is not stored any more. -/
theorem Invariant.not_stored {arguments : Arguments}
    (invariant : Invariant platform shared (↑[Party.invoke call arguments] + others)) :
    call ∉ shared.stored := by
  intro there
  have distinct : (shared.called : Multiset Nat).Nodup := invariant.distinct
  rw [invariant.accounted] at distinct
  have apart := (Multiset.nodup_add.mp distinct).2.2
  refine Multiset.disjoint_left.mp apart ?_ (?_ : call ∈ _)
  · exact Multiset.mem_add.mpr (.inr (Multiset.mem_add.mpr (.inl there)))
  · rw [taken, gather_add, gather_cons, Party.invokes]
    simp

theorem Turned.driven (turned : Turned platform shared party outcome later left)
    (allowed : Undisturbed shared party outcome)
    (invariant : Invariant platform shared (↑[party] + others))
    (after : Invariant platform later (left + others))
    (driven : Driven shared (↑[party] + others)) : Driven later (left + others) := by
  have idle : party.drives = [] → Driven shared others := by
    intro none
    refine ⟨fun call there => ?_, driven.dropped⟩
    have driving := driven.driven call there
    rw [gather_add, gather_cons, none, gather_nil] at driving
    simpa using driving
  have drives : ∀ call ∈ shared.stored,
      call ∈ party.drives ∨ call ∈ gather Party.drives others := by
    have drives := driven.driven
    simp only [gather_add, gather_cons, gather_nil, add_zero, Multiset.mem_add,
      Multiset.mem_coe] at drives
    exact drives
  have pointed := after.pointed
  cases turned with
  | exhausts | destroyed => cases allowed
  | readies => exact (idle rfl).more
  | rejects =>
      rw [Multiset.coe_nil, zero_add]
      exact ⟨(idle rfl).driven, driven.dropped⟩
  | shares =>
      refine ⟨fun call there => ?_, driven.dropped⟩
      rcases List.mem_append.mp there with before | new
      · exact (idle rfl).more.driven call before
      · rw [gather_add, gather_cons]
        exact Multiset.mem_add.mpr (.inl (Multiset.mem_add.mpr (.inl new)))
  | spawns | refuses | startsAndThrows | answers | throws =>
      refine ⟨fun call there => ?_, driven.dropped⟩
      rw [gather_add, gather_cons]
      rcases drives call there with here | elsewhere
      · exact Multiset.mem_add.mpr (.inl (Multiset.mem_add.mpr (.inl here)))
      · exact Multiset.mem_add.mpr (.inr elsewhere)
  | leaves =>
      rw [Multiset.coe_nil, zero_add] at pointed ⊢
      exact (idle rfl).release pointed
  | returns empty =>
      obtain ⟨stored, dropped⟩ := release_keeps fun there => absurd there empty
      refine ⟨fun call there => ?_, dropped.trans driven.dropped⟩
      rw [stored] at there
      rw [Multiset.coe_nil, zero_add]
      refine (drives call there).resolve_left fun here => ?_
      cases List.mem_singleton.mp here
      exact empty there
  | takes =>
      refine ⟨fun call there => ?_, driven.dropped⟩
      obtain ⟨different, there⟩ := invariant.nodup.mem_erase_iff.mp there
      rw [gather_add]
      refine Multiset.mem_add.mpr (.inr ((drives call there).resolve_left fun here => ?_))
      exact different (List.mem_singleton.mp here)
  | invokes =>
      obtain ⟨stored, dropped⟩ := release_keeps fun there => absurd there invariant.not_stored
      rw [Multiset.coe_nil, zero_add]
      exact ⟨stored ▸ (idle rfl).driven, dropped.trans driven.dropped⟩

end Undisturbed

/-- A bound on the turns of a party, and of what it starts. -/
def Party.weight : Party → Nat
  | .begin _ => 8
  | .share _ => 7
  | .spawn _ => 6
  | .leave _ => 1
  | .bridge _ => 3
  | .complete _ _ => 2
  | .invoke _ _ => 1

/-- A bound on the turns of the parties. -/
def weight (parties : Multiset Party) : Nat := (parties.map Party.weight).sum

/-- How a turn ends when nothing goes wrong. -/
def Party.usual : Party → Outcome
  | .bridge _ => .answers ⟨0, .system⟩ 0
  | _ => .succeeds

section Runs

variable {platform : Platform} {condition : State → Party → Outcome → Prop}
  {pool : Pool State Party}

theorem weight_add (parties others : Multiset Party) :
    weight (parties + others) = weight parties + weight others := by
  rw [weight, Multiset.map_add, Multiset.sum_add]
  rfl

theorem Turned.falls {shared later : State} {party : Party} {outcome : Outcome}
    {left : List Party} (turned : Turned platform shared party outcome later left) :
    weight left < party.weight := by
  rw [weight, Multiset.map_coe, Multiset.sum_coe]
  cases turned <;> simp [Party.weight]

theorem usual_isSome (shared : State) (party : Party) :
    (turn platform shared party party.usual).isSome := by
  cases party with
  | complete call arguments =>
      show (turn platform shared (.complete call arguments) .succeeds).isSome
      rw [turn]
      split <;> rfl
  | begin | share | spawn | leave | bridge | invoke => rfl

/-- A new call has its handler, and nothing else. -/
theorem Invariant.arrive {shared : State} {parties : Multiset Party} {call : Nat}
    (invariant : Invariant platform shared parties) (new : call ∉ shared.called) :
    Invariant platform { shared with called := shared.called ++ [call] }
      (↑[Party.begin call] + parties) := by
  have same : taken { shared with called := shared.called ++ [call] }
      (↑[Party.begin call] + parties) = taken shared parties := by
    have nothing : gather Party.invokes ↑[Party.begin call] = 0 := rfl
    rw [taken, gather_add, nothing, zero_add]
    rfl
  constructor
  case distinct =>
    refine List.nodup_append.mpr ⟨invariant.distinct, List.nodup_singleton _, ?_⟩
    rintro other member _ single rfl
    cases List.mem_singleton.mp single
    exact new member
  case accounted =>
    rw [same, ← Multiset.coe_add, invariant.accounted, gather_add, gather_cons, gather_nil,
      Party.awaits]
    abel
  case pointed => exact invariant.pointed.trans (by
    rw [gather_add, gather_cons, gather_nil, Party.points, Multiset.coe_nil, zero_add, zero_add])
  case owned => exact invariant.owned
  case filled => exact fun other pointer => same ▸ invariant.filled other pointer
  case promised =>
    intro party member other arguments found
    rcases Multiset.mem_add.mp member with here | elsewhere
    · cases List.mem_singleton.mp here
      cases found
    · exact invariant.promised party elsewhere other arguments found
  case explained => exact invariant.explained
  case decided =>
    intro other decided
    rw [same]
    refine (invariant.decided other decided).imp_right ?_
    rintro ⟨there, arguments, member⟩
    exact ⟨there, arguments, Multiset.mem_add.mpr (.inr member)⟩

theorem invariant_of_reaches (reaches : (system platform).Reaches condition initial pool) :
    Invariant platform pool.shared pool.parties := by
  apply reaches.invariant (fun _ _ => True) (Invariant platform) (fun _ _ => trivial)
  · constructor
    case accounted | pointed => rfl
    all_goals simp [initial, Decided]
  · intro shared later acting left others change _ _ invariant
    cases change with
    | turn party outcome allowed taken => exact (turn_turned taken).invariant invariant
    | outside call taken =>
        rw [system] at taken
        rw [Multiset.coe_nil, zero_add] at invariant
        obtain ⟨new, same⟩ := Option.ite_none_left_eq_some.mp taken
        cases same
        exact invariant.arrive new

/-- Without disturbances nothing is dropped. -/
theorem driven_of_reaches (reaches : (system platform).Reaches Undisturbed initial pool) :
    Driven pool.shared pool.parties := by
  apply reaches.invariant (Invariant platform) Driven (fun _ => invariant_of_reaches)
  · exact ⟨List.forall_mem_nil _, rfl⟩
  · intro shared later acting left others change invariant after driven
    cases change with
    | turn party outcome allowed taken =>
        exact (turn_turned taken).driven allowed invariant after driven
    | outside call taken =>
        rw [system] at taken
        rw [Multiset.coe_nil, zero_add] at driven
        obtain ⟨new, same⟩ := Option.ite_none_left_eq_some.mp taken
        cases same
        exact ⟨driven.more.driven, driven.dropped⟩

/-- Every turn brings the parties closer to their end. -/
theorem weight_of_turns {later : Pool State Party}
    (turned : (system platform).Turns condition pool later) :
    weight later.parties < weight pool.parties := by
  obtain ⟨party, outcome, left, others, before, taken, after, -⟩ := turned.cases
  have falls := (turn_turned taken).falls
  have single : weight ↑[party] = party.weight := rfl
  rw [before, after, weight_add, weight_add, single]
  omega

/-- Every party can go on. -/
theorem exists_turns (allowed : ∀ shared party, condition shared party party.usual)
    (unfinished : pool.parties ≠ []) :
    ∃ later, (system platform).Turns condition pool later := by
  obtain ⟨party, rest, split⟩ := List.exists_cons_of_ne_nil unfinished
  exact System.exists_turns (split ▸ List.mem_cons_self) (allowed pool.shared party)
    (usual_isSome pool.shared party)

/-- What the turns keep, and what follows from it once the parties are at their end, happens. -/
theorem inevitable_of_end (inv goal : Pool State Party → Prop)
    (allowed : ∀ shared party, condition shared party party.usual)
    (kept : ∀ {pool later}, inv pool → (system platform).Turns condition pool later → inv later)
    (reached : ∀ {pool}, inv pool → pool.parties = [] → goal pool) (holds : inv pool) :
    Inevitable ((system platform).Turns condition) goal pool := by
  refine .of_measure inv (fun pool => weight pool.parties) (fun inv _ => kept inv) ?_
    (fun _ _ => weight_of_turns) holds
  intro pool holds missed
  exact exists_turns allowed fun empty => missed (reached holds empty)

/-- Behind the end of all parties a handler was called or dropped. -/
theorem Invariant.settled {shared : State}
    (invariant : Invariant platform shared ↑([] : List Party)) :
    (shared.called : Multiset Nat) = shared.dropped + shared.finished := by
  have pointers : shared.pointers = [] := Multiset.coe_eq_zero _ |>.mp invariant.pointed
  have stored : shared.stored = [] := by
    refine List.eq_nil_iff_forall_not_mem.mpr fun call there => ?_
    have pointer := invariant.owned call there
    rw [pointers] at pointer
    cases pointer
  have accounted := invariant.accounted
  rw [stored, taken, gather_nil, gather_nil, Multiset.coe_nil, zero_add, zero_add, zero_add]
    at accounted
  exact accounted

end Runs

/-- What holds in every pool. -/
structure Delivered (platform : Platform) (pool : Pool State Party) : Prop where
  once : pool.shared.finished.Nodup
  /-- A handler is called with what its own operation has returned, or with `operation_aborted`
  after something has thrown. -/
  explained : ∀ call arguments, (call, arguments) ∈ pool.shared.invoked →
    Explained platform pool.shared call arguments
  /-- A handler that was called was not destroyed before, and neither was one whose operation has
  returned or thrown. -/
  kept : ∀ call, call ∈ pool.shared.finished ∨ Decided pool.shared call →
    call ∉ pool.shared.dropped
  /-- The handler of an operation that has returned or thrown is called. -/
  decided : ∀ call, Decided pool.shared call →
    Inevitable ((system platform).Turns fun _ _ _ => True)
      (fun final => call ∈ final.shared.finished) pool
  /-- Without disturbances every handler is called. -/
  undisturbed : (system platform).Reaches Undisturbed initial pool →
    ∀ call ∈ pool.shared.called, Inevitable ((system platform).Turns Undisturbed)
      (fun final => call ∈ final.shared.finished) pool

section Delivered

variable {platform : Platform} {pool : Pool State Party}

/-- Every handler is called at most once, with the result of its own operation or after a failure
of its call; it is called once its operation has returned or thrown, and without disturbances it
is called in any case. -/
theorem delivered_of_reachable (reachable : (system platform).Reachable initial pool) :
    Delivered platform pool := by
  have invariant := invariant_of_reaches reachable
  have distinct : (pool.shared.called : Multiset Nat).Nodup := invariant.distinct
  rw [invariant.accounted] at distinct
  obtain ⟨-, takenOnce, apart⟩ := Multiset.nodup_add.mp distinct
  have dropped_apart : ∀ call ∈ taken pool.shared pool.parties, call ∉ pool.shared.dropped := by
    intro call taken dropped
    refine Multiset.disjoint_right.mp apart taken ?_
    exact Multiset.mem_add.mpr (.inr (Multiset.mem_add.mpr (.inr dropped)))
  constructor
  case once => exact (Multiset.nodup_add.mp takenOnce).2.1
  case explained => exact invariant.explained
  case kept =>
    rintro call (finished | decided)
    · exact dropped_apart call (Multiset.mem_add.mpr (.inr finished))
    · rcases invariant.decided call decided with taken | ⟨there, -⟩
      · exact dropped_apart call taken
      · have states := (Multiset.nodup_add.mp (Multiset.nodup_add.mp distinct).1).2.1
        exact Multiset.disjoint_left.mp (Multiset.nodup_add.mp states).2.2 there
  case decided =>
    intro call decided
    refine inevitable_of_end
      (fun pool => (system platform).Reachable initial pool ∧ Decided pool.shared call) _
      (fun _ _ => trivial) ?_ ?_ ⟨reachable, decided⟩
    · rintro pool later ⟨reachable, decided⟩ turned
      refine ⟨reachable.turn turned, ?_⟩
      obtain ⟨party, outcome, left, others, before, taken, after, -⟩ := turned.cases
      obtain ⟨answers, failures⟩ := (turn_turned taken).history
      exact decided.imp (fun failed => failures failed)
        fun ⟨ec, bytes, answered⟩ => ⟨ec, bytes, answers answered⟩
    · rintro pool ⟨reachable, decided⟩ empty
      have invariant := invariant_of_reaches reachable
      rw [empty] at invariant
      rcases invariant.decided call decided with taken | ⟨-, _, member⟩
      · exact Multiset.mem_coe.mp ((Multiset.mem_add.mp taken).resolve_left nofun)
      · cases member
  case undisturbed =>
    intro reaches call called
    refine inevitable_of_end
      (fun pool => (system platform).Reaches Undisturbed initial pool ∧ call ∈ pool.shared.called) _
      ?_ ?_ ?_ ⟨reaches, called⟩
    · rintro shared (_ | _ | _ | _ | _ | _ | _) <;> trivial
    · rintro pool later ⟨reaches, called⟩ turned
      refine ⟨reaches.turn turned, ?_⟩
      obtain ⟨party, outcome, left, others, before, taken, after, -⟩ := turned.cases
      rw [(turn_turned taken).called]
      exact called
    · rintro pool ⟨reaches, called⟩ empty
      have invariant := invariant_of_reaches reaches
      rw [empty] at invariant
      have settled := invariant.settled
      rw [(driven_of_reaches reaches).dropped, Multiset.coe_nil, zero_add] at settled
      rw [← Multiset.mem_coe, ← settled]
      exact called

/-- A read ends with four bytes, and a write on a transport without an executor is refused while
the read goes on. -/
def readAndRefuse : List (Event Outcome Call) :=
  [.outside (.asyncReadSome 1), .outside (.asyncWriteSome 2), .turn 0 .succeeds, .turn 0 .succeeds,
    .turn 0 .succeeds, .turn 0 (.answers ⟨0, .system⟩ 4), .turn 1 .succeeds, .turn 1 .throws,
    .turn 0 .succeeds, .turn 0 .succeeds]

theorem delivered_of_reachable_example : ∃ pool,
    readAndRefuse.foldlM (system linux).step initial = some pool ∧
      pool.shared.invoked = [(2, aborted linux), (1, ⟨⟨0, .system⟩, 4⟩)] ∧
      Delivered linux pool := by
  rcases run : readAndRefuse.foldlM (system linux).step initial with _ | pool
  · cases run
  · refine ⟨pool, rfl, ?_, delivered_of_reachable (System.reaches_of_run run)⟩
    cases run
    rfl

end Delivered

end Wan.Transport.Completion
