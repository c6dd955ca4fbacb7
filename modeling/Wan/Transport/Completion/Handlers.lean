import Mathlib.Tactic.Abel
import Wan.Transport.Completion.Model

/-!
# Where the handlers are

A handler is in the frame of its call, in a state, in the frame of `Complete`, called or destroyed.
A state with its handler lives while somebody points to it, and who has decided a call points to
its state and completes it next.
-/

namespace Wan.Transport.Completion

open Wan.Fault Wan.Library

/-- What the parties have, from what each has. -/
def gather (part : Party → List Nat) (parties : Multiset Party) : Multiset Nat :=
  parties.bind fun party => part party

section Sums

variable {part : Party → List Nat} {party : Party} {parties others : Multiset Party}
  {list : List Party} {call : Nat}

@[simp] theorem gather_nil : gather part ↑([] : List Party) = 0 := rfl

@[simp] theorem gather_cons : gather part ↑(party :: list) = part party + gather part ↑list := by
  rw [← Multiset.cons_coe, gather, Multiset.cons_bind, gather]

@[simp] theorem gather_add :
    gather part (parties + others) = gather part parties + gather part others :=
  Multiset.add_bind ..

theorem mem_gather : call ∈ gather part parties ↔ ∃ party ∈ parties, call ∈ part party := by
  rw [gather, Multiset.mem_bind]
  rfl

end Sums

namespace Party

/-- The handler is in the frame of the call. -/
def awaits : Party → List Nat
  | .begin call | .share call => [call]
  | _ => []

/-- The handler is in the frame of `Complete`. -/
def invokes : Party → List Nat
  | .invoke call _ => [call]
  | _ => []

/-- The party has a shared pointer to the state. -/
def points : Party → List Nat
  | .begin _ | .share _ => []
  | .spawn call | .leave call | .bridge call | .complete call _ | .invoke call _ => [call]

/-- What the party will call the handler with. -/
def arguments? : Party → Option (Nat × Arguments)
  | .complete call arguments | .invoke call arguments => some (call, arguments)
  | _ => none

end Party

/-- The calls whose handler was called. -/
def State.finished (shared : State) : List Nat := shared.invoked.map Prod.fst

/-- The calls whose handler was taken to be called. -/
def taken (shared : State) (parties : Multiset Party) : Multiset Nat :=
  gather Party.invokes parties + shared.finished

/-- The operation has returned, or something has thrown. -/
def Decided (shared : State) (call : Nat) : Prop :=
  call ∈ shared.failures ∨ ∃ ec bytes, (call, ec, bytes) ∈ shared.answers

/-- An error of Boost that has the value of another error, and the category of the library if that
one has it. -/
structure Carries (ec : StdError) (carried : BoostError) : Prop where
  value : carried.value = ec.value
  category : ec.value ≠ 0 →
    carried.category = if ec.category = .fault then .fault else .generic

/-- A handler is called with what its operation has returned, or with `operation_aborted` after
something has thrown. -/
def Explained (platform : Platform) (shared : State) (call : Nat) (arguments : Arguments) : Prop :=
  (∃ ec, (call, ec, arguments.bytes) ∈ shared.answers ∧ Carries ec arguments.ec) ∨
    call ∈ shared.failures ∧ arguments = aborted platform

theorem carries_toBoostError (ec : StdError) : Carries ec (toBoostError ec) := by
  rw [toBoostError]
  split
  next zero => exact ⟨zero.symm, fun some => absurd zero some⟩
  next =>
    split
    next own => exact ⟨rfl, fun _ => (if_pos own).symm⟩
    next foreign => exact ⟨rfl, fun _ => (if_neg foreign).symm⟩

/-- What holds of the calls and their handlers. -/
structure Invariant (platform : Platform) (shared : State) (parties : Multiset Party) :
    Prop where
  distinct : shared.called.Nodup
  /-- Every handler is in one place. -/
  accounted : (shared.called : Multiset Nat) =
    gather Party.awaits parties + (shared.stored + shared.dropped) + taken shared parties
  pointed : (shared.pointers : Multiset Nat) = gather Party.points parties
  owned : ∀ call ∈ shared.stored, call ∈ shared.pointers
  filled : ∀ call ∈ shared.pointers, call ∈ shared.stored ∨ call ∈ taken shared parties
  promised : ∀ party ∈ parties, ∀ call arguments, party.arguments? = some (call, arguments) →
    Explained platform shared call arguments
  explained : ∀ call arguments, (call, arguments) ∈ shared.invoked →
    Explained platform shared call arguments
  /-- What is decided was taken, or is about to be. -/
  decided : ∀ call, Decided shared call → call ∈ taken shared parties ∨
    call ∈ shared.stored ∧ ∃ arguments, .complete call arguments ∈ parties

section Release

variable {shared : State} {call other : Nat}

@[simp] theorem release_pointers : (shared.release call).pointers = shared.pointers.erase call := by
  rw [State.release]
  split <;> rfl

/-- The end of a pointer changes the states only. -/
@[simp] theorem release_history :
    (shared.release call).called = shared.called ∧
      (shared.release call).invoked = shared.invoked ∧
      (shared.release call).answers = shared.answers ∧
      (shared.release call).failures = shared.failures := by
  rw [State.release]
  split <;> exact ⟨rfl, rfl, rfl, rfl⟩

@[simp] theorem release_finished : (shared.release call).finished = shared.finished := by
  rw [State.finished, release_history.2.1, State.finished]

/-- A stored handler stays so, or it is dropped. -/
theorem release_moved : ((shared.release call).stored : Multiset Nat) +
    (shared.release call).dropped = shared.stored + shared.dropped := by
  rw [State.release]
  split
  next last =>
    have there : (shared.stored : Multiset Nat) = {call} + ↑(shared.stored.erase call) := by
      rw [Multiset.singleton_add, ← Multiset.coe_erase, Multiset.cons_erase last.1]
    show ((shared.stored.erase call : List Nat) : Multiset Nat) + ↑(shared.dropped ++ [call]) = _
    rw [there, ← Multiset.coe_add, Multiset.coe_singleton]
    abel
  next => rfl

/-- A handler is dropped with the last pointer to its state. -/
theorem mem_release_stored (distinct : shared.stored.Nodup) :
    other ∈ (shared.release call).stored ↔
      other ∈ shared.stored ∧ (other = call → call ∈ shared.pointers.erase call) := by
  rw [State.release]
  split
  next last =>
    rw [distinct.mem_erase_iff]
    constructor
    · rintro ⟨different, there⟩
      exact ⟨there, fun same => absurd same different⟩
    · rintro ⟨there, pointed⟩
      exact ⟨fun same => last.2 (pointed same), there⟩
  next more =>
    refine ⟨fun there => ⟨there, ?_⟩, And.left⟩
    rintro rfl
    exact not_not.mp fun none => more ⟨there, none⟩

end Release

section Turn

variable {platform : Platform} {shared later : State} {party : Party} {outcome : Outcome}
  {left : List Party} {others : Multiset Party} {call : Nat}

theorem Turned.called (turned : Turned platform shared party outcome later left) :
    later.called = shared.called := by
  cases turned <;> simp [State.fail, State.invoke, State.share, State.drop, State.point,
    State.answer, State.take]

/-- Every handler stays in one place. -/
theorem Turned.accounted (turned : Turned platform shared party outcome later left)
    (accounted : (shared.called : Multiset Nat) =
      gather Party.awaits (↑[party] + others) + (shared.stored + shared.dropped) +
        taken shared (↑[party] + others)) :
    (later.called : Multiset Nat) =
      gather Party.awaits (left + others) + (later.stored + later.dropped) +
        taken later (left + others) := by
  rw [turned.called, accounted]
  simp only [gather_add, gather_cons, gather_nil, taken, State.finished, add_zero]
  cases turned with
  | readies | spawns | refuses | startsAndThrows | answers | throws => rfl
  | rejects =>
      simp only [State.fail, State.invoke, List.map_append, List.map_cons, List.map_nil,
        ← Multiset.coe_add, Party.awaits, Party.invokes, zero_add, Multiset.coe_nil]
      abel
  | shares =>
      simp only [State.share, ← Multiset.coe_add, Party.awaits, Party.invokes, gather_cons,
        zero_add, Multiset.coe_nil]
      abel
  | exhausts =>
      simp only [State.drop, ← Multiset.coe_add, Party.awaits, Party.invokes, zero_add,
        Multiset.coe_nil]
      abel
  | leaves | destroyed | returns =>
      rw [release_moved, release_history.2.1]
      rfl
  | @takes call arguments there =>
      have split : (shared.stored : Multiset Nat) = ↑[call] + ↑(shared.stored.erase call) := by
        rw [Multiset.coe_singleton, Multiset.singleton_add, ← Multiset.coe_erase,
          Multiset.cons_erase there]
      simp only [State.take, split, Party.awaits, Party.invokes, gather_cons, zero_add,
        Multiset.coe_nil]
      abel
  | @invokes call =>
      have moved := @release_moved shared call
      simp only [State.invoke, moved, release_history.2.1, List.map_append, List.map_cons,
        List.map_nil, ← Multiset.coe_add, Party.awaits, Party.invokes, zero_add, Multiset.coe_nil]
      abel

/-- The pointers are those of the parties. -/
theorem Turned.pointed (turned : Turned platform shared party outcome later left)
    (pointed : (shared.pointers : Multiset Nat) = gather Party.points (↑[party] + others)) :
    (later.pointers : Multiset Nat) = gather Party.points (left + others) := by
  have released : ∀ call, (shared.pointers : Multiset Nat) = {call} + gather Party.points others →
      ((shared.pointers.erase call : List Nat) : Multiset Nat) = gather Party.points others := by
    intro call same
    rw [← Multiset.coe_erase, same, Multiset.singleton_add, Multiset.erase_cons_head]
  simp only [gather_add, gather_cons, gather_nil, add_zero] at pointed ⊢
  cases turned with
  | readies | rejects | exhausts | refuses | answers | throws | takes => exact pointed
  | shares | spawns | startsAndThrows =>
      simp only [State.share, State.point, State.fail, ← Multiset.coe_add, pointed, Party.points,
        gather_cons, Multiset.coe_nil]
      abel
  | leaves | destroyed | returns | invokes =>
      simp only [State.invoke, release_pointers, gather_nil, zero_add]
      exact released _ pointed

/-- What was taken stays so. -/
theorem Turned.mem_taken (turned : Turned platform shared party outcome later left)
    (before : call ∈ taken shared (↑[party] + others)) : call ∈ taken later (left + others) := by
  simp only [taken, gather_add, gather_cons, gather_nil, add_zero, Multiset.mem_add,
    Multiset.mem_coe] at before ⊢
  cases turned with
  | invokes =>
      rw [State.finished, State.invoke, List.map_append, List.mem_append, release_history.2.1]
      rcases before with (here | elsewhere) | finished
      · exact .inr (.inr here)
      · exact .inl (.inr elsewhere)
      · exact .inr (.inl finished)
  | rejects =>
      rw [State.finished, State.invoke, List.map_append, List.mem_append]
      rcases before with (here | elsewhere) | finished
      · cases here
      · exact .inl (.inr elsewhere)
      · exact .inr (.inl finished)
  | leaves | destroyed | returns =>
      rw [release_finished]
      exact before
  | readies | shares | exhausts | spawns | refuses | startsAndThrows | answers | throws | takes =>
      rcases before with (here | elsewhere) | finished
      · cases here
      · exact .inl (.inr elsewhere)
      · exact .inr finished

/-- What a state holds stays there while somebody has a pointer to it, unless it is taken. -/
theorem Turned.mem_stored (turned : Turned platform shared party outcome later left)
    (distinct : shared.stored.Nodup)
    (pointed : (later.pointers : Multiset Nat) = gather Party.points (left + others))
    (there : call ∈ shared.stored) (pointing : call ∈ gather Party.points (left + others)) :
    call ∈ later.stored ∨ call ∈ taken later (left + others) := by
  rw [← pointed, Multiset.mem_coe] at pointing
  cases turned with
  | readies | rejects | exhausts | spawns | refuses | startsAndThrows | answers | throws =>
      exact .inl there
  | shares => exact .inl (List.mem_append_left _ there)
  | leaves | destroyed | returns | invokes =>
      simp only [State.invoke, release_pointers] at pointing
      refine .inl ((mem_release_stored distinct).mpr ⟨there, ?_⟩)
      rintro rfl
      exact pointing
  | @takes other arguments stored =>
      by_cases same : call = other
      · rw [same, taken, gather_add, gather_cons, Party.invokes]
        simp
      · exact .inl ((distinct.mem_erase_iff).mpr ⟨same, there⟩)

/-- Whoever holds a handler has a pointer to its state. -/
theorem Turned.owned (turned : Turned platform shared party outcome later left)
    (distinct : shared.stored.Nodup) (owned : ∀ call ∈ shared.stored, call ∈ shared.pointers) :
    ∀ call ∈ later.stored, call ∈ later.pointers := by
  intro call there
  cases turned with
  | readies | rejects | exhausts | refuses | answers | throws => exact owned call there
  | spawns | startsAndThrows => exact List.mem_append_left _ (owned call there)
  | takes => exact owned call (List.mem_of_mem_erase there)
  | shares =>
      rcases List.mem_append.mp there with before | new
      · exact List.mem_append_left _ (owned call before)
      · exact List.mem_append_right _ new
  | @leaves other | @destroyed other | @returns other | @invokes other =>
      obtain ⟨before, last⟩ := (mem_release_stored distinct).mp there
      simp only [State.invoke, release_pointers]
      by_cases same : call = other
      · rw [same]
        exact last same
      · exact (List.mem_erase_of_ne same).mpr (owned call before)

/-- Nothing that has happened is forgotten. -/
theorem Turned.history (turned : Turned platform shared party outcome later left) :
    shared.answers ⊆ later.answers ∧ shared.failures ⊆ later.failures := by
  cases turned with
  | readies | shares | exhausts | spawns | takes =>
      exact ⟨List.Subset.refl _, List.Subset.refl _⟩
  | rejects | refuses | startsAndThrows | throws =>
      exact ⟨List.Subset.refl _, List.subset_append_left _ _⟩
  | answers => exact ⟨List.subset_append_left _ _, List.Subset.refl _⟩
  | leaves | destroyed | returns | invokes =>
      simp only [State.invoke, release_history]
      exact ⟨List.Subset.refl _, List.Subset.refl _⟩

theorem Turned.explains {arguments : Arguments}
    (turned : Turned platform shared party outcome later left) :
    Explained platform shared call arguments → Explained platform later call arguments := by
  obtain ⟨answers, failures⟩ := turned.history
  rintro (⟨ec, answered, carries⟩ | ⟨failed, same⟩)
  · exact .inl ⟨ec, answers answered, carries⟩
  · exact .inr ⟨failures failed, same⟩

/-- `operation_aborted` comes after something has thrown. -/
theorem explained_aborted : Explained platform (shared.fail call) call (aborted platform) :=
  .inr ⟨List.mem_append_right _ (List.mem_singleton_self _), rfl⟩

theorem Turned.promised (turned : Turned platform shared party outcome later left)
    (promised : ∀ one ∈ (↑[party] + others : Multiset Party), ∀ call arguments,
      one.arguments? = some (call, arguments) → Explained platform shared call arguments) :
    ∀ one ∈ (left + others : Multiset Party), ∀ call arguments,
      one.arguments? = some (call, arguments) → Explained platform later call arguments := by
  intro other member call arguments found
  have mine := promised party (Multiset.mem_add.mpr (.inl (List.mem_singleton_self _)))
  rcases Multiset.mem_add.mp member with new | before
  · cases turned with
    | readies | shares =>
        cases List.mem_singleton.mp new
        cases found
    | rejects | exhausts | leaves | destroyed | returns | invokes => cases new
    | spawns => rcases List.mem_pair.mp new with rfl | rfl <;> cases found
    | refuses | throws =>
        cases List.mem_singleton.mp new
        cases found
        exact explained_aborted
    | startsAndThrows =>
        rcases List.mem_pair.mp new with rfl | rfl <;> cases found
        exact explained_aborted
    | @answers call ec bytes =>
        cases List.mem_singleton.mp new
        cases found
        exact .inl ⟨ec, List.mem_append_right _ (List.mem_singleton_self _),
          carries_toBoostError ec⟩
    | takes =>
        cases List.mem_singleton.mp new
        cases found
        exact mine _ _ rfl
  · exact turned.explains (promised other (Multiset.mem_add.mpr (.inr before)) call arguments found)

theorem Turned.explained (turned : Turned platform shared party outcome later left)
    (promised : ∀ one ∈ (↑[party] + others : Multiset Party), ∀ call arguments,
      one.arguments? = some (call, arguments) → Explained platform shared call arguments)
    (explained : ∀ call arguments, (call, arguments) ∈ shared.invoked →
      Explained platform shared call arguments) :
    ∀ call arguments, (call, arguments) ∈ later.invoked →
      Explained platform later call arguments := by
  intro call arguments invoked
  have before : (call, arguments) ∈ shared.invoked → Explained platform later call arguments :=
    fun invoked => turned.explains (explained call arguments invoked)
  have mine := promised party (Multiset.mem_add.mpr (.inl (List.mem_singleton_self _)))
  have explains : Explained platform shared call arguments →
      Explained platform later call arguments := turned.explains
  cases turned with
  | readies | shares | exhausts | spawns | refuses | startsAndThrows | answers | throws | takes =>
      exact before invoked
  | leaves | destroyed | returns =>
      rw [release_history.2.1] at invoked
      exact before invoked
  | rejects =>
      rcases List.mem_append.mp invoked with old | new
      · exact before old
      · cases List.mem_singleton.mp new
        exact .inr ⟨List.mem_append_right _ (List.mem_singleton_self _), rfl⟩
  | invokes =>
      simp only [State.invoke, release_history.2.1] at invoked
      rcases List.mem_append.mp invoked with old | new
      · exact before old
      · cases List.mem_singleton.mp new
        exact explains (mine _ _ rfl)

/-- A pointer is one that was there, or the first one to a new state. -/
theorem Turned.pointing (turned : Turned platform shared party outcome later left)
    (pointing : call ∈ gather Party.points (left + others)) :
    call ∈ gather Party.points (↑[party] + others) ∨ call ∈ later.stored := by
  simp only [gather_add, gather_cons, gather_nil, add_zero, Multiset.mem_add,
    Multiset.mem_coe] at pointing ⊢
  rcases pointing with new | before
  · cases turned with
    | readies | rejects | exhausts | leaves | destroyed | returns | invokes => cases new
    | shares =>
        simp only [Party.points, gather_cons, gather_nil, add_zero, Multiset.mem_coe] at new
        exact .inr (List.mem_append_right _ new)
    | spawns | startsAndThrows =>
        simp only [Party.points, gather_cons, gather_nil, add_zero, Multiset.mem_add,
          Multiset.mem_coe, or_self] at new
        exact .inl (.inl new)
    | refuses | answers | throws | takes =>
        simp only [Party.points, gather_cons, gather_nil, add_zero, Multiset.mem_coe] at new
        exact .inl (.inl new)
  · exact .inl (.inr before)

theorem Turned.filled (turned : Turned platform shared party outcome later left)
    (invariant : Invariant platform shared (↑[party] + others))
    (distinct : shared.stored.Nodup)
    (pointed : (later.pointers : Multiset Nat) = gather Party.points (left + others)) :
    ∀ call ∈ later.pointers, call ∈ later.stored ∨ call ∈ taken later (left + others) := by
  intro call pointer
  rw [← Multiset.mem_coe, pointed] at pointer
  rcases turned.pointing pointer with before | first
  · rw [← invariant.pointed, Multiset.mem_coe] at before
    rcases invariant.filled call before with there | taken
    · exact turned.mem_stored distinct pointed there pointer
    · exact .inr (turned.mem_taken taken)
  · exact .inl first

/-- Whoever completes a call that is not completed takes the handler. -/
theorem Turned.completing (turned : Turned platform shared party outcome later left)
    (there : call ∈ shared.stored)
    (completing : ∃ arguments, .complete call arguments ∈ (↑[party] + others : Multiset Party)) :
    (∃ arguments, .complete call arguments ∈ (left + others : Multiset Party)) ∨
      call ∈ taken later (left + others) := by
  obtain ⟨arguments, member⟩ := completing
  rcases Multiset.mem_add.mp member with here | elsewhere
  · cases List.mem_singleton.mp here
    cases turned with
    | takes =>
        right
        rw [taken, gather_add, gather_cons, Party.invokes]
        simp
    | returns empty => exact absurd there empty
  · exact .inl ⟨arguments, Multiset.mem_add.mpr (.inr elsewhere)⟩

/-- What is decided by a turn is completed next. -/
theorem Turned.deciding (turned : Turned platform shared party outcome later left)
    (decided : Decided later call) : Decided shared call ∨ call ∈ taken later (left + others) ∨
      call ∈ party.points ∧ ∃ arguments, .complete call arguments ∈ left := by
  rcases decided with failed | ⟨ec, bytes, answered⟩
  · cases turned with
    | readies | shares | exhausts | spawns | answers | takes => exact .inl (.inl failed)
    | leaves | destroyed | returns | invokes =>
        simp only [State.invoke, release_history] at failed
        exact .inl (.inl failed)
    | rejects =>
        rcases List.mem_append.mp failed with before | new
        · exact .inl (.inl before)
        · rw [List.mem_singleton.mp new]
          right; left
          simp [taken, State.finished, State.invoke]
    | refuses | throws =>
        rcases List.mem_append.mp failed with before | new
        · exact .inl (.inl before)
        · cases List.mem_singleton.mp new
          exact .inr (.inr ⟨List.mem_singleton_self _, _, List.mem_singleton_self _⟩)
    | startsAndThrows =>
        rcases List.mem_append.mp failed with before | new
        · exact .inl (.inl before)
        · cases List.mem_singleton.mp new
          exact .inr (.inr ⟨List.mem_singleton_self _, _, List.mem_pair.mpr (.inr rfl)⟩)
  · cases turned with
    | readies | rejects | shares | exhausts | spawns | refuses | startsAndThrows | throws | takes =>
        exact .inl (.inr ⟨ec, bytes, answered⟩)
    | leaves | destroyed | returns | invokes =>
        simp only [State.invoke, release_history] at answered
        exact .inl (.inr ⟨ec, bytes, answered⟩)
    | answers =>
        rcases List.mem_append.mp answered with before | new
        · exact .inl (.inr ⟨ec, bytes, before⟩)
        · cases List.mem_singleton.mp new
          exact .inr (.inr ⟨List.mem_singleton_self _, _, List.mem_singleton_self _⟩)

theorem Turned.decided (turned : Turned platform shared party outcome later left)
    (invariant : Invariant platform shared (↑[party] + others))
    (distinct : shared.stored.Nodup)
    (pointed : (later.pointers : Multiset Nat) = gather Party.points (left + others)) :
    ∀ call, Decided later call → call ∈ taken later (left + others) ∨
      call ∈ later.stored ∧
        ∃ arguments, .complete call arguments ∈ (left + others : Multiset Party) := by
  intro call decided
  have completed : call ∈ shared.stored →
      (∃ arguments, .complete call arguments ∈ (left + others : Multiset Party)) →
      call ∈ taken later (left + others) ∨ call ∈ later.stored ∧
        ∃ arguments, .complete call arguments ∈ (left + others : Multiset Party) := by
    rintro there ⟨arguments, member⟩
    have pointing : call ∈ gather Party.points (left + others) :=
      mem_gather.mpr ⟨_, member, List.mem_singleton_self _⟩
    rcases turned.mem_stored distinct pointed there pointing with stays | taken
    · exact .inr ⟨stays, arguments, member⟩
    · exact .inl taken
  rcases turned.deciding decided with before | taken | ⟨points, arguments, member⟩
  · rcases invariant.decided call before with taken | ⟨there, completing⟩
    · exact .inl (turned.mem_taken taken)
    · rcases turned.completing there completing with completing | taken
      · exact completed there completing
      · exact .inl taken
  · exact .inl taken
  · have pointer : call ∈ shared.pointers := by
      rw [← Multiset.mem_coe, invariant.pointed, gather_add, gather_cons]
      exact Multiset.mem_add.mpr (.inl (Multiset.mem_add.mpr (.inl points)))
    rcases invariant.filled call pointer with there | taken
    · exact completed there ⟨arguments, Multiset.mem_add.mpr (.inl member)⟩
    · exact .inl (turned.mem_taken taken)

/-- A stored handler is stored once. -/
theorem Invariant.nodup {parties : Multiset Party} (invariant : Invariant platform shared parties) :
    shared.stored.Nodup := by
  have distinct : (shared.called : Multiset Nat).Nodup := invariant.distinct
  rw [invariant.accounted] at distinct
  have handlers := Multiset.nodup_of_le (Multiset.le_add_right _ _) distinct
  have states := Multiset.nodup_of_le (Multiset.le_add_left _ _) handlers
  exact Multiset.nodup_of_le (Multiset.le_add_right _ _) states

/-- A turn keeps the invariant. -/
theorem Turned.invariant (turned : Turned platform shared party outcome later left)
    (invariant : Invariant platform shared (↑[party] + others)) :
    Invariant platform later (left + others) := by
  have pointed := turned.pointed invariant.pointed
  exact {
    distinct := turned.called ▸ invariant.distinct
    accounted := turned.accounted invariant.accounted
    pointed
    owned := turned.owned invariant.nodup invariant.owned
    filled := turned.filled invariant invariant.nodup pointed
    promised := turned.promised invariant.promised
    explained := turned.explained invariant.promised invariant.explained
    decided := turned.decided invariant invariant.nodup pointed }

end Turn

end Wan.Transport.Completion
