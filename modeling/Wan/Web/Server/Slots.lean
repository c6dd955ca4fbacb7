import Mathlib.Data.Multiset.Range
import Wan.Web.Server.Turns

/-!
# The accounting of connection slots

A turn acquires a slot, gives the slot it holds back, or leaves all slots as they are.  The
slots that parties hold and those given back are therefore, in every run, those acquired.
-/

namespace Wan.Web.Server

open Wan.Library

/-- The slot that a party answers for. -/
def Party.slots : Party → List Nat
  | .run stage => stage.slots
  | .connection slot _ _ => [slot]
  | _ => []

/-- The slots that parties answer for. -/
def held (parties : List Party) : List Nat := parties.flatMap Party.slots

/-- What a change does to the slots. -/
inductive SlotChange (settings : Settings) (state : State) (acting : List Party)
    (later : State) (left : List Party) : Prop where
  | quiet (active : later.activeConnections = state.activeConnections)
      (acquired : later.acquired = state.acquired) (released : later.released = state.released)
      (slots : held left = held acting) :
      SlotChange settings state acting later left
  | acquire (current : UInt64) (acts : acting = [.run (.acquire current)])
      (below : state.activeConnections < settings.maxConnections)
      (active : later.activeConnections = state.activeConnections + 1)
      (acquired : later.acquired = state.acquired + 1) (released : later.released = state.released)
      (after : held left = [state.acquired]) :
      SlotChange settings state acting later left
  | release (slot : Nat) (active : later.activeConnections = state.activeConnections - 1)
      (acquired : later.acquired = state.acquired)
      (released : later.released = state.released ++ [slot])
      (before : held acting = [slot]) (after : held left = []) :
      SlotChange settings state acting later left

variable {settings : Settings} {condition : State → Party → Outcome → Prop}
  {state later : State} {acting left : List Party}

@[simp] theorem held_nil : held [] = [] := rfl

@[simp] theorem held_append (front back : List Party) :
    held (front ++ back) = held front ++ held back := List.flatMap_append

@[simp] theorem held_run (stage : RunStage) : held [.run stage] = stage.slots :=
  List.append_nil _

@[simp] theorem held_tasks (tasks : List Task) : held (tasks.map .task) = [] := by
  simp [held, Party.slots]

@[simp] theorem held_rest (resume : Resume) : held resume.rest = [] := by
  cases resume <;> rfl

theorem RunTurned.slots {stage : RunStage} {outcome : Outcome}
    (turned : RunTurned settings state stage outcome later left) :
    SlotChange settings state [.run stage] later left := by
  cases turned with
  | goesOn slots =>
      refine .quiet rfl rfl rfl ?_
      rw [held_run, held_run, slots]
  | acquire below => exact .acquire _ rfl below rfl rfl rfl rfl
  | release slot holds free =>
      refine .release slot rfl rfl rfl ?_ ?_
      · rw [held_run, holds]
      · rw [held_run, free]
  | enter | skip | launch | unregister | complete | fail => exact .quiet rfl rfl rfl rfl

theorem ConnectionTurned.slots {slot : Nat} {id : UInt64} {stage : ConnectionStage}
    (turned : ConnectionTurned state slot id stage later left) :
    SlotChange settings state [.connection slot id stage] later left := by
  cases turned with
  | goesOn | remove => exact .quiet rfl rfl rfl rfl
  | release => exact .release slot rfl rfl rfl rfl rfl

theorem ForceStopTurned.slots {resume : Resume} {stage : StopStage}
    (turned : ForceStopTurned state resume stage later left) :
    SlotChange settings state [.forceStop resume stage] later left := by
  cases turned with
  | unstarted => exact .quiet rfl rfl rfl (held_rest resume)
  | lock | dispatched | dispatch | sweep | swept | close => exact .quiet rfl rfl rfl rfl

theorem MaybeFinishTurned.slots {resume : Resume} {stage : FinishStage}
    (turned : MaybeFinishTurned state resume stage later left) :
    SlotChange settings state [.maybeFinish resume stage] later left := by
  cases turned with
  | wake | decide => exact .quiet rfl rfl rfl rfl
  | pass | stop => exact .quiet rfl rfl rfl (held_rest resume)
  | cancel timer =>
      apply SlotChange.quiet rfl rfl rfl
      rw [held_append, held_tasks, held_rest]
      rfl

theorem GracefulTurned.slots {stage : GracefulStage}
    (turned : GracefulTurned state stage later left) :
    SlotChange settings state [.beginGracefulStop stage] later left := by
  cases turned with
  | refused | checked | lock | unspawned | spawned => exact .quiet rfl rfl rfl rfl
  | finish acceptor | schedule acceptor =>
      apply SlotChange.quiet rfl rfl rfl
      rw [held_append, held_tasks]
      rfl

theorem DrainTurned.slots {stage : DrainStage} (turned : DrainTurned state stage later left) :
    SlotChange settings state [.drain stage] later left := by
  cases turned
  all_goals exact .quiet rfl rfl rfl rfl

theorem TaskTurned.slots {task : Task} (turned : TaskTurned state task later left) :
    SlotChange settings state [.task task] later left := by
  cases turned
  all_goals exact .quiet rfl rfl rfl rfl

theorem OutsideTurned.slots {call : Call} (turned : OutsideTurned state call later left) :
    SlotChange settings state [] later left := by
  cases turned
  all_goals exact .quiet rfl rfl rfl rfl

/-- Every change acquires a slot, gives one back or leaves them alone. -/
theorem change_slots (change : (system settings).Change condition state acting later left) :
    SlotChange settings state acting later left := by
  cases change with
  | turn party outcome allowed taken =>
      cases party with
      | run stage => exact (runTurn_turned taken).slots
      | connection slot id stage => exact (connectionTurn_turned (Option.some.inj taken)).slots
      | forceStop resume stage => exact (forceStopTurn_turned (Option.some.inj taken)).slots
      | maybeFinish resume stage => exact (maybeFinishTurn_turned (Option.some.inj taken)).slots
      | beginGracefulStop stage =>
          exact (beginGracefulStopTurn_turned (Option.some.inj taken)).slots
      | completeDrainTimer resume =>
          cases taken
          exact .quiet rfl rfl rfl rfl
      | drain stage => exact (drainTurn_turned taken).slots
      | recordWorkerFailure =>
          cases taken
          exact .quiet rfl rfl rfl rfl
      | task task => exact (taskTurn_turned taken).slots
  | outside call taken => exact (outside_turned taken).slots

/-- The counter counts the slots that are held, and these with those given back are the
acquired ones. -/
structure Accounted (settings : Settings) (state : State) (slots : Multiset Nat) : Prop where
  conserved : slots + ↑state.released = Multiset.range state.acquired
  counted : state.activeConnections.toNat = slots.card
  bounded : state.activeConnections ≤ settings.maxConnections

/-- The slots that the parties of a multiset answer for. -/
def slotsOf (parties : Multiset Party) : Multiset Nat := parties.bind fun party => ↑party.slots

theorem slotsOf_coe (parties : List Party) : slotsOf parties = ↑(held parties) :=
  Multiset.coe_bind parties Party.slots

theorem slotsOf_add (front back : Multiset Party) :
    slotsOf (front + back) = slotsOf front + slotsOf back := Multiset.add_bind ..

theorem Accounted.initial : Accounted settings initial.shared (slotsOf initial.parties) where
  conserved := rfl
  counted := rfl
  bounded := UInt64.zero_le

/-- Every change of the slots keeps the account. -/
theorem Accounted.change {others : Multiset Nat}
    (change : SlotChange settings state acting later left)
    (accounted : Accounted settings state (↑(held acting) + others)) :
    Accounted settings later (↑(held left) + others) := by
  cases change with
  | quiet active acquired released slots =>
      rw [slots]
      constructor
      · rw [released, acquired]
        exact accounted.conserved
      · rw [active]
        exact accounted.counted
      · rw [active]
        exact accounted.bounded
  | acquire current acts below active acquired released after =>
      have before : held acting = [] := by
        rw [acts]
        rfl
      rw [before] at accounted
      have increased : later.activeConnections.toNat = state.activeConnections.toNat + 1 := by
        rw [active, UInt64.toNat_add, UInt64.toNat_one]
        apply Nat.mod_eq_of_lt
        exact Nat.lt_of_le_of_lt (UInt64.lt_iff_toNat_lt.mp below) settings.maxConnections.toNat_lt
      constructor
      · have conserved := accounted.conserved
        rw [Multiset.coe_nil, zero_add] at conserved
        rw [after, released, acquired, Multiset.range_succ, ← conserved, add_assoc]
        rfl
      · have counted := accounted.counted
        rw [Multiset.coe_nil, zero_add] at counted
        rw [after, increased, counted, Multiset.card_add, Multiset.coe_card, List.length_singleton,
          Nat.add_comm]
      · rw [UInt64.le_iff_toNat_le, increased]
        exact UInt64.lt_iff_toNat_lt.mp below
  | release slot active acquired released before after =>
      rw [before] at accounted
      have counted := accounted.counted
      rw [Multiset.card_add, Multiset.coe_card, List.length_singleton] at counted
      have decreased : later.activeConnections.toNat = others.card := by
        rw [active, UInt64.toNat_sub_of_le _ _ ?_, UInt64.toNat_one, counted,
          Nat.add_sub_cancel_left]
        rw [UInt64.le_iff_toNat_le, UInt64.toNat_one, counted]
        exact Nat.le_add_right ..
      constructor
      · rw [after, released, acquired, ← accounted.conserved, ← Multiset.coe_add,
          Multiset.coe_nil, zero_add, add_comm ↑[slot] others, add_assoc,
          add_comm (↑state.released : Multiset Nat)]
      · rw [after, decreased, Multiset.coe_nil, zero_add]
      · have bounded := UInt64.le_iff_toNat_le.mp accounted.bounded
        rw [UInt64.le_iff_toNat_le, decreased]
        omega

/-- In every run the slots are accounted for. -/
theorem accounted_of_reachable {pool : Pool State Party}
    (reachable : (system settings).Reachable initial pool) :
    Accounted settings pool.shared (slotsOf pool.parties) := by
  apply reachable.invariant (fun _ _ => True)
    (fun state parties => Accounted settings state (slotsOf parties))
  · intros
    trivial
  · exact Accounted.initial
  · intro state later acting left others change _ _ accounted
    rw [slotsOf_add, slotsOf_coe] at accounted ⊢
    exact accounted.change (change_slots change)

namespace Accounted

variable {slots : Multiset Nat}

/-- A slot is held or given back, and not both. -/
theorem disjoint (accounted : Accounted settings state slots) {slot : Nat} (member : slot ∈ slots) :
    slot ∉ state.released := by
  have unique := Multiset.nodup_range state.acquired
  rw [← accounted.conserved] at unique
  exact Multiset.disjoint_left.mp (Multiset.nodup_add.mp unique).2.2 member

theorem unreleased (accounted : Accounted settings state slots) :
    ((List.range state.acquired).filter fun slot => slot ∉ state.released).length = slots.card := by
  have none : (↑state.released : Multiset Nat).filter (· ∉ state.released) = 0 :=
    Multiset.filter_eq_nil.mpr fun slot member => not_not_intro member
  have split : (Multiset.range state.acquired).filter (· ∉ state.released) = slots := by
    rw [← accounted.conserved, Multiset.filter_add, none, add_zero]
    exact Multiset.filter_eq_self.mpr fun slot member => accounted.disjoint member
  rw [← split]
  rfl

theorem count_add (accounted : Accounted settings state slots) (slot : Nat) :
    slots.count slot + state.released.count slot = if slot < state.acquired then 1 else 0 := by
  rw [← Multiset.coe_count, ← Multiset.count_add, accounted.conserved]
  split
  next below =>
    exact Multiset.count_eq_one_of_mem (Multiset.nodup_range _) (Multiset.mem_range.mpr below)
  next above => exact Multiset.count_eq_zero.mpr fun member => above (Multiset.mem_range.mp member)

end Accounted

/-- In every run the counter counts the slots that have been acquired and not given back, it
stays within the limit and is positive whenever a slot is about to be given back; and each
acquired slot is held by one party, or has been given back once. -/
theorem slot_accounting {pool : Pool State Party}
    (reachable : (system settings).Reachable initial pool) :
    pool.shared.activeConnections.toNat =
        ((List.range pool.shared.acquired).filter fun slot => slot ∉ pool.shared.released).length ∧
      pool.shared.activeConnections ≤ settings.maxConnections ∧
      (∀ party ∈ pool.parties, party.slots ≠ [] → 0 < pool.shared.activeConnections) ∧
      ∀ slot, (held pool.parties).count slot + pool.shared.released.count slot =
        if slot < pool.shared.acquired then 1 else 0 := by
  have accounted := accounted_of_reachable reachable
  rw [slotsOf_coe] at accounted
  refine ⟨?_, accounted.bounded, ?_, ?_⟩
  · rw [accounted.unreleased, accounted.counted]
  · intro party member holds
    rw [UInt64.lt_iff_toNat_lt, accounted.counted]
    apply List.length_pos_of_ne_nil
    intro none
    exact holds (List.flatMap_eq_nil_iff.mp none party member)
  · intro slot
    rw [← accounted.count_add slot, Multiset.coe_count]

/-- A second connection is accepted, and the first one ends. -/
def endFirst : List (Event Outcome Call) :=
  acceptOne ++ List.replicate 10 (.turn 0 .done) ++ [.turn 2 .done, .turn 2 .failed] ++
    List.replicate 3 (.turn 2 .done)

theorem slot_accounting_example :
    ∃ pool, endFirst.foldlM (system {}).step initial = some pool ∧
      pool.shared.acquired = 2 ∧ pool.shared.released = [0] ∧
      pool.shared.activeConnections.toNat =
        ((List.range 2).filter fun slot => slot ∉ [0]).length ∧
      (held pool.parties).count 0 + [0].count 0 = 1 ∧
      (held pool.parties).count 1 + [0].count 1 = 1 := by
  let ended : Pool State Party :=
    { shared :=
        { serving.shared with
          activeConnections := 1, registry := ⟨[2], 3⟩, acquired := 2, released := [0] }
      parties := [.run .accept, .connection 1 2 .begin, .maybeFinish .finished .check] }
  have run : endFirst.foldlM (system {}).step initial = some ended := by decide +kernel
  have accounts := slot_accounting (System.reaches_of_run run)
  exact ⟨ended, run, rfl, rfl, accounts.1, accounts.2.2.2 0, accounts.2.2.2 1⟩

end Wan.Web.Server
