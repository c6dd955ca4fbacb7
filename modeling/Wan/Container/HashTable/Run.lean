import Wan.Container.HashTable.Lifetime
import Wan.Library.InsertionMap

/-!
# Runs of a hash table

Sequences of the public operations on a new table and the insertion-ordered map
they implement.  A call that raises answers with its exception.
-/

namespace Wan.Container.HashTable

open Wan.Library Wan.Library.LinkedList Wan.Library.Program

/-- The public operations; `elements` iterates from `Begin` to `End`. -/
inductive Operation (Key Value : Type) where
  | push (value : Value)
  | pop (value : Value)
  | popKey (keyValue : Key)
  | find (value : Value)
  | findKey (keyValue : Key)
  | changeLoadFactor (newLoadFactor : UInt64)
  | size
  | elements
  deriving Repr

/-- What an operation returns, with node pointers dereferenced, or raises. -/
inductive Answer (Value : Type) where
  | pushed (inserted : Bool)
  | popped (removed : Bool)
  | found (element : Option Value)
  | changed (accepted : Bool)
  | counted (size : Nat)
  | listed (elements : List Value)
  | threw (fault : Fault)
  deriving DecidableEq, Repr

variable {Key Value : Type}

section Model

variable [DecidableEq Key] (policy : Policy Key Value)

/-- The element behind a node pointer. -/
def deref : Option Addr → Method Value (Option Value)
  | none => return none
  | some node => do
      let cell ← read node
      return some cell.memberData

/-- Call a member function. -/
def call : Operation Key Value → Method Value (Answer Value)
  | .push value => return .pushed (← push policy value)
  | .pop value => return .popped (← pop policy value)
  | .popKey keyValue => return .popped (← popKey policy keyValue)
  | .find value => return .found (← deref (← find policy value))
  | .findKey keyValue => return .found (← deref (← findKey policy keyValue))
  | .changeLoadFactor newLoadFactor => return .changed (← changeLoadFactor policy newLoadFactor)
  | .size => return .counted (← get).self.memberSize
  | .elements => return .listed (← elements)

/-- Perform one operation, catching what it raises. -/
def perform (operation : Operation Key Value) : Method Value (Answer Value) :=
  tryCatch (call policy operation) fun fault => pure (.threw fault)

/-- Perform a sequence of operations and collect their answers. -/
def performAll : List (Operation Key Value) → Method Value (List (Answer Value))
  | [] => return []
  | operation :: operations => do
      let answer ← perform policy operation
      let answers ← performAll operations
      return answer :: answers

/-- Construct a table with a capacity and perform a sequence of operations on it. -/
def session (capacity : UInt64) (operations : List (Operation Key Value)) :
    Method Value (List (Answer Value)) := do
  construct policy capacity
  performAll policy operations

/-- The state in which a table with a capacity is about to be constructed. -/
def State.initial (capacity : UInt64) : State Value := ⟨.empty, 0, .blank 7 capacity.toNat⟩

end Model

section Specification

variable [DecidableEq Key] {key : Value → Key}

/-- The operations on the insertion-ordered map that the table stands for. -/
def specify (map : InsertionMap key) :
    Operation Key Value → InsertionMap key × Answer Value
  | .push value => (map.insert value, .pushed (map.find? (key value)).isNone)
  | .pop value => (map.erase (key value), .popped (map.find? (key value)).isSome)
  | .popKey keyValue => (map.erase keyValue, .popped (map.find? keyValue).isSome)
  | .find value => (map, .found (map.find? (key value)))
  | .findKey keyValue => (map, .found (map.find? keyValue))
  | .changeLoadFactor newLoadFactor =>
      (map, .changed (decide (1 ≤ newLoadFactor.toNat ∧ newLoadFactor.toNat ≤ 10)))
  | .size => (map, .counted map.size)
  | .elements => (map, .listed map.toList)

/-- A sequence of operations on the map. -/
def specifyRun (map : InsertionMap key) : List (Operation Key Value) → List (Answer Value)
  | [] => []
  | operation :: operations =>
      let (map, answer) := specify map operation
      answer :: specifyRun map operations

/-- Every answer is the one of the map, or an excused exception that left the map
as it was. -/
def Follows (policy : Policy Key Value) (map : InsertionMap policy.valueImitationFunctions) :
    List (Operation Key Value) → List (Answer Value) → Prop
  | [], answers => answers = []
  | _ :: _, [] => False
  | operation :: operations, answer :: answers =>
      (answer = (specify map operation).2 ∧
        Follows policy (specify map operation).1 operations answers) ∨
      ∃ fault, answer = .threw fault ∧ Excused policy (map.size + 1) fault ∧
        Follows policy map operations answers

end Specification

section Steps

variable {policy : Policy Key Value} {frame : Nodes Value}
variable {state : State Value} {entries : List (Entry Value)} {count : Nat}

theorem Roomy.mono {larger : Nat} (roomy : Roomy policy larger) (le : count ≤ larger) :
    Roomy policy count :=
  ⟨Nat.le_trans (Nat.mul_le_mul_left _ le) roomy.1, Nat.le_trans le roomy.2.1, roomy.2.2⟩

theorem Excused.mono {larger : Nat} {fault : Fault} (excused : Excused policy count fault)
    (le : count ≤ larger) : Excused policy larger fault := by
  cases fault with
  | raised => exact excused
  | lengthError what => exact fun roomy => excused (roomy.mono le)
  | logicError what => exact excused
  | fault what functionName => exact excused

variable [DecidableEq Key] {map : InsertionMap policy.valueImitationFunctions}

/-- Looking up an entry is looking up a value in the map. -/
theorem lookup_eq_find? (same : map.toList = entries.map Prod.snd) (keyValue : Key) :
    (lookup policy entries keyValue).map Prod.snd = map.find? keyValue := by
  rw [InsertionMap.find?, same, List.find?_map]
  rfl

/-- Dereferencing the node of an entry yields its value. -/
theorem deref_spec {raises : Fault → State Value → Prop} {keyValue : Key}
    (valid : Valid policy frame state entries) :
    Runs (deref ((lookup policy entries keyValue).map Prod.fst)) state
      (fun element next => next = state ∧
        element = (lookup policy entries keyValue).map Prod.snd) raises := by
  rcases present : lookup policy entries keyValue with _ | entry
  · exact ⟨rfl, rfl⟩
  · rcases valid.holds.live (List.mem_of_find?_eq_some present) with ⟨cell, live, data⟩
    simp only [Option.map_some, deref, runs_bind, runs_read live, runs_pure, data, and_self]

/-- `Pop` and `PopKey` answer as erasing from the map does. -/
theorem Popped.erased {keyValue : Key} {answer : Bool} {next : State Value}
    (popped : Popped policy frame entries keyValue answer next)
    (same : map.toList = entries.map Prod.snd) :
    answer = (map.find? keyValue).isSome ∧ ∃ rest, Valid policy frame next rest ∧
      (map.erase keyValue).toList = rest.map Prod.snd := by
  have found := lookup_eq_find? same keyValue
  rcases popped with ⟨rfl, absent, valid⟩ | ⟨rfl, earlier, node, stored, later, rfl, key, valid⟩
  · rw [absent] at found
    refine ⟨by rw [← found]; rfl, entries, valid, ?_⟩
    rw [InsertionMap.erase_of_none found.symm, same]
  · have split : map.toList = earlier.map Prod.snd ++ stored :: later.map Prod.snd := by
      rw [same]
      simp
    subst key
    refine ⟨by rw [InsertionMap.find?_middle split]; rfl, _, valid, ?_⟩
    rw [InsertionMap.erase_middle split]
    simp

/-- A member function answers as the map does, or raises and changes nothing. -/
theorem call_spec (operation : Operation Key Value) (valid : Valid policy frame state entries)
    (same : map.toList = entries.map Prod.snd) :
    Runs (call policy operation) state
      (fun answer next => ∃ rest, Valid policy frame next rest ∧
        answer = (specify map operation).2 ∧
        (specify map operation).1.toList = rest.map Prod.snd)
      (Refused policy frame (entries.length + 1) entries) := by
  have refused : ∀ fault next, Refused policy frame entries.length entries fault next →
      Refused policy frame (entries.length + 1) entries fault next := by
    intro fault next refused
    exact ⟨refused.1.mono (Nat.le_succ _), refused.2⟩
  cases operation with
  | push value =>
      simp only [call, runs_bind, runs_pure]
      apply (push_spec valid).mono
      · have found := lookup_eq_find? same (policy.valueImitationFunctions value)
        rintro answer next (⟨rfl, validNext, entry, present⟩ | ⟨rfl, absent, node, validNext⟩)
        · rw [present] at found
          refine ⟨entries, validNext, by simp [specify, ← found], ?_⟩
          rw [specify, InsertionMap.insert_of_some found.symm, same]
        · rw [absent] at found
          refine ⟨_, validNext, by simp [specify, ← found], ?_⟩
          rw [specify, InsertionMap.insert_of_none found.symm, same]
          simp
      · exact fun _ _ => id
  | pop value =>
      simp only [call, runs_bind, runs_pure]
      apply (pop_spec valid).mono
      · intro answer next popped
        rcases popped.erased same with ⟨rfl, rest, validNext, listed⟩
        exact ⟨rest, validNext, rfl, listed⟩
      · exact refused
  | popKey keyValue =>
      simp only [call, runs_bind, runs_pure]
      apply (popKey_spec valid).mono
      · intro answer next popped
        rcases popped.erased same with ⟨rfl, rest, validNext, listed⟩
        exact ⟨rest, validNext, rfl, listed⟩
      · exact refused
  | find value =>
      simp only [call, runs_bind, runs_pure]
      apply (find_spec valid).mono
      · rintro found next ⟨quiet, rfl⟩
        apply (deref_spec (valid.quiet quiet)).mono
        · rintro element last ⟨rfl, rfl⟩
          exact ⟨entries, valid.quiet quiet, by rw [specify, lookup_eq_find? same], same⟩
        · exact fun _ _ => id
      · exact refused
  | findKey keyValue =>
      simp only [call, findKey, runs_bind, runs_pure]
      apply (findNodeByKey_spec valid).mono
      · rintro found next ⟨quiet, rfl⟩
        apply (deref_spec (valid.quiet quiet)).mono
        · rintro element last ⟨rfl, rfl⟩
          exact ⟨entries, valid.quiet quiet, by rw [specify, lookup_eq_find? same], same⟩
        · exact fun _ _ => id
      · exact refused
  | changeLoadFactor newLoadFactor =>
      simp only [call, runs_bind, runs_pure]
      apply (changeLoadFactor_spec newLoadFactor valid).mono
      · rintro answer next ⟨validNext, rfl⟩
        exact ⟨entries, validNext, rfl, same⟩
      · exact refused
  | size =>
      refine ⟨entries, valid, ?_, same⟩
      rw [specify, InsertionMap.size, same, List.length_map, valid.holds.size_eq]
  | elements =>
      simp only [call, runs_bind, runs_pure]
      apply (elements_spec valid).mono
      · rintro listed next ⟨rfl, rfl⟩
        exact ⟨entries, valid, by rw [specify, same], same⟩
      · exact fun _ _ => id

/-- One operation answers as the map does, or with an excused exception that has
changed nothing. -/
theorem perform_spec {raises : Fault → State Value → Prop} (operation : Operation Key Value)
    (valid : Valid policy frame state entries) (same : map.toList = entries.map Prod.snd) :
    Runs (perform policy operation) state
      (fun answer next => ∃ rest, Valid policy frame next rest ∧
        ((answer = (specify map operation).2 ∧
            (specify map operation).1.toList = rest.map Prod.snd) ∨
          ∃ fault, answer = .threw fault ∧ Excused policy (map.size + 1) fault ∧
            map.toList = rest.map Prod.snd))
      raises := by
  have size : map.size = entries.length := by rw [InsertionMap.size, same, List.length_map]
  rw [perform, runs_tryCatch]
  apply (call_spec operation valid same).mono
  · rintro answer next ⟨rest, validNext, outcome⟩
    exact ⟨rest, validNext, .inl outcome⟩
  · rintro fault next ⟨excused, validNext⟩
    exact ⟨entries, validNext, .inr ⟨fault, rfl, size ▸ excused, same⟩⟩

/-- A sequence of operations follows the map. -/
theorem performAll_spec {raises : Fault → State Value → Prop}
    (operations : List (Operation Key Value)) (valid : Valid policy frame state entries)
    (same : map.toList = entries.map Prod.snd) :
    Runs (performAll policy operations) state
      (fun answers next => Follows policy map operations answers ∧
        ∃ rest, Valid policy frame next rest)
      raises := by
  induction operations generalizing state entries map with
  | nil => exact ⟨rfl, entries, valid⟩
  | cons operation operations ih =>
      simp only [performAll, runs_bind, runs_pure]
      apply (perform_spec operation valid same).mono
      · intro answer next outcome
        rcases outcome with ⟨rest, validNext, ⟨rfl, listed⟩ | ⟨fault, rfl, excused, listed⟩⟩
        · apply (ih validNext listed).mono
          · intro answers last outcome
            exact ⟨.inl ⟨rfl, outcome.1⟩, outcome.2⟩
          · exact fun _ _ => id
        · apply (ih validNext listed).mono
          · intro answers last outcome
            exact ⟨.inr ⟨fault, rfl, excused, outcome.1⟩, outcome.2⟩
          · exact fun _ _ => id
      · exact fun _ _ => id

/-- One operation adds at most one value. -/
theorem specify_size_le (map : InsertionMap policy.valueImitationFunctions)
    (operation : Operation Key Value) : (specify map operation).1.size ≤ map.size + 1 := by
  cases operation with
  | push value =>
      rcases present : map.find? (policy.valueImitationFunctions value) with _ | other
      · rw [specify, InsertionMap.size, InsertionMap.insert_of_none present, List.length_append]
        exact Nat.le_refl _
      · rw [specify, InsertionMap.insert_of_some present]
        exact Nat.le_succ _
  | pop value => exact Nat.le_succ_of_le (List.length_filter_le ..)
  | popKey keyValue => exact Nat.le_succ_of_le (List.length_filter_le ..)
  | find value => exact Nat.le_succ _
  | findKey keyValue => exact Nat.le_succ _
  | changeLoadFactor newLoadFactor => exact Nat.le_succ _
  | size => exact Nat.le_succ _
  | elements => exact Nat.le_succ _

/-- Where nothing raises and the arrays have room, the answers are those of the map. -/
theorem Follows.eq_specifyRun {operations : List (Operation Key Value)}
    {answers : List (Answer Value)} (follows : Follows policy map operations answers)
    (calm : ∀ moment, policy.faults moment = false)
    (roomy : Roomy policy (map.size + operations.length)) :
    answers = specifyRun map operations := by
  induction operations generalizing map answers with
  | nil => exact follows
  | cons operation operations ih =>
      rcases answers with _ | ⟨answer, answers⟩
      · exact absurd follows id
      · rw [List.length_cons] at roomy
        rcases follows with ⟨rfl, follows⟩ | ⟨fault, rfl, excused, _⟩
        · have grown := specify_size_le map operation
          rw [ih follows (roomy.mono (by omega))]
          rfl
        · cases fault with
          | raised =>
              rcases excused with ⟨moment, faulty⟩
              simp [calm moment] at faulty
          | lengthError what => exact absurd (roomy.mono (by omega)) excused
          | logicError what => exact absurd excused id
          | fault what functionName => exact absurd excused id

end Steps

/-- A new table is constructed unless its capacity is too large or its allocation
raises, and every sequence of operations on it answers as the insertion-ordered map
does, an excused exception apart, which changes nothing.  Nothing is excused where
user code and the allocator do not raise and the arrays have room. -/
theorem hashTable_run_refines [DecidableEq Key] (policy : Policy Key Value) (capacity : UInt64)
    (operations : List (Operation Key Value)) :
    Runs (session policy capacity operations) (State.initial capacity)
      (fun answers _ => Follows policy .empty operations answers ∧
        ((∀ moment, policy.faults moment = false) → Roomy policy operations.length →
          answers = specifyRun (.empty : InsertionMap policy.valueImitationFunctions) operations))
      (fun _ _ => policy.maxSize < capacity.toNat ∨ ∃ moment, policy.faults moment = true) := by
  rw [session, runs_bind]
  apply (construct_spec rfl).mono
  · intro _ state valid
    have same : (.empty : InsertionMap policy.valueImitationFunctions).toList =
        ([] : List (Entry Value)).map Prod.snd := rfl
    apply (performAll_spec operations valid same).mono
    · rintro answers next ⟨follows, _⟩
      refine ⟨follows, fun calm roomy => follows.eq_specifyRun calm ?_⟩
      rwa [show InsertionMap.size _ = 0 from rfl, Nat.zero_add]
    · exact fun _ _ => id
  · intro _ state outcome
    exact outcome.1

/-- Growth from no buckets, and an erasure between two collisions. -/
example :
    ((session (mapPolicy (fun _ => 3) 100 100 fun _ => false) 0
      [.push (1, "a"), .push (2, "b"), .push (3, "c"), .push (2, "d"), .popKey 2, .findKey 3,
        .elements]).run.run (State.initial 0)).map Prod.fst =
      some (.ok [.pushed true, .pushed true, .pushed true, .pushed false, .popped true,
        .found (some (3, "c")), .listed [(1, "a"), (3, "c")]]) := by
  decide +kernel

end Wan.Container.HashTable
