import Wan.Container.HashTable.Growth

/-!
# Lookup, insertion and removal

What `Find`, `Push`, `Pop` and their siblings do to the entries of a table.  A
lookup walks one bucket and decides about the whole table, because the hash of a
key fixes the bucket of its entry.
-/

namespace Wan.Container.HashTable

open Wan.Library Wan.Library.LinkedList Wan.Library.Program

variable {Key Value : Type} {policy : Policy Key Value} {frame : Nodes Value}
variable {state : State Value} {entries earlier later : List (Entry Value)}
variable {entry : Entry Value} {node : Addr} {value : Value} {bucket count fuel : Nat}

section Lookup

variable [DecidableEq Key]

/-- The entry stored under a key. -/
def lookup (policy : Policy Key Value) (entries : List (Entry Value)) (keyValue : Key) :
    Option (Entry Value) :=
  entries.find? fun entry => policy.valueImitationFunctions entry.2 = keyValue

variable {keyValue : Key}

theorem lookup_eq_none : lookup policy entries keyValue = none ↔
    ∀ entry ∈ entries, policy.valueImitationFunctions entry.2 ≠ keyValue := by
  simp [lookup]

/-- Only one entry has a key. -/
theorem lookup_eq_some
    (keys : (entries.map fun entry => policy.valueImitationFunctions entry.2).Nodup) :
    lookup policy entries keyValue = some entry ↔
      entry ∈ entries ∧ policy.valueImitationFunctions entry.2 = keyValue := by
  constructor
  · intro found
    exact ⟨List.mem_of_find?_eq_some found, by simpa using List.find?_some found⟩
  · intro present
    rcases found : lookup policy entries keyValue with _ | other
    · exact absurd present.2 (lookup_eq_none.mp found entry present.1)
    · have same := List.find?_some found
      rw [decide_eq_true_eq, ← present.2] at same
      rw [List.inj_on_of_nodup_map keys (List.mem_of_find?_eq_some found) present.1 same]

/-- The bucket of a key decides about the whole table. -/
theorem lookup_inBucket (capacity : Nat)
    (keys : (entries.map fun entry => policy.valueImitationFunctions entry.2).Nodup) :
    lookup policy (inBucket policy capacity ((policy.hashKey keyValue).toNat % capacity) entries)
      keyValue = lookup policy entries keyValue := by
  have bucketKeys : ((inBucket policy capacity ((policy.hashKey keyValue).toNat % capacity)
      entries).map fun entry => policy.valueImitationFunctions entry.2).Nodup := by
    rw [inBucket, List.map_reverse, List.nodup_reverse]
    exact keys.sublist (List.filter_sublist.map _)
  ext entry
  rw [lookup_eq_some bucketKeys, lookup_eq_some keys, mem_inBucket]
  constructor
  · intro found
    exact ⟨found.1.1, found.2⟩
  · intro found
    refine ⟨⟨found.1, ?_⟩, found.2⟩
    rw [home, policy.hashValue_eq, found.2]

/-- The loop over one bucket finds what the entries of the bucket contain. -/
theorem findInBucket_spec {raises : Fault → State Value → Prop}
    (chain : Chain (view (·.memberNext) state.heap.cells) (addresses entries) none)
    (data : ∀ entry ∈ entries, view (·.memberData) state.heap.cells entry.1 = some entry.2)
    (enough : entries.length ≤ fuel) :
    Runs (findInBucket policy keyValue fuel (addresses entries).head?) state
      (fun found next => next = state ∧ found = (lookup policy entries keyValue).map Prod.fst)
      raises := by
  induction entries generalizing fuel with
  | nil => cases fuel <;> exact ⟨rfl, rfl⟩
  | cons entry entries ih =>
      cases fuel with
      | zero => simp at enough
      | succ fuel =>
          rcases chain with ⟨link, chain⟩
          have found := data entry List.mem_cons_self
          rcases live : state.heap.cells entry.1 with _ | cell
          · simp [view, live] at found
          · simp only [view, live, Option.map_some, Option.some.injEq, Option.or_none]
              at link found
            simp only [addresses_cons, List.head?_cons, findInBucket, runs_bind, runs_read live]
            rw [found, link]
            split
            · next same => exact ⟨rfl, by simp [lookup, same]⟩
            · next different =>
              have skipped : lookup policy (entry :: entries) keyValue =
                  lookup policy entries keyValue := by
                simp [lookup, different]
              rw [skipped]
              exact ih chain (fun other member => data other (List.mem_cons_of_mem _ member))
                (Nat.le_of_succ_le_succ enough)

/-- Once the hash is known, the loop over its bucket finds the entry of the table. -/
theorem Valid.search {raises : Fault → State Value → Prop} {after : State Value} {hash : UInt64}
    (valid : Valid policy frame state entries) (same : Quiet state after)
    (positive : 0 < state.self.hashCapacity) (hashEq : hash = policy.hashKey keyValue) :
    Runs
      (do
        let bucket ← bucketOf hash state.self.hashCapacity
        let head ← slot state.self.vectorHashTable bucket
        findInBucket policy keyValue state.heap.next head)
      after
      (fun found next => Quiet state next ∧
        found = (lookup policy entries keyValue).map Prod.fst)
      raises := by
  subst hashEq
  have holds := valid.holds
  have below := Nat.mod_lt (policy.hashKey keyValue).toNat positive
  rw [runs_bind, runs_bucketOf positive, runs_bind, runs_slot (holds.bucketed.slots _ below),
    ← lookup_inBucket state.self.hashCapacity holds.keys]
  apply (findInBucket_spec _ _ _).mono
  · rintro found next ⟨rfl, outcome⟩
    exact ⟨same, outcome⟩
  · exact fun _ _ => id
  · rw [same.1]
    exact holds.bucketed.chains _ below
  · rw [same.1]
    intro entry member
    exact holds.data entry (mem_inBucket.mp member).1
  · apply Nat.le_trans _ valid.length_le
    rw [inBucket, List.length_reverse]
    exact List.length_filter_le ..

/-- `FindNodeByKey` finds the node of the key unless the hash function raises. -/
theorem runs_findNodeByKey {raises : Fault → State Value → Prop}
    (valid : Valid policy frame state entries)
    (fails : ∀ moment next, policy.faults moment = true → Quiet state next → raises .raised next) :
    Runs (findNodeByKey policy keyValue) state
      (fun found next => Quiet state next ∧
        found = (lookup policy entries keyValue).map Prod.fst)
      raises := by
  have holds := valid.holds
  simp only [findNodeByKey, runs_bind, runs_get]
  split
  · next empty =>
    have size : entries = [] := by
      have sizeEq := holds.size_eq
      have positive := holds.capacity_pos
      rw [← List.length_eq_zero_iff]
      omega
    subst size
    exact ⟨.refl, rfl⟩
  · next full =>
    have positive : 0 < state.self.hashCapacity := by omega
    rw [runs_bind]
    apply runs_hashOfKey
    · intro next same
      exact valid.search same positive rfl
    · exact fails

theorem findNodeByKey_spec (valid : Valid policy frame state entries) :
    Runs (findNodeByKey policy keyValue) state
      (fun found next => Quiet state next ∧
        found = (lookup policy entries keyValue).map Prod.fst)
      (Refused policy frame count entries) :=
  runs_findNodeByKey valid fun _ _ faulty same => .raised valid faulty same

/-- `Find` finds the node of the key of a value unless the hash function raises. -/
theorem runs_find {raises : Fault → State Value → Prop}
    (valid : Valid policy frame state entries)
    (fails : ∀ moment next, policy.faults moment = true → Quiet state next → raises .raised next) :
    Runs (find policy value) state
      (fun found next => Quiet state next ∧
        found = (lookup policy entries (policy.valueImitationFunctions value)).map Prod.fst)
      raises := by
  have holds := valid.holds
  simp only [find, runs_bind, runs_get]
  split
  · next empty =>
    have size : entries = [] := by
      rw [← List.length_eq_zero_iff, ← holds.size_eq, empty]
    subst size
    exact ⟨.refl, rfl⟩
  · next full =>
    have positive := holds.capacity_pos full
    rw [runs_bind]
    apply runs_hashOfValue
    · intro next same
      exact valid.search same positive (policy.hashValue_eq value)
    · exact fails

theorem find_spec (valid : Valid policy frame state entries) :
    Runs (find policy value) state
      (fun found next => Quiet state next ∧
        found = (lookup policy entries (policy.valueImitationFunctions value)).map Prod.fst)
      (Refused policy frame count entries) :=
  runs_find valid fun _ _ faulty same => .raised valid faulty same

end Lookup

section Links

variable {raises : Fault → State Value → Prop} {done : Unit → State Value → Prop}
variable {owner target : Option Addr}
variable (live : ∀ address, owner = some address → (state.heap.cells address).isSome)

include live

theorem runs_appendAfter : Runs (appendAfter node owner) state done raises ↔
    done () { state with
      heap := state.heap.adjustAt (fun cell => { cell with overallListNext := some node }) owner
      self := { state.self with
        overallListHeadNode := entrance state.self.overallListHeadNode (some node) owner } } := by
  cases owner with
  | none => rfl
  | some address =>
      rw [appendAfter, runs_write (live address rfl)]
      rfl

theorem runs_unlinkPrev : Runs (unlinkPrev target owner) state done raises ↔
    done () { state with
      heap := state.heap.adjustAt (fun cell => { cell with overallListNext := target }) owner
      self := { state.self with
        overallListHeadNode := entrance state.self.overallListHeadNode target owner } } := by
  cases owner with
  | none => rfl
  | some address =>
      rw [unlinkPrev, runs_write (live address rfl)]
      rfl

theorem runs_unlinkNext : Runs (unlinkNext target owner) state done raises ↔
    done () { state with
      heap := state.heap.adjustAt (fun cell => { cell with overallListPrev := target }) owner
      self := { state.self with
        overallListBeforeNode := entrance state.self.overallListBeforeNode target owner } } := by
  cases owner with
  | none => rfl
  | some address =>
      rw [unlinkNext, runs_write (live address rfl)]
      rfl

theorem runs_unlinkBucket : Runs (unlinkBucket bucket target owner) state done raises ↔
    done () { state with
      heap := state.heap.adjustAt (fun cell => { cell with memberNext := target }) owner
      self := { state.self with
        vectorHashTable := Bucketed.reslot state.self.vectorHashTable bucket target owner } } := by
  cases owner with
  | none => rfl
  | some address =>
      rw [unlinkBucket, runs_write (live address rfl)]
      rfl

end Links

section Insertion

/-- The heap after a node was made the last one of the insertion list. -/
def orderLinked (heap : Heap (HashTableNode Value)) (node : Addr) (tail : Option Addr) :
    Heap (HashTableNode Value) :=
  (heap.adjust node fun cell => { cell with overallListPrev := tail }).adjustAt
    (fun cell => { cell with overallListNext := some node }) tail

section OrderLinked

variable {heap : Heap (HashTableNode Value)} {tail : Option Addr}

theorem orderLinked_next (tailLive : ∀ address, tail = some address → (heap.cells address).isSome) :
    view (·.overallListNext) (orderLinked heap node tail).cells =
      redirect (view (·.overallListNext) heap.cells) (some node) tail := by
  have adjusted : ∀ address, tail = some address →
      ((heap.adjust node fun cell => { cell with overallListPrev := tail }).cells
        address).isSome := by
    intro address equal
    rw [← tailLive address equal]
    exact Heap.adjust_isSome address
  have first : view (·.overallListNext)
      (heap.adjust node fun cell => { cell with overallListPrev := tail }).cells =
        view (·.overallListNext) heap.cells := view_adjust_of_eq fun _ => rfl
  rw [← first]
  exact view_adjustAt (fun _ => rfl) adjusted

theorem orderLinked_prev (nodeLive : (heap.cells node).isSome) :
    view (·.overallListPrev) (orderLinked heap node tail).cells =
      Function.update (view (·.overallListPrev) heap.cells) node (some tail) := by
  rcases Option.isSome_iff_exists.mp nodeLive with ⟨cell, found⟩
  have second : view (·.overallListPrev) (orderLinked heap node tail).cells =
      view (·.overallListPrev)
        (heap.adjust node fun cell => { cell with overallListPrev := tail }).cells :=
    view_adjustAt_of_eq fun _ => rfl
  rw [second, view_adjust found]

/-- Fields without order links stay as they are. -/
theorem orderLinked_other {α : Type} {field : HashTableNode Value → α}
    (keptPrev : ∀ cell link, field { cell with overallListPrev := link } = field cell)
    (keptNext : ∀ cell link, field { cell with overallListNext := link } = field cell) :
    view field (orderLinked heap node tail).cells = view field heap.cells := by
  rw [orderLinked, view_adjustAt_of_eq (keptNext · _), view_adjust_of_eq (keptPrev · _)]

theorem orderLinked_of_ne {address : Addr} (apart : address ≠ node)
    (notTail : tail ≠ some address) :
    (orderLinked heap node tail).cells address = heap.cells address := by
  rw [orderLinked, Heap.adjustAt_of_ne notTail, Heap.adjust_cells, Function.update_of_ne apart]

end OrderLinked

/-- The heap and the fields after linking a new node represent one entry more. -/
theorem Valid.linked {after : State Value} {buckets : List (Option Addr)}
    (valid : Valid policy (Function.update frame node (some ⟨value, none, none, none⟩)) state
      entries)
    (new : frame node = none) (roomy : Spacious state.self)
    (unknown : ∀ entry ∈ entries, policy.valueImitationFunctions entry.2 ≠
      policy.valueImitationFunctions value)
    (moved : Relinked [node] state after)
    (bucketed : Bucketed policy (view (·.memberNext) after.heap.cells) buckets
      state.self.hashCapacity (entries ++ [(node, value)]))
    (tailLive : ∀ address, state.self.overallListBeforeNode = some address →
      (after.heap.cells address).isSome) :
    Valid policy frame
      { after with
        heap := orderLinked after.heap node state.self.overallListBeforeNode
        self := { state.self with
          vectorHashTable := buckets
          overallListHeadNode := entrance state.self.overallListHeadNode (some node)
            state.self.overallListBeforeNode
          overallListBeforeNode := some node
          memberSize := increment state.self.memberSize } }
      (entries ++ [(node, value)]) := by
  have holds := valid.holds
  have live := valid.extends_frame (Function.update_self ..)
  have absent := valid.not_mem
  have size := increment_of_lt roomy.2
  have nodeLive : (after.heap.cells node).isSome := by simp [moved.isSome, live]
  constructor
  · constructor
    · rw [orderLinked_next tailLive, orderLinked_prev nodeLive, moved.next_eq, moved.prev_eq,
        addresses_append]
      exact holds.listed.append absent (by simp [view, live])
    · rw [orderLinked_other (fun _ _ => rfl) (fun _ _ => rfl), moved.data_eq]
      intro entry member
      rcases List.mem_append.mp member with member | member
      · exact holds.data entry member
      · rw [List.mem_singleton.mp member]
        simp [view, live]
    · rw [orderLinked_other (fun _ _ => rfl) (fun _ _ => rfl)]
      exact bucketed
    · rw [List.map_append, List.nodup_append]
      refine ⟨holds.keys, List.nodup_singleton _, ?_⟩
      intro key member other single
      rcases List.mem_map.mp member with ⟨entry, stored, rfl⟩
      rw [List.map_singleton, List.mem_singleton] at single
      rw [single]
      exact unknown entry stored
    · rw [size, holds.size_eq, List.length_append]
      rfl
    · exact holds.factor
    · rw [size]
      exact roomy.2
    · exact holds.width
    · exact holds.admitted
  · intro address outside
    rw [addresses_append, List.mem_append, not_or] at outside
    have different : address ≠ node := List.ne_of_not_mem_cons outside.2
    have notTail : state.self.overallListBeforeNode ≠ some address := by
      intro equal
      rw [holds.listed.tail_eq] at equal
      exact outside.1 (List.mem_of_getLast? equal)
    rw [orderLinked_of_ne different notTail, moved.outside address outside.2,
      valid.framed address outside.1, Function.update_of_ne different]
  · intro address member
    rw [addresses_append, List.mem_append] at member
    rcases member with member | member
    · exact valid.apart_of_update member
    · rw [List.mem_singleton.mp member]
      exact new

/-- Linking a new node makes its value the youngest entry. -/
theorem linkNode_spec {raises : Fault → State Value → Prop}
    (valid : Valid policy (Function.update frame node (some ⟨value, none, none, none⟩)) state
      entries)
    (new : frame node = none) (roomy : Spacious state.self)
    (unknown : ∀ entry ∈ entries, policy.valueImitationFunctions entry.2 ≠
      policy.valueImitationFunctions value) :
    Runs (linkNode node (home policy state.self.hashCapacity value)) state
      (fun _ next => Valid policy frame next (entries ++ [(node, value)]) ∧
        next.self.hashCapacity = state.self.hashCapacity ∧
        next.self.loadFactor = state.self.loadFactor)
      raises := by
  have holds := valid.holds
  have live := valid.extends_frame (Function.update_self ..)
  have positive : 0 < state.self.hashCapacity :=
    Nat.pos_of_ne_zero roomy.1
  simp only [linkNode, runs_bind, runs_get]
  apply (prepend_spec (node, value) holds.bucketed positive valid.not_mem live).mono
  · intro buckets first outcome
    rcases outcome with ⟨moved, bucketed⟩
    have nodeLive : (first.heap.cells node).isSome := by simp [moved.isSome, live]
    have tailLive : ∀ address, state.self.overallListBeforeNode = some address →
        (first.heap.cells address).isSome := by
      intro address equal
      rw [holds.listed.tail_eq] at equal
      rcases List.mem_map.mp (List.mem_of_getLast? equal) with ⟨entry, stored, rfl⟩
      rcases holds.live stored with ⟨cell, found, _⟩
      simp [moved.isSome, found]
    rw [runs_modifySelf, moved.self_eq]
    have linked := valid.linked new roomy unknown moved bucketed tailLive
    rw [runs_write (by exact nodeLive), runs_appendAfter]
    · exact ⟨linked, rfl, rfl⟩
    · intro address equal
      rw [← tailLive address equal]
      exact Heap.adjust_isSome address
  · exact fun _ _ => id

/-- Pushing a value whose key is new appends it. -/
theorem pushNew_spec (valid : Valid policy frame state entries)
    (unknown : ∀ entry ∈ entries, policy.valueImitationFunctions entry.2 ≠
      policy.valueImitationFunctions value) :
    Runs (pushNew policy value) state
      (fun _ next => ∃ node, Valid policy frame next (entries ++ [(node, value)]))
      (Refused policy frame (entries.length + 1) entries) := by
  rw [pushNew, runs_bind]
  apply runs_hashOfValue
  · intro first same
    rw [runs_bind]
    apply (newNode_spec (valid.quiet same)).mono
    · intro node second outcome
      rcases outcome with ⟨new, _, validSecond⟩
      rw [runs_bind, runs_guarded]
      apply (ensureCapacityForOneMore_spec validSecond).mono
      · intro _ third outcome
        rcases outcome with ⟨validThird, roomy⟩
        have positive : 0 < third.self.hashCapacity :=
          Nat.pos_of_ne_zero roomy.1
        rw [runs_bind, runs_get, runs_bind, runs_bucketOf positive]
        apply (linkNode_spec validThird new roomy unknown).mono
        · intro _ last outcome
          exact ⟨node, outcome.1⟩
        · exact fun _ _ => id
      · intro fault third refused
        apply (delete_spec refused.2 new).mono
        · intro _ last valid
          exact ⟨refused.1, valid⟩
        · exact fun _ _ => id
    · intro fault second interrupted
      exact interrupted.refused (valid.quiet same)
  · intro moment first faulty same
    exact .raised valid faulty same

/-- `Push` appends a value exactly when its key is new. -/
theorem push_spec [DecidableEq Key] (valid : Valid policy frame state entries) :
    Runs (push policy value) state
      (fun answer next =>
        (answer = false ∧ Valid policy frame next entries ∧
          ∃ entry, lookup policy entries (policy.valueImitationFunctions value) = some entry) ∨
        (answer = true ∧ lookup policy entries (policy.valueImitationFunctions value) = none ∧
          ∃ node, Valid policy frame next (entries ++ [(node, value)])))
      (Refused policy frame (entries.length + 1) entries) := by
  rw [push, runs_bind]
  apply (find_spec valid).mono
  · rintro found first ⟨same, rfl⟩
    rcases present : lookup policy entries (policy.valueImitationFunctions value) with _ | entry
    · simp only [Option.map_none, runs_bind, runs_pure]
      apply (pushNew_spec (valid.quiet same) (lookup_eq_none.mp present)).mono
      · intro _ next outcome
        exact .inr ⟨trivial, trivial, outcome⟩
      · exact fun _ _ => id
    · exact .inl ⟨rfl, valid.quiet same, entry, rfl⟩
  · exact fun _ _ => id

end Insertion

section Removal

/-- The loop of `EraseNode` finds the target behind its predecessor. -/
theorem seek_spec {raises : Fault → State Value → Prop} {front back : List Addr}
    {previous : Option Addr}
    (chain : Chain (view (·.memberNext) state.heap.cells) (front ++ node :: back) none)
    (distinct : (front ++ node :: back).Nodup) (enough : front.length < fuel) :
    Runs (seek node fuel previous (front ++ node :: back).head?) state
      (fun found next => next = state ∧ found = (front.getLast?.or previous, some node))
      raises := by
  induction front generalizing fuel previous with
  | nil =>
      rcases fuel with _ | fuel
      · simp at enough
      · simp [seek]
  | cons first front ih =>
      rcases fuel with _ | fuel
      · simp at enough
      · rcases chain with ⟨link, chain⟩
        rw [List.cons_append, List.nodup_cons] at distinct
        have different : first ≠ node := by
          rintro rfl
          exact distinct.1 (by simp)
        rcases live : state.heap.cells first with _ | cell
        · simp [view, live] at link
        · simp only [view, live, Option.map_some, Option.some.injEq, Option.or_none] at link
          simp only [List.cons_append, List.head?_cons, seek, different, if_false, runs_bind,
            runs_read live, link]
          have tail : (first :: front).getLast?.or previous = front.getLast?.or (some first) := by
            rw [List.getLast?_cons]
            cases front.getLast? <;> rfl
          rw [tail]
          exact ih chain distinct.2 (Nat.lt_of_succ_lt_succ enough)

/-- The heap after the neighbours of a node in its two lists were made to skip it. -/
def skipped (heap : Heap (HashTableNode Value)) (previous : Option Addr)
    (cell : HashTableNode Value) : Heap (HashTableNode Value) :=
  ((heap.adjustAt (fun other => { other with memberNext := cell.memberNext }) previous).adjustAt
    (fun other => { other with overallListNext := cell.overallListNext })
      cell.overallListPrev).adjustAt
    (fun other => { other with overallListPrev := cell.overallListPrev }) cell.overallListNext

section Skipped

variable {heap : Heap (HashTableNode Value)} {previous : Option Addr}
variable {cell : HashTableNode Value}

theorem skipped_bucket
    (live : ∀ address, previous = some address → (heap.cells address).isSome) :
    view (·.memberNext) (skipped heap previous cell).cells =
      redirect (view (·.memberNext) heap.cells) cell.memberNext previous := by
  rw [skipped, view_adjustAt_of_eq (by exact fun _ => rfl),
    view_adjustAt_of_eq (by exact fun _ => rfl)]
  exact view_adjustAt (fun _ => rfl) live

theorem skipped_next
    (live : ∀ address, cell.overallListPrev = some address → (heap.cells address).isSome) :
    view (·.overallListNext) (skipped heap previous cell).cells =
      redirect (view (·.overallListNext) heap.cells) cell.overallListNext cell.overallListPrev := by
  have first : view (·.overallListNext)
      (heap.adjustAt (fun other => { other with memberNext := cell.memberNext }) previous).cells =
        view (·.overallListNext) heap.cells := view_adjustAt_of_eq fun _ => rfl
  rw [skipped, view_adjustAt_of_eq (by exact fun _ => rfl), ← first]
  apply view_adjustAt
  · exact fun _ => rfl
  · intro address equal
    rw [Heap.adjustAt_isSome]
    exact live address equal

theorem skipped_prev
    (live : ∀ address, cell.overallListNext = some address → (heap.cells address).isSome) :
    view (·.overallListPrev) (skipped heap previous cell).cells =
      redirect (view (·.overallListPrev) heap.cells) cell.overallListPrev cell.overallListNext := by
  have second : view (·.overallListPrev)
      ((heap.adjustAt (fun other => { other with memberNext := cell.memberNext }) previous).adjustAt
        (fun other => { other with overallListNext := cell.overallListNext })
          cell.overallListPrev).cells = view (·.overallListPrev) heap.cells := by
    rw [view_adjustAt_of_eq (by exact fun _ => rfl), view_adjustAt_of_eq (by exact fun _ => rfl)]
  rw [skipped, ← second]
  apply view_adjustAt
  · exact fun _ => rfl
  · intro address equal
    rw [Heap.adjustAt_isSome, Heap.adjustAt_isSome]
    exact live address equal

theorem skipped_data : view (·.memberData) (skipped heap previous cell).cells =
    view (·.memberData) heap.cells := by
  rw [skipped, view_adjustAt_of_eq (by exact fun _ => rfl),
    view_adjustAt_of_eq (by exact fun _ => rfl), view_adjustAt_of_eq (by exact fun _ => rfl)]

theorem skipped_of_ne {address : Addr} (bucket : previous ≠ some address)
    (prev : cell.overallListPrev ≠ some address) (next : cell.overallListNext ≠ some address) :
    (skipped heap previous cell).cells address = heap.cells address := by
  rw [skipped, Heap.adjustAt_of_ne next, Heap.adjustAt_of_ne prev, Heap.adjustAt_of_ne bucket]

end Skipped

/-- What a node links to, and that the links lead to other entries. -/
theorem Valid.neighbours {cell : HashTableNode Value}
    (valid : Valid policy frame state (earlier ++ (node, value) :: later))
    (live : state.heap.cells node = some cell) :
    cell.overallListPrev = (addresses earlier).getLast? ∧
      cell.overallListNext = (addresses later).head? ∧
      cell.memberNext = (addresses (inBucket policy state.self.hashCapacity
        (home policy state.self.hashCapacity value) earlier)).head? := by
  have holds := valid.holds
  have listed := holds.listed
  rw [addresses_append, addresses_cons] at listed
  have positive : 0 < state.self.hashCapacity := by
    apply holds.capacity_pos
    rw [holds.size_eq]
    simp
  have chain := holds.bucketed.chains _
    (Bucketed.home_lt policy value positive)
  rw [Bucketed.chain_split] at chain
  refine ⟨?_, ?_, ?_⟩
  · simpa [view, live] using listed.prev_eq
  · simpa [view, live] using listed.next_eq
  · simpa [view, live] using chain.link_eq

/-- The heap and the fields after unlinking and deleting a node represent the other
entries. -/
theorem Valid.erased {after : State Value} {cell : HashTableNode Value} {previous : Option Addr}
    (valid : Valid policy frame state (earlier ++ (node, value) :: later))
    (live : state.heap.cells node = some cell)
    (previousEq : previous = (addresses (inBucket policy state.self.hashCapacity
      (home policy state.self.hashCapacity value) later)).getLast?)
    (heapEq : after.heap = (skipped state.heap previous cell).free node)
    (selfEq : after.self = { state.self with
      vectorHashTable := Bucketed.reslot state.self.vectorHashTable
        (home policy state.self.hashCapacity value) cell.memberNext previous
      overallListHeadNode :=
        entrance state.self.overallListHeadNode cell.overallListNext cell.overallListPrev
      overallListBeforeNode :=
        entrance state.self.overallListBeforeNode cell.overallListPrev cell.overallListNext
      memberSize := (earlier ++ later).length }) :
    Valid policy frame after (earlier ++ later) := by
  have holds := valid.holds
  rcases valid.neighbours live with ⟨prevEq, nextEq, bucketEq⟩
  have distinct := valid.distinct
  have listed := holds.listed
  rw [addresses_append, addresses_cons] at distinct listed
  have inEarlier : ∀ address, cell.overallListPrev = some address →
      address ∈ addresses earlier := by
    intro address equal
    rw [prevEq] at equal
    exact List.mem_of_getLast? equal
  have inLater : ∀ address, cell.overallListNext = some address →
      address ∈ addresses later := by
    intro address equal
    rw [nextEq] at equal
    exact List.mem_of_head? equal
  have inBucketLater : ∀ address, previous = some address → address ∈ addresses later := by
    intro address equal
    rw [previousEq] at equal
    exact addresses_inBucket_subset (List.mem_of_getLast? equal)
  have ownerLive : ∀ address, address ∈ addresses earlier ∨ address ∈ addresses later →
      (state.heap.cells address).isSome := by
    intro address member
    have stored : address ∈ addresses (earlier ++ (node, value) :: later) := by
      rcases member with member | member <;> simp [member]
    rcases List.mem_map.mp stored with ⟨entry, entryStored, rfl⟩
    rcases holds.live entryStored with ⟨cell, found, _⟩
    simp [found]
  have absent : node ∉ addresses (earlier ++ later) := by
    rw [addresses_append]
    exact (List.nodup_middle.mp distinct).notMem
  have freed : ∀ {α : Type} (field : HashTableNode Value → α),
      ∀ address ∈ addresses (earlier ++ later),
        view field ((skipped state.heap previous cell).free node).cells address =
          view field (skipped state.heap previous cell).cells address := by
    intro α field address member
    have different : address ≠ node := by
      rintro rfl
      exact absent member
    rw [view, Heap.free_cells, Function.update_of_ne different, view]
  rcases after with ⟨heap, clock, self⟩
  subst heapEq selfEq
  constructor
  · constructor
    · rw [addresses_append]
      refine Doubly.congr ?_ (addresses_append ▸ freed _) (addresses_append ▸ freed _)
      rw [skipped_next fun address equal => ownerLive address (.inl (inEarlier address equal)),
        skipped_prev fun address equal => ownerLive address (.inr (inLater address equal)),
        prevEq, nextEq]
      exact listed.remove
    · intro entry member
      rw [freed _ _ (mem_addresses member), skipped_data]
      apply holds.data
      rcases List.mem_append.mp member with member | member <;> simp [member]
    · refine Bucketed.congr ?_ (freed _)
      rw [skipped_bucket fun address equal =>
        ownerLive address (.inr (inBucketLater address equal))]
      exact holds.bucketed.erase valid.distinct bucketEq previousEq
    · have keys := holds.keys
      rw [List.map_append, List.map_cons] at keys
      rw [List.map_append]
      exact keys.sublist ((List.Sublist.refl _).append (List.sublist_cons_self _ _))
    · rfl
    · exact holds.factor
    · have room := holds.room
      rw [holds.size_eq] at room
      apply Nat.le_trans _ room
      simp
    · exact holds.width
    · exact holds.admitted
  · intro address outside
    rw [addresses_append, List.mem_append, not_or] at outside
    by_cases same : address = node
    · subst same
      rw [Heap.free_cells, Function.update_self]
      exact (valid.apart address (by simp)).symm
    · rw [Heap.free_cells, Function.update_of_ne same, skipped_of_ne
        (fun equal => outside.2 (inBucketLater address equal))
        (fun equal => outside.1 (inEarlier address equal))
        (fun equal => outside.2 (inLater address equal))]
      apply valid.framed
      simp [outside, same]
  · intro address member
    rw [addresses_append, List.mem_append] at member
    apply valid.apart
    rcases member with member | member <;> simp [member]

/-- Unlinking and deleting the node of an entry removes the entry. -/
theorem Valid.eraseNode {raises : Fault → State Value → Prop}
    (valid : Valid policy frame state (earlier ++ (node, value) :: later)) :
    Runs (HashTable.eraseNode node (home policy state.self.hashCapacity value)) state
      (fun answer next => answer = true ∧ Valid policy frame next (earlier ++ later))
      raises := by
  have holds := valid.holds
  have member : (node, value) ∈ earlier ++ (node, value) :: later := by simp
  rcases holds.live member with ⟨cell, live, _⟩
  rcases valid.neighbours live with ⟨prevEq, nextEq, _⟩
  have total := holds.size_eq
  rw [List.length_append, List.length_cons] at total
  have size : decrement state.self.memberSize = (earlier ++ later).length := by
    rw [decrement_of_pos holds.room (by omega), List.length_append]
    omega
  have below := Bucketed.home_lt policy value
    (holds.capacity_pos (by omega))
  have slot := holds.bucketed.slots _ below
  have chain := holds.bucketed.chains _ below
  have once := nodup_inBucket policy state.self.hashCapacity
    (home policy state.self.hashCapacity value) valid.distinct
  have bounded := valid.length_le
  rw [Bucketed.chain_split] at slot chain once
  -- The owners of the links that change are nodes of the table.
  have ownerLive : ∀ address ∈ addresses (earlier ++ (node, value) :: later),
      (state.heap.cells address).isSome := by
    intro address stored
    rcases List.mem_map.mp stored with ⟨entry, entryStored, rfl⟩
    rcases holds.live entryStored with ⟨cell, found, _⟩
    simp [found]
  simp only [HashTable.eraseNode, runs_bind, runs_get, runs_slot slot]
  apply (seek_spec chain once _).mono
  · rintro found next ⟨rfl, rfl⟩
    simp only [Option.or_none, runs_bind, runs_read live]
    rw [runs_unlinkBucket, runs_unlinkPrev, runs_unlinkNext, runs_delete, runs_modifySelf,
      runs_pure]
    · refine ⟨rfl, valid.erased live rfl rfl ?_⟩
      rw [size]
    · rw [Heap.adjustAt_isSome, Heap.adjustAt_isSome, Heap.adjustAt_isSome, live]
      rfl
    · intro address equal
      rw [nextEq] at equal
      rw [Heap.adjustAt_isSome, Heap.adjustAt_isSome]
      exact ownerLive address (by simp [List.mem_of_head? equal])
    · intro address equal
      rw [prevEq] at equal
      rw [Heap.adjustAt_isSome]
      exact ownerLive address (by simp [List.mem_of_getLast? equal])
    · intro address equal
      exact ownerLive address (by simp [addresses_inBucket_subset (List.mem_of_getLast? equal)])
  · exact fun _ _ => id
  · have few : (inBucket policy state.self.hashCapacity
        (home policy state.self.hashCapacity value) later).length ≤ later.length := by
      rw [inBucket, List.length_reverse]
      exact List.length_filter_le ..
    rw [List.length_append, List.length_cons] at bounded
    rw [length_addresses]
    omega

variable {hash : Method Value UInt64} {target : Addr} {stored : Value}

/-- The end of `Pop` and `PopKey` removes the entry whose hash is asked for. -/
theorem eraseFrom_spec (valid : Valid policy frame state (earlier ++ (node, stored) :: later))
    (hashes : ∀ post : UInt64 → State Value → Prop,
      (∀ next, Quiet state next → post (policy.hashValue stored) next) →
      Runs hash state post
        (Refused policy frame count (earlier ++ (node, stored) :: later))) :
    Runs (eraseFrom hash node) state
      (fun answer next => answer = true ∧ Valid policy frame next (earlier ++ later))
      (Refused policy frame count (earlier ++ (node, stored) :: later)) := by
  have holds := valid.holds
  have positive : 0 < state.self.hashCapacity := by
    apply holds.capacity_pos
    rw [holds.size_eq]
    simp
  simp only [eraseFrom, runs_bind, runs_get]
  apply hashes
  intro next same
  rw [runs_bucketOf positive, ← same.2]
  exact (valid.quiet same).eraseNode

/-- What `Pop` and `PopKey` do for a key: they remove its entry, if there is one. -/
def Popped [DecidableEq Key] (policy : Policy Key Value) (frame : Nodes Value)
    (entries : List (Entry Value)) (keyValue : Key) (answer : Bool) (next : State Value) : Prop :=
  (answer = false ∧ lookup policy entries keyValue = none ∧ Valid policy frame next entries) ∨
    (answer = true ∧ ∃ earlier node stored later, entries = earlier ++ (node, stored) :: later ∧
      policy.valueImitationFunctions stored = keyValue ∧
      Valid policy frame next (earlier ++ later))

variable [DecidableEq Key] {keyValue : Key}

/-- `Pop` removes the entry with the key of a value. -/
theorem pop_spec (valid : Valid policy frame state entries) :
    Runs (pop policy value) state
      (Popped policy frame entries (policy.valueImitationFunctions value))
      (Refused policy frame count entries) := by
  simp only [pop, runs_bind, runs_get]
  apply (find_spec valid).mono
  · rintro found first ⟨same, rfl⟩
    rcases present : lookup policy entries (policy.valueImitationFunctions value) with _ | entry
    · exact .inl ⟨rfl, present, valid.quiet same⟩
    · rcases (lookup_eq_some valid.holds.keys).mp present with ⟨member, key⟩
      rcases List.append_of_mem member with ⟨earlier, later, rfl⟩
      have positive : 0 < state.self.hashCapacity := by
        apply valid.holds.capacity_pos
        rw [valid.holds.size_eq]
        simp
      simp only [Option.map_some, Nat.ne_of_gt positive, if_false]
      apply (eraseFrom_spec (valid.quiet same) _).mono
      · rintro answer next ⟨rfl, validNext⟩
        exact .inr ⟨rfl, earlier, entry.1, entry.2, later, rfl, key, validNext⟩
      · exact fun _ _ => id
      · intro post returns
        apply runs_hashOfValue
        · rw [policy.hashValue_eq, ← key, ← policy.hashValue_eq]
          exact returns
        · intro moment next faulty second
          exact .raised (valid.quiet same) faulty second
  · exact fun _ _ => id

/-- `PopKey` removes the entry with a key. -/
theorem popKey_spec (valid : Valid policy frame state entries) :
    Runs (popKey policy keyValue) state (Popped policy frame entries keyValue)
      (Refused policy frame count entries) := by
  simp only [popKey, runs_bind, runs_get]
  split
  · next zero =>
    have empty : entries = [] := by
      have positive := valid.holds.capacity_pos
      have total := valid.holds.size_eq
      rw [← List.length_eq_zero_iff]
      omega
    subst empty
    exact .inl ⟨rfl, rfl, valid⟩
  · rw [runs_bind]
    apply (findNodeByKey_spec valid).mono
    · rintro found first ⟨same, rfl⟩
      rcases present : lookup policy entries keyValue with _ | entry
      · exact .inl ⟨rfl, present, valid.quiet same⟩
      · rcases (lookup_eq_some valid.holds.keys).mp present with ⟨member, key⟩
        rcases List.append_of_mem member with ⟨earlier, later, rfl⟩
        apply (eraseFrom_spec (valid.quiet same) _).mono
        · rintro answer next ⟨rfl, validNext⟩
          exact .inr ⟨rfl, earlier, entry.1, entry.2, later, rfl, key, validNext⟩
        · exact fun _ _ => id
        · intro post returns
          apply runs_hashOfKey
          · rw [← key, ← policy.hashValue_eq]
            exact returns
          · intro moment next faulty second
            exact .raised (valid.quiet same) faulty second
    · exact fun _ _ => id

end Removal

end Wan.Container.HashTable
