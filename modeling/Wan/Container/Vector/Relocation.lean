import Wan.Container.Vector.Growth
import Wan.Container.Vector.Throwing
import Wan.Library.Objects.Rules

/-!
# Reallocations of a vector that may fail

What a member function of `Vector` guarantees when an operation throws: the pointers and all
blocks are as they were.  The new block is filled from two ends, and the counters say how far.
-/

namespace Wan.Container.ThrowingVector

open Wan.Library Wan.Library.LinkedList Wan.Library.Program Wan.Library.Storage

variable {V : Type} {policy : Policy V}

/-- The pointers of a vector frame a block in which exactly the slots below the size are live. -/
inductive Holds (cells : Cells V) : Vector → Prop
  | empty : Holds cells .empty
  | block {data : Addr} {objects : List (Object V)} {room : Nat}
      (found : cells data = some (objects.map some ++ List.replicate room none)) :
      Holds cells ⟨some data, objects.length, objects.length + room⟩

/-- There is an object in a slot. -/
def Live (cells : Cells V) (block : Addr) (index : Nat) : Prop :=
  ∃ slots object, cells block = some slots ∧ slots[index]? = some (some object)

/-- The object that is referred to exists. -/
def Reference.Readable (data : Option Addr) (cells : Cells V) (locals : List Nat) :
    Reference V → Prop
  | .outside _ => True
  | .element index => ∃ block, data = some block ∧ Live cells block index
  | .other vector index => ∃ block, vector.data = some block ∧ Live cells block index
  | .staged => ∃ serial rest, locals = serial :: rest

/-- The object that is referred to is not an element. -/
def Reference.Loose : Reference V → Prop
  | .outside _ | .staged => True
  | .element _ | .other _ _ => False

/-- What a member function leaves behind: a vector with its old block or a new one, an old block
that is not kept is given back, and nothing else has changed. -/
structure Grown (vector : Vector) (cells : Cells V) (later : Vector) (cells' : Cells V) :
    Prop where
  holds : Holds cells' later
  fresh : ∀ block, later.data = some block → vector.data = some block ∨ cells block = none
  released : ∀ block, vector.data = some block → later.data ≠ some block → cells' block = none
  others : ∀ block, vector.data ≠ some block → later.data ≠ some block →
    cells' block = cells block

/-- The pointers, all blocks and the objects on the stack are these. -/
def Unchanged (vector : Vector) (cells : Cells V) (locals : List Nat)
    (storage : Storage V Fields) : Prop :=
  ∃ fields, fields.this = vector ∧ Looks fields cells locals storage

/-- A member function ends, and if it throws, then the pointers and all blocks are as they were. -/
def Guaranteed (method : Method V Unit) (vector : Vector) (cells : Cells V)
    (locals : List Nat) : Prop :=
  ∀ fields storage, fields.this = vector → Looks fields cells locals storage →
    Runs method storage
      (fun _ next => ∃ fields cells', Grown vector cells fields.this cells' ∧
        Looks fields cells' locals next)
      fun _ => Unchanged vector cells locals

section Views

variable {vector other : Vector} {cells cells' now : Cells V} {block : Addr} {index : Nat}
variable {locals : List Nat} {reference : Reference V}

theorem Live.mono (live : Live cells block index) (slots : cells' block = cells block) :
    Live cells' block index := by
  rcases live with ⟨all, object, found, stands⟩
  exact ⟨all, object, slots.trans found, stands⟩

theorem Holds.live (holds : Holds cells vector) (inside : index < vector.size) :
    ∃ block, vector.data = some block ∧ Live cells block index := by
  cases holds with
  | empty => cases inside
  | block found =>
      rename_i data objects room
      have there : index < objects.length := inside
      refine ⟨data, rfl, _, objects[index], found, ?_⟩
      rw [List.getElem?_append_left (by rwa [List.length_map]), List.getElem?_map,
        List.getElem?_eq_getElem there]
      rfl

theorem holds_of_length (objects : List (Object V)) {size capacity room : Nat}
    (found : cells block = some (objects.map some ++ List.replicate room none))
    (length : objects.length = size) (whole : size + room = capacity) :
    Holds cells ⟨some block, size, capacity⟩ := by
  subst length whole
  exact .block found

/-- Only the block of the vector matters. -/
theorem Holds.congr (holds : Holds cells vector)
    (same : ∀ block, vector.data = some block → cells' block = cells block) :
    Holds cells' vector := by
  cases holds with
  | empty => exact .empty
  | block found => exact .block ((same _ rfl).trans found)

theorem Holds.size_le (holds : Holds cells vector) : vector.size ≤ vector.capacity := by
  cases holds with
  | empty => exact Nat.le_refl _
  | block found => exact Nat.le_add_right _ _

theorem Holds.allocated (holds : Holds cells vector) (there : vector.data = some block) :
    cells block ≠ none := by
  cases holds with
  | empty => cases there
  | block found =>
      cases there
      rw [found]
      exact Option.some_ne_none _

theorem Grown.refl (holds : Holds cells vector) : Grown vector cells vector cells where
  holds := holds
  fresh _ := .inl
  released _ there apart := absurd there apart
  others _ _ _ := rfl

theorem Grown.trans {middle : Vector} (one : Grown vector cells middle now)
    (two : Grown middle now other cells') : Grown vector cells other cells' where
  holds := two.holds
  fresh block there := by
    rcases two.fresh block there with kept | absent
    · exact one.fresh block kept
    · by_cases owned : vector.data = some block
      · exact .inl owned
      · have apart : middle.data ≠ some block := fun here => one.holds.allocated here absent
        exact .inr ((one.others block owned apart).symm.trans absent)
  released block owned apart := by
    by_cases here : middle.data = some block
    · exact two.released block here apart
    · exact (two.others block here apart).trans (one.released block owned here)
  others block owned apart := by
    by_cases here : middle.data = some block
    · rw [two.released block here apart]
      exact ((one.fresh block here).resolve_left owned).symm
    · exact (two.others block here apart).trans (one.others block owned here)

/-- What can be referred to while no object disappears. -/
theorem Reference.Readable.mono {data : Option Addr} (readable : reference.Readable data cells locals)
    (kept : ∀ block index, Live cells block index → Live now block index) :
    reference.Readable data now locals := by
  cases reference with
  | outside value => trivial
  | element index =>
      rcases readable with ⟨block, there, live⟩
      exact ⟨block, there, kept block index live⟩
  | other vector index =>
      rcases readable with ⟨block, there, live⟩
      exact ⟨block, there, kept block index live⟩
  | staged => exact readable

end Views

section Steps

variable {fields : Fields} {vector : Vector} {cells now : Cells V} {locals : List Nat}
variable {storage : Storage V Fields} {reference : Reference V} {moves : Bool}
variable {block : Addr} {index : Nat}
variable {post : Unit → Storage V Fields → Prop} {raises : Failure → Storage V Fields → Prop}

theorem unchanged (looks : Looks fields cells locals storage) (same : fields.this = vector) :
    Unchanged vector cells locals storage := ⟨fields, same, looks⟩

theorem runs_this (looks : Looks fields cells locals storage)
    {post : Vector → Storage V Fields → Prop} (every : post fields.this storage) :
    Runs this storage post raises := by
  rw [this, runs_bind]
  exact looks.runs_getFields every

theorem runs_setThis (looks : Looks fields cells locals storage)
    (every : ∀ next, Looks { fields with this := vector } cells locals next → post () next) :
    Runs (setThis vector) storage post raises :=
  looks.runs_modifyFields every

theorem runs_pointer {post : Addr → Storage V Fields → Prop} (there : vector.data = some block)
    (every : post block storage) : Runs (pointer vector) storage post raises := by
  rw [pointer, there]
  exact every

theorem runs_copySlot (looks : Looks fields cells locals storage) (live : Live cells block index)
    {post : V → Storage V Fields → Prop} (every : ∀ value, post value storage) :
    Runs (takeSlot policy false block index) storage post raises := by
  rcases live with ⟨slots, object, found, stands⟩
  rw [takeSlot, runs_bind]
  exact looks.runs_read found stands (every object.value)

/-- An argument is copied, or moved if it is not an element. -/
theorem runs_take (looks : Looks fields cells locals storage)
    (readable : reference.Readable fields.this.data cells locals)
    (loose : moves = true → reference.Loose) {post : V → Storage V Fields → Prop}
    (every : ∀ value next, Looks fields cells locals next → post value next) :
    Runs (take policy moves reference) storage post raises := by
  cases reference with
  | outside value => exact every value storage looks
  | element index =>
      rcases readable with ⟨block, there, live⟩
      cases moves with
      | true => exact (loose rfl).elim
      | false =>
          rw [take, runs_bind]
          apply runs_this looks
          rw [runs_bind]
          apply runs_pointer there
          exact runs_copySlot looks live fun value => every value storage looks
  | other vector index =>
      rcases readable with ⟨block, there, live⟩
      cases moves with
      | true => exact (loose rfl).elim
      | false =>
          rw [take, runs_bind]
          apply runs_pointer there
          exact runs_copySlot looks live fun value => every value storage looks
  | staged =>
      rcases readable with ⟨serial, rest, rfl⟩
      rw [take, runs_bind]
      apply looks.runs_readLocal
      intro value
      cases moves with
      | true =>
          rw [if_pos rfl, runs_bind]
          apply looks.runs_assignLocal
          exact every value
      | false => exact every value storage looks

/-- The constructor for an argument throws or yields a value. -/
theorem runs_make (looks : Looks fields cells locals storage)
    (readable : reference.Readable fields.this.data cells locals)
    (loose : moves = true → reference.Loose) {post : V → Storage V Fields → Prop}
    (every : ∀ value next, Looks fields cells locals next → post value next)
    (fails : ∀ next, Looks fields cells locals next → raises .raised next) :
    Runs (make policy moves reference) storage post raises := by
  rw [make, runs_bind]
  apply looks.runs_attempt
  · intro next looks
    exact runs_take looks readable loose every
  · exact fun _ => fails

/-- The block of a vector is given back. -/
theorem runs_discard (looks : Looks fields cells locals storage) (holds : Holds cells vector)
    (every : ∀ now next, (∀ block, vector.data = some block → now block = none) →
      (∀ block, vector.data ≠ some block → now block = cells block) →
        Looks fields now locals next → post () next) :
    Runs (discard vector) storage post raises := by
  cases holds with
  | empty => exact every cells storage nofun (fun _ _ => rfl) looks
  | block found =>
      apply looks.runs_discard found rfl
      intro next looks
      refine every _ next ?_ ?_ looks
      · intro block there
        cases there
        exact Function.update_self ..
      · intro block apart
        exact Function.update_of_ne (fun equal => apart (congrArg some equal.symm)) _ _

theorem runs_growthCapacity {required : Nat} (looks : Looks fields cells locals storage)
    {post : Nat → Storage V Fields → Prop}
    (every : ∀ newCapacity, required ≤ newCapacity → post newCapacity storage)
    (fails : ∀ exception, raises exception storage) :
    Runs (growthCapacity policy required) storage post raises := by
  rw [growthCapacity, runs_bind, runs_refuse]
  refine ⟨fun _ => fails _, fun _ => ?_⟩
  rw [runs_bind]
  exact runs_this looks (every _ Vector.le_grownCapacity)

theorem runs_allocate {capacity : Nat} (looks : Looks fields cells locals storage)
    {post : Addr → Storage V Fields → Prop}
    (every : ∀ block next, cells block = none → Looks fields
      (Function.update cells block (some (List.replicate capacity none))) locals next →
        post block next)
    (fails : ∀ next, Looks fields cells locals next → raises .raised next) :
    Runs (allocate policy capacity) storage post raises := by
  rw [allocate, runs_bind]
  apply looks.runs_attempt
  · intro next looks
    exact looks.runs_allocate every
  · exact fun _ => fails

end Steps

section Relocation

variable {fields : Fields} {vector : Vector} {cells now : Cells V} {locals : List Nat}
variable {storage : Storage V Fields} {newData : Addr} {front back : Slots (Object V)}
variable {room count index : Nat}
variable {post : Unit → Storage V Fields → Prop} {raises : Failure → Storage V Fields → Prop}

/-- An element of the old block is copied, which may throw, or moved, which does not. -/
theorem runs_makeOwn (looks : Looks fields now locals storage) (same : fields.this = vector)
    (holds : Holds cells vector) (filling : Filling cells newData front back room count now)
    (apart : vector.data ≠ some newData) (inside : index < vector.size)
    {post : V → Storage V Fields → Prop}
    (every : ∀ cells' now value next, Holds cells' vector →
      (∀ block, vector.data ≠ some block → cells' block = cells block) →
        (policy.nothrowMove = false → cells' = cells) →
          Filling cells' newData front back room count now →
            Looks fields now locals next → post value next)
    (fails : policy.nothrowMove = false →
      ∀ next, Looks fields now locals next → raises .raised next) :
    Runs (make policy policy.nothrowMove (.element index)) storage post raises := by
  cases nothrow : policy.nothrowMove with
  | false =>
      rcases holds.live inside with ⟨block, there, live⟩
      have kept : (Reference.element index : Reference V).Readable fields.this.data now locals :=
        ⟨block, same ▸ there, live.mono (filling.other fun equal => apart (equal ▸ there))⟩
      apply runs_make looks kept (fun moved => by cases moved)
      · intro value next looks
        exact every cells now value next holds (fun _ _ => rfl) (fun _ => rfl) filling looks
      · exact fails nothrow
  | true =>
      cases holds with
      | empty => cases inside
      | @block data objects room' found =>
          have there : index < objects.length := inside
          have separate : data ≠ newData := fun equal => apart (congrArg some equal)
          have split : objects =
              objects.take index ++ objects[index] :: objects.drop (index + 1) := by
            rw [List.getElem_cons_drop, List.take_append_drop]
          have length : index = ((objects.take index).map some : Slots (Object V)).length := by
            rw [List.length_map, List.length_take_of_le (Nat.le_of_lt there)]
          have here : now data = some ((objects.take index).map some ++ some objects[index] ::
              ((objects.drop (index + 1)).map some ++ List.replicate room' none)) := by
            rw [filling.other separate, found]
            conv_lhs => rw [split]
            rw [List.map_append, List.append_assoc, List.map_cons, List.cons_append]
          rw [make, nothrow, runs_bind]
          apply looks.runs_attempt _ (fun never => by cases never)
          intro next looks
          rw [take, runs_bind]
          apply runs_this looks
          rw [runs_bind]
          apply runs_pointer (by rw [same])
          rw [takeSlot, runs_bind]
          apply looks.runs_read here (getElem?_at length)
          rw [if_pos rfl, runs_bind]
          apply looks.runs_assign here length
          intro object next looks
          have moved := filling.update ((objects.take index).map some ++ some object ::
            ((objects.drop (index + 1)).map some ++ List.replicate room' none)) separate
          apply every _ _ _ next _ _ _ moved looks
          · apply holds_of_length
              (objects.take index ++ object :: objects.drop (index + 1)) _ _ rfl
            · rw [Function.update_self, List.map_append, List.append_assoc, List.map_cons,
                List.cons_append]
            · conv_rhs => rw [split]
              rw [List.length_append, List.length_append, List.length_cons, List.length_cons]
          · intro block different
            exact Function.update_of_ne (fun equal => different (congrArg some equal.symm)) _ _
          · intro never
            cases nothrow.symm.trans never

/-- The loop of a reallocation from an index on. -/
theorem runs_relocateLoop (offset : Nat) (looks : Looks fields now locals storage)
    (filling : Filling cells newData front back room index now) (same : fields.this = vector)
    (counter : fields.constructedOld = index) (holds : Holds cells vector)
    (apart : vector.data ≠ some newData) (place : offset = front.length)
    (whole : index + count = vector.size) (fits : vector.size ≤ room)
    (every : ∀ cells' now next, Holds cells' vector →
      (∀ block, vector.data ≠ some block → cells' block = cells block) →
        Filling cells' newData front back room vector.size now →
          Looks { fields with constructedOld := vector.size } now locals next → post () next)
    (fails : policy.nothrowMove = false → ∀ done now next,
      Filling cells newData front back room done now →
        Looks { fields with constructedOld := done } now locals next → raises .raised next) :
    Runs (forUp index (fun index => do
      Storage.construct newData (offset + index)
        (← make policy policy.nothrowMove (.element index))
      Storage.modifyFields fun fields => { fields with constructedOld := index + 1 }) count)
      storage post raises := by
  induction count generalizing index fields storage cells now with
  | zero =>
      rw [Nat.add_zero] at whole
      subst whole
      rw [forUp, runs_pure]
      apply every cells now storage holds (fun _ _ => rfl) filling
      rw [← counter]
      exact looks
  | succ count ih =>
      have inside : index < vector.size := whole ▸ Nat.lt_add_of_pos_right (Nat.succ_pos count)
      rw [forUp, runs_bind, runs_bind]
      apply runs_makeOwn looks same holds filling apart inside
      · intro cells' now value next holds others unmoved filling looks
        rw [runs_bind]
        apply filling.runs_construct looks (by rw [place]) (Nat.lt_of_lt_of_le inside fits)
        intro now next filling looks
        apply looks.runs_modifyFields
        intro next looks
        apply ih looks filling same rfl holds
        · rw [← whole, Nat.add_right_comm, Nat.add_assoc]
        · intro cells'' now next holds others' filling looks
          exact every cells'' now next holds
            (fun block apart => (others' block apart).trans (others block apart)) filling looks
        · intro copied done now next filling looks
          rw [unmoved copied] at filling
          exact fails copied done now next filling looks
      · intro copied next looks
        apply fails copied index now next filling
        rw [← counter]
        exact looks

/-- The end of a reallocation. -/
theorem runs_adopt (objects : List (Object V)) {newSize newCapacity room : Nat}
    {cells' : Cells V} (looks : Looks fields now locals storage) (same : fields.this = vector)
    (holds : Holds cells' vector)
    (others : ∀ block, vector.data ≠ some block → cells' block = cells block)
    (fresh : cells newData = none) (apart : vector.data ≠ some newData)
    (filled : now = Function.update cells' newData
      (some (objects.map some ++ List.replicate room none)))
    (length : objects.length = newSize) (whole : newSize + room = newCapacity)
    (every : ∀ fields now next, Grown vector cells fields.this now →
      Looks fields now locals next → post () next) :
    Runs (adopt newData newSize newCapacity) storage post raises := by
  subst filled
  rw [adopt, runs_bind]
  apply runs_this looks
  rw [same, runs_bind]
  have kept : Holds (Function.update cells' newData
      (some (objects.map some ++ List.replicate room none))) vector :=
    holds.congr fun block there =>
      Function.update_of_ne (fun equal : block = newData => apart (equal ▸ there)) _ _
  apply runs_discard looks kept
  intro now next own rest looks
  apply runs_setThis looks
  intro next looks
  apply every _ now next _ looks
  constructor
  · apply holds_of_length objects _ length whole
    rw [rest newData apart, Function.update_self]
  · intro block there
    cases there
    exact .inr fresh
  · exact fun block there _ => own block there
  · intro block apart different
    rw [rest block apart, Function.update_of_ne fun equal => different (congrArg some equal.symm),
      others block apart]

/-- The loop of a tail from an index on. -/
theorem runs_constructTailLoop {reference : Nat → Reference V} {moves : Bool} {tailStart : Nat}
    {total : Nat} (looks : Looks fields now locals storage)
    (counter : fields.constructedTail = index)
    (filling : Filling cells newData front back room index now) (place : tailStart = front.length)
    (whole : index + count = total) (fits : total ≤ room)
    (readable : ∀ other, other < total → ∀ done now,
      Filling cells newData front back room done now →
        (reference other).Readable fields.this.data now locals)
    (loose : moves = true → ∀ other, (reference other).Loose)
    (every : ∀ now next, Filling cells newData front back room total now →
      Looks { fields with constructedTail := total } now locals next → post () next)
    (fails : ∀ done now next, Filling cells newData front back room done now →
      Looks { fields with constructedTail := done } now locals next → raises .raised next) :
    Runs (forUp index (fun index => do
      Storage.construct newData (tailStart + index) (← make policy moves (reference index))
      Storage.modifyFields fun fields => { fields with constructedTail := index + 1 }) count)
      storage post raises := by
  induction count generalizing index fields storage now with
  | zero =>
      rw [Nat.add_zero] at whole
      subst whole
      rw [forUp, runs_pure]
      apply every now storage filling
      rw [← counter]
      exact looks
  | succ count ih =>
      have inside : index < total := whole ▸ Nat.lt_add_of_pos_right (Nat.succ_pos count)
      rw [forUp, runs_bind, runs_bind]
      apply runs_make looks (readable index inside index now filling) fun moved => loose moved index
      · intro value next looks
        rw [runs_bind]
        apply filling.runs_construct looks (by rw [place]) (Nat.lt_of_lt_of_le inside fits)
        intro now next filling looks
        apply looks.runs_modifyFields
        intro next looks
        apply ih looks rfl filling
        · rw [← whole, Nat.add_right_comm, Nat.add_assoc]
        · exact readable
        · exact every
        · exact fails
      · intro next looks
        apply fails index now next filling
        rw [← counter]
        exact looks

/-- The handler of `ReallocateWithTail`. -/
theorem runs_unwindTail {tail : List (Object V)} (looks : Looks fields now locals storage)
    (filling : Filling cells newData [] (tail.map some ++ List.replicate (room - count) none) index
      fields.constructedOld now)
    (length : tail.length = count) (counter : fields.constructedTail = count) (fits : count ≤ room)
    (fresh : cells newData = none)
    (every : ∀ next, Looks fields cells locals next → post () next) :
    Runs (do
      let fields ← Storage.getFields
      destroyRange newData 0 fields.constructedOld
      destroyRange newData index fields.constructedTail
      Storage.deallocate newData) storage post raises := by
  rw [runs_bind]
  apply looks.runs_getFields
  rw [runs_bind]
  apply filling.runs_destroyRange looks rfl
  intro now next filling looks
  have turned := Filling.turn.mpr ⟨tail, length, fits, filling⟩
  rw [runs_bind, counter]
  apply turned.runs_destroyRange looks (List.length_replicate ..).symm
  intro now next filling looks
  exact filling.runs_deallocate index looks fresh every

end Relocation

section Reallocation

variable {vector : Vector} {cells : Cells V} {locals : List Nat} {count : Nat}

/-- Objects that are beside a block stay while it is filled. -/
theorem live_filling {now : Cells V} {newData : Addr} {front back : Slots (Object V)} {room : Nat}
    (fresh : cells newData = none) (filling : Filling cells newData front back room count now)
    (block : Addr) (index : Nat) (live : Live cells block index) : Live now block index := by
  apply live.mono
  apply filling.other
  intro equal
  rcases live with ⟨slots, object, found, _⟩
  rw [equal, fresh] at found
  cases found

theorem guaranteed_reallocateWithTail {reference : Nat → Reference V} {moves : Bool}
    (holds : Holds cells vector)
    (readable : ∀ index, index < count → (reference index).Readable vector.data cells locals)
    (loose : moves = true → ∀ index, (reference index).Loose) :
    Guaranteed (reallocateWithTail policy (vector.size + count)
      (constructTail policy reference moves count)) vector cells locals := by
  intro fields storage same looks
  rw [reallocateWithTail, runs_bind]
  apply runs_this looks
  rw [same, runs_bind]
  apply runs_growthCapacity looks _ fun _ => unchanged looks same
  intro newCapacity enough
  rw [runs_bind]
  apply runs_allocate looks _ fun next looks => unchanged looks same
  intro newData next fresh looks
  rw [runs_bind]
  apply looks.runs_modifyFields
  intro next looks
  have apart : vector.data ≠ some newData := fun there => holds.allocated there fresh
  -- The new block has room for the tail behind the old elements.
  rcases Nat.exists_eq_add_of_le enough with ⟨rest, rfl⟩
  have filling : Filling cells newData (List.replicate vector.size none) [] (count + rest) 0
      (Function.update cells newData
        (some (List.replicate (vector.size + count + rest) none))) := by
    rw [filling_zero, List.append_nil, List.replicate_append_replicate, Nat.add_assoc]
  rw [runs_bind, runs_guarded, runs_bind]
  apply runs_constructTailLoop looks rfl filling (List.length_replicate ..).symm (Nat.zero_add _)
    (Nat.le_add_right _ _)
  · intro index inside done now filling
    rw [show _ = vector.data from congrArg Vector.data same]
    exact (readable index inside).mono (live_filling fresh filling)
  · exact loose
  · intro now next filling looks
    rcases Filling.turn.mp filling with ⟨tail, length, fits, filling⟩
    apply runs_relocateLoop 0 looks filling same rfl holds apart rfl
      (Nat.zero_add _) (Nat.le_refl _)
    · intro cells' now next holds' others filling looks
      rcases filling with ⟨objects, length', _, rfl⟩
      apply runs_adopt (objects ++ tail) looks same holds' others fresh apart _ _ rfl
      · intro fields now next grown looks
        exact ⟨fields, now, grown, looks⟩
      · rw [Nat.sub_self, List.replicate_zero, List.nil_append, List.nil_append, List.map_append,
          List.append_assoc, Nat.add_sub_cancel_left]
      · rw [List.length_append, length', length]
    · intro _ done now next filling looks
      apply runs_unwindTail looks filling length rfl fits fresh
      intro next looks
      exact unchanged looks same
  · intro done now next filling looks
    rcases Filling.turn.mp filling with ⟨tail, length, fits, filling⟩
    apply runs_unwindTail looks filling length rfl fits fresh
    intro next looks
    exact unchanged looks same

/-- The handler of `ReallocateWithPrepend`. -/
theorem runs_unwindFront {fields : Fields} {now : Cells V} {storage : Storage V Fields}
    {newData : Addr} {object : Object V} {room : Nat} {post : Unit → Storage V Fields → Prop}
    {raises : Failure → Storage V Fields → Prop} (looks : Looks fields now locals storage)
    (filling : Filling cells newData [some object] [] room fields.constructedOld now)
    (front : fields.constructedFront = true) (fresh : cells newData = none)
    (every : ∀ next, Looks fields cells locals next → post () next) :
    Runs (do
      let fields ← Storage.getFields
      destroyRange newData 1 fields.constructedOld
      if fields.constructedFront then Storage.destroy newData 0
      Storage.deallocate newData) storage post raises := by
  rw [runs_bind]
  apply looks.runs_getFields
  rw [runs_bind]
  apply filling.runs_destroyRange looks rfl
  intro now next filling looks
  rw [if_pos front, runs_bind]
  rw [filling_zero] at filling
  subst filling
  have here : Function.update cells newData (some ([some object] ++
      (List.replicate room none ++ []))) newData =
        some ([] ++ some object :: (List.replicate room none ++ [])) := Function.update_self ..
  apply looks.runs_destroy here rfl
  intro next looks
  rw [Function.update_idem] at looks
  have empty : Filling cells newData (List.replicate 1 none) [] room 0 _ := filling_zero.mpr rfl
  exact empty.runs_deallocate 1 looks fresh every

theorem guaranteed_reallocateWithPrepend {reference : Reference V} {moves : Bool}
    (holds : Holds cells vector) (readable : reference.Readable vector.data cells locals)
    (loose : moves = true → reference.Loose) :
    Guaranteed (reallocateWithPrepend policy moves reference) vector cells locals := by
  intro fields storage same looks
  rw [reallocateWithPrepend, runs_bind]
  apply runs_this looks
  rw [same, runs_bind, runs_refuse]
  refine ⟨fun _ => unchanged looks same, fun _ => ?_⟩
  rw [runs_bind]
  apply runs_growthCapacity looks _ fun _ => unchanged looks same
  intro newCapacity enough
  rw [runs_bind]
  apply runs_allocate looks _ fun next looks => unchanged looks same
  intro newData next fresh looks
  rw [runs_bind]
  apply looks.runs_modifyFields
  intro next looks
  have apart : vector.data ≠ some newData := fun there => holds.allocated there fresh
  rcases Nat.exists_eq_add_of_le' enough with ⟨rest, rfl⟩
  have raw : Filling cells newData [] (List.replicate (vector.size + rest) none) 1 0
      (Function.update cells newData
        (some (List.replicate (rest + (vector.size + 1)) none))) := by
    rw [filling_zero, List.nil_append, List.replicate_append_replicate, Nat.add_comm rest,
      Nat.add_right_comm, Nat.add_comm _ 1]
  have kept : reference.Readable fields.this.data (Function.update cells newData
      (some (List.replicate (rest + (vector.size + 1)) none))) locals := by
    rw [same]
    exact readable.mono (live_filling fresh raw)
  rw [runs_bind, runs_guarded, runs_bind]
  apply runs_make looks kept loose
  · intro value next looks
    rw [runs_bind]
    apply raw.runs_construct looks rfl Nat.one_pos
    intro now next filling looks
    rcases filling.first with ⟨object, filling⟩
    rw [runs_bind]
    apply looks.runs_modifyFields
    intro next looks
    apply runs_relocateLoop 1 looks filling same rfl holds apart rfl (Nat.zero_add _)
      (Nat.le_add_right _ _)
    · intro cells' now next holds' others filling looks
      rcases filling with ⟨objects, length', _, rfl⟩
      apply runs_adopt (object :: objects) looks same holds' others fresh apart _ _
        (Nat.add_comm _ _)
      · intro fields now next grown looks
        exact ⟨fields, now, grown, looks⟩
      · rw [List.append_nil, Nat.add_sub_cancel_left]
        rfl
      · rw [List.length_cons, length']
    · intro _ done now next filling looks
      apply runs_unwindFront looks filling rfl fresh
      intro next looks
      exact unchanged looks same
  · intro next looks
    rw [runs_bind]
    apply looks.runs_getFields
    rw [runs_bind, destroyRange, forDown, runs_pure, if_neg Bool.false_ne_true]
    apply looks.runs_deallocate (Function.update_self ..)
    intro next looks
    rw [Function.update_idem, ← fresh, Function.update_eq_self] at looks
    exact unchanged looks same

theorem runs_ensureCapacity_of_le {fields : Fields} {storage : Storage V Fields} {required : Nat}
    {post : Unit → Storage V Fields → Prop} {raises : Failure → Storage V Fields → Prop}
    (looks : Looks fields cells locals storage) (enough : required ≤ fields.this.capacity)
    (every : post () storage) : Runs (ensureCapacity policy required) storage post raises := by
  rw [ensureCapacity, runs_bind]
  apply runs_this looks
  rw [if_pos enough]
  exact every

theorem guaranteed_ensureCapacity {required : Nat} (holds : Holds cells vector) :
    Guaranteed (ensureCapacity policy required) vector cells locals := by
  intro fields storage same looks
  by_cases enough : required ≤ vector.capacity
  · apply runs_ensureCapacity_of_le looks (same.symm ▸ enough)
    exact ⟨fields, cells, same.symm ▸ Grown.refl holds, looks⟩
  · rw [ensureCapacity, runs_bind]
    apply runs_this looks
    rw [same, if_neg enough, runs_bind]
    apply runs_growthCapacity looks _ fun _ => unchanged looks same
    intro newCapacity reached
    rw [runs_bind]
    apply runs_allocate looks _ fun next looks => unchanged looks same
    intro newData next fresh looks
    rw [runs_bind]
    apply looks.runs_modifyFields
    intro next looks
    have apart : vector.data ≠ some newData := fun there => holds.allocated there fresh
    have fits : vector.size ≤ newCapacity :=
      Nat.le_trans (Nat.le_trans holds.size_le (Nat.le_of_not_le enough)) reached
    have filling : Filling cells newData [] [] newCapacity 0 (Function.update cells newData
        (some (List.replicate newCapacity none))) := by
      rw [filling_zero, List.append_nil, List.nil_append]
    rw [runs_bind, runs_guarded]
    apply runs_relocateLoop 0 looks filling same rfl holds apart rfl (Nat.zero_add _) fits
    · intro cells' now next holds' others filling looks
      rcases filling with ⟨objects, length, _, rfl⟩
      apply runs_adopt objects looks same holds' others fresh apart _ length
        (Nat.add_sub_cancel' fits)
      · intro fields now next grown looks
        exact ⟨fields, now, grown, looks⟩
      · rw [List.append_nil, List.nil_append]
    · intro _ done now next filling looks
      rw [runs_bind]
      apply looks.runs_getFields
      rw [runs_bind]
      apply filling.runs_destroyRange looks rfl
      intro now next filling looks
      apply filling.runs_deallocate 0 looks fresh
      intro next looks
      exact unchanged looks same

end Reallocation

end Wan.Container.ThrowingVector
