import Wan.Container.Vector.Accounting
import Wan.Container.Vector.Relocation

/-!
# The strong exception guarantee of `Vector`

Every call that adds elements or reserves storage either succeeds, or throws and leaves the
pointers, the elements and the storage as they were; then each object that it constructed has
been destroyed once.
-/

namespace Wan.Container.ThrowingVector

open Wan.Library Wan.Library.LinkedList Wan.Library.Program Wan.Library.Storage

variable {V : Type} {policy : Policy V}

/-- What a caller may pass: an object outside, an element, or an object on the stack. -/
def Reference.Offered (vector : Vector) (locals : List Nat) : Reference V → Prop
  | .outside _ => True
  | .element index => index < vector.size
  | .other _ _ => False
  | .staged => ∃ serial rest, locals = serial :: rest

section Guarantees

variable {vector : Vector} {cells now : Cells V} {locals : List Nat} {reference : Reference V}
variable {moves : Bool} {data : Addr} {objects : List (Object V)} {room count : Nat}

theorem Reference.Offered.readable (holds : Holds cells vector)
    (offered : reference.Offered vector locals) :
    reference.Readable vector.data cells locals := by
  cases reference with
  | outside value => trivial
  | element index => exact holds.live offered
  | other vector index => exact offered.elim
  | staged => exact offered

/-- Nothing is filled in behind the objects yet. -/
theorem filling_self {front : Slots (Object V)}
    (found : cells data = some (front ++ List.replicate room none)) :
    Filling cells data front [] room 0 now ↔ now = cells := by
  rw [filling_zero, List.append_nil, ← found, Function.update_eq_self]

/-- Objects stay where they are while a block is filled behind its objects. -/
theorem live_extending (found : cells data = some (objects.map some ++ List.replicate room none))
    (filling : Filling cells data (objects.map some) [] room count now) (block : Addr)
    (index : Nat) (live : Live cells block index) : Live now block index := by
  by_cases same : block = data
  · subst same
    rcases live with ⟨slots, object, here, stands⟩
    cases found.symm.trans here
    rcases filling with ⟨more, _, _, rfl⟩
    have inside : index < (objects.map some).length := by
      by_contra outside
      rw [List.getElem?_append_right (Nat.le_of_not_lt outside), List.getElem?_replicate] at stands
      split at stands <;> cases stands
    refine ⟨_, object, Function.update_self .., ?_⟩
    rw [List.append_assoc, List.getElem?_append_left inside]
    rwa [List.getElem?_append_left inside] at stands
  · exact live.mono (filling.other same)

/-- A vector that was extended in its block. -/
theorem grown_extending
    (filling : Filling cells data (objects.map some) [] room count now) :
    Grown ⟨some data, objects.length, objects.length + room⟩ cells
      ⟨some data, objects.length + count, objects.length + room⟩ now := by
  rcases filling with ⟨more, rfl, fits, rfl⟩
  constructor
  · apply holds_of_length (objects ++ more)
    · rw [Function.update_self, List.append_nil, List.map_append]
    · rw [List.length_append]
    · rw [Nat.add_assoc, Nat.add_sub_cancel' fits]
  · exact fun _ => .inl
  · exact fun _ there apart => absurd there apart
  · intro block apart _
    exact Function.update_of_ne (fun equal => apart (congrArg some equal.symm)) _ _

theorem guaranteed_appendConstructed (holds : Holds cells vector)
    (readable : reference.Readable vector.data cells locals)
    (loose : moves = true → reference.Loose) :
    Guaranteed (appendConstructed policy moves reference) vector cells locals := by
  intro fields storage same looks
  rw [appendConstructed, runs_bind]
  apply runs_this looks
  rw [same, runs_bind, runs_refuse]
  refine ⟨fun _ => unchanged looks same, fun _ => ?_⟩
  by_cases full : vector.size = vector.capacity
  · rw [if_pos full]
    exact guaranteed_reallocateWithTail holds (fun _ _ => readable) (fun moved _ => loose moved)
      fields storage same looks
  · rw [if_neg full, runs_bind]
    cases holds with
    | empty => exact absurd rfl full
    | @block data objects room found =>
        have free : 0 < room := Nat.pos_of_ne_zero fun none => full (by rw [none]; rfl)
        apply runs_pointer rfl
        rw [runs_bind]
        apply runs_make looks (by rw [same]; exact readable) loose
        · intro value next looks
          rw [runs_bind]
          apply ((filling_self found).mpr rfl).runs_construct looks (List.length_map ..).symm free
          intro now next filling looks
          apply runs_setThis looks
          intro next looks
          exact ⟨_, now, grown_extending filling, looks⟩
        · intro next looks
          exact unchanged looks same

/-- A call with an object on the stack. -/
theorem guaranteed_withStaged {value : Method V V} {body : Method V Unit}
    (supplies : ∀ fields storage, fields.this = vector → Looks fields cells locals storage →
      Runs value storage (fun _ => Looks fields cells locals) fun _ => Looks fields cells locals)
    (guaranteed : ∀ serial, Guaranteed body vector cells (serial :: locals)) :
    Guaranteed (withStaged value body) vector cells locals := by
  intro fields storage same looks
  rw [withStaged, runs_bind]
  apply (supplies fields storage same looks).mono
  · intro value next looks
    rw [runs_bind]
    apply looks.runs_enter
    intro serial next looks
    rw [runs_bind, runs_guarded]
    apply (guaranteed serial fields next same looks).mono
    · intro _ next ended
      rcases ended with ⟨fields, cells', grown, looks⟩
      apply looks.runs_leave
      intro next looks
      exact ⟨fields, cells', grown, looks⟩
    · intro _ next ended
      rcases ended with ⟨fields, same, looks⟩
      apply looks.runs_leave
      intro next looks
      exact unchanged looks same
  · intro _ next looks
    exact unchanged looks same

/-- A call with a copy of an argument on the stack. -/
theorem guaranteed_withCopy {body : Method V Unit}
    (readable : reference.Readable vector.data cells locals)
    (guaranteed : ∀ serial, Guaranteed body vector cells (serial :: locals)) :
    Guaranteed (withStaged (make policy false reference) body) vector cells locals := by
  apply guaranteed_withStaged _ guaranteed
  intro fields storage same looks
  apply runs_make looks (by rw [same]; exact readable) (fun moved => by cases moved)
  · exact fun _ _ => id
  · exact fun _ => id

/-- An argument that is an element is copied onto the stack first. -/
theorem guaranteed_unaliased {staged direct : Method V Unit} (holds : Holds cells vector)
    (offered : reference.Offered vector locals)
    (copied : ∀ serial, Guaranteed staged vector cells (serial :: locals))
    (passed : reference.Loose → Guaranteed direct vector cells locals) :
    Guaranteed (do
      if ← containsAddress reference then withStaged (make policy false reference) staged
      else direct) vector cells locals := by
  intro fields storage same looks
  rw [runs_bind]
  cases reference with
  | outside value => exact passed trivial fields storage same looks
  | element index =>
      have inside : index < vector.size := offered
      rw [containsAddress, runs_bind]
      apply runs_this looks
      rw [runs_pure, same, if_pos (decide_eq_true inside)]
      exact guaranteed_withCopy (Reference.Offered.readable holds offered) copied
        fields storage same looks
  | other vector index => exact offered.elim
  | staged => exact passed trivial fields storage same looks

theorem guaranteed_pushBackMove (holds : Holds cells vector)
    (offered : reference.Offered vector locals) :
    Guaranteed (pushBackMove policy reference) vector cells locals := by
  apply guaranteed_unaliased holds offered
  · intro serial
    exact guaranteed_appendConstructed holds ⟨serial, locals, rfl⟩ fun _ => trivial
  · intro loose
    exact guaranteed_appendConstructed holds (offered.readable holds) fun _ => loose

theorem guaranteed_pushBack (holds : Holds cells vector)
    (offered : reference.Offered vector locals) :
    Guaranteed (pushBack policy reference) vector cells locals := by
  apply guaranteed_unaliased holds offered
  · intro serial
    exact guaranteed_pushBackMove holds ⟨serial, locals, rfl⟩
  · intro loose
    exact guaranteed_appendConstructed holds (offered.readable holds) fun _ => loose

/-- Without room in the old block, `PushFront` reallocates. -/
theorem guaranteed_prependConstructed (holds : Holds cells vector)
    (full : vector.size = vector.capacity)
    (readable : reference.Readable vector.data cells locals)
    (loose : moves = true → reference.Loose) :
    Guaranteed (prependConstructed policy moves reference) vector cells locals := by
  intro fields storage same looks
  rw [prependConstructed, runs_bind]
  apply runs_this looks
  rw [same, runs_bind, runs_refuse]
  refine ⟨fun _ => unchanged looks same, fun _ => ?_⟩
  rw [if_pos full]
  exact guaranteed_reallocateWithPrepend holds readable loose fields storage same looks

theorem guaranteed_pushFrontMove (holds : Holds cells vector)
    (full : vector.size = vector.capacity) (offered : reference.Offered vector locals) :
    Guaranteed (pushFrontMove policy reference) vector cells locals := by
  apply guaranteed_unaliased holds offered
  · intro serial
    exact guaranteed_prependConstructed holds full ⟨serial, locals, rfl⟩ fun _ => trivial
  · intro loose
    exact guaranteed_prependConstructed holds full (offered.readable holds) fun _ => loose

theorem guaranteed_pushFront (holds : Holds cells vector) (full : vector.size = vector.capacity)
    (offered : reference.Offered vector locals) :
    Guaranteed (pushFront policy reference) vector cells locals := by
  apply guaranteed_unaliased holds offered
  · intro serial
    exact guaranteed_pushFrontMove holds full ⟨serial, locals, rfl⟩
  · intro loose
    exact guaranteed_prependConstructed holds full (offered.readable holds) fun _ => loose

/-- The loop of `SizeAdjust` within the capacity, from `done` new elements on. -/
theorem runs_padLoop {fields : Fields} {storage : Storage V Fields} {done total : Nat}
    {post : Unit → Storage V Fields → Prop} {raises : Failure → Storage V Fields → Prop}
    (looks : Looks fields now locals storage)
    (filling : Filling cells data (objects.map some) [] room done now)
    (same : fields.this = ⟨some data, objects.length + done, objects.length + room⟩)
    (whole : done + count = total) (fits : total ≤ room)
    (readable : ∀ done now, Filling cells data (objects.map some) [] room done now →
      reference.Readable (some data) now locals)
    (every : ∀ fields now next,
      fields.this = ⟨some data, objects.length + total, objects.length + room⟩ →
        Filling cells data (objects.map some) [] room total now →
          Looks fields now locals next → post () next)
    (fails : ∀ done fields now next,
      fields.this = ⟨some data, objects.length + done, objects.length + room⟩ →
        Filling cells data (objects.map some) [] room done now →
          Looks fields now locals next → raises .raised next) :
    Runs (forUp (objects.length + done) (fun index => do
      Storage.construct data index (← make policy false reference)
      setThis ⟨some data, index + 1, objects.length + room⟩) count) storage post raises := by
  induction count generalizing done fields storage now with
  | zero =>
      rw [Nat.add_zero] at whole
      subst whole
      exact every fields now storage same filling looks
  | succ count ih =>
      have inside : done < total := whole ▸ Nat.lt_add_of_pos_right (Nat.succ_pos count)
      rw [forUp, runs_bind, runs_bind]
      apply runs_make looks _ fun moved => by cases moved
      · intro value next looks
        rw [runs_bind]
        apply filling.runs_construct looks (by rw [List.length_map])
          (Nat.lt_of_lt_of_le inside fits)
        intro now next filling looks
        apply runs_setThis looks
        intro next looks
        apply ih looks filling rfl
        rw [← whole, Nat.add_right_comm, Nat.add_assoc]
      · exact fun next => fails done fields now next same filling
      · rw [same]
        exact readable done now filling

theorem guaranteed_sizeAdjust {dataSize : Nat} (holds : Holds cells vector)
    (grows : vector.size < dataSize) (offered : reference.Offered vector locals) :
    Guaranteed (sizeAdjust policy dataSize reference) vector cells locals := by
  intro fields storage same looks
  rcases Nat.exists_eq_add_of_le (Nat.le_of_lt grows) with ⟨count, rfl⟩
  rw [sizeAdjust, runs_bind]
  apply runs_this looks
  rw [same, runs_bind, runs_refuse]
  refine ⟨fun _ => unchanged looks same, fun _ => ?_⟩
  rw [if_neg (Nat.lt_asymm grows), if_neg (Nat.ne_of_gt grows), Nat.add_sub_cancel_left]
  by_cases exceeds : vector.capacity < vector.size + count
  · rw [if_pos exceeds]
    exact guaranteed_reallocateWithTail holds (fun _ _ => offered.readable holds)
      (fun moved => by cases moved) fields storage same looks
  · have readable := Reference.Offered.readable holds offered
    rw [if_neg exceeds, runs_bind]
    cases holds with
    | empty => exact absurd grows exceeds
    | @block data objects room found =>
        have fits : count ≤ room := Nat.le_of_add_le_add_left (Nat.le_of_not_lt exceeds)
        apply runs_pointer rfl
        rw [runs_guarded]
        apply runs_padLoop looks ((filling_self found).mpr rfl) same (Nat.zero_add _) fits
        · intro done now filling
          exact readable.mono (live_extending found filling)
        · intro fields now next same filling looks
          exact ⟨fields, now, same ▸ grown_extending filling, looks⟩
        · intro done fields now next same filling looks
          rw [runs_bind]
          apply runs_this looks
          rw [same, Nat.add_sub_cancel_left, runs_bind]
          apply filling.runs_destroyRange looks (List.length_map ..).symm
          intro now next filling looks
          rw [(filling_self found).mp filling] at looks
          apply runs_setThis looks
          intro next looks
          exact unchanged looks rfl

theorem guaranteed_sizeAdjustDefault {dataSize : Nat} (holds : Holds cells vector)
    (grows : vector.size < dataSize) :
    Guaranteed (sizeAdjustDefault policy dataSize) vector cells locals := by
  apply guaranteed_withStaged
  · intro fields storage same looks
    rw [runs_bind]
    apply looks.runs_attempt
    · exact fun _ => id
    · exact fun _ _ => id
  · intro serial
    exact guaranteed_sizeAdjust holds grows ⟨serial, locals, rfl⟩

/-- The elements of another vector are appended. -/
theorem guaranteed_append {other : Vector} (holds : Holds cells vector)
    (source : Holds cells other) : Guaranteed (append policy other) vector cells locals := by
  have readable (index : Nat) (inside : index < other.size) :
      (Reference.other other index : Reference V).Readable vector.data cells locals :=
    source.live inside
  intro fields storage same looks
  rw [append]
  by_cases nothing : other.size = 0
  · rw [if_pos nothing]
    exact ⟨fields, cells, same.symm ▸ Grown.refl holds, looks⟩
  rw [if_neg nothing, runs_bind]
  apply runs_this looks
  rw [same, runs_bind, runs_refuse]
  refine ⟨fun _ => unchanged looks same, fun _ => ?_⟩
  by_cases exceeds : vector.capacity < vector.size + other.size
  · rw [if_pos exceeds]
    exact guaranteed_reallocateWithTail holds readable (fun moved => by cases moved)
      fields storage same looks
  · rw [if_neg exceeds, runs_bind]
    apply runs_ensureCapacity_of_le looks (same.symm ▸ Nat.le_of_not_lt exceeds)
    rw [runs_bind]
    cases holds with
    | empty =>
        exact absurd (Nat.pos_of_ne_zero nothing) (fun positive => exceeds (by
          rw [Vector.empty, Nat.zero_add]
          exact positive))
    | @block data objects room found =>
        have fits : other.size ≤ room := Nat.le_of_add_le_add_left (Nat.le_of_not_lt exceeds)
        apply runs_pointer rfl
        rw [runs_bind]
        apply looks.runs_modifyFields
        intro next looks
        rw [runs_bind, runs_guarded]
        apply runs_constructTailLoop looks rfl ((filling_self found).mpr rfl)
          (List.length_map ..).symm (Nat.zero_add _) fits
        · intro index inside done now filling
          rw [show _ = some data from congrArg Vector.data same]
          exact (readable index inside).mono (live_extending found filling)
        · exact fun moved => by cases moved
        · intro now next filling looks
          apply runs_setThis looks
          intro next looks
          exact ⟨_, now, grown_extending filling, looks⟩
        · intro done now next filling looks
          rw [runs_bind]
          apply looks.runs_getFields
          apply filling.runs_destroyRange looks (List.length_map ..).symm
          intro now next filling looks
          rw [(filling_self found).mp filling] at looks
          exact unchanged looks same

end Guarantees

section Copies

variable {fields : Fields} {vector other : Vector} {cells now : Cells V} {locals : List Nat}
variable {storage : Storage V Fields}
variable {post : Unit → Storage V Fields → Prop} {raises : Failure → Storage V Fields → Prop}

theorem runs_release (looks : Looks fields cells locals storage)
    (holds : Holds cells fields.this)
    (every : ∀ now next, (∀ block, fields.this.data = some block → now block = none) →
      (∀ block, fields.this.data ≠ some block → now block = cells block) →
        Looks { fields with this := .empty } now locals next → post () next) :
    Runs release storage post raises := by
  rw [release, runs_bind]
  apply runs_this looks
  by_cases absent : fields.this.data = none
  · rw [if_pos absent]
    apply every cells storage
    · intro block there
      cases absent.symm.trans there
    · exact fun _ _ => rfl
    · have empty : fields.this = .empty := by
        generalize fields.this = vector at holds absent
        cases holds with
        | empty => rfl
        | block found => cases absent
      rw [← empty]
      exact looks
  · rw [if_neg absent, runs_bind]
    apply runs_discard looks holds
    intro now next own rest looks
    apply runs_setThis looks
    intro next looks
    exact every now next own rest looks

/-- The destructor of another vector. -/
theorem runs_destroyOther (looks : Looks fields cells locals storage) (holds : Holds cells other)
    (every : ∀ now next, (∀ block, other.data = some block → now block = none) →
      (∀ block, other.data ≠ some block → now block = cells block) →
        Looks fields now locals next → post () next) :
    Runs (destroyOther other) storage post raises := by
  rw [destroyOther, runs_bind, onOther, runs_bind]
  apply runs_this looks
  rw [runs_bind]
  apply runs_setThis looks
  intro next looks
  rw [runs_bind, runs_guarded]
  apply runs_release looks holds
  intro now next own rest looks
  rw [runs_bind]
  apply runs_this looks
  rw [runs_bind]
  apply runs_setThis looks
  intro next looks
  exact every now next own rest looks

/-- Giving back the block of a vector that came into being undoes it. -/
theorem Grown.undo {later : Vector} {after : Cells V} (grown : Grown .empty cells later now)
    (own : ∀ block, later.data = some block → after block = none)
    (rest : ∀ block, later.data ≠ some block → after block = now block) : after = cells := by
  funext block
  by_cases there : later.data = some block
  · rw [own block there]
    rcases grown.fresh block there with never | absent
    · cases never
    · exact absent.symm
  · rw [rest block there]
    exact grown.others block nofun there

/-- A vector is left alone while another one comes into being. -/
theorem Grown.kept {later : Vector} (grown : Grown .empty cells later now)
    (holds : Holds cells other) : Holds now other := by
  apply holds.congr
  intro block there
  apply grown.others block nofun
  intro same
  rcases grown.fresh block same with never | absent
  · cases never
  · exact holds.allocated there absent

/-- A vector that came into being shares its block with no other. -/
theorem Grown.apart {copied later : Vector} {after : Cells V}
    (grown : Grown .empty cells copied now) (holds : Holds cells vector)
    (further : Grown vector now later after) {block : Addr} (there : copied.data = some block) :
    vector.data ≠ some block ∧ later.data ≠ some block := by
  have absent : cells block = none := by
    rcases grown.fresh block there with never | absent
    · cases never
    · exact absent
  have old : vector.data ≠ some block := fun here => holds.allocated here absent
  refine ⟨old, fun here => ?_⟩
  rcases further.fresh block here with kept | missing
  · exact old kept
  · exact grown.holds.allocated there missing

/-- A vector that came into being is given back after another one has grown. -/
theorem Grown.drop {copied later : Vector} {after last : Cells V}
    (grown : Grown .empty cells copied now) (holds : Holds cells vector)
    (further : Grown vector now later after)
    (own : ∀ block, copied.data = some block → last block = none)
    (rest : ∀ block, copied.data ≠ some block → last block = after block) :
    Grown vector cells later last := by
  have before (block : Addr) (apart : copied.data ≠ some block) : now block = cells block :=
    grown.others block nofun apart
  constructor
  · exact further.holds.congr fun block there =>
      rest block fun here => (grown.apart holds further here).2 there
  · intro block there
    rcases further.fresh block there with kept | absent
    · exact .inl kept
    · exact .inr ((before block fun here => (grown.apart holds further here).2 there).symm.trans
        absent)
  · intro block there apart
    rw [rest block fun here => (grown.apart holds further here).1 there]
    exact further.released block there apart
  · intro block old new
    by_cases here : copied.data = some block
    · rw [own block here]
      rcases grown.fresh block here with never | absent
      · cases never
      · exact absent.symm
    · rw [rest block here, further.others block old new, before block here]

/-- The loop of the copy constructor from an index on. -/
theorem runs_copyLoop {count : Nat} (source : Holds cells other) {index : Nat}
    (looks : Looks fields now locals storage) (grown : Grown .empty cells fields.this now)
    (inside : index + count = other.size) :
    Runs (forUp index (fun index => appendConstructed policy false (.other other index)) count)
      storage
      (fun _ next => ∃ fields now, Grown .empty cells fields.this now ∧
        Looks fields now locals next)
      fun _ next => ∃ fields now, Grown .empty cells fields.this now ∧
        Looks fields now locals next := by
  induction count generalizing index fields storage now with
  | zero => exact ⟨fields, now, grown, looks⟩
  | succ count ih =>
      have here : index < other.size := inside ▸ Nat.lt_add_of_pos_right (Nat.succ_pos count)
      have readable : (Reference.other other index : Reference V).Readable fields.this.data now
          locals := (grown.kept source).live here
      rw [forUp, runs_bind]
      apply (guaranteed_appendConstructed grown.holds readable (fun moved => by cases moved)
        fields storage rfl looks).mono
      · intro _ next ended
        rcases ended with ⟨later, cells', further, looks⟩
        apply ih looks (grown.trans further)
        rw [← inside, Nat.add_right_comm, Nat.add_assoc]
      · intro _ next ended
        rcases ended with ⟨later, same, looks⟩
        exact ⟨later, now, same ▸ grown, looks⟩

theorem guaranteed_copyConstruct (source : Holds cells other) :
    Guaranteed (copyConstruct policy other) .empty cells locals := by
  intro fields storage same looks
  have undone {next : Storage V Fields}
      (ended : ∃ fields now, Grown .empty cells fields.this now ∧ Looks fields now locals next) :
      Runs release next (fun _ last => Unchanged .empty cells locals last)
        fun _ last => Unchanged (V := V) .empty cells locals last := by
    rcases ended with ⟨fields, now, grown, looks⟩
    apply runs_release looks grown.holds
    intro after next own rest looks
    rw [grown.undo own rest] at looks
    exact unchanged looks rfl
  rw [copyConstruct, runs_guarded, runs_bind]
  apply (guaranteed_ensureCapacity .empty fields storage same looks).mono
  · intro _ next ended
    rcases ended with ⟨fields, now, grown, looks⟩
    apply (runs_copyLoop source looks grown (Nat.zero_add _)).mono
    · exact fun _ _ => id
    · exact fun _ _ => undone
  · intro _ next ended
    rcases ended with ⟨fields, same, looks⟩
    exact undone ⟨fields, cells, same.symm ▸ Grown.refl .empty, looks⟩

theorem guaranteed_appendSelf (holds : Holds cells vector) :
    Guaranteed (appendSelf policy) vector cells locals := by
  intro fields storage same looks
  rw [appendSelf, runs_bind]
  apply runs_this looks
  rw [same]
  by_cases nothing : vector.size = 0
  · rw [if_pos nothing]
    exact ⟨fields, cells, same.symm ▸ Grown.refl holds, looks⟩
  rw [if_neg nothing, runs_bind, onOther, runs_bind]
  apply runs_this looks
  rw [runs_bind]
  apply runs_setThis looks
  intro next looks
  rw [runs_bind, runs_guarded]
  apply (guaranteed_copyConstruct holds _ next rfl looks).mono
  · intro _ next ended
    rcases ended with ⟨copied, now, grown, looks⟩
    rw [runs_bind]
    apply runs_this looks
    rw [runs_bind]
    apply runs_setThis looks
    intro next looks
    rw [runs_pure, runs_bind, runs_guarded]
    apply (guaranteed_append (grown.kept holds) grown.holds { copied with this := fields.this }
      next same looks).mono
    · intro _ next ended
      rcases ended with ⟨later, after, further, looks⟩
      have left : Holds after copied.this := grown.holds.congr fun block there =>
        further.others block (grown.apart holds further there).1
          (grown.apart holds further there).2
      apply runs_destroyOther looks left
      intro last next own rest looks
      exact ⟨later, last, grown.drop holds further own rest, looks⟩
    · intro _ next ended
      rcases ended with ⟨fields, same, looks⟩
      apply runs_destroyOther looks grown.holds
      intro after next own rest looks
      rw [grown.undo own rest] at looks
      exact unchanged looks same
  · intro _ next ended
    rcases ended with ⟨copied, _, looks⟩
    apply runs_setThis looks
    intro next looks
    exact unchanged looks same

end Copies

/-- The calls that the guarantee is about: `SizeAdjust` that grows, `PushFront` that reallocates. -/
def Call.Admissible (vector : Vector) (cells : Cells V) (locals : List Nat) : Call V → Prop
  | .pushBack data | .pushBackMove data => data.Offered vector locals
  | .pushFront data | .pushFrontMove data =>
      vector.size = vector.capacity ∧ data.Offered vector locals
  | .sizeAdjust dataSize padding => vector.size < dataSize ∧ padding.Offered vector locals
  | .sizeAdjustDefault dataSize => vector.size < dataSize
  | .resize _ | .appendSelf => True
  | .append other => Holds cells other

/-- The pointers and the storage are as before, and every object that was constructed since has
been destroyed once. -/
structure Restored (before after : Storage V Fields) : Prop where
  this : after.fields.this = before.fields.this
  cells : after.memory.cells = before.memory.cells
  died : after.died.Perm (before.died ++ List.range' before.born (after.born - before.born))

section Main

theorem Call.guaranteed {call : Call V} {vector : Vector} {cells : Cells V} {locals : List Nat}
    (holds : Holds cells vector) (admissible : call.Admissible vector cells locals) :
    Guaranteed (call.run policy) vector cells locals := by
  cases call with
  | pushBack data => exact guaranteed_pushBack holds admissible
  | pushBackMove data => exact guaranteed_pushBackMove holds admissible
  | pushFront data => exact guaranteed_pushFront holds admissible.1 admissible.2
  | pushFrontMove data => exact guaranteed_pushFrontMove holds admissible.1 admissible.2
  | sizeAdjust dataSize padding => exact guaranteed_sizeAdjust holds admissible.1 admissible.2
  | sizeAdjustDefault dataSize => exact guaranteed_sizeAdjustDefault holds admissible
  | resize newContainerCapacity => exact guaranteed_ensureCapacity holds
  | append other => exact guaranteed_append holds admissible
  | appendSelf => exact guaranteed_appendSelf holds

variable (policy) in
/-- Whichever operation throws: a call ends, with a vector that is in order or with everything as
it was. -/
theorem Call.exception_safe (call : Call V) (storage : Storage V Fields)
    (holds : Holds storage.memory.cells storage.fields.this)
    (admissible : call.Admissible storage.fields.this storage.memory.cells
      (storage.locals.map Object.serial)) :
    Runs (call.run policy) storage
      (fun _ next => Holds next.memory.cells next.fields.this ∧ Conserved storage next)
      fun _ next => Restored storage next := by
  have guaranteed : Guaranteed (call.run policy) _ _ _ := Call.guaranteed holds admissible
  have ended := guaranteed storage.fields storage rfl (looks_self storage)
  apply (ended.and_yields (call.accounts storage)).mono
  · intro _ next both
    rcases both with ⟨⟨fields, cells', grown, looks⟩, conserved⟩
    rw [looks.fields, looks.cells]
    exact ⟨grown.holds, conserved⟩
  · intro _ next both
    rcases both with ⟨⟨fields, same, looks⟩, conserved⟩
    exact ⟨looks.fields ▸ same, looks.cells, conserved.died looks.cells looks.locals⟩

/-- The copy of the first of two elements throws while a copy of it is appended: then two objects
were constructed, the one on the stack and the one in the new storage. -/
theorem Call.exception_safe_aliased :
    let policy : Policy Nat := { moved := fun _ => 0, nothrowMove := false, maxSize := 100,
                                 faults := fun moment => moment == 3, initial := 0 }
    let storage : Storage Nat Fields :=
      ⟨Heap.empty.alloc [some ⟨0, 10⟩, some ⟨1, 11⟩], [], 2, [], 0, ⟨⟨some 0, 2, 2⟩, 0, 0, false⟩⟩
    ∃ next, ((Call.pushBack (.element 0)).run policy).run.run storage =
      some (.error .raised, next) ∧ next.born = 4 ∧ Restored storage next := by
  intro policy storage
  have holds : Holds storage.memory.cells storage.fields.this := by
    have found : storage.memory.cells 0 =
      some (([⟨0, 10⟩, ⟨1, 11⟩] : List (Object Nat)).map some ++ List.replicate 0 none) := rfl
    exact .block found
  have inside : 0 < storage.fields.this.size := Nat.two_pos
  have guarantee := Call.exception_safe policy (.pushBack (.element 0)) storage holds inside
  have ran : (do
      let (outcome, next) ← ((Call.pushBack (.element 0)).run policy).run.run storage
      match outcome with
      | .ok _ => none
      | .error failure => some (failure, next.born)) = some (Failure.raised, 4) := by
    decide +kernel
  rcases Option.bind_eq_some_iff.mp ran with ⟨⟨failure | ⟨⟩, next⟩, ended, shown⟩
  · rcases Prod.mk.inj (Option.some.inj shown) with ⟨rfl, born⟩
    exact ⟨next, ended, born, guarantee.ended ended⟩
  · cases shown

end Main

end Wan.Container.ThrowingVector
