import Wan.Container.Vector.Throwing
import Wan.Library.Objects.Ledger

/-!
# No object gets lost in a vector

Whatever a member function does and however it ends, every object is alive or was destroyed once.
-/

namespace Wan.Container.ThrowingVector

open Wan.Library Wan.Library.Program Wan.Library.Storage

variable {V α : Type} {policy : Policy V}

/-- A member function accounts for every object. -/
abbrev Accounts (method : Method V α) : Prop := Keeps Conserved method

section Parts

theorem accounts_this : Accounts (this : Method V Vector) :=
  keeps_bind keeps_getFields fun _ => keeps_pure _

theorem accounts_setThis (vector : Vector) : Accounts (setThis vector : Method V Unit) :=
  keeps_modifyFields _

theorem accounts_pointer (vector : Vector) : Accounts (pointer vector : Method V _) := by
  rw [pointer]
  split
  · exact keeps_pure _
  · exact keeps_stuck

theorem accounts_takeSlot (moves : Bool) (data index : Nat) :
    Accounts (takeSlot policy moves data index) := by
  refine keeps_bind keeps_read fun value => keeps_ite ?_ (keeps_pure _)
  exact keeps_bind keeps_assign fun _ => keeps_pure _

theorem accounts_take (moves : Bool) (reference : Reference V) :
    Accounts (take policy moves reference) := by
  cases reference with
  | outside value => exact keeps_pure _
  | element index =>
      refine keeps_bind accounts_this fun vector => ?_
      exact keeps_bind (accounts_pointer vector) fun _ => accounts_takeSlot _ _ _
  | other vector index =>
      exact keeps_bind (accounts_pointer vector) fun _ => accounts_takeSlot _ _ _
  | staged =>
      refine keeps_bind keeps_readLocal fun value => keeps_ite ?_ (keeps_pure _)
      exact keeps_bind keeps_assignLocal fun _ => keeps_pure _

theorem accounts_make (moves : Bool) (reference : Reference V) :
    Accounts (make policy moves reference) :=
  keeps_bind (keeps_attempt _ _ _) fun _ => accounts_take _ _

theorem accounts_assign (data index : Nat) (moves : Bool) (reference : Reference V) :
    Accounts (assign policy data index moves reference) := by
  refine keeps_bind (keeps_attempt _ _ _) fun _ => ?_
  exact keeps_bind (accounts_take _ _) fun _ => keeps_assign

theorem accounts_withStaged {value : Method V V} {body : Method V Unit}
    (supplies : Accounts value) (accounts : Accounts body) : Accounts (withStaged value body) := by
  refine keeps_bind supplies fun _ => keeps_bind keeps_enter fun _ => ?_
  exact keeps_bind (keeps_guarded accounts keeps_leave) fun _ => keeps_leave

theorem accounts_onOther {method : Method V Unit} (vector : Vector)
    (accounts : Accounts method) : Accounts (onOther vector method) := by
  refine keeps_bind accounts_this fun outer => keeps_bind (accounts_setThis vector) fun _ => ?_
  refine keeps_bind (keeps_guarded accounts (accounts_setThis outer)) fun _ => ?_
  refine keeps_bind accounts_this fun result => keeps_bind (accounts_setThis outer) fun _ => ?_
  exact keeps_pure _

theorem accounts_destroyRange (data first count : Nat) :
    Accounts (destroyRange data first count : Method V Unit) :=
  keeps_forDown (fun _ => keeps_destroy) _ _

theorem accounts_discard (vector : Vector) : Accounts (discard vector : Method V Unit) := by
  rw [discard]
  split
  · exact keeps_pure _
  · exact keeps_bind (accounts_destroyRange _ _ _) fun _ => keeps_deallocate

theorem accounts_release : Accounts (release : Method V Unit) := by
  refine keeps_bind accounts_this fun vector => keeps_ite (keeps_pure _) ?_
  exact keeps_bind (accounts_discard vector) fun _ => accounts_setThis _

theorem accounts_containsAddress (reference : Reference V) :
    Accounts (containsAddress reference) := by
  cases reference with
  | element index => exact keeps_bind accounts_this fun _ => keeps_pure _
  | outside _ | other _ _ | staged => exact keeps_pure _

theorem accounts_growthCapacity (required : Nat) :
    Accounts (growthCapacity policy required) := by
  refine keeps_bind (keeps_refuse _ _) fun _ => ?_
  exact keeps_bind accounts_this fun _ => keeps_pure _

theorem accounts_allocate (capacity : Nat) : Accounts (allocate policy capacity) :=
  keeps_bind (keeps_attempt _ _ _) fun _ => keeps_allocate capacity

theorem accounts_relocate (newData offset count : Nat) :
    Accounts (relocate policy newData offset count) := by
  refine keeps_forUp (fun index => keeps_bind (accounts_make _ _) fun _ => ?_) _ _
  exact keeps_bind keeps_construct fun _ => keeps_modifyFields _

theorem accounts_constructTail (reference : Nat → Reference V) (moves : Bool)
    (count data tailStart : Nat) :
    Accounts (constructTail policy reference moves count data tailStart) := by
  refine keeps_forUp (fun index => keeps_bind (accounts_make _ _) fun _ => ?_) _ _
  exact keeps_bind keeps_construct fun _ => keeps_modifyFields _

theorem accounts_adopt (newData newSize newCapacity : Nat) :
    Accounts (adopt newData newSize newCapacity : Method V Unit) := by
  refine keeps_bind accounts_this fun vector => ?_
  exact keeps_bind (accounts_discard vector) fun _ => accounts_setThis _

end Parts

section Reallocations

theorem accounts_reallocateWithTail {newSize : Nat} {tail : Nat → Nat → Method V Unit}
    (accounts : ∀ data tailStart, Accounts (tail data tailStart)) :
    Accounts (reallocateWithTail policy newSize tail) := by
  refine keeps_bind accounts_this fun vector => ?_
  refine keeps_bind (accounts_growthCapacity _) fun newCapacity => ?_
  refine keeps_bind (accounts_allocate _) fun newData => ?_
  refine keeps_bind (keeps_modifyFields _) fun _ => keeps_bind (keeps_guarded ?_ ?_) fun _ => ?_
  · exact keeps_bind (accounts _ _) fun _ => accounts_relocate _ _ _
  · refine keeps_bind keeps_getFields fun fields => ?_
    refine keeps_bind (accounts_destroyRange _ _ _) fun _ => ?_
    exact keeps_bind (accounts_destroyRange _ _ _) fun _ => keeps_deallocate
  · exact accounts_adopt _ _ _

theorem accounts_reallocateWithPrepend (moves : Bool) (newValue : Reference V) :
    Accounts (reallocateWithPrepend policy moves newValue) := by
  refine keeps_bind accounts_this fun vector => keeps_bind (keeps_refuse _ _) fun _ => ?_
  refine keeps_bind (accounts_growthCapacity _) fun newCapacity => ?_
  refine keeps_bind (accounts_allocate _) fun newData => ?_
  refine keeps_bind (keeps_modifyFields _) fun _ => keeps_bind (keeps_guarded ?_ ?_) fun _ => ?_
  · refine keeps_bind (accounts_make _ _) fun _ => keeps_bind keeps_construct fun _ => ?_
    exact keeps_bind (keeps_modifyFields _) fun _ => accounts_relocate _ _ _
  · refine keeps_bind keeps_getFields fun fields => ?_
    refine keeps_bind (accounts_destroyRange _ _ _) fun _ => keeps_ite ?_ keeps_deallocate
    exact keeps_bind keeps_destroy fun _ => keeps_deallocate
  · exact accounts_adopt _ _ _

theorem accounts_ensureCapacity (required : Nat) :
    Accounts (ensureCapacity policy required) := by
  refine keeps_bind accounts_this fun vector => keeps_ite (keeps_pure _) ?_
  refine keeps_bind (accounts_growthCapacity _) fun newCapacity => ?_
  refine keeps_bind (accounts_allocate _) fun newData => ?_
  refine keeps_bind (keeps_modifyFields _) fun _ => keeps_bind (keeps_guarded ?_ ?_) fun _ => ?_
  · exact accounts_relocate _ _ _
  · refine keeps_bind keeps_getFields fun fields => ?_
    exact keeps_bind (accounts_destroyRange _ _ _) fun _ => keeps_deallocate
  · exact accounts_adopt _ _ _

end Reallocations

section Calls

theorem accounts_appendConstructed (moves : Bool) (value : Reference V) :
    Accounts (appendConstructed policy moves value) := by
  refine keeps_bind accounts_this fun vector => keeps_bind (keeps_refuse _ _) fun _ => ?_
  refine keeps_ite (accounts_reallocateWithTail fun _ _ => accounts_constructTail _ _ _ _ _) ?_
  refine keeps_bind (accounts_pointer vector) fun _ => keeps_bind (accounts_make _ _) fun _ => ?_
  exact keeps_bind keeps_construct fun _ => accounts_setThis _

theorem accounts_pushBackMove (data : Reference V) : Accounts (pushBackMove policy data) := by
  refine keeps_bind (accounts_containsAddress data) fun _ => keeps_ite ?_ ?_
  · exact accounts_withStaged (accounts_make _ _) (accounts_appendConstructed _ _)
  · exact accounts_appendConstructed _ _

theorem accounts_pushBack (data : Reference V) : Accounts (pushBack policy data) := by
  refine keeps_bind (accounts_containsAddress data) fun _ => keeps_ite ?_ ?_
  · exact accounts_withStaged (accounts_make _ _) (accounts_pushBackMove _)
  · exact accounts_appendConstructed _ _

theorem accounts_prependConstructed (moves : Bool) (value : Reference V) :
    Accounts (prependConstructed policy moves value) := by
  refine keeps_bind accounts_this fun vector => keeps_bind (keeps_refuse _ _) fun _ => ?_
  refine keeps_ite (accounts_reallocateWithPrepend _ _) ?_
  refine keeps_bind (accounts_pointer vector) fun data => keeps_ite ?_ ?_
  · refine keeps_bind (accounts_make _ _) fun _ => ?_
    exact keeps_bind keeps_construct fun _ => accounts_setThis _
  · refine keeps_bind (accounts_make _ _) fun _ => keeps_bind keeps_construct fun _ => ?_
    refine keeps_bind (keeps_guarded ?_ keeps_destroy) fun _ => accounts_setThis _
    exact keeps_bind (keeps_forDown (fun _ => accounts_assign _ _ _ _) _ _) fun _ => accounts_assign _ _ _ _

theorem accounts_pushFrontMove (data : Reference V) : Accounts (pushFrontMove policy data) := by
  refine keeps_bind (accounts_containsAddress data) fun _ => keeps_ite ?_ ?_
  · exact accounts_withStaged (accounts_make _ _) (accounts_prependConstructed _ _)
  · exact accounts_prependConstructed _ _

theorem accounts_pushFront (data : Reference V) : Accounts (pushFront policy data) := by
  refine keeps_bind (accounts_containsAddress data) fun _ => keeps_ite ?_ ?_
  · exact accounts_withStaged (accounts_make _ _) (accounts_pushFrontMove _)
  · exact accounts_prependConstructed _ _

theorem accounts_sizeAdjust (dataSize : Nat) (padding : Reference V) :
    Accounts (sizeAdjust policy dataSize padding) := by
  refine keeps_bind accounts_this fun vector => keeps_bind (keeps_refuse _ _) fun _ => ?_
  refine keeps_ite ?_ (keeps_ite (keeps_pure _) (keeps_ite ?_ ?_))
  · refine keeps_bind (accounts_pointer vector) fun _ => ?_
    exact keeps_bind (accounts_destroyRange _ _ _) fun _ => accounts_setThis _
  · exact accounts_reallocateWithTail fun _ _ => accounts_constructTail _ _ _ _ _
  · refine keeps_bind (accounts_pointer vector) fun _ => keeps_guarded ?_ ?_
    · refine keeps_forUp (fun index => keeps_bind (accounts_make _ _) fun _ => ?_) _ _
      exact keeps_bind keeps_construct fun _ => accounts_setThis _
    · refine keeps_bind accounts_this fun _ => ?_
      exact keeps_bind (accounts_destroyRange _ _ _) fun _ => accounts_setThis _

theorem accounts_append (other : Vector) : Accounts (append policy other) := by
  refine keeps_ite (keeps_pure _) (keeps_bind accounts_this fun vector => ?_)
  refine keeps_bind (keeps_refuse _ _) fun _ => keeps_ite ?_ ?_
  · exact accounts_reallocateWithTail fun _ _ => accounts_constructTail _ _ _ _ _
  · refine keeps_bind (accounts_ensureCapacity _) fun _ => ?_
    refine keeps_bind (accounts_pointer vector) fun _ => keeps_bind (keeps_modifyFields _) fun _ => ?_
    refine keeps_bind (keeps_guarded (accounts_constructTail _ _ _ _ _) ?_) fun _ => accounts_setThis _
    exact keeps_bind keeps_getFields fun _ => accounts_destroyRange _ _ _

theorem accounts_copyConstruct (source : Vector) : Accounts (copyConstruct policy source) := by
  refine keeps_guarded (keeps_bind (accounts_ensureCapacity _) fun _ => ?_) accounts_release
  exact keeps_forUp (fun _ => accounts_appendConstructed _ _) _ _

theorem accounts_destroyOther (vector : Vector) :
    Accounts (destroyOther vector : Method V Unit) :=
  keeps_bind (accounts_onOther vector accounts_release) fun _ => keeps_pure _

theorem accounts_appendSelf : Accounts (appendSelf policy) := by
  refine keeps_bind accounts_this fun vector => keeps_ite (keeps_pure _) ?_
  refine keeps_bind (accounts_onOther _ (accounts_copyConstruct vector)) fun copied => ?_
  refine keeps_bind (keeps_guarded (accounts_append copied) ?_) fun _ => ?_
  · exact accounts_destroyOther copied
  · exact accounts_destroyOther copied

theorem Call.accounts (call : Call V) : Accounts (call.run policy) := by
  cases call with
  | pushBack data => exact accounts_pushBack data
  | pushBackMove data => exact accounts_pushBackMove data
  | pushFront data => exact accounts_pushFront data
  | pushFrontMove data => exact accounts_pushFrontMove data
  | sizeAdjust dataSize padding => exact accounts_sizeAdjust dataSize padding
  | sizeAdjustDefault dataSize =>
      refine accounts_withStaged ?_ (accounts_sizeAdjust dataSize .staged)
      exact keeps_bind (keeps_attempt _ _ _) fun _ => keeps_pure _
  | resize newContainerCapacity => exact accounts_ensureCapacity newContainerCapacity
  | append other => exact accounts_append other
  | appendSelf => exact accounts_appendSelf

end Calls

end Wan.Container.ThrowingVector
