import Wan.Library.Cursor
import Wan.Library.LinkedTree.Search

/-!
# Iterating over linked trees

The nodes of a tree in order are its elements, each once and with increasing keys, and stepping to
the neighbour of a node moves along this order in either direction.
-/

namespace Wan.Library.LinkedTree

open Cursor

variable {α K V : Type} [Payload α V]

/-- The value at an address. -/
def Store.valueAt (store : Store α) (address : Addr) : Option V := do
  return Payload.value (← store.read address).info

/-- The addresses are those of the allocated cells, each once, and the keys of their values
increase strictly. -/
structure Enumerates (key : V → K) (lt : K → K → Bool) (store : Store α) (nodes : List Addr) :
    Prop where
  distinct : nodes.Nodup
  complete : ∀ address, address ∈ nodes ↔ ∃ cell, store.read address = some cell
  increasing : nodes.Pairwise fun first second =>
    ∃ v w, store.valueAt first = some v ∧ store.valueAt second = some w ∧
      lt (key v) (key w) = true

/-- The direction in which a move goes over nodes that are listed towards a side. -/
def direction (side : Side) : Move → Side
  | .increment => side
  | .decrement => side.other

namespace Focus

variable {store : Store α} {tree : BinTree α} {key : V → K} {lt : K → K → Bool}
variable {map : OrderedMap key lt} {side : Side}

/-- A tree that implements a map lists its nodes with increasing keys. -/
theorem enumerates (represents : Represents store tree) (implements : Implements tree map) :
    Enumerates key lt store (tree.order .right) where
  distinct := by
    have nodup := represents.nodup
    rw [contextAddrs, List.append_nil] at nodup
    exact tree.inorder_addrs_perm.nodup_iff.mpr nodup
  complete := by
    intro address
    constructor
    · intro member
      rcases List.mem_map.mp member with ⟨entry, listed, rfl⟩
      rcases represents.read_of_mem listed with ⟨cell, found, _⟩
      exact ⟨cell, found⟩
    · rintro ⟨cell, found⟩
      have owned := represents.owned address (by simp [show store.cells address = some cell from found])
      rw [contextAddrs, List.append_nil] at owned
      exact tree.inorder_addrs_perm.mem_iff.mpr owned
  increasing := by
    have sorted := map.sorted
    rw [show map.toList = valuesOf tree.inorder from implements, valuesOf,
      List.pairwise_map] at sorted
    rw [BinTree.order, List.pairwise_map]
    refine sorted.imp_of_mem fun {first second} firstListed secondListed less => ?_
    rcases represents.read_of_mem firstListed with ⟨_, firstFound, firstInfo⟩
    rcases represents.read_of_mem secondListed with ⟨_, secondFound, secondInfo⟩
    exact ⟨_, _, by simp [Store.valueAt, firstFound, firstInfo],
      by simp [Store.valueAt, secondFound, secondInfo], less⟩

/-- Where a move is allowed, stepping in its direction goes where it should. -/
theorem advance_move (represents : Represents store tree) (move : Move) {position : Nat}
    (allowed : move.Allowed (tree.order side).length position) :
    ∃ address, (tree.order side)[position]? = some address ∧
      store.advance (direction side move) address =
        some (tree.order side)[move.target position]? := by
  cases move with
  | increment =>
      have here := List.getElem?_eq_getElem (l := tree.order side) allowed
      exact ⟨_, here, represents.advance_next here⟩
  | decrement =>
      have here := List.getElem?_eq_getElem (l := tree.order side) allowed.2
      exact ⟨_, here, represents.advance_previous allowed.1 here⟩

/-- The outermost node on one side is the first of a walk from there. -/
theorem endpoint_first (represents : Represents store tree) :
    store.endpoint side = some (tree.order side.other)[0]? := by
  rw [represents.endpoint_spec, BinTree.order, List.getElem?_map, List.head?_eq_getElem?]

end Focus

end Wan.Library.LinkedTree
