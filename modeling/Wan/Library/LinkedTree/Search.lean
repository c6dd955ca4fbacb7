import Wan.Library.LinkedTree.Entries
import Wan.Library.LinkedTree.Walk
import Wan.Library.OrderedMap

/-!
# Search trees as ordered maps

A represented tree whose values stand in increasing order from left to right
implements an ordered map.  A search whose decisions follow the comparator ends
at the value with an equivalent key, or at the null link where a value with the
sought key belongs.
-/

namespace Wan.Library.LinkedTree

variable {K V α : Type} [Payload α V] {key : V → K} {lt : K → K → Bool}

/-- The decisions of a search for a key follow the comparator. -/
structure Decides (key : V → K) (lt : K → K → Bool) (k : K)
    (go : α → Option Side) : Prop where
  stop : ∀ info, go info = none → equivalent lt (key (Payload.value info)) k = true
  right : ∀ info, go info = some .right → lt (key (Payload.value info)) k = true
  left : ∀ info, go info = some .left → lt k (key (Payload.value info)) = true

section Order

variable {k : K} {go : α → Option Side} {frames : List (Frame α)} [StrictWeak lt]

/-- What a search leaves on its left comes before the sought key. -/
theorem Decides.before_lt (decides : Decides key lt k go)
    (sides : ∀ frame ∈ frames, go frame.info = some frame.side)
    (sorted : (valuesOf (before frames)).Pairwise fun v w => lt (key v) (key w) = true) :
    ∀ v ∈ valuesOf (before frames), lt (key v) k = true := by
  induction frames with
  | nil => simp [before]
  | cons frame frames ih =>
      rcases frame with ⟨side, address, info, sibling⟩
      simp only [List.mem_cons, forall_eq_or_imp] at sides
      cases side with
      | left => exact ih sides.2 sorted
      | right =>
          have here := decides.right info sides.1
          simp only [before, valuesOf_append, valuesOf_cons, valuesOf_nil,
            List.append_assoc, List.pairwise_append] at sorted
          intro v member
          simp only [before, valuesOf_append, valuesOf_cons, valuesOf_nil, List.mem_append,
            List.mem_singleton] at member
          rcases member with (member | member) | rfl
          · exact ih sides.2 sorted.1 v member
          · exact lt_trans (sorted.2.1.2.2 v member _ List.mem_cons_self) here
          · exact here

/-- What a search leaves on its right comes after the sought key. -/
theorem Decides.after_lt (decides : Decides key lt k go)
    (sides : ∀ frame ∈ frames, go frame.info = some frame.side)
    (sorted : (valuesOf (after frames)).Pairwise fun v w => lt (key v) (key w) = true) :
    ∀ v ∈ valuesOf (after frames), lt k (key v) = true := by
  induction frames with
  | nil => simp [after]
  | cons frame frames ih =>
      rcases frame with ⟨side, address, info, sibling⟩
      simp only [List.mem_cons, forall_eq_or_imp] at sides
      cases side with
      | right => exact ih sides.2 sorted
      | left =>
          have here := decides.left info sides.1
          simp only [after, List.cons_append, valuesOf_append, valuesOf_cons,
            List.pairwise_cons, List.pairwise_append] at sorted
          intro v member
          simp only [after, List.cons_append, valuesOf_append, valuesOf_cons, List.mem_cons,
            List.mem_append] at member
          rcases member with rfl | member | member
          · exact here
          · exact lt_trans here (sorted.1 v (List.mem_append_left _ member))
          · exact ih sides.2 sorted.2.2.1 v member

end Order

/-- The tree implements a map: its values from left to right are those of the
map. -/
def Implements (tree : BinTree α) (map : OrderedMap key lt) : Prop :=
  map.toList = valuesOf tree.inorder

section Search

variable {store : Store α} {tree : BinTree α} {map : OrderedMap key lt} {k : K}
variable {go : α → Option Side}

/-- Where a search ends: at a null link that separates the smaller from the
larger keys, or at a node with an equivalent key. -/
inductive Outcome (store : Store α) (tree : BinTree α) (map : OrderedMap key lt) (k : K)
    (go : α → Option Side) : Option Addr × Option Addr → Prop where
  | missing (frames : List (Frame α)) (focus : Focus store frames .nil)
      (shape : plug frames .nil = tree)
      (sides : ∀ frame ∈ frames, go frame.info = some frame.side)
      (absent : map.find? k = none)
      (below : ∀ v ∈ valuesOf (before frames), lt (key v) k = true)
      (above : ∀ v ∈ valuesOf (after frames), lt k (key v) = true) :
      Outcome store tree map k go (parentOf frames, none)
  | found (frames : List (Frame α)) (address : Addr) (info : α) (left right : BinTree α)
      (focus : Focus store frames (.mk .left address info left right))
      (shape : plug frames (.mk .left address info left right) = tree)
      (present : map.find? k = some (Payload.value info))
      (erased : (map.erase k).toList = valuesOf (before frames) ++
        (valuesOf left.inorder ++ valuesOf right.inorder) ++
          valuesOf (after frames)) :
      Outcome store tree map k go (parentOf frames, some address)

/-- Searching a tree that implements a map. -/
theorem search_spec [StrictWeak lt] (represents : Represents store tree)
    (implements : Implements tree map) (decides : Decides key lt k go) :
    ∃ result, store.descend go store.bound none store.root = some result ∧
      Outcome store tree map k go result := by
  have root : store.root = tree.root := represents.root
  have length := represents.length_le
  have enough : tree.addrs.length < store.bound := by unfold Store.bound; omega
  rcases represents.descend_spec go store.bound enough with
    ⟨inner, rest, shape, sides, stop, result⟩
  rw [List.append_nil, parentOf_nil, ← root] at result
  refine ⟨_, result, ?_⟩
  have whole := map.sorted
  have order : map.toList = valuesOf (before inner) ++
      (valuesOf rest.inorder ++ valuesOf (after inner)) := by
    rw [implements, ← shape, inorder_plug]
    simp
  rw [order, List.pairwise_append, List.pairwise_append] at whole
  have focus : Focus store inner rest := Focus.of_represents (shape ▸ represents)
  have below := decides.before_lt sides whole.1
  have above := decides.after_lt sides whole.2.1.2.1
  rcases stop with rfl | ⟨address, info, left, right, rfl, stopped⟩
  · simp only [BinTree.inorder_nil, valuesOf_nil, List.nil_append] at order
    exact .missing inner focus shape sides (OrderedMap.find?_between order below above) below above
  · have same := decides.stop info stopped
    have split : map.toList = (valuesOf (before inner) ++ valuesOf left.inorder) ++
        Payload.value info :: (valuesOf right.inorder ++ valuesOf (after inner)) := by
      rw [order]
      simp [BinTree.mk, BinTree.inorder]
    rw [BinTree.root_mk]
    apply Outcome.found inner address info left right focus shape
    · exact OrderedMap.find?_middle split same
    · simp [OrderedMap.erase_middle split same]

end Search

/-- Link a new node below a parent on one side, or as the root. -/
def Store.hang (store : Store α) (side : Side) (parent : Option Addr) (address : Addr) :
    Option (Store α) :=
  match parent with
  | none => some (store.setRoot (some address))
  | some parent => store.setChild side parent (some address)

section Hang

variable {store : Store α} {frames : List (Frame α)}

/-- An allocation leaves the other cells alone. -/
theorem Store.alloc_cells (info : α) (parent : Option Addr) (query : Addr) :
    (store.alloc info parent).2.cells query =
      if query = store.next then some (.of .left info none none parent)
      else store.cells query := rfl

/-- A new leaf fills an empty hole. -/
theorem Focus.hang_spec (info : α) (focus : Focus store frames .nil) {side : Side}
    (sideEq : ∀ frame rest, frames = frame :: rest → frame.side = side) :
    ∃ next, (store.alloc info (parentOf frames)).2.hang side (parentOf frames) store.next =
        some next ∧
      Focus next frames (.mk .left store.next info .nil .nil) := by
  have isNew : ∀ query ∈ contextAddrs frames, query ≠ store.next := fun query member =>
    Nat.ne_of_lt (focus.bound query (List.mem_append_right _ member))
  -- The new cell and, below a parent, the one link to it are all that is written.
  have written : ∃ next, (store.alloc info (parentOf frames)).2.hang side (parentOf frames)
      store.next = some next ∧ next.next = store.next + 1 ∧
      next.root = rootOf frames (some store.next) ∧
      next.cells store.next = some (.of .left info none none (parentOf frames)) ∧
      (∀ frame rest, frames = frame :: rest →
        next.cells frame.address = some (frame.cell (some store.next) (parentOf rest))) ∧
      ∀ query, query ≠ store.next → parentOf frames ≠ some query →
        next.cells query = store.cells query := by
    cases frames with
    | nil =>
        refine ⟨_, rfl, rfl, rfl, ?_, by simp, ?_⟩
        · simp [Store.alloc_cells]
        · intro query different _
          simp [Store.alloc_cells, different]
    | cons frame rest =>
        have above := isNew frame.address (by simp [contextAddrs])
        have found : (store.alloc info (some frame.address)).2.cells frame.address =
            some (frame.cell none (parentOf rest)) := by
          rw [Store.alloc_cells, if_neg above]
          exact focus.frame_cell
        have linked := Store.setChild_eq side (some store.next) found
        rw [Frame.cell, sideEq frame rest rfl, Cell.setChild_of] at linked
        refine ⟨_, linked, rfl, focus.root, ?_, ?_, ?_⟩
        · simp [above.symm, Store.alloc_cells]
        · intro _ _ equal
          cases equal
          simp [Frame.cell, sideEq frame rest rfl]
        · intro query different notAbove
          have apart : query ≠ frame.address := fun equal => notAbove (by rw [equal]; rfl)
          simp [apart, Store.alloc_cells, different]
  rcases written with ⟨next, hung, later, root, cell, link, elsewhere⟩
  refine ⟨next, hung, ?_⟩
  apply focus.replace
  · simpa using root
  · exact (BinTree.holds_mk ..).mpr ⟨cell, trivial, trivial⟩
  · simpa using link
  · exact fun query member notAbove => elsewhere query (isNew query member) notAbove
  · simp [BinTree.mk, BinTree.addrs]
  · intro query member inside
    have equal : query = store.next := by simpa [BinTree.mk, BinTree.addrs] using member
    exact isNew query inside equal
  · intro query live outside
    by_cases isNode : query = store.next
    · simp [isNode, BinTree.mk, BinTree.addrs]
    · rw [elsewhere query isNode (fun equal => outside (parentOf_mem equal))] at live
      have owned := focus.owned query live
      exact absurd (by simpa using owned) outside
  · intro query member
    have equal : query = store.next := by simpa [BinTree.mk, BinTree.addrs] using member
    rw [later, equal]
    exact Nat.lt_succ_self _
  · rw [later]
    exact Nat.le_succ _

end Hang

end Wan.Library.LinkedTree
