import Wan.Library.LinkedTree.Entries
import Wan.Library.LinkedTree.Walk

/-!
# Removing a node

A node with at most one child is replaced by that child.  A node with two
children is replaced by its successor, which is first detached from its own
place.  A removed node stays allocated until it is released, so the results
speak about the store in which its cell is hidden.
-/

namespace Wan.Library.LinkedTree

namespace Store

variable {α : Type}

/-- The store without the cell at one address. -/
def hide (store : Store α) (address : Addr) : Store α :=
  { store with
    cells := fun query => if query = address then none else store.cells query }

/-- Put `link` into the place of `old`. -/
def transplant (store : Store α) (old : Addr) (link : Option Addr) : Option (Store α) := do
  let parent := (← store.read old).parent
  let store ← store.relink .left parent old link
  store.adopt link parent

/-- Take `moved` out of its place below `node` and give it the right subtree of
`node`. -/
def detach (store : Store α) (node moved : Addr) : Option (Store α) := do
  let store ← store.transplant moved (← store.read moved).right
  let right := (← store.read node).right
  let store ← store.setChild .right moved right
  store.setParent (← right) (some moved)

/-- Put `moved` into the place of `node` and give it the left subtree of
`node`. -/
def takeOver (store : Store α) (node moved : Addr) : Option (Store α) := do
  let store ← store.transplant node (some moved)
  let left := (← store.read node).left
  let store ← store.setChild .left moved left
  store.setParent (← left) (some moved)

variable {store : Store α} {address query : Addr}

@[simp] theorem hide_cells :
    (store.hide address).cells query =
      if query = address then none else store.cells query := rfl

@[simp] theorem hide_root : (store.hide address).root = store.root := rfl

@[simp] theorem hide_next : (store.hide address).next = store.next := rfl

theorem hide_cells_of_ne (different : query ≠ address) :
    (store.hide address).cells query = store.cells query := by
  simp [different]

theorem free_eq {cell : Cell α} (found : store.cells address = some cell) :
    store.free address = some (store.hide address) := by
  simp [free, found, hide]

theorem read_of_hide {cell : Cell α} (found : (store.hide address).read query = some cell) :
    store.read query = some cell := by
  simp only [read, hide_cells] at found
  split at found
  · cases found
  · exact found

/-- Changes of other cells commute with hiding one. -/
theorem modify_hide (change : Cell α → Cell α) {next : Store α} (different : query ≠ address)
    (changed : (store.hide address).modify query change = some next) :
    ∃ result, store.modify query change = some result ∧ result.hide address = next ∧
      result.cells address = store.cells address := by
  rw [modify, hide_cells_of_ne different, Option.map_eq_some_iff] at changed
  rcases changed with ⟨cell, found, rfl⟩
  refine ⟨_, modify_eq change found, ?_, by simp [different.symm]⟩
  simp only [hide, put, mk.injEq, and_true]
  funext other
  by_cases isHidden : other = address
  · simp [isHidden, different.symm]
  · simp [isHidden]

end Store

namespace Focus

variable {α : Type} {store : Store α} {frames : List (Frame α)}
variable {near far : BinTree α} {side : Side} {node moved : Addr} {info movedInfo : α}

/-- Replacing a node without a child on one side by its other child. -/
theorem transplant_spec (focus : Focus store frames (.mk side node info .nil far)) :
    ∃ next, store.transplant node far.root = some next ∧ next.next = store.next ∧
      next.cells node = store.cells node ∧ Focus (next.hide node) frames far := by
  have cell := focus.cell
  have apart := focus.node_apart
  have farFocus := focus.far_frame
  have nodeAbove : parentOf frames ≠ some node :=
    focus.parentOf_ne (by simp [BinTree.mem_addrs_mk])
  have farAbove : ∀ query ∈ far.addrs, parentOf frames ≠ some query :=
    fun query member => focus.parentOf_ne (by simp [BinTree.mem_addrs_mk, member])
  have farRoot : far.root ≠ some node := fun root => apart.2.1 (BinTree.root_mem_addrs root)
  have rootEq : store.root = rootOf frames (some node) := by simpa using focus.root
  have linkTop : ∀ frame rest, frames = frame :: rest →
      frame.sibling.root ≠ some node ∧
        store.cells frame.address = some (frame.cell (some node) (parentOf rest)) := by
    intro frame rest equal
    subst equal
    have sibling := focus.frame_sibling_root (by simp)
    have found := focus.frame_cell
    rw [BinTree.root_mk] at sibling found
    exact ⟨sibling, found⟩
  rcases relink_spec .left far.root rootEq linkTop with
    ⟨one, relinked, oneRoot, oneNext, oneLink, oneCells⟩
  have farLive : ∀ query, far.root = some query → one.cells query ≠ none := by
    intro query root
    rw [oneCells query (farAbove query (BinTree.root_mem_addrs root))]
    exact farFocus.focus.allocated (BinTree.root_mem_addrs root)
  rcases adopt_spec far.root (parentOf frames) farLive with
    ⟨two, adopted, twoRoot, twoNext, twoTop, twoCells⟩
  refine ⟨two, ?_, twoNext.trans oneNext, ?_, ?_⟩
  · simp [Store.transplant, Store.read_eq cell, relinked, adopted]
  · rw [twoCells node farRoot, oneCells node nodeAbove]
  have notContext : node ∉ contextAddrs frames := focus.apart (by simp [BinTree.mem_addrs_mk])
  have farContext : ∀ query ∈ far.addrs, query ∉ contextAddrs frames :=
    fun query member => focus.apart (by simp [BinTree.mem_addrs_mk, member])
  refine focus.replace ?_ ?_ ?_ ?_ farFocus.focus_nodup farContext ?_ ?_ ?_
  · rw [Store.hide_root, twoRoot, oneRoot]
  · refine farFocus.focus.reparent farFocus.focus_nodup ?_ ?_
    · intro query found root here
      have member := BinTree.root_mem_addrs root
      have isNode : query ≠ node := fun equal => apart.2.1 (equal ▸ member)
      rw [Store.hide_cells_of_ne isNode]
      exact twoTop query found root (by rw [oneCells query (farAbove query member), here])
    · intro query member different
      have isNode : query ≠ node := fun equal => apart.2.1 (equal ▸ member)
      rw [Store.hide_cells_of_ne isNode, twoCells query different,
        oneCells query (farAbove query member)]
  · intro frame rest equal
    have isNode : frame.address ≠ node := fun same => nodeAbove (by rw [equal, ← same]; rfl)
    have isFar : far.root ≠ some frame.address := fun root =>
      farAbove _ (BinTree.root_mem_addrs root) (by rw [equal]; rfl)
    rw [Store.hide_cells_of_ne isNode, twoCells _ isFar, oneLink frame rest equal]
  · intro query member different
    have isNode : query ≠ node := fun equal => notContext (equal ▸ member)
    have isFar : far.root ≠ some query := fun root =>
      farContext query (BinTree.root_mem_addrs root) member
    rw [Store.hide_cells_of_ne isNode, twoCells query isFar, oneCells query different]
  · intro query live outside
    by_cases isNode : query = node
    · simp [isNode] at live
    by_cases isFar : far.root = some query
    · exact BinTree.root_mem_addrs isFar
    have isAbove : parentOf frames ≠ some query := fun equal => outside (parentOf_mem equal)
    rw [Store.hide_cells_of_ne isNode, twoCells query isFar, oneCells query isAbove] at live
    have owned := (List.mem_append.mp (focus.owned query live)).resolve_right outside
    simpa [BinTree.mem_addrs_mk, isNode] using owned
  · intro query member
    rw [Store.hide_next, twoNext, oneNext]
    exact focus.bound query (List.mem_append_left _ (by simp [BinTree.mem_addrs_mk, member]))
  · exact Nat.le_of_eq (by rw [Store.hide_next, twoNext, oneNext])

end Focus

/-- The state in which `moved` has its final right subtree and is about to take
the place of `node`, whose right subtree has been given away. -/
structure Handover {α : Type} (store : Store α) (frames : List (Frame α)) (node : Addr)
    (info : α) (left : BinTree α) (moved : Addr) (movedInfo : α) (right : BinTree α) : Prop where
  root : store.root = rootOf frames (some node)
  context : HoldsContext store.cells (some node) frames
  leftHolds : left.Holds store.cells (some node)
  rightHolds : right.Holds store.cells (some moved)
  nodeCell : ∃ link, store.cells node = some (.of .left info left.root link (parentOf frames))
  movedCell : ∃ link parent, store.cells moved =
    some (.of .left movedInfo link right.root parent)
  nodup : (node :: moved :: (left.addrs ++ (right.addrs ++ contextAddrs frames))).Nodup
  owned : ∀ query, store.cells query ≠ none →
    query ∈ node :: moved :: (left.addrs ++ (right.addrs ++ contextAddrs frames))
  bound : ∀ query ∈ node :: moved :: (left.addrs ++ (right.addrs ++ contextAddrs frames)),
    query < store.next

namespace Handover

variable {α : Type} {store : Store α} {frames : List (Frame α)} {node moved : Addr}
variable {info movedInfo : α} {left right : BinTree α}

/-- The successor takes the place of the removed node. -/
theorem takeOver_spec (handover : Handover store frames node info left moved movedInfo right)
    (nonempty : left ≠ .nil) :
    ∃ next, store.takeOver node moved = some next ∧
      (∃ link, next.cells node = some (.of .left info left.root link (parentOf frames))) ∧
      Focus (next.hide node) frames (.mk .left moved movedInfo left right) := by
  rcases handover.nodeCell with ⟨nodeRight, nodeCell⟩
  rcases handover.movedCell with ⟨movedLeft, movedParent, movedCell⟩
  have nodup : (node :: (BinTree.mk .left moved movedInfo left right).addrs ++
      contextAddrs frames).Nodup := by simpa [BinTree.mk, BinTree.addrs] using handover.nodup
  have parts := handover.nodup
  simp only [List.nodup_cons, List.mem_cons, List.mem_append, not_or] at parts
  rcases parts with ⟨⟨nodeMoved, nodeLeft, nodeRightTree, nodeContext⟩,
    ⟨movedLeftTree, movedRightTree, movedContext⟩, rest⟩
  rw [List.nodup_append] at rest
  rcases rest with ⟨leftNodup, restNodup, leftApart⟩
  rw [List.nodup_append] at restNodup
  rcases restNodup with ⟨_, contextNodup, rightApart⟩
  have above : ∀ query, query ∉ contextAddrs frames → parentOf frames ≠ some query :=
    fun query outside equal => outside (parentOf_mem equal)
  have leftContext : ∀ query ∈ left.addrs, query ∉ contextAddrs frames := fun query member inside =>
    leftApart query member query (List.mem_append_right _ inside) rfl
  have leftRight : ∀ query ∈ left.addrs, query ∉ right.addrs := fun query member inside =>
    leftApart query member query (List.mem_append_left _ inside) rfl
  have rightContext : ∀ query ∈ right.addrs, query ∉ contextAddrs frames :=
    fun query member inside => rightApart query member query inside rfl
  have linkTop : ∀ frame rest, frames = frame :: rest →
      frame.sibling.root ≠ some node ∧
        store.cells frame.address = some (frame.cell (some node) (parentOf rest)) := by
    intro frame rest equal
    subst equal
    refine ⟨fun root => nodeContext ?_, handover.context.1⟩
    simp [contextAddrs, BinTree.root_mem_addrs root]
  rcases Focus.relink_spec .left (some moved) handover.root linkTop with
    ⟨one, relinked, oneRoot, oneNext, oneLink, oneCells⟩
  have oneMoved := (oneCells moved (above moved movedContext)).trans movedCell
  -- The successor is linked upwards and takes the left subtree.
  have secondWrite := Store.setParent_eq (parentOf frames) oneMoved
  rw [Cell.setParent_of] at secondWrite
  generalize second : one.put moved _ = two at secondWrite
  have twoNode : two.cells node = some (.of .left info left.root nodeRight (parentOf frames)) := by
    simp [← second, nodeMoved, oneCells node (above node nodeContext), nodeCell]
  have twoMoved : two.cells moved =
      some (.of .left movedInfo movedLeft right.root (parentOf frames)) := by
    simp [← second]
  have thirdWrite := Store.setChild_eq .left left.root twoMoved
  rw [Cell.setChild_of] at thirdWrite
  generalize third : two.put moved _ = three at thirdWrite
  have threeCells : ∀ query, query ≠ moved → three.cells query = one.cells query := by
    intro query different
    simp [← third, ← second, different]
  obtain ⟨top, leftRoot⟩ : ∃ top, left.root = some top := by
    cases left with
    | nil => exact absurd rfl nonempty
    | node top topInfo l r => exact ⟨top, rfl⟩
  have topMember := BinTree.root_mem_addrs leftRoot
  have topMoved : top ≠ moved := fun equal => movedLeftTree (equal ▸ topMember)
  have topNode : top ≠ node := fun equal => nodeLeft (equal ▸ topMember)
  have topThree : three.cells top = store.cells top := by
    rw [threeCells top topMoved, oneCells top (above top (leftContext top topMember))]
  obtain ⟨topCell, topFound⟩ :=
    Option.ne_none_iff_exists'.mp (handover.leftHolds.allocated topMember)
  have fourthWrite := Store.setParent_eq (some moved) (topThree.trans topFound)
  generalize fourth : three.put top _ = four at fourthWrite
  have fourCells : ∀ query, query ≠ moved → query ≠ top → four.cells query = one.cells query := by
    intro query isMoved isTop
    rw [← fourth, Store.put_cells, if_neg isTop, threeCells query isMoved]
  have fourMoved : four.cells moved =
      some (.of .left movedInfo left.root right.root (parentOf frames)) := by
    simp [← fourth, topMoved.symm, ← third]
  have fourNext : four.next = store.next := by
    rw [← fourth, Store.put_next, ← third, Store.put_next, ← second, Store.put_next, oneNext]
  have fourNode : four.cells node =
      some (.of .left info left.root nodeRight (parentOf frames)) := by
    rw [fourCells node nodeMoved topNode.symm, oneCells node (above node nodeContext), nodeCell]
  have fourElse : ∀ query, query ≠ moved → query ≠ top → parentOf frames ≠ some query →
      four.cells query = store.cells query := fun query isMoved isTop isAbove =>
    (fourCells query isMoved isTop).trans (oneCells query isAbove)
  have fourTop : ∀ cell, store.cells top = some cell →
      four.cells top = some (cell.setParent (some moved)) := by
    intro cell found
    rw [topFound, Option.some.injEq] at found
    simp [← fourth, found]
  refine ⟨four, ?_, ⟨nodeRight, fourNode⟩, ?_⟩
  · simp only [leftRoot] at thirdWrite
    simp [Store.takeOver, Store.transplant, Store.adopt, Store.read_eq nodeCell, relinked,
      secondWrite, Store.read_eq twoNode, leftRoot, thirdWrite, fourthWrite]
  constructor
  · simp only [Store.hide_root, BinTree.root_mk]
    rw [← fourth, Store.put_root, ← third, Store.put_root, ← second, Store.put_root, oneRoot]
  · refine (BinTree.holds_mk ..).mpr ⟨?_, ?_, ?_⟩
    · rw [Store.hide_cells_of_ne (Ne.symm nodeMoved), fourMoved]
    · apply handover.leftHolds.reparent leftNodup
      · intro query cell root found
        obtain rfl : top = query := Option.some.inj (leftRoot.symm.trans root)
        rw [Store.hide_cells_of_ne topNode, fourTop cell found]
      · intro query member different
        rw [Store.hide_cells_of_ne (ne_of_mem_of_not_mem member nodeLeft)]
        apply fourElse
        · exact ne_of_mem_of_not_mem member movedLeftTree
        · exact fun equal => different (by rw [leftRoot, equal])
        · exact above query (leftContext query member)
    · apply handover.rightHolds.congr
      intro query member
      rw [Store.hide_cells_of_ne (ne_of_mem_of_not_mem member nodeRightTree)]
      apply fourElse
      · exact ne_of_mem_of_not_mem member movedRightTree
      · exact fun equal => leftRight top topMember (equal ▸ member)
      · exact above query (rightContext query member)
  · simp only [BinTree.root_mk]
    apply HoldsContext.relink handover.context contextNodup
    · intro frame rest equal
      have member : frame.address ∈ contextAddrs frames := by simp [equal, contextAddrs]
      rw [Store.hide_cells_of_ne (ne_of_mem_of_not_mem member nodeContext),
        fourCells _ (ne_of_mem_of_not_mem member movedContext)
          (ne_of_mem_of_not_mem member (leftContext top topMember)),
        oneLink frame rest equal]
    · intro query member isAbove
      rw [Store.hide_cells_of_ne (ne_of_mem_of_not_mem member nodeContext)]
      apply fourElse
      · exact ne_of_mem_of_not_mem member movedContext
      · exact ne_of_mem_of_not_mem member (leftContext top topMember)
      · exact isAbove
  · exact nodup.of_cons
  · intro query live
    by_cases isNode : query = node
    · simp [isNode] at live
    by_cases isMoved : query = moved
    · simp [isMoved, BinTree.mem_addrs_mk]
    by_cases isTop : query = top
    · simp [isTop, BinTree.mem_addrs_mk, topMember]
    by_cases isAbove : parentOf frames = some query
    · exact List.mem_append_right _ (parentOf_mem isAbove)
    rw [Store.hide_cells_of_ne isNode, fourElse query isMoved isTop isAbove] at live
    simpa [isNode, isMoved, BinTree.addrs, BinTree.mk] using handover.owned query live
  · intro query member
    rw [Store.hide_next, fourNext]
    apply handover.bound
    simpa [BinTree.addrs, BinTree.mk] using Or.inr member

/-- The successor of a node is its right child, which keeps its right subtree. -/
theorem of_child
    (focus : Focus store (⟨.right, node, info, left⟩ :: frames)
      (.mk .left moved movedInfo .nil right)) :
    Handover store frames node info left moved movedInfo right := by
  have inside := (BinTree.holds_mk ..).mp focus.focus
  have order : ((BinTree.mk .left moved movedInfo .nil right).addrs ++
      contextAddrs (⟨.right, node, info, left⟩ :: frames)).Perm
      (node :: moved :: (left.addrs ++ (right.addrs ++ contextAddrs frames))) := by
    simp only [BinTree.mk, BinTree.addrs, contextAddrs, List.nil_append, List.cons_append]
    apply List.Perm.trans (List.Perm.cons _ List.perm_middle)
    apply List.Perm.trans (List.Perm.swap ..)
    apply List.Perm.cons
    apply List.Perm.cons
    simp only [← List.append_assoc]
    exact List.Perm.append_right _ List.perm_append_comm
  constructor
  · exact focus.root
  · exact focus.context.2.2
  · exact focus.context.2.1
  · exact inside.2.2
  · exact ⟨some moved, focus.frame_cell⟩
  · exact ⟨none, some node, focus.cell⟩
  · exact order.nodup focus.nodup
  · exact fun query live => order.mem_iff.mp (focus.owned query live)
  · exact fun query member => focus.bound query (order.mem_iff.mpr member)

/-- A deeper successor is first detached from the right subtree. -/
theorem detach_spec {inner : List (Frame α)}
    (focus : Focus store (inner ++ ⟨.right, node, info, left⟩ :: frames)
      (.mk .left moved movedInfo .nil right))
    (deeper : inner ≠ []) :
    ∃ next, store.detach node moved = some next ∧
      Handover next frames node info left moved movedInfo (plug inner right) := by
  have movedCell := focus.cell
  rcases focus.transplant_spec with ⟨one, transplanted, oneNext, oneMoved, oneFocus⟩
  rw [movedCell] at oneMoved
  have gap := (Focus.plug_iff inner).mp oneFocus
  obtain ⟨top, rightRoot⟩ : ∃ top, (plug inner right).root = some top := by
    cases inner with
    | nil => exact absurd rfl deeper
    | cons frame inner =>
        rcases rootOf_mem frame inner right.root with ⟨top, _, equal⟩
        exact ⟨top, (root_plug ..).trans equal⟩
  have alive : ∀ query ∈ (plug inner right).addrs ++
      contextAddrs (⟨.right, node, info, left⟩ :: frames),
      query ≠ moved ∧ one.cells query = (one.hide moved).cells query := by
    intro query member
    have isMoved : query ≠ moved := fun equal => gap.live member (by simp [equal])
    exact ⟨isMoved, (Store.hide_cells_of_ne isMoved).symm⟩
  have nodeAlive := alive node (by simp [contextAddrs])
  have nodeCell : one.cells node =
      some (.of .left info left.root (some top) (parentOf frames)) := by
    rw [nodeAlive.2, ← rightRoot]
    exact gap.frame_cell
  have topMember := BinTree.root_mem_addrs rightRoot
  have topAlive := alive top (List.mem_append_left _ topMember)
  rcases Option.ne_none_iff_exists'.mp (gap.focus.allocated topMember) with ⟨topCell, topFound⟩
  have write := Store.setChild_eq .right (some top) oneMoved
  generalize second : one.put moved _ = two at write
  have twoElse : ∀ query, query ≠ moved → two.cells query = one.cells query := by
    intro query different
    simp [← second, different]
  have topTwo := ((twoElse top topAlive.1).trans topAlive.2).trans topFound
  have lastWrite := Store.setParent_eq (some moved) topTwo
  generalize third : two.put top _ = three at lastWrite
  have threeElse : ∀ query, query ≠ moved → query ≠ top →
      three.cells query = one.cells query := by
    intro query isMoved isTop
    rw [← third, Store.put_cells, if_neg isTop, twoElse query isMoved]
  have threeContext : ∀ query ∈ contextAddrs (⟨.right, node, info, left⟩ :: frames),
      three.cells query = (one.hide moved).cells query := by
    intro query member
    have here := alive query (List.mem_append_right _ member)
    have isTop : query ≠ top := fun equal => gap.apart topMember (equal ▸ member)
    rw [threeElse query here.1 isTop, here.2]
  have movedThree : three.cells moved =
      some (.of .left movedInfo none (plug inner right).root
        (parentOf (inner ++ ⟨.right, node, info, left⟩ :: frames))) := by
    simp [← third, topAlive.1.symm, ← second, rightRoot, Cell.of, Cell.setChild]
  have outer := gap.context.congr threeContext
  have order : ((plug inner right).addrs ++
      contextAddrs (⟨.right, node, info, left⟩ :: frames)).Perm
      (node :: (left.addrs ++ ((plug inner right).addrs ++ contextAddrs frames))) := by
    apply List.Perm.trans List.perm_middle
    apply List.Perm.cons
    simp only [← List.append_assoc]
    exact List.Perm.append_right _ List.perm_append_comm
  have fullOrder : (moved :: ((plug inner right).addrs ++
      contextAddrs (⟨.right, node, info, left⟩ :: frames))).Perm
      (node :: moved :: (left.addrs ++ ((plug inner right).addrs ++ contextAddrs frames))) :=
    (List.Perm.cons _ order).trans (List.Perm.swap ..)
  have threeNext : three.next = (one.hide moved).next := by
    rw [← third, Store.put_next, ← second, Store.put_next, Store.hide_next]
  refine ⟨three, ?_, ?_⟩
  · simp [Store.detach, Store.read_eq movedCell, transplanted, Store.read_eq nodeCell, write,
      lastWrite]
  constructor
  · rw [← third, Store.put_root, ← second, Store.put_root]
    exact gap.root
  · exact outer.2.2
  · exact outer.2.1
  · apply gap.focus.reparent gap.focus_nodup
    · intro query cell root found
      obtain rfl : top = query := Option.some.inj (rightRoot.symm.trans root)
      rw [topFound, Option.some.injEq] at found
      simp [← third, found]
    · intro query member different
      have here := alive query (List.mem_append_left _ member)
      rw [threeElse query here.1 (fun equal => different (by rw [rightRoot, equal])), here.2]
  · exact ⟨_, outer.1⟩
  · exact ⟨_, _, movedThree⟩
  · apply fullOrder.nodup
    apply List.nodup_cons.mpr
    exact ⟨fun member => (alive moved member).1 rfl, gap.nodup⟩
  · intro query live
    apply fullOrder.mem_iff.mp
    by_cases isMoved : query = moved
    · simp [isMoved]
    by_cases isTop : query = top
    · simp [isTop, topMember]
    rw [threeElse query isMoved isTop, ← Store.hide_cells_of_ne isMoved] at live
    exact List.mem_cons_of_mem _ (gap.owned query live)
  · intro query member
    rw [threeNext]
    rcases List.mem_cons.mp (fullOrder.mem_iff.mpr member) with isMoved | member
    · rw [isMoved, Store.hide_next, oneNext]
      exact focus.bound moved (by simp [BinTree.mk, BinTree.addrs])
    · exact gap.bound query member

end Handover

/-- Moving the successor up into the place of a node removes just the node from
the entries. -/
theorem entries_successor {α V : Type} [Payload α V] {inner frames : List (Frame α)}
    {moved : Addr} {movedInfo newInfo : α} {left right : BinTree α}
    (sides : ∀ frame ∈ inner, frame.side = .left)
    (value : Payload.value newInfo = Payload.value movedInfo) :
    entries (plug (inner ++ ⟨.right, moved, newInfo, left⟩ :: frames) right) =
      entriesOf (before frames) ++
        (entries left ++ entries (plug inner (.mk .left moved movedInfo .nil right))) ++
          entriesOf (after frames) := by
  have context : before inner = [] := List.reverse_eq_nil_iff.mp (ahead_of_sides .left sides)
  simp only [entries_plug, before_append, after_append, context]
  simp [before, after, value, BinTree.mk, BinTree.inorder, entries]

end Wan.Library.LinkedTree
