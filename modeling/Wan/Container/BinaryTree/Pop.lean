import Wan.Container.BinaryTree.Erasure

/-!
# Removing a node of the binary search tree

A node with at most one child is replaced by that child.  A node with two children gets the value
of the leftmost node of its right subtree, and that node is removed in its place.
-/

namespace Wan.Container.BinaryTree

open Wan.Library.LinkedTree

variable {Value : Type} {store : Store (TreeData Value)} {frames : List (Frame (TreeData Value))}
variable {side : Side} {address : Addr} {info : TreeData Value}
variable {near far left right : BinTree (TreeData Value)}

/-- Redirecting the link above a focused node and releasing the node. -/
theorem popSimple_spec (focus : Focus store frames (.mk side address info .nil far)) :
    ∃ next, (erase store).popSimple (parentOf frames) address far.root = some (erase next) ∧
      Focus next frames far := by
  rcases focus.transplant_spec with ⟨next, transplanted, _, kept, nextFocus⟩
  refine ⟨next.hide address, ?_, nextFocus⟩
  have replaced := erase_transplant focus.cell transplanted
  rw [Cell.parent_of] at replaced
  simp [popSimple, replaced, erase_free (kept.trans focus.cell)]

/-- The loop down the left side ends at a node without a left child, below the last node that it
left. -/
theorem leastLoop_spec (fuel parent : Addr)
    (focus : Focus store frames (.mk .left address info near far))
    (above : parentOf frames = some parent) (enough : near.addrs.length < fuel) :
    ∃ inner last lastInfo rest lastParent,
      .mk .left address info near far = plug inner (.mk .left last lastInfo .nil rest) ∧
      (∀ frame ∈ inner, frame.side = .left) ∧ parentOf (inner ++ frames) = some lastParent ∧
      (erase store).leastLoop fuel parent address = some (lastParent, last) := by
  induction fuel generalizing frames address info near far parent with
  | zero => exact absurd enough (Nat.not_lt_zero _)
  | succ fuel ih =>
      have read := erase_read focus.cell
      by_cases empty : near = .nil
      · subst empty
        refine ⟨[], address, info, far, parent, rfl, by simp, above, ?_⟩
        simp [leastLoop, read, nodeOf]
      · obtain ⟨child, childInfo, childNear, childFar, rfl⟩ :=
          BinTree.exists_mk_of_ne_nil .left empty
        rw [Focus.addrs_length_mk] at enough
        obtain ⟨inner, last, lastInfo, rest, lastParent, shape, sides, lastAbove, result⟩ :=
          ih address focus.near_frame rfl (by omega)
        refine ⟨inner ++ [⟨.left, address, info, far⟩], last, lastInfo, rest, lastParent, ?_, ?_,
          ?_, ?_⟩
        · rw [plug_append, ← shape]
          rfl
        · simpa [or_imp, forall_and] using sides
        · rwa [List.append_assoc]
        · simpa [leastLoop, read, nodeOf] using result

/-- Swapping the values of a node and of one below its right link. -/
theorem swapData_spec {inner : List (Frame (TreeData Value))} {last : Addr}
    {lastInfo : TreeData Value} {rest : BinTree (TreeData Value)}
    (focus : Focus store (inner ++ ⟨.right, address, info, left⟩ :: frames)
      (.mk .left last lastInfo .nil rest)) :
    ∃ next, (erase store).swapData address last = some (erase next) ∧
      Focus next (inner ++ ⟨.right, address, lastInfo, left⟩ :: frames)
        (.mk .left last info .nil rest) := by
  have lastRead := erase_read focus.cell
  have top : Focus store frames (.mk .right address info
      (plug inner (.mk .left last lastInfo .nil rest)) left) :=
    Focus.up ((Focus.plug_iff inner).mp focus)
  have read := erase_read top.cell
  rcases top.setInfo fun _ => ⟨lastInfo.memberData⟩ with ⟨one, oneSet, oneTop⟩
  have oneFocus : Focus one (inner ++ ⟨.right, address, lastInfo, left⟩ :: frames)
      (.mk .left last lastInfo .nil rest) := (Focus.plug_iff inner).mpr (Focus.up_iff.mpr oneTop)
  rcases oneFocus.setInfo fun _ => ⟨info.memberData⟩ with ⟨two, twoSet, twoFocus⟩
  refine ⟨two, ?_, twoFocus⟩
  simp [swapData, read, lastRead, nodeOf, erase_setData oneSet, erase_setData twoSet]

/-- The link above a focused node is the one on the side of its frame. -/
theorem replaceNode_eq {frame : Frame (TreeData Value)}
    (focus : Focus store (frame :: frames) (.mk .left address info near far))
    (link : Option Addr) :
    (erase store).replaceNode (some frame.address) address link =
      (erase store).setChild frame.side frame.address link := by
  have sibling := focus.frame_sibling_root (by simp)
  have found := focus.frame_cell
  rw [BinTree.root_mk] at sibling found
  rw [erase_relink (Focus.relink_eq .left link sibling found)]
  have set := Store.setChild_eq frame.side link found
  rw [Frame.cell, Cell.setChild_of] at set
  exact (erase_setChild set).symm

/-- The source tells from the addresses whether the leftmost node hangs below the node itself. -/
theorem relinkLeast_eq {inner : List (Frame (TreeData Value))} {last lastParent : Addr}
    {lastInfo : TreeData Value} {rest : BinTree (TreeData Value)}
    (focus : Focus store (inner ++ ⟨.right, address, info, left⟩ :: frames)
      (.mk .left last lastInfo .nil rest))
    (sides : ∀ frame ∈ inner, frame.side = .left)
    (above : parentOf (inner ++ ⟨.right, address, info, left⟩ :: frames) = some lastParent)
    (link : Option Addr) :
    (erase store).relinkLeast address lastParent link =
      (erase store).replaceNode (some lastParent) last link := by
  cases inner with
  | nil =>
      cases above
      rw [relinkLeast, if_pos rfl, replaceNode_eq focus]
  | cons first inner =>
      have apart : lastParent ≠ address := by
        rintro rfl
        cases focus.parentOf_append_eq.mp above
      cases above
      rw [relinkLeast, if_neg apart, replaceNode_eq focus, sides first List.mem_cons_self]

/-- The leftmost node of the right subtree is removed in the place of a node with two
children. -/
theorem popTwoChildren_spec {child : Addr}
    (focus : Focus store frames (.mk .left address info left right))
    (link : right.root = some child) :
    ∃ next final, (erase store).popTwoChildren address child = some (erase next) ∧
      Focus next frames final ∧
      valuesOf final.inorder = valuesOf left.inorder ++ valuesOf right.inorder := by
  obtain ⟨childInfo, childNear, childFar, rfl⟩ := BinTree.exists_mk_of_root .left link
  have length := focus.length_le
  simp only [Focus.addrs_length_mk] at length
  obtain ⟨inner, last, lastInfo, rest, lastParent, shape, sides, above, least⟩ :=
    leastLoop_spec store.bound address focus.far_frame rfl (by unfold Store.bound; omega)
  have lastFocus : Focus store (inner ++ ⟨.right, address, info, left⟩ :: frames)
      (.mk .left last lastInfo .nil rest) := by
    rw [Focus.plug_iff, ← shape]
    exact focus.far_frame
  rcases swapData_spec lastFocus with ⟨one, swapped, oneFocus⟩
  rcases popSimple_spec oneFocus with ⟨next, popped, nextFocus⟩
  have aboveOne : parentOf (inner ++ ⟨.right, address, lastInfo, left⟩ :: frames) =
      some lastParent := by
    cases inner <;> exact above
  refine ⟨next, _, ?_, Focus.up ((Focus.plug_iff inner).mp nextFocus), ?_⟩
  · rw [aboveOne, popSimple, ← relinkLeast_eq oneFocus sides aboveOne] at popped
    simp only [popTwoChildren, erase_bound, least, swapped,
      erase_read oneFocus.cell, nodeOf, Cell.right_of, Option.bind_eq_bind, Option.bind_some]
    exact popped
  · have context : before inner = [] := List.reverse_eq_nil_iff.mp (ahead_of_sides .left sides)
    rw [shape, inorder_plug, context]
    simp [Frame.plug, BinTree.mk, BinTree.inorder, inorder_plug, context]

/-- `Pop` removes just the node that its search found. -/
theorem popNode_spec (focus : Focus store frames (.mk .left address info left right)) :
    ∃ next final, (erase store).popNode (parentOf frames) address = some (erase next) ∧
      Focus next frames final ∧
      valuesOf final.inorder = valuesOf left.inorder ++ valuesOf right.inorder := by
  have read := erase_read focus.cell
  cases leftTree : left with
  | nil =>
      subst leftTree
      rcases popSimple_spec focus with ⟨next, popped, nextFocus⟩
      refine ⟨next, right, ?_, nextFocus, rfl⟩
      simpa [popNode, read, nodeOf] using popped
  | node leftChild leftInfo leftLeft leftRight =>
      rw [← leftTree]
      cases rightTree : right with
      | nil =>
          subst rightTree
          have mirrored : Focus store frames (.mk .right address info .nil left) := focus
          rcases popSimple_spec mirrored with ⟨next, popped, nextFocus⟩
          refine ⟨next, left, ?_, nextFocus, by simp⟩
          simpa [popNode, read, nodeOf, leftTree] using popped
      | node child childInfo childLeft childRight =>
          rw [← rightTree]
          have link : right.root = some child := by rw [rightTree]; rfl
          rcases popTwoChildren_spec focus link with ⟨next, final, popped, nextFocus, values⟩
          refine ⟨next, final, ?_, nextFocus, values⟩
          simpa [popNode, read, nodeOf, leftTree, link] using popped

end Wan.Container.BinaryTree
