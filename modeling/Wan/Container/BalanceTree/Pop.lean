import Wan.Container.BalanceTree.Rebalance

/-!
# Removing a node

`Pop` unlinks the target or moves its successor into its place, and rebalances
from the node above the place that lost a level.
-/

namespace Wan.Container.BalanceTree

open Wan.Library.LinkedTree

variable {Key Value : Type} {tree : BalanceTree Key Value}
variable {frames : List (Frame (AvlNodeData Key Value))}
variable {side : Side} {node : Addr} {data : AvlNodeData Key Value}
variable {left right far shape : BinTree (AvlNodeData Key Value)}

theorem exists_height (focus : Focus tree frames shape) :
    ∃ cached, height tree shape.root = some cached := by
  cases shape with
  | nil => exact ⟨0, rfl⟩
  | node node data left right =>
      have whole : Focus tree frames (.mk .left node data left right) := focus
      exact ⟨_, by simp [height, whole.read]; rfl⟩

/-- `UpdateHeightAndBalance` changes no pair and no link, whatever is cached. -/
theorem updateHeightAndBalance_links (focus : Focus tree frames (.mk .left node data left right)) :
    ∃ next newData, updateHeightAndBalance tree node = some next ∧
      newData.memberData = data.memberData ∧
      Focus next frames (.mk .left node newData left right) := by
  rcases exists_height focus.near_frame with ⟨leftHeight, leftCached⟩
  rcases exists_height focus.far_frame with ⟨rightHeight, rightCached⟩
  rcases focus.setInfo (·.withHeights leftHeight rightHeight) with ⟨next, changed, nextFocus⟩
  refine ⟨next, data.withHeights leftHeight rightHeight, ?_, rfl, nextFocus⟩
  simp [updateHeightAndBalance, focus.read, leftCached, rightCached, changed]

theorem height_of_hide {target : Addr} {link : Option Addr} {cached : Int}
    (found : height (tree.hide target) link = some cached) : height tree link = some cached := by
  cases link with
  | none => exact found
  | some node =>
      simp only [height, Option.bind_eq_bind, Option.bind_eq_some_iff] at found
      rcases found with ⟨cell, read, equal⟩
      simpa [height, Store.read_of_hide read] using equal

/-- `UpdateHeightAndBalance` does not look at a node that is about to be
deleted. -/
theorem updateHeightAndBalance_of_hide {target : Addr} {next : BalanceTree Key Value}
    (different : node ≠ target)
    (updated : updateHeightAndBalance (tree.hide target) node = some next) :
    ∃ result, updateHeightAndBalance tree node = some result ∧ result.hide target = next ∧
      result.cells target = tree.cells target := by
  simp only [updateHeightAndBalance, Option.bind_eq_bind, Option.bind_eq_some_iff] at updated
  rcases updated with ⟨cell, read, leftHeight, leftCached, rightHeight, rightCached, changed⟩
  rcases Store.modify_hide _ different changed with ⟨result, done, hidden, kept⟩
  refine ⟨result, ?_, hidden, kept⟩
  have changedHere : tree.setInfo node (·.withHeights leftHeight rightHeight) = some result := done
  simp [updateHeightAndBalance, Store.read_of_hide read, height_of_hide leftCached,
    height_of_hide rightCached, changedHere]

/-- What `Pop` has left to do once the target is released: `shape` has moved up
below `frames`, and `start` is the node from which the heights are renewed. -/
structure Gap (tree : BalanceTree Key Value) (start : Option Addr)
    (frames : List (Frame (AvlNodeData Key Value))) (shape : BinTree (AvlNodeData Key Value)) :
    Prop where
  focus : Focus tree frames shape
  start : start = parentOf frames ∨ frames = [] ∧ start = shape.root
  avl : Avl shape
  context : ∃ old, ContextAvl frames old ∧ -1 ≤ heightOf shape - old ∧ heightOf shape - old ≤ 1

/-- Rebalancing from a gap makes the whole tree obey the rules. -/
theorem Gap.close {start : Option Addr} (opened : Gap tree start frames shape) :
    ∃ next final, rebalanceFrom tree start = some next ∧ Represents next final ∧
      Avl final ∧ entries final = entries (plug frames shape) := by
  rcases opened.context with ⟨old, context, lower, upper⟩
  rcases opened.start with start | ⟨empty, start⟩
  · rw [start]
    exact rebalanceFrom_spec opened.focus opened.avl context lower upper
  · have focus := opened.focus
    subst empty
    rw [start]
    exact rebalanceFrom_root focus opened.avl

/-- Unlinking a target that has no child on one side. -/
theorem popSimple_spec (focus : Focus tree frames (.mk side node data .nil far))
    (avl : Avl (plug frames (.mk side node data .nil far))) :
    ∃ next start, popSimple tree node far.root = some (next, start) ∧
      next.cells node = tree.cells node ∧ Gap (next.hide node) start frames far := by
  rcases focus.transplant_spec with ⟨one, transplanted, _, oneNode, oneFocus⟩
  rcases avl.context with ⟨nodeAvl, context⟩
  rcases avl_mk.mp nodeAvl with ⟨_, lower, upper, _, farAvl⟩
  have farHeight := heightOf_nonneg far
  rw [heightOf_mk, heightOf_nil] at context
  rw [heightOf_nil] at lower upper
  refine ⟨one, if (parentOf frames).isSome then parentOf frames else far.root, ?_, oneNode,
    oneFocus, ?_, farAvl, _, context, by omega, by omega⟩
  · simp [popSimple, focus.read, replaceNode, transplanted]
  · cases frames with
    | nil => exact Or.inr ⟨rfl, rfl⟩
    | cons frame frames => exact Or.inl rfl

section Successor

variable {inner : List (Frame (AvlNodeData Key Value))} {moved : Addr}
variable {movedData : AvlNodeData Key Value}

/-- Both ways of taking the successor out of its place end in the same
handover. -/
theorem detachSuccessor_spec (gapData : AvlNodeData Key Value)
    (focus : Focus tree (inner ++ ⟨.right, node, data, left⟩ :: frames)
      (.mk .left moved movedData .nil right)) :
    ∃ next, detachSuccessor tree node moved =
        some (next, parentOf (inner ++ ⟨.right, moved, gapData, left⟩ :: frames)) ∧
      Handover next frames node data left moved movedData (plug inner right) := by
  cases inner with
  | nil => exact ⟨tree, by simp [detachSuccessor, focus.read], Handover.of_child focus⟩
  | cons first inner =>
      have apart : first.address ≠ node := fun equal =>
        absurd (focus.parentOf_append_eq.mp (congrArg some equal)) (by simp)
      rcases Handover.detach_spec focus (by simp) with ⟨next, detached, handover⟩
      exact ⟨next, by simp [detachSuccessor, focus.read, apart, detached], handover⟩

/-- Replacing a target by its successor. -/
theorem popTwoChildren_spec {rightChild : Addr}
    (focus : Focus tree frames (.mk .left node data left right))
    (leftNonempty : left ≠ .nil) (rightRoot : right.root = some rightChild)
    (avl : Avl (plug frames (.mk .left node data left right))) :
    ∃ next start outer shape, popTwoChildren tree node rightChild = some (next, start) ∧
      next.cells node ≠ none ∧ Gap (next.hide node) start outer shape ∧
      entries (plug outer shape) =
        entriesOf (before frames) ++ (entries left ++ entries right) ++
          entriesOf (after frames) := by
  rcases BinTree.exists_mk_of_root .left rightRoot with ⟨rightData, rightNear, rightFar, equal⟩
  have rightFocus := focus.far_frame
  rw [equal] at rightFocus
  have length := focus.length_le
  simp only [equal, BinTree.mk, BinTree.addrs, List.length_cons, List.length_append] at length
  rcases rightFocus.extreme_spec tree.bound (by unfold Store.bound; omega) with
    ⟨inner, moved, movedData, movedRight, shape, sides, found⟩
  rw [shape] at equal
  subst equal
  have movedFocus : Focus tree (inner ++ ⟨.right, node, data, left⟩ :: frames)
      (.mk .left moved movedData .nil movedRight) :=
    (Focus.plug_iff inner).mpr focus.far_frame
  rcases detachSuccessor_spec movedData movedFocus with ⟨one, detached, handover⟩
  rcases handover.takeOver_spec leftNonempty with ⟨two, tookOver, ⟨link, nodeCell⟩, twoFocus⟩
  have movedLive := twoFocus.live
    (List.mem_append_left _ ((BinTree.mem_addrs_mk ..).mpr (Or.inl rfl)))
  have nodeMoved : moved ≠ node := fun equal => movedLive (by simp [equal])
  rcases updateHeightAndBalance_links twoFocus with ⟨three, newData, updated, pair, threeFocus⟩
  rcases updateHeightAndBalance_of_hide nodeMoved updated with
    ⟨final, finalUpdated, hidden, finalNode⟩
  have gapFocus : Focus three (inner ++ ⟨.right, moved, newData, left⟩ :: frames) movedRight :=
    (Focus.plug_iff inner).mpr threeFocus.far_frame
  have movedAvl : Avl (plug (inner ++ ⟨.right, node, data, left⟩ :: frames)
      (.mk .left moved movedData .nil movedRight)) := by
    rw [plug_append]
    exact avl
  rcases movedAvl.context with ⟨topAvl, context⟩
  rcases avl_mk.mp topAvl with ⟨_, lower, upper, _, rightAvl⟩
  have rightHeight := heightOf_nonneg movedRight
  rw [heightOf_mk, heightOf_nil] at context
  rw [heightOf_nil] at lower upper
  have gapContext : ContextAvl (inner ++ ⟨.right, moved, newData, left⟩ :: frames)
      (max 0 (heightOf movedRight) + 1) := context.replaceNode rfl
  refine ⟨final, parentOf (inner ++ ⟨.right, moved, movedData, left⟩ :: frames),
    inner ++ ⟨.right, moved, newData, left⟩ :: frames, movedRight,
    ?_, by simp [finalNode, nodeCell], ?_, ?_⟩
  · simp [popTwoChildren, found, detached, tookOver, finalUpdated]
  · rw [hidden]
    refine ⟨gapFocus, Or.inl ?_, rightAvl, _, gapContext, by omega, by omega⟩
    cases inner <;> rfl
  · exact entries_successor sides pair

/-- Every branch leaves a gap that is closed after the target is released. -/
theorem unlinkTarget_spec (focus : Focus tree frames (.mk .left node data left right))
    (avl : Avl (plug frames (.mk .left node data left right))) :
    ∃ next start outer shape, unlinkTarget tree node = some (next, start) ∧
      next.cells node ≠ none ∧ Gap (next.hide node) start outer shape ∧
      entries (plug outer shape) = entriesOf (before frames) ++ (entries left ++ entries right) ++
        entriesOf (after frames) := by
  have nodeLive := focus.cell
  have nodeRead := focus.read
  cases left with
  | nil =>
      rcases popSimple_spec focus avl with ⟨next, start, popped, same, opened⟩
      refine ⟨next, start, frames, right, ?_, by simp [same, nodeLive], opened, ?_⟩
      · simpa [unlinkTarget, nodeRead] using popped
      · simp [entries_plug]
  | node leftTop leftData leftLeft leftRight =>
      cases right with
      | nil =>
          have turned : Focus tree frames (.mk .right node data .nil
              (.node leftTop leftData leftLeft leftRight)) := focus
          rcases popSimple_spec turned avl with ⟨next, start, popped, same, opened⟩
          refine ⟨next, start, frames, _, ?_, by simp [same, nodeLive], opened, ?_⟩
          · simpa [unlinkTarget, nodeRead] using popped
          · simp [entries_plug]
      | node rightTop rightData rightLeft rightRight =>
          rcases popTwoChildren_spec focus (by simp) (BinTree.root_node ..) avl with
            ⟨next, start, outer, shape, popped, live, opened, same⟩
          refine ⟨next, start, outer, shape, ?_, live, opened, same⟩
          simpa [unlinkTarget, nodeRead] using popped

end Successor

end Wan.Container.BalanceTree
