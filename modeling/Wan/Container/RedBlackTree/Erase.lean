import Wan.Container.RedBlackTree.Delete

/-!
# Removing a node

`EraseNode` unlinks a node or moves its successor into its place, and repairs
the tree below the place that lost a black node.
-/

namespace Wan.Container.RedBlackTree

open Wan.Library.LinkedTree

variable {Value : Type} {tree : RedBlackTree Value}
variable {frames : List (Frame (RbNodeData Value))}
variable {shape left right near far : BinTree (RbNodeData Value)}
variable {node : Addr} {info : RbNodeData Value}

/-- The gap in the represented tree: `shape` has moved up below `frames`, and the
colour that went missing was that of a node above `shape`. -/
structure Gap (tree : RedBlackTree Value) (gap : EraseGap)
    (frames : List (Frame (RbNodeData Value))) (shape : BinTree (RbNodeData Value)) : Prop where
  focus : Focus tree frames shape
  fixNode : gap.fixNode = shape.root
  fixParent : gap.fixParent = parentOf frames
  fixIsLeft : gap.fixIsLeft = holeIsLeft frames
  black : gap.movedColor = .black →
    ∃ count, Balanced shape count ∧ ContextBalanced frames (count + 1)
  red : gap.movedColor = .red →
    ∃ count, Balanced shape count ∧ ContextBalanced frames count ∧ treeColor shape = .black

/-- Closing a gap restores the colour rules. -/
theorem closeGap_spec {gap : EraseGap} (open_ : Gap tree gap frames shape) :
    ∃ next final, closeGap tree gap = some next ∧ Represents next final ∧
      WellColored final ∧ entries final = entries (plug frames shape) := by
  have repaired : ∃ next, (if gap.movedColor = .black then
      deleteAdjust tree gap.fixNode gap.fixParent gap.fixIsLeft else some tree) = some next ∧
      Repaired next (plug frames shape) := by
    rcases color_cases gap.movedColor with red | black
    · rcases open_.red red with ⟨count, balanced, context, shapeBlack⟩
      have colored := context.plug balanced (fun _ => shapeBlack)
      exact ⟨tree, by simp [red], _, open_.focus.represents, colored.blacken, rfl⟩
    · rcases open_.black black with ⟨count, balanced, context⟩
      rw [if_pos black, open_.fixNode, open_.fixParent]
      exact deleteAdjust_spec open_.focus balanced context (fun _ => open_.fixIsLeft)
  rcases repaired with ⟨one, adjusted, final, represents, colored, same⟩
  rcases paintBlack_spec represents with ⟨two, painted, twoFocus⟩
  rw [represents.root_eq_iff.mpr rfl] at painted
  refine ⟨two, blacken final, ?_, twoFocus, colored, entries_blacken.trans same⟩
  rcases color_cases gap.movedColor with red | black
  · simp only [red, reduceCtorEq, if_false, Option.some.injEq] at adjusted
    simp [closeGap, red, adjusted, painted]
  · simp only [black, if_true] at adjusted
    simp [closeGap, black, adjusted, painted]

/-- Unlinking a node that has no child on one side. -/
theorem eraseSimple_spec {side : Side}
    (focus : Focus tree frames (.mk side node info .nil far))
    (colored : WellColored (plug frames (.mk side node info .nil far))) :
    ∃ next gap, eraseSimple tree node far.root = some (next, gap) ∧
      next.cells node = tree.cells node ∧ Gap (next.hide node) gap frames far := by
  rcases focus.transplant_spec with ⟨one, transplanted, _, oneNode, oneFocus⟩
  have sideRead := isLeftChild_spec focus (BinTree.root_mk ..)
  refine ⟨one, ⟨info.memberColor, far.root, parentOf frames, holeIsLeft frames⟩, ?_, oneNode,
    oneFocus, rfl, rfl, rfl, ?_, ?_⟩
  · simp [eraseSimple, focus.read, sideRead, transplant, transplanted]
  · intro black
    rcases colored.context with ⟨count, context, balanced, _⟩
    rcases (balanced_mk_black black).mp balanced with ⟨below, rfl, _, farBalanced⟩
    exact ⟨below, farBalanced, context⟩
  · intro red
    rcases colored.context with ⟨count, context, balanced, _⟩
    rcases (balanced_mk_red red).mp balanced with ⟨_, farBlack, _, farBalanced⟩
    exact ⟨count, farBalanced, context, farBlack⟩

/-- The colour rules around a hole do not depend on which node carries a colour. -/
theorem ContextBalanced.replaceNode {inner : List (Frame (RbNodeData Value))}
    {frame other : Frame (RbNodeData Value)} {count : Nat}
    (context : ContextBalanced (inner ++ frame :: frames) count)
    (color : other.info.memberColor = frame.info.memberColor)
    (sibling : other.sibling = frame.sibling) :
    ContextBalanced (inner ++ other :: frames) count := by
  have hole : holeColor (inner ++ other :: frames) = holeColor (inner ++ frame :: frames) := by
    cases inner with
    | nil => exact color
    | cons first inner => rfl
  induction inner generalizing count with
  | nil => simpa [ContextBalanced, color, sibling] using context
  | cons first inner ih =>
      have rest : holeColor (inner ++ other :: frames) = holeColor (inner ++ frame :: frames) := by
        cases inner with
        | nil => exact color
        | cons second inner => rfl
      rcases color_cases first.info.memberColor with red | black
      · rcases (contextBalanced_red red).mp context with ⟨siblingBlack, balanced, holeBlack, above⟩
        exact (contextBalanced_red red).mpr
          ⟨siblingBlack, balanced, rest.trans holeBlack, ih above rest⟩
      · rcases (contextBalanced_black black).mp context with ⟨balanced, above⟩
        exact (contextBalanced_black black).mpr ⟨balanced, ih above rest⟩

section Successor

variable {inner : List (Frame (RbNodeData Value))} {moved : Addr}
variable {movedInfo : RbNodeData Value}

/-- The place that the successor leaves, once it stands where the node was. -/
abbrev gapFrames (inner : List (Frame (RbNodeData Value))) (moved : Addr)
    (movedInfo : RbNodeData Value) (left : BinTree (RbNodeData Value))
    (frames : List (Frame (RbNodeData Value))) : List (Frame (RbNodeData Value)) :=
  inner ++ ⟨.right, moved, movedInfo, left⟩ :: frames

/-- Both ways of taking the successor out of its place end in the same
handover. -/
theorem detachMovedNode_spec (gapInfo : RbNodeData Value)
    (focus : Focus tree (inner ++ ⟨.right, node, info, left⟩ :: frames)
      (.mk .left moved movedInfo .nil right)) :
    ∃ next fixParent, detachMovedNode tree node moved =
        some (next, fixParent, holeIsLeft (gapFrames inner moved gapInfo left frames)) ∧
      some fixParent = parentOf (gapFrames inner moved gapInfo left frames) ∧
      Handover next frames node info left moved movedInfo (plug inner right) := by
  have movedRead := focus.read
  cases inner with
  | nil =>
      have adopted := focus.far_frame.adopt_self
      rw [parentOf_cons] at adopted
      refine ⟨tree, moved, ?_, rfl, Handover.of_child focus⟩
      simp [detachMovedNode, movedRead, adopted, holeIsLeft]
  | cons first inner =>
      have parentRead := Store.read_eq focus.frame_cell
      have isLeft := focus.frame_left_iff (BinTree.root_mk ..)
        (parentOf (inner ++ ⟨.right, node, info, left⟩ :: frames))
      have apart : first.address ≠ node := fun equal =>
        absurd (focus.parentOf_append_eq.mp (congrArg some equal)) (by simp)
      rw [BinTree.root_mk] at parentRead
      rcases Handover.detach_spec focus (by simp) with ⟨next, detached, handover⟩
      refine ⟨next, first.address, ?_, rfl, handover⟩
      simp [detachMovedNode, movedRead, apart, parentRead, isLeft, detached, holeIsLeft]

/-- Replacing a node by its successor. -/
theorem eraseTwoChildren_spec {rightChild : Addr}
    (focus : Focus tree frames (.mk .left node info left right))
    (leftNonempty : left ≠ .nil) (rightRoot : right.root = some rightChild)
    (colored : WellColored (plug frames (.mk .left node info left right))) :
    ∃ next gap outer shape,
      eraseTwoChildren tree node rightChild = some (next, gap) ∧ next.cells node ≠ none ∧
      Gap (next.hide node) gap outer shape ∧
      entries (plug outer shape) =
        entriesOf (before frames) ++ (entries left ++ entries right) ++
          entriesOf (after frames) := by
  rcases BinTree.exists_mk_of_root .left rightRoot with ⟨rightInfo, rightNear, rightFar, equal⟩
  have rightFocus := focus.far_frame
  rw [equal] at rightFocus
  have length := focus.length_le
  simp only [equal, BinTree.mk, BinTree.addrs, List.length_cons, List.length_append] at length
  rcases rightFocus.extreme_spec tree.bound (by unfold Store.bound; omega) with
    ⟨inner, moved, movedInfo, movedRight, shape, sides, found⟩
  rw [shape] at equal
  subst equal
  have movedFocus : Focus tree (inner ++ ⟨.right, node, info, left⟩ :: frames)
      (.mk .left moved movedInfo .nil movedRight) :=
    (Focus.plug_iff inner).mpr focus.far_frame
  have movedRead := movedFocus.read
  rcases detachMovedNode_spec (movedInfo.withColor info.memberColor) movedFocus with
    ⟨one, fixParent, detached, parentEq, handover⟩
  rcases handover.takeOver_spec leftNonempty with ⟨two, tookOver, ⟨link, nodeCell⟩, twoFocus⟩
  have movedLive := twoFocus.live
    (List.mem_append_left _ ((BinTree.mem_addrs_mk ..).mpr (Or.inl rfl)))
  have nodeMoved : moved ≠ node := fun equal => movedLive (by simp [equal])
  rcases setColor_spec info.memberColor twoFocus with ⟨three, painted, threeFocus⟩
  rcases Store.modify_hide _ nodeMoved painted with ⟨final, finalPainted, hidden, finalNode⟩
  have gapFocus : Focus three
      (gapFrames inner moved (movedInfo.withColor info.memberColor) left frames) movedRight :=
    (Focus.plug_iff inner).mpr threeFocus.far_frame
  have movedColored : WellColored (plug (inner ++ ⟨.right, node, info, left⟩ :: frames)
      (.mk .left moved movedInfo .nil movedRight)) := by
    rw [plug_append]
    exact colored
  rcases movedColored.context with ⟨count, context, balanced, _⟩
  have gapContext : ContextBalanced
      (gapFrames inner moved (movedInfo.withColor info.memberColor) left frames) count :=
    context.replaceNode rfl rfl
  refine ⟨final, ⟨movedInfo.memberColor, movedRight.root, some fixParent, holeIsLeft
      (gapFrames inner moved (movedInfo.withColor info.memberColor) left frames)⟩,
    gapFrames inner moved (movedInfo.withColor info.memberColor) left frames, movedRight,
    ?_, by simp [finalNode, nodeCell], ?_, ?_⟩
  · have finalColor : setColor two moved info.memberColor = some final := finalPainted
    simp [eraseTwoChildren, found, movedRead, detached, tookOver, Store.read_eq nodeCell,
      finalColor]
  · rw [hidden]
    refine ⟨gapFocus, rfl, parentEq, rfl, ?_, ?_⟩
    · intro black
      rcases (balanced_mk_black black).mp balanced with ⟨below, rfl, _, rightBalanced⟩
      exact ⟨below, rightBalanced, gapContext⟩
    · intro red
      rcases (balanced_mk_red red).mp balanced with ⟨_, rightBlack, _, rightBalanced⟩
      exact ⟨count, rightBalanced, gapContext, rightBlack⟩
  · exact entries_successor sides rfl

/-- Every branch leaves a gap that is closed after the node is released. -/
theorem unlinkNode_spec
    (focus : Focus tree frames (.mk .left node info left right))
    (colored : WellColored (plug frames (.mk .left node info left right))) :
    ∃ next gap outer shape, unlinkNode tree node = some (next, gap) ∧
      next.cells node ≠ none ∧ Gap (next.hide node) gap outer shape ∧
      entries (plug outer shape) = entriesOf (before frames) ++ (entries left ++ entries right) ++
        entriesOf (after frames) := by
  have nodeLive := focus.cell
  have nodeRead := focus.read
  cases left with
  | nil =>
      rcases eraseSimple_spec focus colored with ⟨next, gap, erased, same, opened⟩
      refine ⟨next, gap, frames, right, ?_, by simp [same, nodeLive], opened, ?_⟩
      · simpa [unlinkNode, nodeRead] using erased
      · simp [entries_plug, entriesOf]
  | node leftTop leftInfo leftLeft leftRight =>
      cases right with
      | nil =>
          have turned : Focus tree frames (.mk .right node info .nil
              (.node leftTop leftInfo leftLeft leftRight)) := focus
          rcases eraseSimple_spec turned colored with ⟨next, gap, erased, same, opened⟩
          refine ⟨next, gap, frames, _, ?_, by simp [same, nodeLive], opened, ?_⟩
          · simpa [unlinkNode, nodeRead] using erased
          · simp [entries_plug, entriesOf]
      | node rightTop rightInfo rightLeft rightRight =>
          rcases eraseTwoChildren_spec focus (by simp) (BinTree.root_node ..) colored with
            ⟨next, gap, outer, shape, erased, live, opened, same⟩
          refine ⟨next, gap, outer, shape, ?_, live, opened, same⟩
          simpa [unlinkNode, nodeRead] using erased

/-- `EraseNode` removes exactly the given node and keeps the colour rules. -/
theorem eraseNode_spec
    (focus : Focus tree frames (.mk .left node info left right))
    (colored : WellColored (plug frames (.mk .left node info left right))) :
    ∃ next final, eraseNode tree node = some next ∧ Represents next final ∧
      WellColored final ∧
      entries final = entriesOf (before frames) ++ (entries left ++ entries right) ++
        entriesOf (after frames) := by
  rcases unlinkNode_spec focus colored with
    ⟨one, gap, outer, shape, unlinked, live, opened, same⟩
  rcases Option.ne_none_iff_exists'.mp live with ⟨cell, found⟩
  rcases closeGap_spec opened with ⟨next, final, closed, represents, finalColored, kept⟩
  refine ⟨next, final, ?_, represents, finalColored, kept.trans same⟩
  have released := Store.free_eq found
  simp [eraseNode, unlinked, released, closed]

end Successor

end Wan.Container.RedBlackTree
