import Wan.Container.BalanceTree.Model

/-!
# The height rules

`Avl tree` says that every node of a subtree caches its real height and balance
factor and that the factor lies between minus one and one.  `ContextAvl` is what
remains of the rules around a hole whose subtree used to have a given height:
the frames themselves are stale until the walk to the root has passed them.
-/

namespace Wan.Container.BalanceTree

open Wan.Library.LinkedTree

variable {Key Value : Type}

/-- The real height of a tree. -/
def heightOf : BinTree (AvlNodeData Key Value) → Int
  | .nil => 0
  | .node _ _ left right => max (heightOf left) (heightOf right) + 1

/-- The payload of a node with up-to-date caches. -/
def measured (side : Side) (data : AvlNodeData Key Value)
    (near far : BinTree (AvlNodeData Key Value)) : AvlNodeData Key Value :=
  match side with
  | .left => data.withHeights (heightOf near) (heightOf far)
  | .right => data.withHeights (heightOf far) (heightOf near)

/-- Every node caches its real height and balance factor, and the factor lies
between minus one and one. -/
def Avl : BinTree (AvlNodeData Key Value) → Prop
  | .nil => True
  | .node _ data left right =>
      data = measured .left data left right ∧
        -1 ≤ heightOf right - heightOf left ∧ heightOf right - heightOf left ≤ 1 ∧
        Avl left ∧ Avl right

/-- The surroundings of a hole in a tree that obeyed the rules when the hole held
a subtree of the given height. -/
def ContextAvl : List (Frame (AvlNodeData Key Value)) → Int → Prop
  | [], _ => True
  | frame :: frames, height =>
      Avl frame.sibling ∧ -1 ≤ heightOf frame.sibling - height ∧
        heightOf frame.sibling - height ≤ 1 ∧
        ContextAvl frames (max height (heightOf frame.sibling) + 1)

section

variable {side : Side} {node : Addr} {data newData : AvlNodeData Key Value}
variable {near far newNear newFar tree : BinTree (AvlNodeData Key Value)}
variable {frames : List (Frame (AvlNodeData Key Value))}

@[simp] theorem heightOf_nil : heightOf (.nil : BinTree (AvlNodeData Key Value)) = 0 := rfl

@[simp] theorem heightOf_mk :
    heightOf (.mk side node data near far) = max (heightOf near) (heightOf far) + 1 := by
  cases side with
  | left => rfl
  | right => simp [BinTree.mk, heightOf, Int.max_comm]

theorem heightOf_nonneg (tree : BinTree (AvlNodeData Key Value)) : 0 ≤ heightOf tree := by
  induction tree with
  | nil => exact Int.le_refl 0
  | node node data left right leftIH rightIH => simp only [heightOf]; omega

@[simp] theorem memberData_measured :
    (measured side data near far).memberData = data.memberData := by
  cases side <;> rfl

@[simp] theorem memberHeight_measured :
    (measured side data near far).memberHeight = max (heightOf near) (heightOf far) + 1 := by
  cases side with
  | left => rfl
  | right => simp [measured, AvlNodeData.withHeights, Int.max_comm]

@[simp] theorem measured_measured :
    measured side (measured side data newNear newFar) near far = measured side data near far := by
  cases side <;> rfl

theorem avl_mk : Avl (.mk side node data near far) ↔
    data = measured side data near far ∧ -1 ≤ heightOf far - heightOf near ∧
      heightOf far - heightOf near ≤ 1 ∧ Avl near ∧ Avl far := by
  cases side with
  | left => rfl
  | right =>
      simp only [BinTree.mk, Avl]
      constructor
      · rintro ⟨cached, lower, upper, farAvl, nearAvl⟩
        exact ⟨cached, by omega, by omega, nearAvl, farAvl⟩
      · rintro ⟨cached, lower, upper, nearAvl, farAvl⟩
        exact ⟨cached, by omega, by omega, farAvl, nearAvl⟩

/-- The cached height of the root is the real one. -/
theorem Avl.height_eq (avl : Avl tree) :
    tree = .nil ∨ ∃ node data left right, tree = .node node data left right ∧
      data.memberHeight = heightOf tree := by
  cases tree with
  | nil => exact Or.inl rfl
  | node node data left right =>
      refine Or.inr ⟨node, data, left, right, rfl, ?_⟩
      rw [avl.1]
      rfl

/-- Every position of a tree that obeys the rules is a hole with a fitting
subtree. -/
theorem Avl.context (avl : Avl (plug frames tree)) :
    Avl tree ∧ ContextAvl frames (heightOf tree) := by
  induction frames generalizing tree with
  | nil => exact ⟨avl, trivial⟩
  | cons frame frames ih =>
      rcases ih avl with ⟨top, above⟩
      rcases avl_mk.mp top with ⟨_, lower, upper, treeAvl, siblingAvl⟩
      rw [Frame.plug, heightOf_mk] at above
      exact ⟨treeAvl, siblingAvl, lower, upper, above⟩

/-- What is known about a context does not depend on the nodes of its frames. -/
theorem ContextAvl.replaceNode {inner : List (Frame (AvlNodeData Key Value))}
    {frame other : Frame (AvlNodeData Key Value)} {height : Int}
    (context : ContextAvl (inner ++ frame :: frames) height)
    (sibling : other.sibling = frame.sibling) :
    ContextAvl (inner ++ other :: frames) height := by
  induction inner generalizing height with
  | nil => simpa [ContextAvl, sibling] using context
  | cons first inner ih =>
      rcases context with ⟨siblingAvl, lower, upper, above⟩
      exact ⟨siblingAvl, lower, upper, ih above⟩

end

end Wan.Container.BalanceTree
