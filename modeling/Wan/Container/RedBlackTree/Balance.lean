import Wan.Container.RedBlackTree.Model

/-!
# The colour rules

`Balanced tree n` says that no red node of a subtree has a red child and that
every path down to a null link meets `n` black nodes.  `ContextBalanced` is the
same condition on the surroundings of a hole that expects a subtree with `n`
black nodes on every path; the root must be black, so the position of the root
counts as a hole below a red node.  The fix-up loops are verified against these
two conditions.
-/

namespace Wan.Container.RedBlackTree

open Wan.Library.LinkedTree

variable {Value : Type}

/-- The colour of the root; an empty tree counts as black. -/
def treeColor : BinTree (RbNodeData Value) → RbTreeColor
  | .nil => .black
  | .node _ info _ _ => info.memberColor

/-- No red node has a red child and every path meets the same number of black
nodes. -/
def Balanced : BinTree (RbNodeData Value) → Nat → Prop
  | .nil, count => count = 0
  | .node _ info left right, count =>
      match info.memberColor with
      | .red =>
          treeColor left = .black ∧ treeColor right = .black ∧
            Balanced left count ∧ Balanced right count
      | .black => ∃ below, count = below + 1 ∧ Balanced left below ∧ Balanced right below

/-- The colour that restricts the root of a subtree put into a hole. -/
def holeColor : List (Frame (RbNodeData Value)) → RbTreeColor
  | [] => .red
  | frame :: _ => frame.info.memberColor

/-- The surroundings of a hole obey the colour rules once a subtree with the
given number of black nodes on every path is put there. -/
def ContextBalanced : List (Frame (RbNodeData Value)) → Nat → Prop
  | [], _ => True
  | frame :: frames, count =>
      match frame.info.memberColor with
      | .red =>
          treeColor frame.sibling = .black ∧ Balanced frame.sibling count ∧
            holeColor frames = .black ∧ ContextBalanced frames count
      | .black => Balanced frame.sibling count ∧ ContextBalanced frames (count + 1)

/-- The colour rules for a whole tree. -/
def WellColored (tree : BinTree (RbNodeData Value)) : Prop :=
  treeColor tree = .black ∧ ∃ count, Balanced tree count

/-- Paint the root black. -/
def blacken : BinTree (RbNodeData Value) → BinTree (RbNodeData Value)
  | .nil => .nil
  | .node node info left right => .node node (info.withColor .black) left right

section

variable {side : Side} {node : Addr} {info newInfo : RbNodeData Value}
variable {near far newNear newFar tree : BinTree (RbNodeData Value)}
variable {frame : Frame (RbNodeData Value)} {frames : List (Frame (RbNodeData Value))}
variable {count : Nat}

@[simp] theorem withColor_self (data : RbNodeData Value) :
    data.withColor data.memberColor = data := rfl

@[simp] theorem withColor_withColor (data : RbNodeData Value) (first second : RbTreeColor) :
    (data.withColor first).withColor second = data.withColor second := rfl

@[simp] theorem blacken_mk :
    blacken (.mk side node info near far) = .mk side node (info.withColor .black) near far := by
  cases side <;> rfl

@[simp] theorem treeColor_nil : treeColor (.nil : BinTree (RbNodeData Value)) = .black := rfl

@[simp] theorem treeColor_mk : treeColor (.mk side node info near far) = info.memberColor := by
  cases side <;> rfl

@[simp] theorem balanced_nil : Balanced (.nil : BinTree (RbNodeData Value)) count ↔ count = 0 :=
  Iff.rfl

theorem balanced_mk_red (color : info.memberColor = .red) :
    Balanced (.mk side node info near far) count ↔
      treeColor near = .black ∧ treeColor far = .black ∧
        Balanced near count ∧ Balanced far count := by
  cases side with
  | left => simp [BinTree.mk, Balanced, color]
  | right =>
      simp only [BinTree.mk, Balanced, color]
      constructor
      · rintro ⟨farBlack, nearBlack, farBalanced, nearBalanced⟩
        exact ⟨nearBlack, farBlack, nearBalanced, farBalanced⟩
      · rintro ⟨nearBlack, farBlack, nearBalanced, farBalanced⟩
        exact ⟨farBlack, nearBlack, farBalanced, nearBalanced⟩

theorem balanced_mk_black (color : info.memberColor = .black) :
    Balanced (.mk side node info near far) count ↔
      ∃ below, count = below + 1 ∧ Balanced near below ∧ Balanced far below := by
  cases side with
  | left => simp [BinTree.mk, Balanced, color]
  | right =>
      simp only [BinTree.mk, Balanced, color]
      constructor
      · rintro ⟨below, equal, farBalanced, nearBalanced⟩
        exact ⟨below, equal, nearBalanced, farBalanced⟩
      · rintro ⟨below, equal, nearBalanced, farBalanced⟩
        exact ⟨below, equal, farBalanced, nearBalanced⟩

theorem balanced_mk_black_succ (color : info.memberColor = .black) :
    Balanced (.mk side node info near far) (count + 1) ↔
      Balanced near count ∧ Balanced far count := by
  rw [balanced_mk_black color]
  constructor
  · rintro ⟨below, equal, nearBalanced, farBalanced⟩
    cases Nat.succ.inj equal
    exact ⟨nearBalanced, farBalanced⟩
  · rintro ⟨nearBalanced, farBalanced⟩
    exact ⟨count, rfl, nearBalanced, farBalanced⟩

theorem color_cases (color : RbTreeColor) : color = .red ∨ color = .black := by
  cases color <;> simp

theorem contextBalanced_red (color : frame.info.memberColor = .red) :
    ContextBalanced (frame :: frames) count ↔
      treeColor frame.sibling = .black ∧ Balanced frame.sibling count ∧
        holeColor frames = .black ∧ ContextBalanced frames count := by
  simp [ContextBalanced, color]

theorem contextBalanced_black (color : frame.info.memberColor = .black) :
    ContextBalanced (frame :: frames) count ↔
      Balanced frame.sibling count ∧ ContextBalanced frames (count + 1) := by
  simp [ContextBalanced, color]

theorem ContextBalanced.sibling (context : ContextBalanced (frame :: frames) count) :
    Balanced frame.sibling count := by
  rcases color_cases frame.info.memberColor with color | color
  · exact ((contextBalanced_red color).mp context).2.1
  · exact ((contextBalanced_black color).mp context).1

/-- The subtree beside a hole may be replaced by one with a black root. -/
theorem ContextBalanced.replaceSibling (context : ContextBalanced (frame :: frames) count)
    (black : treeColor tree = .black) (balanced : Balanced tree count) :
    ContextBalanced (⟨frame.side, frame.address, frame.info, tree⟩ :: frames) count := by
  rcases color_cases frame.info.memberColor with color | color
  · rw [contextBalanced_red color] at context
    simpa [ContextBalanced, color, black, balanced] using context.2.2
  · rw [contextBalanced_black color] at context
    simpa [ContextBalanced, color, balanced] using context.2

/-- A fitting subtree fills a hole. -/
theorem ContextBalanced.plug (context : ContextBalanced frames count)
    (balanced : Balanced tree count)
    (fits : holeColor frames = .red → treeColor tree = .black) :
    WellColored (plug frames tree) := by
  induction frames generalizing tree count with
  | nil => exact ⟨fits rfl, count, balanced⟩
  | cons frame frames ih =>
      rcases color_cases frame.info.memberColor with color | color
      · rw [contextBalanced_red color] at context
        rcases context with ⟨siblingBlack, sibling, above, rest⟩
        apply ih rest
        · exact (balanced_mk_red color).mpr ⟨fits color, siblingBlack, balanced, sibling⟩
        · intro red
          simp [red] at above
      · rw [contextBalanced_black color] at context
        rcases context with ⟨sibling, rest⟩
        apply ih rest
        · exact (balanced_mk_black_succ color).mpr ⟨balanced, sibling⟩
        · intro _
          simpa [Frame.plug] using color

/-- Every position of a tree that obeys the colour rules is a hole filled with
a fitting subtree. -/
theorem WellColored.context (colored : WellColored (plug frames tree)) :
    ∃ count, ContextBalanced frames count ∧ Balanced tree count ∧
      (holeColor frames = .red → treeColor tree = .black) := by
  induction frames generalizing tree with
  | nil =>
      rcases colored with ⟨black, count, balanced⟩
      exact ⟨count, trivial, balanced, fun _ => black⟩
  | cons frame frames ih =>
      rcases ih colored with ⟨count, context, balanced, fits⟩
      rcases color_cases frame.info.memberColor with color | color
      · rcases (balanced_mk_red color).mp balanced with
          ⟨treeBlack, siblingBlack, treeBalanced, sibling⟩
        refine ⟨count, ?_, treeBalanced, fun _ => treeBlack⟩
        refine (contextBalanced_red color).mpr ⟨siblingBlack, sibling, ?_, context⟩
        rcases color_cases (holeColor frames) with red | black
        · have frameBlack := fits red
          rw [Frame.plug, treeColor_mk, color] at frameBlack
          cases frameBlack
        · exact black
      · rcases (balanced_mk_black color).mp balanced with ⟨below, rfl, treeBalanced, sibling⟩
        refine ⟨below, (contextBalanced_black color).mpr ⟨sibling, context⟩, treeBalanced, ?_⟩
        intro red
        rw [holeColor, color] at red
        cases red

/-- Painting the root black never breaks the rules below it. -/
theorem Balanced.blacken (balanced : Balanced tree count) : WellColored (blacken tree) := by
  cases tree with
  | nil => exact ⟨rfl, count, balanced⟩
  | node node info left right =>
      refine ⟨rfl, ?_⟩
      have whole : Balanced (.mk .left node info left right) count := balanced
      rcases color_cases info.memberColor with color | color
      · rcases (balanced_mk_red color).mp whole with
          ⟨_, _, leftBalanced, rightBalanced⟩
        exact ⟨count + 1, count, rfl, leftBalanced, rightBalanced⟩
      · rcases (balanced_mk_black color).mp whole with
          ⟨below, _, leftBalanced, rightBalanced⟩
        exact ⟨below + 1, below, rfl, leftBalanced, rightBalanced⟩

@[simp] theorem treeColor_blacken : treeColor (RedBlackTree.blacken tree) = .black := by
  cases tree <;> rfl

/-- A red root painted black adds a black node to every path. -/
theorem Balanced.blacken_red (balanced : Balanced tree count) (red : treeColor tree = .red) :
    Balanced (RedBlackTree.blacken tree) (count + 1) := by
  cases tree with
  | nil => simp at red
  | node node info left right =>
      rcases (balanced_mk_red red : Balanced (.mk .left node info left right) count ↔ _).mp
        balanced with ⟨_, _, leftBalanced, rightBalanced⟩
      exact ⟨count, rfl, leftBalanced, rightBalanced⟩

theorem WellColored.blacken (colored : WellColored tree) : WellColored (blacken tree) := by
  rcases colored with ⟨_, _, balanced⟩
  exact balanced.blacken

theorem entries_blacken : entries (blacken tree) = entries tree := by
  cases tree with
  | nil => rfl
  | node node info left right => simp [blacken]

end

end Wan.Container.RedBlackTree
