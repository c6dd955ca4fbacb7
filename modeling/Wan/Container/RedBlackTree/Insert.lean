import Wan.Container.RedBlackTree.Revolve

/-!
# Repair after an insertion

The loop of `InsertAdjust` moves a red node with a possibly red parent up the
tree.  Each case of its body is a step on the represented tree; the loop ends
because every recolouring takes two frames off the path to the root.
-/

namespace Wan.Container.RedBlackTree

open Wan.Library.LinkedTree

variable {Value : Type} {tree : RedBlackTree Value}
variable {parent grandparent : Frame (RbNodeData Value)}
variable {frames : List (Frame (RbNodeData Value))} {shape : BinTree (RbNodeData Value)}

/-- A red uncle: the parent and the uncle turn black, the grandparent red. -/
theorem insertAdjustStep_recolor (node : Addr)
    (focus : Focus tree (parent :: grandparent :: frames) shape)
    (uncleRed : treeColor grandparent.sibling = .red) :
    ∃ next, insertAdjustStep grandparent.side tree node parent.address grandparent.address =
        some (next, grandparent.address) ∧
      Focus next frames
        (.mk grandparent.side grandparent.address (grandparent.info.withColor .red)
          (.mk parent.side parent.address (parent.info.withColor .black)
            shape parent.sibling)
          (blacken grandparent.sibling)) := by
  have whole := focus.up.up
  have uncleFocus := whole.far_frame
  have uncleColor := redGet_root uncleFocus
  rw [uncleRed] at uncleColor
  rcases setColor_spec .black focus.up with ⟨one, parentBlack, oneFocus⟩
  rcases paintBlack_spec oneFocus.up.far_frame with ⟨two, uncleBlack, twoFocus⟩
  have backFocus : Focus two frames
      (.mk grandparent.side grandparent.address grandparent.info
        (.mk parent.side parent.address (parent.info.withColor .black)
          shape parent.sibling)
        (blacken grandparent.sibling)) := by
    simpa only [Frame.plug, BinTree.mk_other] using twoFocus.up
  rcases setColor_spec .red backFocus with ⟨three, grandparentRed, threeFocus⟩
  refine ⟨three, ?_, threeFocus⟩
  cases uncleTree : grandparent.sibling with
  | nil => simp [uncleTree] at uncleRed
  | node uncle uncleInfo left right =>
      rw [uncleTree] at uncleColor uncleBlack
      simp only [BinTree.root_node, paintBlack] at uncleColor uncleBlack
      have grandparentRead := whole.read
      rw [uncleTree, BinTree.root_node] at grandparentRead
      simp [insertAdjustStep, grandparentRead, uncleColor, parentBlack, uncleBlack,
        grandparentRed]

/-- A black uncle and an outer grandchild: one rotation at the grandparent. -/
theorem insertAdjustStep_outer {node : Addr}
    (focus : Focus tree (parent :: grandparent :: frames) shape)
    (root : shape.root = some node) (outer : parent.side = grandparent.side)
    (uncleBlack : treeColor grandparent.sibling = .black) :
    ∃ next, insertAdjustStep grandparent.side tree node parent.address grandparent.address =
        some (next, node) ∧
      Focus next frames
        (.mk grandparent.side parent.address (parent.info.withColor .black) shape
          (.mk grandparent.side grandparent.address
            (grandparent.info.withColor .red)
            parent.sibling grandparent.sibling)) := by
  have whole := focus.up.up
  have uncleColor := redGet_root whole.far_frame
  have parentRead := focus.up.read
  have siblingRoot := focus.frame_sibling_root (by rintro rfl; simp at root)
  rw [root] at siblingRoot
  rcases setColor_spec .black focus.up with ⟨one, parentBlack, oneFocus⟩
  rcases setColor_spec .red oneFocus.up with ⟨two, grandparentRed, twoFocus⟩
  have turnFocus : Focus two frames
      (.mk grandparent.side.other grandparent.address
        (grandparent.info.withColor .red) grandparent.sibling
        (.mk grandparent.side.other parent.address
          (parent.info.withColor .black) parent.sibling shape)) := by
    simpa only [BinTree.mk_other, outer] using twoFocus
  rcases revolve_spec turnFocus with ⟨three, turned, threeFocus⟩
  refine ⟨three, ?_, by simpa only [BinTree.mk_other] using threeFocus⟩
  rw [outer] at parentRead
  simp [insertAdjustStep, whole.read, uncleColor, uncleBlack, parentRead, siblingRoot,
    parentBlack, grandparentRed, turned]

/-- A black uncle and an inner grandchild: a rotation at the parent, then one at
the grandparent. -/
theorem insertAdjustStep_inner {node : Addr} {info : RbNodeData Value}
    {near far : BinTree (RbNodeData Value)}
    (focus : Focus tree (parent :: grandparent :: frames)
      (.mk grandparent.side node info near far))
    (inner : parent.side = grandparent.side.other)
    (uncleBlack : treeColor grandparent.sibling = .black) :
    ∃ next, insertAdjustStep grandparent.side tree node parent.address grandparent.address =
        some (next, parent.address) ∧
      Focus next frames
        (.mk grandparent.side node (info.withColor .black)
          (.mk grandparent.side parent.address parent.info parent.sibling near)
          (.mk grandparent.side grandparent.address
            (grandparent.info.withColor .red) far grandparent.sibling)) := by
  have whole := focus.up.up
  have uncleColor := redGet_root whole.far_frame
  have parentFocus : Focus tree (grandparent :: frames)
      (.mk grandparent.side parent.address parent.info parent.sibling
        (.mk grandparent.side node info near far)) := by
    simpa only [Frame.plug, inner, BinTree.mk_other] using focus.up
  have parentRead := parentFocus.read
  rcases revolve_spec parentFocus with ⟨one, turnedParent, oneFocus⟩
  have nodeRead := oneFocus.read
  have loweredRead := oneFocus.near_frame.read
  rcases setColor_spec .black oneFocus with ⟨two, nodeBlack, twoFocus⟩
  rcases setColor_spec .red twoFocus.up with ⟨three, grandparentRed, threeFocus⟩
  have turnFocus : Focus three frames
      (.mk grandparent.side.other grandparent.address
        (grandparent.info.withColor .red) grandparent.sibling
        (.mk grandparent.side.other node (info.withColor .black) far
          (.mk grandparent.side parent.address parent.info parent.sibling near))) := by
    simpa only [BinTree.mk_other] using threeFocus
  rcases revolve_spec turnFocus with ⟨four, turned, fourFocus⟩
  refine ⟨four, ?_, by simpa only [BinTree.mk_other] using fourFocus⟩
  simp [insertAdjustStep, whole.read, uncleColor, uncleBlack, parentRead, turnedParent,
    loweredRead, nodeRead, nodeBlack, grandparentRed, turned]

/-- What the loop of `InsertAdjust` leaves behind: the same entries in a tree
that obeys the colour rules once its root is black. -/
def Repaired (tree : RedBlackTree Value) (original : BinTree (RbNodeData Value)) : Prop :=
  ∃ shape, Represents tree shape ∧ WellColored (blacken shape) ∧
    entries shape = entries original

theorem Repaired.of_entries {original other : BinTree (RbNodeData Value)}
    (repaired : Repaired tree original) (equal : entries original = entries other) :
    Repaired tree other := by
  rcases repaired with ⟨shape, represents, colored, same⟩
  exact ⟨shape, represents, colored, same.trans equal⟩

/-- The loop stops at the root and below a black parent. -/
theorem insertAdjustLoop_stop (fuel : Nat) {node : Addr} (focus : Focus tree frames shape)
    (root : shape.root = some node) (black : holeColor frames = .black ∨ frames = []) :
    insertAdjustLoop (fuel + 1) tree node = some tree := by
  have isRoot := focus.root_eq_iff
  rw [root] at isRoot
  rcases BinTree.exists_mk_of_root .left root with ⟨info, near, far, rfl⟩
  cases frames with
  | nil => simp [insertAdjustLoop, isRoot]
  | cons parent frames =>
      have parentColor := redGet_root focus.up
      simp only [holeColor, reduceCtorEq, or_false] at black
      simp only [Frame.plug, BinTree.root_mk, treeColor_mk, black] at parentColor
      simp [insertAdjustLoop, isRoot, focus.read, parentColor]

/-- Below a red parent the loop makes one step at the grandparent. -/
theorem insertAdjustLoop_step (fuel : Nat) {node : Addr}
    (focus : Focus tree (parent :: grandparent :: frames) shape)
    (root : shape.root = some node) (red : parent.info.memberColor = .red) :
    insertAdjustLoop (fuel + 1) tree node =
      (insertAdjustStep grandparent.side tree node parent.address grandparent.address).bind
        fun result => insertAdjustLoop fuel result.1 result.2 := by
  have isRoot := focus.root_eq_iff
  rw [root] at isRoot
  rcases BinTree.exists_mk_of_root .left root with ⟨info, near, far, rfl⟩
  have parentColor := redGet_root focus.up
  have parentRead := focus.up.read
  have grandparentRead := Store.read_eq focus.up.frame_cell
  have grandparentSide := focus.up.frame_side (BinTree.root_mk ..) (parentOf frames)
  simp only [Frame.plug, BinTree.root_mk, treeColor_mk, red] at parentColor grandparentRead
  simp [insertAdjustLoop, isRoot, focus.read, parentColor, parentRead, grandparentRead,
    grandparentSide]

/-- The loop of `InsertAdjust` repairs a tree whose only fault is a red node
below a red parent. -/
theorem insertAdjustLoop_spec (fuel : Nat) {node : Addr} {count : Nat}
    (focus : Focus tree frames shape) (root : shape.root = some node)
    (red : treeColor shape = .red) (balanced : Balanced shape count)
    (context : ContextBalanced frames count) (enough : frames.length + 2 ≤ fuel) :
    ∃ next, insertAdjustLoop fuel tree node = some next ∧
      Repaired next (plug frames shape) := by
  induction fuel generalizing tree frames shape node count with
  | zero => exact absurd enough (by omega)
  | succ fuel ih =>
      cases frames with
      | nil =>
          refine ⟨tree, insertAdjustLoop_stop fuel focus root (Or.inr rfl), ?_⟩
          exact ⟨shape, focus, balanced.blacken, rfl⟩
      | cons parent frames =>
          rcases color_cases parent.info.memberColor with parentRed | parentBlack
          · -- A red parent is not the root, so there is a black grandparent.
            rw [contextBalanced_red parentRed] at context
            rcases context with ⟨siblingBlack, sibling, holeBlack, above⟩
            cases frames with
            | nil => simp [holeColor] at holeBlack
            | cons grandparent frames =>
                rw [holeColor] at holeBlack
                rw [contextBalanced_black holeBlack] at above
                rcases above with ⟨uncle, above⟩
                rw [insertAdjustLoop_step fuel focus root parentRed]
                simp only [List.length_cons] at enough
                rcases color_cases (treeColor grandparent.sibling) with uncleRed | uncleBlack
                · rcases insertAdjustStep_recolor node focus uncleRed with ⟨one, step, oneFocus⟩
                  have lowered : Balanced (.mk parent.side parent.address
                      (parent.info.withColor .black) shape parent.sibling)
                      (count + 1) :=
                    (balanced_mk_black_succ rfl).mpr ⟨balanced, sibling⟩
                  have raised := And.intro lowered (uncle.blacken_red uncleRed)
                  rcases ih oneFocus (BinTree.root_mk ..) treeColor_mk
                    ((balanced_mk_red rfl).mpr ⟨treeColor_mk, treeColor_blacken, raised⟩)
                    above (by omega) with ⟨next, loop, repaired⟩
                  refine ⟨next, by simp [step, loop], repaired.of_entries ?_⟩
                  exact entries_plug_congr
                    (entries_mk_congr rfl (entries_mk_congr rfl rfl rfl) entries_blacken)
                · rcases Side.eq_or_eq_other parent.side grandparent.side with outer | inner
                  · rcases insertAdjustStep_outer focus root outer uncleBlack with
                      ⟨one, step, oneFocus⟩
                    have beside : Balanced (.mk grandparent.side grandparent.address
                        (grandparent.info.withColor .red)
                        parent.sibling grandparent.sibling) count :=
                      (balanced_mk_red rfl).mpr ⟨siblingBlack, uncleBlack, sibling, uncle⟩
                    rcases ih oneFocus.near_frame root red balanced
                      ((contextBalanced_black rfl).mpr ⟨beside, above⟩)
                      (by simp only [List.length_cons]; omega) with ⟨next, loop, repaired⟩
                    refine ⟨next, by simp [step, loop], repaired.of_entries ?_⟩
                    simp only [plug, Frame.plug, outer]
                    refine entries_plug_congr (Eq.trans ?_ (entries_rotate ..).symm)
                    exact entries_mk_congr rfl rfl (entries_mk_congr rfl rfl rfl)
                  · rcases BinTree.exists_mk_of_root grandparent.side root with
                      ⟨info, near, far, rfl⟩
                    rw [treeColor_mk] at red
                    rcases (balanced_mk_red red).mp balanced with
                      ⟨nearBlack, farBlack, nearBalanced, farBalanced⟩
                    rcases insertAdjustStep_inner focus inner uncleBlack with
                      ⟨one, step, oneFocus⟩
                    have lowered : Balanced (.mk grandparent.side parent.address parent.info
                        parent.sibling near) count :=
                      (balanced_mk_red parentRed).mpr
                        ⟨siblingBlack, nearBlack, sibling, nearBalanced⟩
                    have beside : Balanced (.mk grandparent.side grandparent.address
                        (grandparent.info.withColor .red)
                        far grandparent.sibling) count :=
                      (balanced_mk_red rfl).mpr ⟨farBlack, uncleBlack, farBalanced, uncle⟩
                    rcases ih oneFocus.near_frame (BinTree.root_mk ..)
                      (treeColor_mk.trans parentRed) lowered
                      ((contextBalanced_black rfl).mpr ⟨beside, above⟩)
                      (by simp only [List.length_cons]; omega) with ⟨next, loop, repaired⟩
                    refine ⟨next, by simp [step, loop], repaired.of_entries ?_⟩
                    simp only [plug, Frame.plug, inner, BinTree.mk_other]
                    refine entries_plug_congr ?_
                    refine Eq.trans ?_ (entries_mk_congr rfl (entries_rotate ..) rfl)
                    refine Eq.trans ?_ (entries_rotate ..).symm
                    exact entries_mk_congr rfl rfl (entries_mk_congr rfl rfl rfl)
          · have colored : WellColored (plug (parent :: frames) shape) :=
              context.plug balanced (by simp [holeColor, parentBlack])
            refine ⟨tree, insertAdjustLoop_stop fuel focus root (Or.inl parentBlack), ?_⟩
            exact ⟨_, focus.represents, colored.blacken, rfl⟩

/-- `InsertAdjust` makes a freshly attached red node part of a tree that obeys
the colour rules. -/
theorem insertAdjust_spec {node : Addr} {count : Nat} (focus : Focus tree frames shape)
    (root : shape.root = some node) (red : treeColor shape = .red)
    (balanced : Balanced shape count) (context : ContextBalanced frames count) :
    ∃ next final, insertAdjust tree node = some next ∧ Represents next final ∧
      WellColored final ∧ entries final = entries (plug frames shape) := by
  have length := focus.length_le
  have depth := Focus.frames_length_le frames
  rcases insertAdjustLoop_spec (tree.bound + 2) focus root red balanced context
    (by unfold Store.bound; omega) with ⟨one, loop, repaired⟩
  rcases repaired with ⟨final, represents, colored, same⟩
  rcases paintBlack_spec represents with ⟨two, painted, twoRepresents⟩
  have rootEq : one.root = final.root := represents.root
  refine ⟨two, blacken final, ?_, twoRepresents, colored, entries_blacken.trans same⟩
  simp [insertAdjust, loop, rootEq, painted]

end Wan.Container.RedBlackTree
