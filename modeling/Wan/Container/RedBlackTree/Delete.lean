import Wan.Container.RedBlackTree.Insert

/-!
# Repair after a deletion

The loop of `DeleteAdjust` carries a subtree that is one black node short.  Its
four cases are steps on the represented tree: a red brother is turned away, a
black brother with black children passes the shortage to the parent, and the
last two cases end it with a rotation.
-/

namespace Wan.Container.RedBlackTree

open Wan.Library.LinkedTree

variable {Value : Type} {tree : RedBlackTree Value}
variable {parent : Frame (RbNodeData Value)} {frames : List (Frame (RbNodeData Value))}
variable {shape near far : BinTree (RbNodeData Value)}
variable {brother : Addr} {brotherInfo : RbNodeData Value}

/-- Whether the hole is on the left of the node above it. -/
def holeIsLeft : List (Frame (RbNodeData Value)) → Bool
  | [] => false
  | frame :: _ => decide (frame.side = .left)

theorem isLeftChild_spec {node : Addr} (focus : Focus tree frames shape)
    (root : shape.root = some node) :
    isLeftChild tree (parentOf frames) node = some (holeIsLeft frames) := by
  cases frames with
  | nil => rfl
  | cons frame frames =>
      have found := Store.read_eq focus.frame_cell
      rw [root] at found
      simp [isLeftChild, found, focus.frame_left_iff root, holeIsLeft]

/-- What the loop does after its body. -/
def resume (fuel : Nat) (fix : DeleteFix Value) :
    Option (RedBlackTree Value × Option Addr) :=
  if fix.stop then
    some (fix.tree, fix.currentNode)
  else
    deleteAdjustLoop fuel fix.tree fix.currentNode fix.parent fix.currentIsLeft

/-- Where the loop may stop: painting the current node and the root black
completes the repair. -/
def Settled (tree : RedBlackTree Value) (current : Option Addr)
    (original : BinTree (RbNodeData Value)) : Prop :=
  ∃ frames shape, Focus tree frames shape ∧ current = shape.root ∧
    WellColored (blacken (plug frames (blacken shape))) ∧
    entries (plug frames shape) = entries original

theorem Settled.of_entries {current : Option Addr} {original other : BinTree (RbNodeData Value)}
    (settled : Settled tree current original) (equal : entries original = entries other) :
    Settled tree current other := by
  rcases settled with ⟨frames, shape, focus, root, colored, same⟩
  exact ⟨frames, shape, focus, root, colored, same.trans equal⟩

/-- The loop stops at the root. -/
theorem deleteAdjustLoop_root (fuel : Nat) (above : Option Addr) (flag : Bool)
    (represents : Represents tree shape) (colored : WellColored (blacken shape)) :
    deleteAdjustLoop (fuel + 1) tree shape.root above flag = some (tree, shape.root) ∧
      Settled tree shape.root shape := by
  have root : shape.root = tree.root := represents.root_eq_iff.mpr rfl
  constructor
  · simp [deleteAdjustLoop, root]
  · exact ⟨[], shape, represents, rfl, colored.blacken, rfl⟩

/-- The loop stops at a red node. -/
theorem deleteAdjustLoop_red (fuel : Nat) (above : Option Addr) (flag : Bool) {count : Nat}
    (focus : Focus tree frames shape) (red : treeColor shape = .red)
    (balanced : Balanced shape count) (context : ContextBalanced frames (count + 1)) :
    deleteAdjustLoop (fuel + 1) tree shape.root above flag = some (tree, shape.root) ∧
      Settled tree shape.root (plug frames shape) := by
  have color := blackGet_root focus
  rw [red] at color
  constructor
  · simp [deleteAdjustLoop, color]
  · have fits := context.plug (balanced.blacken_red red) (fun _ => treeColor_blacken)
    exact ⟨frames, shape, focus, rfl, fits.blacken, rfl⟩

/-- The loop runs its body at a black node below a parent. -/
theorem deleteAdjustLoop_step (fuel : Nat) {flag : Bool}
    (focus : Focus tree (parent :: frames) shape) (black : treeColor shape = .black)
    (side : shape = .nil → flag = decide (parent.side = .left)) :
    deleteAdjustLoop (fuel + 1) tree shape.root (some parent.address) flag =
      (deleteAdjustStep parent.side tree shape.root parent.address flag).bind (resume fuel) := by
  have isRoot := focus.root_eq_iff
  have color := blackGet_root focus
  have parentRead := Store.read_eq focus.frame_cell
  rw [black] at color
  cases shape with
  | nil =>
      have flagSide : (if flag = true then Side.left else Side.right) = parent.side := by
        rw [side rfl]
        cases parent.side <;> rfl
      simp only [BinTree.root_nil] at color isRoot
      simp only [deleteAdjustLoop, isRoot, BinTree.root_nil]
      simp [color, flagSide]
      rfl
  | node node info left right =>
      have found := focus.frame_side (BinTree.root_node ..) (parentOf frames)
      simp only [BinTree.root_node] at color isRoot parentRead
      simp [deleteAdjustLoop, isRoot, color, parentRead, found]
      rfl

section BlackBrother

variable (sibling : parent.sibling = .mk parent.side brother brotherInfo near far)
variable (brotherBlack : brotherInfo.memberColor = .black)

include sibling brotherBlack

/-- Two black nephews: the brother turns red and the parent takes over, which
ends the loop if it was red. -/
theorem blackBrother_recolor (flag : Bool) (focus : Focus tree (parent :: frames) shape)
    (nearBlack : treeColor near = .black) (farBlack : treeColor far = .black) :
    ∃ next, deleteAdjustBlackBrother parent.side tree shape.root parent.address flag
        (some brother) = some ⟨next, some parent.address, parentOf frames,
          holeIsLeft frames, decide (parent.info.memberColor = .red)⟩ ∧
      Focus next frames (.mk parent.side parent.address (parent.info.withColor .black) shape
        (.mk parent.side brother (brotherInfo.withColor .red) near far)) := by
  have whole := focus.up
  rw [Frame.plug, sibling] at whole
  have brotherFocus := whole.far_frame
  have brotherColor := blackGet_root brotherFocus
  have nearColor := blackGet_root brotherFocus.near_frame
  have farColor := blackGet_root brotherFocus.far_frame
  simp only [BinTree.root_mk, treeColor_mk, brotherBlack, nearBlack, farBlack]
    at brotherColor nearColor farColor
  rcases setColor_spec .red brotherFocus with ⟨one, brotherRed, oneFocus⟩
  have oneWhole : Focus one frames (.mk parent.side parent.address parent.info shape
      (.mk parent.side brother (brotherInfo.withColor .red) near far)) := by
    simpa only [Frame.plug, BinTree.mk_other] using oneFocus.up
  have sideRead := isLeftChild_spec oneWhole (BinTree.root_mk ..)
  have parentColor := redGet_root oneWhole
  simp only [BinTree.root_mk, treeColor_mk] at parentColor
  rcases color_cases parent.info.memberColor with red | black
  · rcases setColor_spec .black oneWhole with ⟨two, parentBlack, twoFocus⟩
    refine ⟨two, ?_, twoFocus⟩
    simp [deleteAdjustBlackBrother, brotherColor, brotherFocus.read, nearColor, farColor,
      brotherRed, oneWhole.read, sideRead, parentColor, red, parentBlack]
  · refine ⟨one, ?_, ?_⟩
    · simp [deleteAdjustBlackBrother, brotherColor, brotherFocus.read, nearColor, farColor,
        brotherRed, oneWhole.read, sideRead, parentColor, black]
    · rwa [← black, withColor_self]

/-- A red far nephew: one rotation at the parent, and the loop ends at the
root. -/
theorem blackBrother_outer (flag : Bool) (focus : Focus tree (parent :: frames) shape)
    (farRed : treeColor far = .red) :
    ∃ next root, deleteAdjustBlackBrother parent.side tree shape.root parent.address flag
        (some brother) = some ⟨next, some root, none, flag, false⟩ ∧
      next.root = some root ∧
      Focus next frames (.mk parent.side brother (brotherInfo.withColor parent.info.memberColor)
        (.mk parent.side parent.address (parent.info.withColor .black) shape near)
        (blacken far)) := by
  have whole := focus.up
  rw [Frame.plug, sibling] at whole
  have brotherFocus := whole.far_frame
  have brotherColor := blackGet_root brotherFocus
  have nearColor := blackGet_root brotherFocus.near_frame
  have nearRed := redGet_root brotherFocus.near_frame
  have farColor := blackGet_root brotherFocus.far_frame
  have farIsRed := redGet_root brotherFocus.far_frame
  have parentColor := getColor_root whole
  simp only [BinTree.root_mk, treeColor_mk, brotherBlack, farRed]
    at brotherColor farColor farIsRed parentColor
  rcases setColor_spec parent.info.memberColor brotherFocus with ⟨one, painted, oneFocus⟩
  have oneWhole : Focus one frames (.mk parent.side parent.address parent.info shape
      (.mk parent.side brother (brotherInfo.withColor parent.info.memberColor) near far)) := by
    simpa only [Frame.plug, BinTree.mk_other] using oneFocus.up
  rcases setColor_spec .black oneWhole with ⟨two, parentBlack, twoFocus⟩
  rcases paintBlack_spec twoFocus.far_frame.far_frame with ⟨three, farBlack, threeFocus⟩
  have turnFocus : Focus three frames (.mk parent.side parent.address
      (parent.info.withColor .black) shape (.mk parent.side brother
        (brotherInfo.withColor parent.info.memberColor) near (blacken far))) := by
    simpa only [Frame.plug, BinTree.mk_other] using threeFocus.up.up
  rcases revolve_spec turnFocus with ⟨four, turned, fourFocus⟩
  have represents := fourFocus.represents
  rcases BinTree.exists_mk_of_ne_nil .left (plug_ne_nil frames (by simp :
      BinTree.mk parent.side brother (brotherInfo.withColor parent.info.memberColor) _ _ ≠
        .nil)) with
    ⟨root, rootInfo, left, right, equal⟩
  rw [equal] at represents
  have rootEq : four.root = some root := represents.root.trans (BinTree.root_mk ..)
  refine ⟨four, root, ?_, rootEq, fourFocus⟩
  cases farTree : far with
  | nil => simp [farTree] at farRed
  | node farNode farInfo farLeft farRight =>
      rw [farTree] at farBlack farColor farIsRed
      have brotherRead := brotherFocus.read
      rw [farTree, BinTree.root_node] at brotherRead
      simp only [BinTree.root_node, paintBlack] at farBlack farColor farIsRed
      simp [deleteAdjustBlackBrother, brotherColor, brotherRead, nearColor, farColor, nearRed,
        farIsRed, parentColor, painted, parentBlack, farBlack, turned, rootEq, represents.read]

end BlackBrother

/-- A red near nephew only: a rotation at the brother makes it the brother. -/
theorem blackBrother_inner (flag : Bool) {nephew : Addr} {nephewInfo : RbNodeData Value}
    {inside outside : BinTree (RbNodeData Value)}
    (sibling : parent.sibling = .mk parent.side brother brotherInfo
      (.mk parent.side nephew nephewInfo inside outside) far)
    (brotherBlack : brotherInfo.memberColor = .black)
    (focus : Focus tree (parent :: frames) shape)
    (nephewRed : nephewInfo.memberColor = .red) (farBlack : treeColor far = .black) :
    ∃ next, deleteAdjustBlackBrother parent.side tree shape.root parent.address flag
        (some brother) = some ⟨next, shape.root, some parent.address, flag, false⟩ ∧
      Focus next (⟨parent.side, parent.address, parent.info,
          .mk parent.side nephew (nephewInfo.withColor .black) inside
            (.mk parent.side brother (brotherInfo.withColor .red) outside far)⟩ :: frames)
        shape := by
  have whole := focus.up
  rw [Frame.plug, sibling] at whole
  have brotherFocus := whole.far_frame
  have brotherColor := blackGet_root brotherFocus
  have nearColor := blackGet_root brotherFocus.near_frame
  have nearRed := redGet_root brotherFocus.near_frame
  have farColor := blackGet_root brotherFocus.far_frame
  simp only [BinTree.root_mk, treeColor_mk, brotherBlack, nephewRed, farBlack]
    at brotherColor nearColor nearRed farColor
  rcases setColor_spec .black brotherFocus.near_frame with ⟨one, nephewBlack, oneFocus⟩
  rcases setColor_spec .red oneFocus.up with ⟨two, brotherRed, twoFocus⟩
  have turnFocus : Focus two (⟨parent.side.other, parent.address, parent.info, shape⟩ :: frames)
      (.mk parent.side.other brother (brotherInfo.withColor .red) far
        (.mk parent.side.other nephew (nephewInfo.withColor .black) outside inside)) := by
    simpa only [BinTree.mk_other] using twoFocus
  rcases revolve_spec turnFocus with ⟨three, turned, threeFocus⟩
  refine ⟨three, ?_, ?_⟩
  · simp [deleteAdjustBlackBrother, brotherColor, brotherFocus.read, nearColor, nearRed, farColor,
      nephewBlack, brotherRed, turned]
  · apply Focus.up_iff.mpr
    simpa only [Frame.plug, BinTree.mk_other] using threeFocus.up

/-- The body of the loop next to a black brother. -/
theorem deleteAdjustStep_black (flag : Bool)
    (sibling : parent.sibling = .mk parent.side brother brotherInfo near far)
    (brotherBlack : brotherInfo.memberColor = .black)
    (focus : Focus tree (parent :: frames) shape) :
    deleteAdjustStep parent.side tree shape.root parent.address flag =
      deleteAdjustBlackBrother parent.side tree shape.root parent.address flag
        (some brother) := by
  have whole := focus.up
  rw [Frame.plug, sibling] at whole
  have brotherColor := redGet_root whole.far_frame
  simp only [BinTree.root_mk, treeColor_mk, brotherBlack] at brotherColor
  simp [deleteAdjustStep, whole.read, brotherColor]

section Settle

variable {count : Nat}

/-- A red far nephew settles the repair. -/
theorem settle_outer (fuel : Nat) (flag : Bool)
    (sibling : parent.sibling = .mk parent.side brother brotherInfo near far)
    (brotherBlack : brotherInfo.memberColor = .black)
    (focus : Focus tree (parent :: frames) shape) (balanced : Balanced shape count)
    (context : ContextBalanced (parent :: frames) (count + 1))
    (farRed : treeColor far = .red) :
    ∃ next current, (deleteAdjustBlackBrother parent.side tree shape.root parent.address flag
        (some brother)).bind (resume (fuel + 1)) = some (next, current) ∧
      Settled next current (plug (parent :: frames) shape) := by
  rcases blackBrother_outer sibling brotherBlack flag focus farRed with
    ⟨next, root, body, rootEq, nextFocus⟩
  have lowered : ∀ below, Balanced parent.sibling (below + 1) → Balanced shape below →
      Balanced (.mk parent.side parent.address (parent.info.withColor .black) shape near)
        (below + 1) ∧ Balanced (blacken far) (below + 1) := by
    intro below siblingBalanced shapeBalanced
    rw [sibling, balanced_mk_black_succ brotherBlack] at siblingBalanced
    constructor
    · exact (balanced_mk_black_succ rfl).mpr ⟨shapeBalanced, siblingBalanced.1⟩
    · exact siblingBalanced.2.blacken_red farRed
  have colored : WellColored (plug frames (.mk parent.side brother
      (brotherInfo.withColor parent.info.memberColor)
      (.mk parent.side parent.address (parent.info.withColor .black) shape near)
      (blacken far))) := by
    rcases color_cases parent.info.memberColor with red | black
    · rw [contextBalanced_red red] at context
      rcases context with ⟨_, siblingBalanced, holeBlack, above⟩
      have top : (brotherInfo.withColor parent.info.memberColor).memberColor = .red := red
      apply above.plug ((balanced_mk_red top).mpr
        ⟨treeColor_mk, treeColor_blacken, lowered count siblingBalanced balanced⟩)
      intro holeRed
      simp [holeBlack] at holeRed
    · rw [contextBalanced_black black] at context
      rcases context with ⟨siblingBalanced, above⟩
      have top : (brotherInfo.withColor parent.info.memberColor).memberColor = .black := black
      apply above.plug ((balanced_mk_black_succ top).mpr
        (lowered count siblingBalanced balanced))
      intro _
      rw [treeColor_mk, top]
  have represents := nextFocus.represents
  rcases deleteAdjustLoop_root fuel none flag represents colored.blacken with ⟨loop, settled⟩
  rw [represents.root_eq_iff.mpr rfl, rootEq] at loop settled
  refine ⟨next, some root, by simp [body, resume, loop], ?_⟩
  apply settled.of_entries
  simp only [plug, Frame.plug, sibling]
  apply entries_plug_congr
  refine Eq.trans ?_ (entries_rotate ..)
  exact entries_mk_congr rfl (entries_mk_congr rfl rfl rfl) entries_blacken

/-- A black brother of a black node: every case leads to a settled tree, given
that the loop settles every shorter path. -/
theorem settle_black (fuel : Nat) {flag : Bool}
    (sibling : parent.sibling = .mk parent.side brother brotherInfo near far)
    (brotherBlack : brotherInfo.memberColor = .black)
    (focus : Focus tree (parent :: frames) shape) (balanced : Balanced shape count)
    (black : treeColor shape = .black)
    (side : shape = .nil → flag = decide (parent.side = .left))
    (context : ContextBalanced (parent :: frames) (count + 1))
    (above : parent.info.memberColor = .black → ∀ next raised,
      Focus next frames raised → raised ≠ .nil → Balanced raised (count + 1) →
      ContextBalanced frames (count + 2) →
      ∃ final current, deleteAdjustLoop (fuel + 2) next raised.root (parentOf frames)
          (holeIsLeft frames) = some (final, current) ∧
        Settled final current (plug frames raised)) :
    ∃ next current, (deleteAdjustBlackBrother parent.side tree shape.root parent.address flag
        (some brother)).bind (resume (fuel + 2)) = some (next, current) ∧
      Settled next current (plug (parent :: frames) shape) := by
  have nephews := context.sibling
  rw [sibling, balanced_mk_black_succ brotherBlack] at nephews
  rcases color_cases (treeColor far) with farRed | farBlack
  · exact settle_outer (fuel + 1) flag sibling brotherBlack focus balanced context farRed
  rcases color_cases (treeColor near) with nearRed | nearBlack
  · -- After the rotation at the brother the far nephew is red.
    have nonempty : near ≠ .nil := by
      intro equal
      simp [equal] at nearRed
    rcases BinTree.exists_mk_of_ne_nil parent.side nonempty with
      ⟨nephew, nephewInfo, inside, outside, equal⟩
    subst equal
    rw [treeColor_mk] at nearRed
    rcases blackBrother_inner flag sibling brotherBlack focus nearRed farBlack with
      ⟨one, body, oneFocus⟩
    rcases (balanced_mk_red nearRed).mp nephews.1 with
      ⟨insideBlack, outsideBlack, insideBalanced, outsideBalanced⟩
    have newSibling : Balanced (.mk parent.side nephew (nephewInfo.withColor .black) inside
        (.mk parent.side brother (brotherInfo.withColor .red) outside far)) (count + 1) :=
      (balanced_mk_black_succ rfl).mpr ⟨insideBalanced,
        (balanced_mk_red rfl).mpr ⟨outsideBlack, farBlack, outsideBalanced, nephews.2⟩⟩
    have newContext : ContextBalanced (⟨parent.side, parent.address, parent.info,
        .mk parent.side nephew (nephewInfo.withColor .black) inside
          (.mk parent.side brother (brotherInfo.withColor .red) outside far)⟩ :: frames)
        (count + 1) :=
      context.replaceSibling treeColor_mk newSibling
    have step := deleteAdjustLoop_step (fuel + 1) oneFocus black side
    have body2 := deleteAdjustStep_black flag rfl rfl oneFocus
    rcases settle_outer fuel flag rfl rfl oneFocus balanced newContext treeColor_mk with
      ⟨next, current, rest, settled⟩
    refine ⟨next, current, ?_, settled.of_entries ?_⟩
    · simp only [body, Option.bind_some, resume]
      simp [step, body2, rest]
    · simp only [plug, Frame.plug, sibling]
      apply entries_plug_congr
      apply entries_mk_congr rfl rfl
      have turned : entries (.mk parent.side.other nephew nephewInfo
          (.mk parent.side.other brother brotherInfo far outside) inside) = _ :=
        entries_rotate ..
      simp only [BinTree.mk_other] at turned
      refine Eq.trans ?_ turned
      exact entries_mk_congr rfl rfl (entries_mk_congr rfl rfl rfl)
  · rcases blackBrother_recolor sibling brotherBlack flag focus nearBlack farBlack with
      ⟨one, body, oneFocus⟩
    have lowered : Balanced (.mk parent.side brother (brotherInfo.withColor .red) near far)
        count :=
      (balanced_mk_red rfl).mpr ⟨nearBlack, farBlack, nephews⟩
    have raised : Balanced (.mk parent.side parent.address (parent.info.withColor .black) shape
        (.mk parent.side brother (brotherInfo.withColor .red) near far)) (count + 1) :=
      (balanced_mk_black_succ rfl).mpr ⟨balanced, lowered⟩
    have same : entries (plug frames (.mk parent.side parent.address
        (parent.info.withColor .black) shape
        (.mk parent.side brother (brotherInfo.withColor .red) near far))) =
        entries (plug (parent :: frames) shape) := by
      simp only [plug, Frame.plug, sibling]
      apply entries_plug_congr
      exact entries_mk_congr rfl rfl (entries_mk_congr rfl rfl rfl)
    rcases color_cases parent.info.memberColor with red | parentBlack
    · rcases (contextBalanced_red red).mp context with ⟨_, _, holeBlack, rest⟩
      refine ⟨one, some parent.address, by simp [body, resume, red], ?_⟩
      refine ⟨frames, _, oneFocus, (BinTree.root_mk ..).symm, ?_, same⟩
      simpa using (rest.plug raised (fun _ => treeColor_mk)).blacken
    · rcases above parentBlack one _ oneFocus (by simp) raised
        ((contextBalanced_black parentBlack).mp context).2 with ⟨final, current, loop, settled⟩
      refine ⟨final, current, ?_, settled.of_entries same⟩
      simpa [body, resume, parentBlack] using loop

/-- A red brother is turned above the parent, which leaves a black brother. -/
theorem deleteAdjustStep_red (flag : Bool)
    (sibling : parent.sibling = .mk parent.side brother brotherInfo near far)
    (brotherRed : brotherInfo.memberColor = .red)
    (focus : Focus tree (parent :: frames) shape) :
    ∃ next, deleteAdjustStep parent.side tree shape.root parent.address flag =
        deleteAdjustBlackBrother parent.side next shape.root parent.address flag near.root ∧
      Focus next (⟨parent.side, parent.address, parent.info.withColor .red, near⟩ ::
        ⟨parent.side, brother, brotherInfo.withColor .black, far⟩ :: frames) shape := by
  have whole := focus.up
  rw [Frame.plug, sibling] at whole
  have brotherColor := redGet_root whole.far_frame
  simp only [BinTree.root_mk, treeColor_mk, brotherRed] at brotherColor
  rcases setColor_spec .black whole.far_frame with ⟨one, brotherBlack, oneFocus⟩
  have oneWhole : Focus one frames (.mk parent.side parent.address parent.info shape
      (.mk parent.side brother (brotherInfo.withColor .black) near far)) := by
    simpa only [Frame.plug, BinTree.mk_other] using oneFocus.up
  rcases setColor_spec .red oneWhole with ⟨two, parentRed, twoFocus⟩
  rcases revolve_spec twoFocus with ⟨three, turned, threeFocus⟩
  have lowered := threeFocus.near_frame
  refine ⟨three, ?_, lowered.near_frame⟩
  simp [deleteAdjustStep, whole.read, brotherColor, brotherBlack, parentRed, turned, lowered.read]

/-- The loop of `DeleteAdjust` settles a subtree that is one black node short. -/
theorem deleteAdjustLoop_spec (fuel : Nat) {flag : Bool} (focus : Focus tree frames shape)
    (balanced : Balanced shape count) (context : ContextBalanced frames (count + 1))
    (side : shape = .nil → flag = holeIsLeft frames) (enough : frames.length + 3 ≤ fuel) :
    ∃ next current, deleteAdjustLoop fuel tree shape.root (parentOf frames) flag =
        some (next, current) ∧
      Settled next current (plug frames shape) := by
  induction frames generalizing fuel tree shape count flag with
  | nil =>
      obtain ⟨fuel, rfl⟩ := Nat.exists_eq_add_of_le' enough
      rcases deleteAdjustLoop_root (fuel + 2) none flag focus balanced.blacken with
        ⟨loop, settled⟩
      exact ⟨tree, shape.root, loop, settled⟩
  | cons parent frames ih =>
      obtain ⟨fuel, rfl⟩ : ∃ rest, fuel = rest + 3 := ⟨fuel - 3, by omega⟩
      simp only [List.length_cons] at enough
      rcases color_cases (treeColor shape) with red | black
      · rcases deleteAdjustLoop_red (fuel + 2) (some parent.address) flag focus red balanced
          context with ⟨loop, settled⟩
        exact ⟨tree, shape.root, loop, settled⟩
      have step := deleteAdjustLoop_step (fuel + 2) focus black side
      -- The brother cannot be missing: its paths carry a black node.
      have nonempty : parent.sibling ≠ .nil := by
        intro equal
        have siblingBalanced := context.sibling
        simp [equal] at siblingBalanced
      rcases BinTree.exists_mk_of_ne_nil parent.side nonempty with
        ⟨brother, brotherInfo, near, far, sibling⟩
      rw [parentOf_cons, step]
      rcases color_cases brotherInfo.memberColor with brotherRed | brotherBlack
      · have siblingBalanced := context.sibling
        rw [sibling, balanced_mk_red brotherRed] at siblingBalanced
        rcases siblingBalanced with ⟨nearBlack, farBlack, nearBalanced, farBalanced⟩
        have parentBlack : parent.info.memberColor = .black := by
          rcases color_cases parent.info.memberColor with red | black
          · have siblingBlack := ((contextBalanced_red red).mp context).1
            rw [sibling, treeColor_mk, brotherRed] at siblingBlack
            cases siblingBlack
          · exact black
        have above := ((contextBalanced_black parentBlack).mp context).2
        rcases deleteAdjustStep_red flag sibling brotherRed focus with ⟨one, body, oneFocus⟩
        have nearNonempty : near ≠ .nil := by
          intro equal
          simp [equal] at nearBalanced
        rcases BinTree.exists_mk_of_ne_nil parent.side nearNonempty with
          ⟨nephew, nephewInfo, inside, outside, equal⟩
        subst equal
        rw [treeColor_mk] at nearBlack
        have newContext : ContextBalanced (⟨parent.side, parent.address,
            parent.info.withColor .red, .mk parent.side nephew nephewInfo inside outside⟩ ::
            ⟨parent.side, brother, brotherInfo.withColor .black, far⟩ :: frames) (count + 1) :=
          (contextBalanced_red rfl).mpr ⟨treeColor_mk.trans nearBlack, nearBalanced, rfl,
            (contextBalanced_black rfl).mpr ⟨farBalanced, above⟩⟩
        rcases settle_black fuel rfl nearBlack oneFocus balanced black side newContext
          (by simp) with ⟨next, current, loop, settled⟩
        refine ⟨next, current, ?_, settled.of_entries ?_⟩
        · rw [BinTree.root_mk] at body
          rw [body, loop]
        · simp only [plug, Frame.plug, sibling]
          apply entries_plug_congr
          refine Eq.trans (entries_rotate ..) ?_
          exact entries_mk_congr rfl rfl (entries_mk_congr rfl rfl rfl)
      · rw [deleteAdjustStep_black flag sibling brotherBlack focus]
        apply settle_black fuel sibling brotherBlack focus balanced black side context
        intro _ next raised nextFocus nonempty raisedBalanced above
        apply ih (fuel + 2) nextFocus raisedBalanced above
        · exact fun equal => absurd equal nonempty
        · omega

/-- `DeleteAdjust` makes up for a subtree that is one black node short. -/
theorem deleteAdjust_spec {flag : Bool} (focus : Focus tree frames shape)
    (balanced : Balanced shape count) (context : ContextBalanced frames (count + 1))
    (side : shape = .nil → flag = holeIsLeft frames) :
    ∃ next, deleteAdjust tree shape.root (parentOf frames) flag = some next ∧
      Repaired next (plug frames shape) := by
  have length := focus.length_le
  have depth := Focus.frames_length_le frames
  rcases deleteAdjustLoop_spec (tree.bound + 2) focus balanced context side
    (by unfold Store.bound; omega) with ⟨one, current, loop, settled⟩
  rcases settled with ⟨rest, final, oneFocus, root, colored, same⟩
  rcases paintBlack_spec oneFocus with ⟨two, painted, twoFocus⟩
  refine ⟨two, by simp [deleteAdjust, loop, root, painted], _, twoFocus.represents, colored, ?_⟩
  exact (entries_plug_congr entries_blacken).trans same

end Settle

end Wan.Container.RedBlackTree
