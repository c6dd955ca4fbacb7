import Wan.Container.BalanceTree.Rotate

/-!
# The walk to the root

`RebalanceFrom` renews the caches of every node from the changed place up to the
root and rotates wherever the heights of two siblings have come to differ by two.
A change of a subtree's height by one changes the height above it by at most one.
-/

namespace Wan.Container.BalanceTree

open Wan.Library.LinkedTree

variable {Key Value : Type} {tree : BalanceTree Key Value}
variable {frames : List (Frame (AvlNodeData Key Value))}
variable {side heavy : Side} {node : Addr} {data : AvlNodeData Key Value}
variable {near far left right child light shape : BinTree (AvlNodeData Key Value)}

theorem leansAway_measured :
    leansAway side (measured side data near far).memberBalanceFactor =
      decide (heightOf near < heightOf far) := by
  cases side with
  | left => simp [leansAway, measured, AvlNodeData.withHeights]
  | right =>
      simp only [leansAway, measured, AvlNodeData.withHeights]
      apply decide_eq_decide.mpr
      omega

/-- What a rotated or untouched subtree looks like. -/
structure Restored (tree : BalanceTree Key Value)
    (frames : List (Frame (AvlNodeData Key Value))) (top : Addr)
    (original shape : BinTree (AvlNodeData Key Value)) : Prop where
  focus : Focus tree frames shape
  root : shape.root = some top
  avl : Avl shape
  entries : entries shape = entries original

/-- The rotations at a node whose subtree on one side is two levels higher. -/
theorem rotateHeavy_spec (focus : Focus tree frames (.mk heavy node data child light))
    (childAvl : Avl child) (lightAvl : Avl light) (tall : heightOf child = heightOf light + 2) :
    ∃ next top shape, rotateHeavy heavy tree node = some (next, top) ∧
      Restored next frames top (.mk heavy node data child light) shape ∧
      heightOf light + 2 ≤ heightOf shape ∧ heightOf shape ≤ heightOf light + 3 := by
  have lightHeight := heightOf_nonneg light
  have nonempty : child ≠ .nil := by
    intro equal
    simp only [equal, heightOf_nil] at tall
    omega
  rcases BinTree.exists_mk_of_ne_nil heavy nonempty with ⟨pivot, pivotData, outside, inside, equal⟩
  subst equal
  rcases avl_mk.mp childAvl with ⟨cached, lower, upper, outsideAvl, insideAvl⟩
  rw [heightOf_mk] at tall
  have childRead := focus.near_frame.read
  have leans : leansAway heavy pivotData.memberBalanceFactor =
      decide (heightOf outside < heightOf inside) := by
    rw [cached]
    exact leansAway_measured
  by_cases away : heightOf outside < heightOf inside
  · -- The inner grandchild becomes the root.
    have insideNonempty : inside ≠ .nil := by
      intro equal
      simp only [equal, heightOf_nil] at away
      have := heightOf_nonneg outside
      omega
    rcases BinTree.exists_mk_of_ne_nil heavy insideNonempty with
      ⟨middle, middleData, towards, beyond, equal⟩
    subst equal
    rcases avl_mk.mp insideAvl with ⟨_, middleLower, middleUpper, towardsAvl, beyondAvl⟩
    rw [heightOf_mk] at away tall lower upper
    rcases rotate_spec focus.near_frame outsideAvl towardsAvl beyondAvl (by omega) (by omega) with
      ⟨one, turned, oneFocus⟩
    have newPivot : Avl (.mk heavy pivot (measured heavy pivotData outside towards) outside
        towards) :=
      avl_mk.mpr ⟨measured_measured.symm, by omega, by omega, outsideAvl, towardsAvl⟩
    have oneWhole := oneFocus.up
    simp only [Frame.plug] at oneWhole
    rw [← BinTree.mk_other heavy node, ← BinTree.mk_other heavy middle] at oneWhole
    rcases rotate_spec oneWhole lightAvl beyondAvl newPivot (by omega) (by omega) with
      ⟨two, turnedBack, twoFocus⟩
    refine ⟨two, middle, _, ?_, ⟨twoFocus, BinTree.root_mk .., ?_, ?_⟩, ?_⟩
    · rw [heightOf_mk] at leans
      simp [rotateHeavy, focus.read, childRead, leans, away, turned, turnedBack]
    · have newNode : Avl (.mk heavy.other node (measured heavy.other data light beyond) light
          beyond) :=
        avl_mk.mpr ⟨measured_measured.symm, by omega, by omega, lightAvl, beyondAvl⟩
      apply avl_mk.mpr
      simp only [heightOf_mk, measured_measured, true_and]
      exact ⟨by omega, by omega, newNode, newPivot⟩
    · cases heavy <;> simp [BinTree.mk]
    · simp only [heightOf_mk]
      omega
  · rw [← BinTree.mk_other, ← BinTree.mk_other heavy pivot] at focus
    rcases rotate_spec focus lightAvl insideAvl outsideAvl (by omega) (by omega) with
      ⟨one, turned, oneFocus⟩
    refine ⟨one, pivot, _, ?_, ⟨oneFocus, BinTree.root_mk .., ?_, ?_⟩, ?_⟩
    · rw [BinTree.mk_other, BinTree.mk_other heavy pivot] at focus
      simp [rotateHeavy, focus.read, childRead, leans, away, turned]
    · have newNode : Avl (.mk heavy.other node (measured heavy.other data light inside) light
          inside) :=
        avl_mk.mpr ⟨measured_measured.symm, by omega, by omega, lightAvl, insideAvl⟩
      apply avl_mk.mpr
      simp only [heightOf_mk, measured_measured, true_and]
      exact ⟨by omega, by omega, newNode, outsideAvl⟩
    · cases heavy <;> simp [BinTree.mk]
    · simp only [heightOf_mk]
      omega

/-- How much the height of a subtree may have changed at a node whose children
have the given heights. -/
structure Settled (first second height : Int) : Prop where
  lower : max first second ≤ height
  upper : height ≤ max first second + 1
  unchanged : -1 ≤ second - first → second - first ≤ 1 → height = max first second + 1

theorem Settled.symm {first second height : Int} (settled : Settled first second height) :
    Settled second first height := by
  rcases settled with ⟨lower, upper, unchanged⟩
  constructor
  · omega
  · omega
  · intro below above
    have same := unchanged (by omega) (by omega)
    omega

/-- The body of the loop makes a node whose subtrees differ by at most two levels
obey the rules. -/
theorem rebalanceStep_left (focus : Focus tree frames (.mk .left node data left right))
    (leftAvl : Avl left) (rightAvl : Avl right) (lower : -2 ≤ heightOf right - heightOf left)
    (upper : heightOf right - heightOf left ≤ 2) :
    ∃ next top shape, rebalanceStep tree node = some (next, top) ∧
      Restored next frames top (.mk .left node data left right) shape ∧
      Settled (heightOf left) (heightOf right) (heightOf shape) := by
  rcases updateHeightAndBalance_spec focus leftAvl rightAvl with ⟨one, updated, oneFocus⟩
  have factor : (measured .left data left right).memberBalanceFactor =
      heightOf right - heightOf left := rfl
  have same : entries (.mk .left node (measured .left data left right) left right) =
      entries (.mk .left node data left right) := entries_mk_congr rfl rfl rfl
  by_cases leftHeavy : heightOf right - heightOf left < -1
  · rcases rotateHeavy_spec oneFocus leftAvl rightAvl (by omega) with
      ⟨next, top, shape, rotated, restored, low, high⟩
    refine ⟨next, top, shape, ?_, { restored with entries := restored.entries.trans same }, ?_⟩
    · simp [rebalanceStep, updated, oneFocus.read, factor, leftHeavy, rotated]
    · constructor <;> omega
  by_cases rightHeavy : heightOf right - heightOf left > 1
  · have turned : Focus one frames
        (.mk .right node (measured .left data left right) right left) := oneFocus
    rcases rotateHeavy_spec turned rightAvl leftAvl (by omega) with
      ⟨next, top, shape, rotated, restored, low, high⟩
    refine ⟨next, top, shape, ?_, { restored with entries := restored.entries.trans same }, ?_⟩
    · simp [rebalanceStep, updated, oneFocus.read, factor, leftHeavy, rightHeavy, rotated]
    · constructor <;> omega
  · refine ⟨one, node, _, ?_, ⟨oneFocus, BinTree.root_mk .., ?_, same⟩, ?_⟩
    · simp [rebalanceStep, updated, oneFocus.read, factor, leftHeavy, rightHeavy]
    · exact avl_mk.mpr ⟨measured_measured.symm, by omega, by omega, leftAvl, rightAvl⟩
    · rw [heightOf_mk]
      constructor <;> omega

theorem rebalanceStep_spec (focus : Focus tree frames (.mk side node data near far))
    (nearAvl : Avl near) (farAvl : Avl far) (lower : -2 ≤ heightOf far - heightOf near)
    (upper : heightOf far - heightOf near ≤ 2) :
    ∃ next top shape, rebalanceStep tree node = some (next, top) ∧
      Restored next frames top (.mk side node data near far) shape ∧
      Settled (heightOf near) (heightOf far) (heightOf shape) := by
  cases side with
  | left => exact rebalanceStep_left focus nearAvl farAvl lower upper
  | right =>
      have turned : Focus tree frames (.mk .left node data far near) := focus
      rcases rebalanceStep_left turned farAvl nearAvl (by omega) (by omega) with
        ⟨next, top, shape, step, restored, settled⟩
      exact ⟨next, top, shape, step, restored, settled.symm⟩

/-- The loop passes the node above the focus. -/
theorem rebalanceLoop_step {top : Addr} {next : BalanceTree Key Value} (fuel : Nat)
    {original : BinTree (AvlNodeData Key Value)}
    (step : rebalanceStep tree node = some (next, top))
    (restored : Restored next frames top original shape) :
    rebalanceLoop (fuel + 1) tree (some node) = rebalanceLoop fuel next (parentOf frames) := by
  rcases restored.focus.root_cell restored.root with ⟨cell, found, parent⟩
  simp [rebalanceLoop, step, Store.read_eq found, parent]

/-- A subtree whose height has changed by at most one is built back into a tree
that obeys the rules. -/
theorem rebalanceLoop_spec (fuel : Nat) {old : Int} (focus : Focus tree frames shape)
    (avl : Avl shape) (context : ContextAvl frames old) (lower : -1 ≤ heightOf shape - old)
    (upper : heightOf shape - old ≤ 1) (enough : frames.length < fuel) :
    ∃ next final, rebalanceLoop fuel tree (parentOf frames) = some next ∧
      Represents next final ∧ Avl final ∧ entries final = entries (plug frames shape) := by
  induction frames generalizing fuel tree shape old with
  | nil =>
      rcases Nat.exists_eq_succ_of_ne_zero (Nat.ne_zero_of_lt enough) with ⟨fuel, rfl⟩
      exact ⟨tree, shape, rfl, focus, avl, rfl⟩
  | cons frame frames ih =>
      rcases Nat.exists_eq_succ_of_ne_zero (Nat.ne_zero_of_lt enough) with ⟨fuel, rfl⟩
      rcases context with ⟨siblingAvl, below, above, rest⟩
      rcases rebalanceStep_spec focus.up avl siblingAvl (by omega) (by omega) with
        ⟨one, top, raised, step, restored, settled⟩
      rcases settled with ⟨low, high, unchanged⟩
      have close : -1 ≤ heightOf raised - (max old (heightOf frame.sibling) + 1) ∧
          heightOf raised - (max old (heightOf frame.sibling) + 1) ≤ 1 := by
        omega
      rcases ih fuel restored.focus restored.avl rest close.1 close.2 (by simpa using enough) with
        ⟨next, final, loop, represents, finalAvl, same⟩
      refine ⟨next, final, ?_, represents, finalAvl, ?_⟩
      · rw [parentOf_cons, Nat.succ_eq_add_one, rebalanceLoop_step fuel step restored, loop]
      · rw [same]
        exact entries_plug_congr restored.entries

/-- `RebalanceFrom` at the node above a subtree whose height has changed by at
most one. -/
theorem rebalanceFrom_spec {old : Int} (focus : Focus tree frames shape)
    (avl : Avl shape) (context : ContextAvl frames old) (lower : -1 ≤ heightOf shape - old)
    (upper : heightOf shape - old ≤ 1) :
    ∃ next final, rebalanceFrom tree (parentOf frames) = some next ∧
      Represents next final ∧ Avl final ∧ entries final = entries (plug frames shape) := by
  have length := focus.length_le
  have depth := Focus.frames_length_le frames
  exact rebalanceLoop_spec _ focus avl context lower upper (by unfold Store.bound; omega)

/-- `RebalanceFrom` at the root of a tree that obeys the rules. -/
theorem rebalanceFrom_root (represents : Represents tree shape) (avl : Avl shape) :
    ∃ next final, rebalanceFrom tree shape.root = some next ∧
      Represents next final ∧ Avl final ∧ entries final = entries shape := by
  cases shape with
  | nil => exact ⟨tree, .nil, rfl, represents, trivial, rfl⟩
  | node node data left right =>
      have whole : Focus tree [] (.mk .left node data left right) := represents
      rcases avl with ⟨_, lower, upper, leftAvl, rightAvl⟩
      exact rebalanceFrom_spec whole.near_frame leftAvl ⟨rightAvl, lower, upper, trivial⟩
        (by omega) (by omega)

end Wan.Container.BalanceTree
