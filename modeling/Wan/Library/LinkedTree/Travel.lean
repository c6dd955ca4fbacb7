import Wan.Library.LinkedTree.Focus

/-!
# The order of the nodes in a direction

`BinTree.travel side` lists the nodes in the order in which a walk towards `side` meets them, and
`ahead side` lists what such a walk still meets once it has left a hole.
-/

namespace Wan.Library.LinkedTree

variable {α : Type}

/-- The nodes of a tree in the order of a walk towards one side. -/
def BinTree.travel : Side → BinTree α → List (Addr × α)
  | .right, tree => tree.inorder
  | .left, tree => tree.inorder.reverse

/-- The addresses of the nodes in the order of a walk towards one side. -/
def BinTree.order (side : Side) (tree : BinTree α) : List Addr := (tree.travel side).map Prod.fst

/-- The nodes that a walk towards one side meets behind a hole. -/
def ahead : Side → List (Frame α) → List (Addr × α)
  | .right, frames => after frames
  | .left, frames => (before frames).reverse

variable (side : Side)

namespace BinTree

theorem travel_other (tree : BinTree α) : tree.travel side.other = (tree.travel side).reverse := by
  cases side with
  | left => exact (List.reverse_reverse _).symm
  | right => rfl

theorem order_other (tree : BinTree α) : tree.order side.other = (tree.order side).reverse := by
  rw [order, travel_other, List.map_reverse]
  rfl

theorem travel_mk (address : Addr) (info : α) (near far : BinTree α) :
    (mk side address info near far).travel side =
      far.travel side ++ (address, info) :: near.travel side := by
  cases side with
  | left => simp [travel, mk, inorder]
  | right => rfl

@[simp] theorem travel_nil : (nil : BinTree α).travel side = [] := by
  cases side <;> rfl

end BinTree

@[simp] theorem ahead_nil : ahead side ([] : List (Frame α)) = [] := by
  cases side <;> rfl

/-- A frame whose hole is on the side of the walk lies behind it. -/
theorem ahead_same {frame : Frame α} {frames : List (Frame α)} (same : frame.side = side) :
    ahead side (frame :: frames) = ahead side frames := by
  cases side <;> simp [ahead, after, before, same]

/-- A frame whose hole is on the other side is met next. -/
theorem ahead_opposite {frame : Frame α} {frames : List (Frame α)}
    (opposite : frame.side = side.other) :
    ahead side (frame :: frames) =
      (frame.address, frame.info) :: (frame.sibling.travel side ++ ahead side frames) := by
  cases side with
  | left => simp [ahead, before, BinTree.travel, show frame.side = .right from opposite]
  | right => simp [ahead, after, BinTree.travel, show frame.side = .left from opposite]

theorem ahead_of_sides {inner : List (Frame α)} (sides : ∀ frame ∈ inner, frame.side = side) :
    ahead side inner = [] := by
  induction inner with
  | nil => exact ahead_nil side
  | cons frame inner ih =>
      simp only [List.mem_cons, forall_eq_or_imp] at sides
      rw [ahead_same side sides.1, ih sides.2]

theorem travel_plug (frames : List (Frame α)) (tree : BinTree α) :
    (plug frames tree).travel side =
      (ahead side.other frames).reverse ++ tree.travel side ++ ahead side frames := by
  cases side with
  | left => simp [BinTree.travel, ahead, inorder_plug]
  | right => simp [BinTree.travel, ahead, inorder_plug]

/-- The first node above a run of links from one side is the next one towards that side. -/
theorem parentOf_dropWhile (frames : List (Frame α)) :
    parentOf (frames.dropWhile (·.side = side)) = (ahead side frames).head?.map Prod.fst := by
  induction frames with
  | nil => simp
  | cons frame frames ih =>
      rcases Side.eq_or_eq_other frame.side side with same | opposite
      · rw [List.dropWhile_cons_of_pos (by simpa using same), ahead_same side same, ih]
      · have stop : ¬ frame.side = side := by
          rw [opposite]
          exact Side.other_ne side
        rw [List.dropWhile_cons_of_neg (by simpa using stop), ahead_opposite side opposite]
        rfl

/-- Every node of a tree can be focused. -/
theorem Focus.exists_of_inorder (tree : BinTree α) {address : Addr} {info : α}
    {earlier later : List (Addr × α)}
    (order : tree.inorder = earlier ++ (address, info) :: later) :
    ∃ frames left right, plug frames (.mk .left address info left right) = tree ∧
      earlier = before frames ++ left.inorder ∧ later = right.inorder ++ after frames := by
  induction tree generalizing earlier later with
  | nil => simp at order
  | node top topInfo left right leftIH rightIH =>
      rw [BinTree.inorder, List.append_eq_append_iff] at order
      rcases order with ⟨middle, rfl, rest⟩ | ⟨middle, leftOrder, rest⟩
      · cases middle with
        | nil =>
            simp only [List.nil_append, List.cons.injEq, Prod.mk.injEq] at rest
            obtain ⟨⟨rfl, rfl⟩, rfl⟩ := rest
            exact ⟨[], left, right, rfl, by simp [before], by simp [after]⟩
        | cons first middle =>
            simp only [List.cons_append, List.cons.injEq] at rest
            obtain ⟨rfl, rest⟩ := rest
            obtain ⟨inner, l, r, shape, early, late⟩ := rightIH rest
            refine ⟨inner ++ [⟨.right, top, topInfo, left⟩], l, r, ?_, ?_, ?_⟩
            · rw [plug_append, shape]; rfl
            · rw [before_append, early]; simp [before]
            · rw [after_append, late]; simp [after]
      · cases middle with
        | nil =>
            simp only [List.nil_append, List.cons.injEq, Prod.mk.injEq] at rest
            obtain ⟨⟨rfl, rfl⟩, rfl⟩ := rest
            exact ⟨[], left, right, rfl, by simp [before, leftOrder], by simp [after]⟩
        | cons first middle =>
            simp only [List.cons_append, List.cons.injEq] at rest
            obtain ⟨rfl, rfl⟩ := rest
            obtain ⟨inner, l, r, shape, early, late⟩ := leftIH leftOrder
            refine ⟨inner ++ [⟨.left, top, topInfo, right⟩], l, r, ?_, ?_, ?_⟩
            · rw [plug_append, shape]; rfl
            · rw [before_append, early]; simp [before]
            · rw [after_append, late]; simp [after]

/-- The nodes that a walk meets after a node. -/
theorem Focus.exists_of_travel (tree : BinTree α) {address : Addr} {info : α}
    {earlier later : List (Addr × α)}
    (order : tree.travel side = earlier ++ (address, info) :: later) :
    ∃ frames near far, plug frames (.mk side address info near far) = tree ∧
      later = near.travel side ++ ahead side frames := by
  cases side with
  | right =>
      rcases exists_of_inorder tree order with ⟨frames, left, right, shape, _, late⟩
      exact ⟨frames, right, left, shape, late⟩
  | left =>
      rw [BinTree.travel, List.reverse_eq_iff] at order
      rcases exists_of_inorder tree (by simpa using order) with
        ⟨frames, left, right, shape, early, _⟩
      refine ⟨frames, left, right, shape, ?_⟩
      simpa [BinTree.travel, ahead] using congrArg List.reverse early

/-- The outermost node on one side is the first of a walk from there. -/
theorem head?_travel {inner : List (Frame α)} {last : Addr} {lastInfo : α} {rest : BinTree α}
    (sides : ∀ frame ∈ inner, frame.side = side) :
    ((plug inner (.mk side last lastInfo .nil rest)).travel side.other).head? =
      some (last, lastInfo) := by
  rw [travel_plug, Side.other_other, ahead_of_sides side sides, ← BinTree.mk_other,
    BinTree.travel_mk]
  simp

end Wan.Library.LinkedTree
