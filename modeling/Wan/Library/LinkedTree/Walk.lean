import Wan.Library.LinkedTree.Travel
import Wan.Library.LinkedTree.Update
import Mathlib.Data.List.Perm.Subperm

/-!
# Walks over linked trees

The loops that follow links without changing them: searching from the root,
running to the end of one side, climbing out of a run of links, stepping to the
neighbour of a node, counting nodes with an explicit stack.  Every loop takes a
bound on its iterations and has no result when the bound is exhausted; the
lemmas show that `Store.bound` always suffices on a represented tree.
-/

namespace Wan.Library.LinkedTree

namespace Store

variable {α : Type}

/-- A bound on the iterations of a walk: no walk visits more cells than were
ever allocated. -/
def bound (store : Store α) : Nat := store.next + 1

/-- Search downwards. `go` decides from a payload whether to stop there or on
which side to continue. The result is the last parent and the link where the
search stopped. -/
def descend (go : α → Option Side) :
    Nat → Store α → Option Addr → Option Addr → Option (Option Addr × Option Addr)
  | 0, _, _, _ => none
  | _ + 1, _, parent, none => some (parent, none)
  | fuel + 1, store, parent, some address => do
      let cell ← store.read address
      match go cell.info with
      | none => some (parent, some address)
      | some side => descend go fuel store (some address) (cell.child side)

/-- Follow the links on one side to the end. -/
def extreme (side : Side) : Nat → Store α → Addr → Option Addr
  | 0, _, _ => none
  | fuel + 1, store, address => do
      match (← store.read address).child side with
      | none => some address
      | some child => extreme side fuel store child

/-- Follow parent links for as long as they come from the given side. -/
def climb (side : Side) : Nat → Store α → Addr → Option (Option Addr)
  | 0, _, _ => none
  | fuel + 1, store, address => do
      match (← store.read address).parent with
      | none => some none
      | some parent =>
          if (← store.read parent).child side = some address then
            climb side fuel store parent
          else
            some (some parent)

/-- Step to the neighbour of a node on one side. -/
def advance (side : Side) (store : Store α) (address : Addr) :
    Option (Option Addr) := do
  match (← store.read address).child side with
  | some child => (extreme side.other store.bound store child).map some
  | none => climb side store.bound store address

/-- The first or last node of the tree. -/
def endpoint (side : Side) (store : Store α) : Option (Option Addr) :=
  match store.root with
  | none => some none
  | some root => (extreme side store.bound store root).map some

/-- Count the nodes that can be reached from a stack of nodes. -/
def countFrom : Nat → Store α → List Addr → Nat → Option Nat
  | 0, _, _, _ => none
  | _ + 1, _, [], count => some count
  | fuel + 1, store, node :: pending, count => do
      let cell ← store.read node
      countFrom fuel store (cell.left.toList ++ (cell.right.toList ++ pending)) (count + 1)

/-- Count the nodes of the tree. -/
def size (store : Store α) : Option Nat :=
  match store.root with
  | none => some 0
  | some root => countFrom store.bound store [root] 0

/-- The payloads met by stepping rightwards from a node to the end. -/
def collect : Nat → Store α → Option Addr → Option (List α)
  | 0, _, _ => none
  | _ + 1, _, none => some []
  | fuel + 1, store, some address => do
      let cell ← store.read address
      let rest ← collect fuel store (← advance .right store address)
      return cell.info :: rest

end Store

namespace Focus

variable {α : Type} {store : Store α} {frame : Frame α}
variable {frames : List (Frame α)} {tree near far : BinTree α}
variable {side : Side} {address : Addr} {info : α}

theorem length_le (focus : Focus store frames tree) :
    tree.addrs.length + (contextAddrs frames).length ≤ store.next := by
  have within : tree.addrs ++ contextAddrs frames ⊆ List.range store.next :=
    fun query member => List.mem_range.mpr (focus.bound query member)
  have length := (List.subperm_of_subset focus.nodup within).length_le
  simpa using length

theorem frames_length_le (frames : List (Frame α)) :
    frames.length ≤ (contextAddrs frames).length := by
  induction frames with
  | nil => exact Nat.le_refl _
  | cons frame frames ih => simp only [contextAddrs, List.length_cons, List.length_append]; omega

theorem addrs_length_mk :
    (BinTree.mk side address info near far).addrs.length =
      near.addrs.length + far.addrs.length + 1 := by
  rw [(BinTree.addrs_mk_perm ..).length_eq]
  simp

theorem near_frame (focus : Focus store frames (.mk side address info near far)) :
    Focus store (⟨side, address, info, far⟩ :: frames) near :=
  up_iff.mpr focus

theorem far_frame (focus : Focus store frames (.mk side address info near far)) :
    Focus store (⟨side.other, address, info, near⟩ :: frames) far :=
  up_iff.mpr (by simpa only [Frame.plug, BinTree.mk_other] using focus)

theorem read (focus : Focus store frames (.mk side address info near far)) :
    store.read address =
      some (.of side info near.root far.root (parentOf frames)) :=
  focus.cell

/-- A search ends at the node it stops at or in the hole it falls into, and has
taken at every node above the side that `go` chose there. -/
theorem descend_spec (go : α → Option Side) (fuel : Nat)
    (focus : Focus store frames tree) (enough : tree.addrs.length < fuel) :
    ∃ inner rest, plug inner rest = tree ∧
      (∀ frame ∈ inner, go frame.info = some frame.side) ∧
      (rest = .nil ∨ ∃ address info left right,
        rest = .mk .left address info left right ∧ go info = none) ∧
      store.descend go fuel (parentOf frames) tree.root =
        some (parentOf (inner ++ frames), rest.root) := by
  induction tree generalizing frames fuel with
  | nil =>
      obtain ⟨fuel, rfl⟩ := Nat.exists_eq_succ_of_ne_zero (Nat.ne_of_gt enough)
      exact ⟨[], .nil, rfl, by simp, Or.inl rfl, rfl⟩
  | node address info left right leftIH rightIH =>
      obtain ⟨fuel, rfl⟩ := Nat.exists_eq_succ_of_ne_zero (Nat.ne_zero_of_lt enough)
      have whole : Focus store frames (.mk .left address info left right) := focus
      simp only [BinTree.addrs, List.length_cons, List.length_append] at enough
      cases choice : go info with
      | none =>
          refine ⟨[], .node address info left right, rfl, by simp,
            Or.inr ⟨address, info, left, right, rfl, choice⟩, ?_⟩
          simp [Store.descend, BinTree.root, whole.read, choice]
      | some side =>
          have step : store.descend go (fuel + 1) (parentOf frames)
                (BinTree.node address info left right).root =
              store.descend go fuel (some address)
                ((Cell.of .left info left.root right.root (parentOf frames)).child side) := by
            simp [Store.descend, BinTree.root, whole.read, choice]
          cases side with
          | left =>
              obtain ⟨inner, rest, shape, sides, stop, result⟩ :=
                leftIH fuel whole.near_frame (by omega)
              refine ⟨inner ++ [⟨.left, address, info, right⟩], rest, ?_, ?_, stop, ?_⟩
              · rw [plug_append, shape]; rfl
              · simpa [or_imp, forall_and, choice] using sides
              · rw [step, List.append_assoc]
                exact result
          | right =>
              obtain ⟨inner, rest, shape, sides, stop, result⟩ :=
                rightIH fuel whole.far_frame (by omega)
              refine ⟨inner ++ [⟨.right, address, info, left⟩], rest, ?_, ?_, stop, ?_⟩
              · rw [plug_append, shape]; rfl
              · simpa [or_imp, forall_and, choice] using sides
              · rw [step, List.append_assoc]
                exact result

/-- Following one side ends at the node that has no child there. -/
theorem extreme_spec (fuel : Nat)
    (focus : Focus store frames (.mk side address info near far))
    (enough : near.addrs.length < fuel) :
    ∃ inner last lastInfo rest,
      .mk side address info near far = plug inner (.mk side last lastInfo .nil rest) ∧
      (∀ frame ∈ inner, frame.side = side) ∧
      store.extreme side fuel address = some last := by
  induction fuel generalizing frames address info near far with
  | zero => simp at enough
  | succ fuel ih =>
      have step := focus.read
      cases nearTree : near with
      | nil =>
          refine ⟨[], address, info, far, rfl, by simp, ?_⟩
          simp [Store.extreme, step, nearTree]
      | node child childInfo left right =>
          obtain ⟨child, childInfo, childNear, childFar, shape⟩ :=
            BinTree.exists_mk_of_ne_nil side (by simp [nearTree] : near ≠ .nil)
          subst shape
          rw [addrs_length_mk] at enough
          obtain ⟨inner, last, lastInfo, rest, shape, sides, result⟩ :=
            ih focus.near_frame (by omega)
          refine ⟨inner ++ [⟨side, address, info, far⟩], last, lastInfo, rest, ?_, ?_, ?_⟩
          · rw [← nearTree, plug_append, ← shape]; rfl
          · simpa [or_imp, forall_and] using sides
          · simpa [Store.extreme, step] using result

/-- Climbing leaves the run of frames on one side. -/
theorem climb_spec (side : Side) (fuel : Nat) (focus : Focus store frames tree)
    (root : tree.root = some address) (enough : frames.length < fuel) :
    store.climb side fuel address =
      some (parentOf (frames.dropWhile (·.side = side))) := by
  induction frames generalizing fuel tree address with
  | nil =>
      obtain ⟨fuel, rfl⟩ := Nat.exists_eq_succ_of_ne_zero (Nat.ne_zero_of_lt enough)
      obtain ⟨info, near, far, rfl⟩ := BinTree.exists_mk_of_root .left root
      simp [Store.climb, focus.read]
  | cons frame frames ih =>
      obtain ⟨fuel, rfl⟩ := Nat.exists_eq_succ_of_ne_zero (Nat.ne_zero_of_lt enough)
      obtain ⟨info, near, far, rfl⟩ := BinTree.exists_mk_of_root .left root
      have sibling := focus.frame_sibling_root (by simp)
      have found := Store.read_eq focus.frame_cell
      simp only [Store.climb, focus.read, parentOf, Option.bind_eq_bind, Option.bind_some,
        Cell.parent_of, found, Frame.cell, BinTree.root_mk]
      rcases Side.eq_or_eq_other frame.side side with same | opposite
      · subst same
        simp only [Cell.child_of, if_true, List.dropWhile_cons, decide_true]
        exact ih fuel focus.up (BinTree.root_mk ..) (by simpa using enough)
      · have sideEq : side = frame.side.other := by simp [opposite]
        subst sideEq
        rw [BinTree.root_mk] at sibling
        simp [sibling]

/-- Stepping towards a side reaches the next node there. -/
theorem advance_spec (focus : Focus store frames (.mk side address info near far)) :
    store.advance side address =
      some ((near.travel side ++ ahead side frames).head?.map Prod.fst) := by
  have length := focus.length_le
  rw [addrs_length_mk] at length
  by_cases empty : near = .nil
  · subst empty
    have depth := frames_length_le frames
    have climbed := focus.climb_spec side store.bound
      (BinTree.root_mk ..) (by unfold Store.bound; omega)
    simp [Store.advance, focus.read, climbed, parentOf_dropWhile]
  · have down := focus.near_frame
    obtain ⟨child, childInfo, childNear, childFar, rfl⟩ :=
      BinTree.exists_mk_of_ne_nil side.other empty
    rw [addrs_length_mk] at length
    obtain ⟨inner, last, lastInfo, rest, shape, sides, result⟩ :=
      down.extreme_spec store.bound (by unfold Store.bound; omega)
    have first : ((plug inner (.mk side.other last lastInfo .nil rest)).travel
        side.other.other).head? = some (last, lastInfo) := head?_travel side.other sides
    rw [← shape, Side.other_other] at first
    simp [Store.advance, focus.read, result, List.head?_append, first]

/-- Every allocated cell is a node of the represented tree. -/
theorem exists_focus {cell : Cell α} (represents : Represents store tree)
    (found : store.cells address = some cell) :
    ∃ frames info left right, plug frames (.mk .left address info left right) = tree ∧
      Focus store frames (.mk .left address info left right) ∧
      cell = .of .left info left.root right.root (parentOf frames) := by
  have owned := represents.owned address (by simp [found])
  simp only [contextAddrs, List.append_nil] at owned
  have listed := tree.inorder_addrs_perm.mem_iff.mpr owned
  rcases List.mem_map.mp listed with ⟨⟨top, info⟩, member, equal⟩
  rcases List.append_of_mem member with ⟨earlier, later, order⟩
  rw [show top = address from equal] at order
  rcases exists_of_inorder tree order with ⟨frames, left, right, shape, _, _⟩
  have focus : Focus store frames (.mk .left address info left right) :=
    of_represents (shape ▸ represents)
  refine ⟨frames, info, left, right, shape, focus, ?_⟩
  exact Option.some.inj (found.symm.trans focus.cell)

/-- A listed node is allocated and carries the listed payload. -/
theorem read_of_mem {entry : Addr × α} (represents : Represents store tree)
    (member : entry ∈ tree.inorder) :
    ∃ cell, store.read entry.1 = some cell ∧ cell.info = entry.2 := by
  rcases List.append_of_mem member with ⟨earlier, later, order⟩
  rcases exists_of_inorder tree order with ⟨frames, left, right, shape, _, _⟩
  have focus : Focus store frames (.mk .left entry.1 entry.2 left right) :=
    of_represents (shape ▸ represents)
  exact ⟨_, focus.read, Cell.info_of ..⟩

/-- The root of a focused subtree points back to the node above it. -/
theorem root_cell {root : Addr} (focus : Focus store frames tree)
    (rootEq : tree.root = some root) :
    ∃ cell, store.cells root = some cell ∧ cell.parent = parentOf frames := by
  rcases BinTree.exists_mk_of_root .left rootEq with ⟨info, left, right, rfl⟩
  exact ⟨_, focus.cell, Cell.parent_of ..⟩

/-- Stepping towards a side from a listed node reaches the node listed next. -/
theorem advance_at (represents : Represents store tree) {earlier later : List (Addr × α)}
    (order : tree.travel side = earlier ++ (address, info) :: later) :
    store.advance side address = some (later.head?.map Prod.fst) := by
  obtain ⟨frames, near, far, shape, rfl⟩ := exists_of_travel side tree order
  have focus : Focus store frames (.mk side address info near far) :=
    of_represents (shape ▸ represents)
  exact focus.advance_spec

/-- Stepping towards a side goes to the next address in the order of that side. -/
theorem advance_next (represents : Represents store tree) {position : Nat}
    (here : (tree.order side)[position]? = some address) :
    store.advance side address = some (tree.order side)[position + 1]? := by
  rw [BinTree.order, List.getElem?_map, Option.map_eq_some_iff] at here
  obtain ⟨⟨node, info⟩, here, rfl⟩ := here
  obtain ⟨bound, found⟩ := List.getElem?_eq_some_iff.mp here
  have order : tree.travel side = (tree.travel side).take position ++
      (node, info) :: (tree.travel side).drop (position + 1) := by
    rw [← found, List.getElem_cons_drop, List.take_append_drop]
  rw [represents.advance_at order, List.head?_drop, BinTree.order, List.getElem?_map]

/-- Stepping towards the other side goes to the previous address. -/
theorem advance_previous (represents : Represents store tree) {position : Nat}
    (later : 0 < position) (here : (tree.order side)[position]? = some address) :
    store.advance side.other address = some (tree.order side)[position - 1]? := by
  have bound : position < (tree.order side).length := List.getElem?_eq_some_iff.mp here |>.1
  have reversed : (tree.order side.other)[(tree.order side).length - 1 - position]? =
      some address := by
    rw [BinTree.order_other, List.getElem?_reverse (by omega), ← here]
    congr 1
    omega
  rw [represents.advance_next reversed, BinTree.order_other, List.getElem?_reverse (by omega)]
  congr 2
  omega

/-- Stepping towards the other side from the first address leaves the tree. -/
theorem advance_first (represents : Represents store tree)
    (first : (tree.order side)[0]? = some address) :
    store.advance side.other address = some none := by
  have bound : 0 < (tree.order side).length := List.getElem?_eq_some_iff.mp first |>.1
  have reversed : (tree.order side.other)[(tree.order side).length - 1]? = some address := by
    rw [BinTree.order_other, List.getElem?_reverse (by omega), ← first]
    congr 1
    omega
  rw [represents.advance_next reversed, BinTree.order_other, List.getElem?_eq_none]
  rw [List.length_reverse]
  omega

/-- Stepping rightwards from a node lists the nodes after it in order. -/
theorem collect_spec (represents : Represents store tree)
    (earlier later : List (Addr × α)) (fuel : Nat)
    (order : tree.inorder = earlier ++ later) (enough : later.length < fuel) :
    store.collect fuel (later.head?.map Prod.fst) = some (later.map Prod.snd) := by
  induction later generalizing earlier fuel with
  | nil =>
      obtain ⟨fuel, rfl⟩ := Nat.exists_eq_succ_of_ne_zero (Nat.ne_zero_of_lt enough)
      rfl
  | cons entry later ih =>
      obtain ⟨fuel, rfl⟩ := Nat.exists_eq_succ_of_ne_zero (Nat.ne_zero_of_lt enough)
      obtain ⟨address, info⟩ := entry
      obtain ⟨cell, found, rfl⟩ := represents.read_of_mem
        (show (address, info) ∈ tree.inorder by simp [order])
      have step : store.advance .right address = some (later.head?.map Prod.fst) :=
        represents.advance_at order
      have rest := ih (earlier ++ [(address, cell.info)]) fuel
        (by simp [order]) (by simpa using enough)
      simp [Store.collect, found, step, rest]

theorem inorder_length (tree : BinTree α) : tree.inorder.length = tree.addrs.length := by
  simpa using tree.inorder_addrs_perm.length_eq

/-- The outermost node on one side is the first of a walk from there. -/
theorem endpoint_spec (represents : Represents store tree) :
    store.endpoint side = some ((tree.travel side.other).head?.map Prod.fst) := by
  have root : store.root = tree.root := represents.root
  by_cases empty : tree = .nil
  · simp [Store.endpoint, root, empty]
  · obtain ⟨top, topInfo, near, far, rfl⟩ := BinTree.exists_mk_of_ne_nil side empty
    have focus : Focus store [] (.mk side top topInfo near far) := represents
    have length := focus.length_le
    rw [addrs_length_mk] at length
    obtain ⟨inner, last, lastInfo, rest, shape, sides, result⟩ :=
      focus.extreme_spec store.bound (by unfold Store.bound; omega)
    have first : ((plug inner (.mk side last lastInfo .nil rest)).travel side.other).head? =
        some (last, lastInfo) := head?_travel side sides
    rw [← shape] at first
    simp [Store.endpoint, root, result, first]

/-- A stack of subtrees, each named by its root. -/
def Stacked (store : Store α) (pending : List (Addr × BinTree α)) : Prop :=
  ∀ entry ∈ pending, entry.2.root = some entry.1 ∧ ∃ parent, entry.2.Holds store.cells parent

theorem Stacked.append {left right : List (Addr × BinTree α)} (first : Stacked store left)
    (second : Stacked store right) : Stacked store (left ++ right) := by
  intro entry member
  rcases List.mem_append.mp member with member | member
  · exact first entry member
  · exact second entry member

/-- Pushing a child pushes its whole subtree. -/
theorem stacked_child {child : BinTree α} {parent : Option Addr}
    (holds : child.Holds store.cells parent) :
    ∃ pushed, pushed.map Prod.fst = child.root.toList ∧
      (pushed.map (·.2.addrs.length)).sum = child.addrs.length ∧ Stacked store pushed := by
  cases child with
  | nil => exact ⟨[], rfl, rfl, by simp [Stacked]⟩
  | node top topInfo left right =>
      refine ⟨[(top, .node top topInfo left right)], rfl, by simp, ?_⟩
      simpa [Stacked] using ⟨parent, holds⟩

theorem countFrom_spec (pending : List (Addr × BinTree α)) (fuel count : Nat)
    (stacked : Stacked store pending)
    (enough : (pending.map (·.2.addrs.length)).sum < fuel) :
    store.countFrom fuel (pending.map Prod.fst) count =
      some (count + (pending.map (·.2.addrs.length)).sum) := by
  induction fuel generalizing pending count with
  | zero => exact absurd enough (Nat.not_lt_zero _)
  | succ fuel ih =>
      cases pending with
      | nil => simp [Store.countFrom]
      | cons entry pending =>
          obtain ⟨node, tree⟩ := entry
          have rest : Stacked store pending := fun entry member =>
            stacked entry (List.mem_cons_of_mem _ member)
          obtain ⟨root, parent, holds⟩ := stacked (node, tree) List.mem_cons_self
          cases tree with
          | nil => simp at root
          | node address info left right =>
              simp only [BinTree.root_node, Option.some.injEq] at root
              subst root
              obtain ⟨found, leftHolds, rightHolds⟩ := holds
              obtain ⟨lefts, leftRoots, leftSum, leftStacked⟩ := stacked_child leftHolds
              obtain ⟨rights, rightRoots, rightSum, rightStacked⟩ := stacked_child rightHolds
              simp only [List.map_cons, List.sum_cons, BinTree.addrs, List.length_cons,
                List.length_append] at enough ⊢
              have next := ih (lefts ++ (rights ++ pending)) (count + 1)
                (leftStacked.append (rightStacked.append rest))
                (by simp only [List.map_append, List.sum_append, leftSum, rightSum]; omega)
              simp only [List.map_append, List.sum_append, leftSum, rightSum, leftRoots,
                rightRoots] at next
              simp only [Store.countFrom, Store.read_eq found, Option.bind_eq_bind,
                Option.bind_some, Cell.left_of, Cell.right_of, next, Option.some.injEq]
              omega

/-- Counting visits every node of the represented tree once. -/
theorem size_eq (represents : Represents store tree) :
    store.size = some tree.addrs.length := by
  have root : store.root = tree.root := represents.root
  have length := represents.length_le
  cases tree with
  | nil => simp [Store.size, root]
  | node address info left right =>
      have counted := countFrom_spec [(address, .node address info left right)] store.bound 0
        (by simpa [Stacked] using ⟨_, represents.focus⟩)
        (by
          simp only [List.map_cons, List.map_nil, List.sum_cons, List.sum_nil, Store.bound]
          omega)
      simpa [Store.size, root] using counted

end Focus

end Wan.Library.LinkedTree
