import Wan.Library.LinkedTree.Store
import Mathlib.Data.List.Perm.Basic
import Mathlib.Data.List.Nodup

/-!
# Trees represented by a store

`BinTree` is the tree a store stands for: it remembers the address of every node.
A position inside it is a subtree together with the list of frames on the way
up to the root.  `Focus store frames tree` says that the store holds exactly the
tree obtained by plugging `tree` into `frames`, with every child and parent link
in place.  `Focus.replace` is the frame rule: a change confined to the focused
subtree and to the one link that leads to it needs to be justified only there.
-/

namespace Wan.Library.LinkedTree

/-- A binary tree whose nodes carry their addresses. -/
inductive BinTree (α : Type) where
  | nil
  | node (address : Addr) (info : α) (left right : BinTree α)
  deriving Repr

namespace BinTree

variable {α : Type}

/-- The link to the root of a tree. -/
def root : BinTree α → Option Addr
  | nil => none
  | node address _ _ _ => some address

/-- All addresses of a tree. -/
@[grind =] def addrs : BinTree α → List Addr
  | nil => []
  | node address _ left right => address :: (left.addrs ++ right.addrs)

/-- The nodes of a tree from left to right. -/
def inorder : BinTree α → List (Addr × α)
  | nil => []
  | node address info left right =>
      left.inorder ++ (address, info) :: right.inorder

/-- A node given by the subtree on a chosen side and the one opposite to it. -/
def mk : Side → Addr → α → BinTree α → BinTree α → BinTree α
  | .left, address, info, near, far => node address info near far
  | .right, address, info, near, far => node address info far near

/-- The cells of a tree are in place and its root has the given parent. -/
def Holds (cells : Addr → Option (Cell α)) : BinTree α → Option Addr → Prop
  | nil, _ => True
  | node address info left right, parent =>
      cells address = some (Cell.of .left info left.root right.root parent) ∧
        left.Holds cells (some address) ∧ right.Holds cells (some address)

variable (side : Side) (address : Addr) (info : α) (near far : BinTree α)

theorem mk_other : mk side.other address info near far = mk side address info far near := by
  cases side <;> rfl

theorem exists_mk_of_ne_nil {tree : BinTree α} (side : Side) (nonempty : tree ≠ nil) :
    ∃ address info near far, tree = mk side address info near far := by
  cases tree with
  | nil => exact absurd rfl nonempty
  | node address info left right =>
      cases side with
      | left => exact ⟨address, info, left, right, rfl⟩
      | right => exact ⟨address, info, right, left, rfl⟩

theorem exists_mk_of_root {tree : BinTree α} {address : Addr} (side : Side)
    (root : tree.root = some address) :
    ∃ info near far, tree = mk side address info near far := by
  cases tree with
  | nil => cases root
  | node top info left right =>
      cases root
      cases side with
      | left => exact ⟨info, left, right, rfl⟩
      | right => exact ⟨info, right, left, rfl⟩

@[simp] theorem mk_ne_nil : mk side address info near far ≠ nil := by
  cases side <;> simp [mk]

@[simp] theorem root_nil : (nil : BinTree α).root = none := rfl

@[simp] theorem root_node (left right : BinTree α) :
    (node address info left right).root = some address := rfl

@[simp] theorem root_mk : (mk side address info near far).root = some address := by
  cases side <;> rfl

@[simp] theorem holds_nil (cells : Addr → Option (Cell α)) (parent : Option Addr) :
    (nil : BinTree α).Holds cells parent := trivial

theorem holds_mk {cells : Addr → Option (Cell α)} {parent : Option Addr} :
    (mk side address info near far).Holds cells parent ↔
      cells address = some (Cell.of side info near.root far.root parent) ∧
        near.Holds cells (some address) ∧ far.Holds cells (some address) := by
  cases side with
  | left => rfl
  | right =>
      simp only [mk, Holds]
      exact and_congr Iff.rfl And.comm

@[simp] theorem addrs_nil : (nil : BinTree α).addrs = [] := rfl

theorem addrs_mk_perm :
    (mk side address info near far).addrs.Perm (address :: (near.addrs ++ far.addrs)) := by
  cases side with
  | left => exact List.Perm.refl _
  | right => exact List.Perm.cons _ List.perm_append_comm

theorem mem_addrs_mk {query : Addr} :
    query ∈ (mk side address info near far).addrs ↔
      query = address ∨ query ∈ near.addrs ∨ query ∈ far.addrs := by
  rw [(addrs_mk_perm side address info near far).mem_iff]
  simp

theorem root_mem_addrs {tree : BinTree α} {address : Addr}
    (root : tree.root = some address) : address ∈ tree.addrs := by
  cases tree with
  | nil => simp [BinTree.root] at root
  | node top info left right =>
      simp only [BinTree.root, Option.some.injEq] at root
      simp [addrs, root]

@[simp] theorem inorder_nil : (nil : BinTree α).inorder = [] := rfl

/-- The rotation of linked trees keeps the order of the nodes. -/
theorem inorder_rotate (outer inner : Addr) (outerInfo innerInfo : α)
    (a b c : BinTree α) :
    (mk side inner innerInfo (mk side outer outerInfo a b) c).inorder =
      (mk side outer outerInfo a (mk side inner innerInfo b c)).inorder := by
  cases side <;> simp [mk, inorder]

theorem inorder_addrs_perm (tree : BinTree α) :
    (tree.inorder.map Prod.fst).Perm tree.addrs := by
  induction tree with
  | nil => exact List.Perm.refl _
  | node address info left right leftIH rightIH =>
      simp only [inorder, addrs, List.map_append, List.map_cons]
      exact List.perm_middle.trans
        (List.Perm.cons _ (List.Perm.append leftIH rightIH))

/-- A tree survives every change of the cells outside its own addresses. -/
theorem Holds.congr {cells next : Addr → Option (Cell α)} {tree : BinTree α}
    {parent : Option Addr} (holds : tree.Holds cells parent)
    (agree : ∀ query ∈ tree.addrs, next query = cells query) :
    tree.Holds next parent := by
  induction tree generalizing parent with
  | nil => trivial
  | node address info left right leftIH rightIH =>
      obtain ⟨top, leftHolds, rightHolds⟩ := holds
      refine ⟨(agree address (by simp [addrs])).trans top, ?_, ?_⟩
      · exact leftIH leftHolds fun query member => agree query (by simp [addrs, member])
      · exact rightIH rightHolds fun query member => agree query (by simp [addrs, member])

/-- Redirecting the parent link of the root moves a tree below a new parent. -/
theorem Holds.reparent {cells next : Addr → Option (Cell α)} {tree : BinTree α}
    {parent newParent : Option Addr} (holds : tree.Holds cells parent)
    (nodup : tree.addrs.Nodup)
    (top : ∀ address cell, tree.root = some address → cells address = some cell →
      next address = some (cell.setParent newParent))
    (agree : ∀ query ∈ tree.addrs, tree.root ≠ some query →
      next query = cells query) :
    tree.Holds next newParent := by
  cases tree with
  | nil => trivial
  | node address info left right =>
      obtain ⟨found, leftHolds, rightHolds⟩ := holds
      simp only [addrs, List.nodup_cons, List.mem_append, not_or] at nodup
      obtain ⟨⟨notLeft, notRight⟩, _⟩ := nodup
      refine ⟨by simpa using top address _ rfl found, ?_, ?_⟩
      · refine leftHolds.congr fun query member => agree query (by simp [addrs, member]) ?_
        simpa [root] using ne_of_mem_of_not_mem member notLeft |>.symm
      · refine rightHolds.congr fun query member => agree query (by simp [addrs, member]) ?_
        simpa [root] using ne_of_mem_of_not_mem member notRight |>.symm

/-- Every address of a held tree is allocated. -/
theorem Holds.allocated {cells : Addr → Option (Cell α)} {tree : BinTree α}
    {parent : Option Addr} (holds : tree.Holds cells parent) {query : Addr}
    (member : query ∈ tree.addrs) : cells query ≠ none := by
  induction tree generalizing parent with
  | nil => simp at member
  | node address info left right leftIH rightIH =>
      obtain ⟨found, leftHolds, rightHolds⟩ := holds
      simp only [addrs, List.mem_cons, List.mem_append] at member
      rcases member with rfl | member | member
      · simp [found]
      · exact leftIH leftHolds member
      · exact rightIH rightHolds member

end BinTree

/-- One step on the way up from a subtree: the node above it and the subtree on
the other side. The side tells where the hole is. -/
structure Frame (α : Type) where
  side : Side
  address : Addr
  info : α
  sibling : BinTree α

namespace Frame

variable {α : Type}

/-- Fill the hole of a frame. -/
def plug (frame : Frame α) (tree : BinTree α) : BinTree α :=
  .mk frame.side frame.address frame.info tree frame.sibling

/-- The cell at the node of a frame. -/
def cell (frame : Frame α) (child parent : Option Addr) : Cell α :=
  .of frame.side frame.info child frame.sibling.root parent

end Frame

section Context

variable {α : Type}

/-- Fill the hole of a list of frames, innermost frame first. -/
def plug : List (Frame α) → BinTree α → BinTree α
  | [], tree => tree
  | frame :: frames, tree => plug frames (frame.plug tree)

/-- The link to the node above the hole. -/
def parentOf : List (Frame α) → Option Addr
  | [] => none
  | frame :: _ => some frame.address

/-- The addresses of the frames and of the subtrees beside the hole. -/
@[grind =] def contextAddrs : List (Frame α) → List Addr
  | [] => []
  | frame :: frames => frame.address :: (frame.sibling.addrs ++ contextAddrs frames)

/-- The nodes to the left of the hole, from left to right. -/
def before : List (Frame α) → List (Addr × α)
  | [] => []
  | frame :: frames =>
      match frame.side with
      | .left => before frames
      | .right => before frames ++ frame.sibling.inorder ++ [(frame.address, frame.info)]

/-- The nodes to the right of the hole, from left to right. -/
def after : List (Frame α) → List (Addr × α)
  | [] => []
  | frame :: frames =>
      match frame.side with
      | .left => (frame.address, frame.info) :: frame.sibling.inorder ++ after frames
      | .right => after frames

/-- The link to the root of a filled context. -/
def rootOf : List (Frame α) → Option Addr → Option Addr
  | [], link => link
  | frame :: frames, _ => rootOf frames (some frame.address)

/-- The cells around a hole are in place, the innermost one linked to the given
child. -/
def HoldsContext (cells : Addr → Option (Cell α)) : Option Addr → List (Frame α) → Prop
  | _, [] => True
  | child, frame :: frames =>
      cells frame.address = some (frame.cell child (parentOf frames)) ∧
        frame.sibling.Holds cells (some frame.address) ∧
        HoldsContext cells (some frame.address) frames

@[simp] theorem parentOf_nil : parentOf ([] : List (Frame α)) = none := rfl

@[simp] theorem parentOf_cons (frame : Frame α) (frames : List (Frame α)) :
    parentOf (frame :: frames) = some frame.address := rfl

theorem plug_append (inner outer : List (Frame α)) (tree : BinTree α) :
    plug (inner ++ outer) tree = plug outer (plug inner tree) := by
  induction inner generalizing tree with
  | nil => rfl
  | cons frame inner ih => exact ih (frame.plug tree)

theorem inorder_plug (frames : List (Frame α)) (tree : BinTree α) :
    (plug frames tree).inorder = before frames ++ tree.inorder ++ after frames := by
  induction frames generalizing tree with
  | nil => simp [plug, before, after]
  | cons frame frames ih =>
      rw [plug, ih]
      cases frame with
      | mk side address info sibling =>
          cases side <;> simp [Frame.plug, BinTree.mk, BinTree.inorder, before, after]

theorem before_append (inner outer : List (Frame α)) :
    before (inner ++ outer) = before outer ++ before inner := by
  induction inner with
  | nil => simp [before]
  | cons frame inner ih =>
      obtain ⟨side, address, info, sibling⟩ := frame
      cases side <;> simp [before, ih]

theorem after_append (inner outer : List (Frame α)) :
    after (inner ++ outer) = after inner ++ after outer := by
  induction inner with
  | nil => simp [after]
  | cons frame inner ih =>
      obtain ⟨side, address, info, sibling⟩ := frame
      cases side <;> simp [after, ih]

theorem root_plug (frames : List (Frame α)) (tree : BinTree α) :
    (plug frames tree).root = rootOf frames tree.root := by
  induction frames generalizing tree with
  | nil => rfl
  | cons frame frames ih =>
      rw [plug, ih, rootOf, Frame.plug, BinTree.root_mk]

theorem plug_ne_nil (frames : List (Frame α)) {tree : BinTree α} (nonempty : tree ≠ .nil) :
    plug frames tree ≠ .nil := by
  induction frames generalizing tree with
  | nil => exact nonempty
  | cons frame frames ih => exact ih (by simp [Frame.plug])

theorem rootOf_mem (frame : Frame α) (frames : List (Frame α)) (link : Option Addr) :
    ∃ address ∈ contextAddrs (frame :: frames),
      rootOf (frame :: frames) link = some address := by
  induction frames generalizing frame link with
  | nil => exact ⟨frame.address, by simp [contextAddrs], rfl⟩
  | cons next frames ih =>
      obtain ⟨address, member, equal⟩ := ih next (some frame.address)
      exact ⟨address, by rw [contextAddrs]; simp [member], equal⟩

theorem HoldsContext.congr {cells next : Addr → Option (Cell α)}
    {child : Option Addr} {frames : List (Frame α)}
    (holds : HoldsContext cells child frames)
    (agree : ∀ query ∈ contextAddrs frames, next query = cells query) :
    HoldsContext next child frames := by
  induction frames generalizing child with
  | nil => trivial
  | cons frame frames ih =>
      obtain ⟨top, sibling, rest⟩ := holds
      refine ⟨(agree _ (by simp [contextAddrs])).trans top, ?_, ?_⟩
      · exact sibling.congr fun query member => agree query (by simp [contextAddrs, member])
      · exact ih rest fun query member => agree query (by simp [contextAddrs, member])

/-- The node above a hole belongs to its context. -/
theorem parentOf_mem {frames : List (Frame α)} {address : Addr}
    (parent : parentOf frames = some address) : address ∈ contextAddrs frames := by
  cases frames with
  | nil => simp at parent
  | cons frame frames =>
      simp only [parentOf_cons, Option.some.injEq] at parent
      simp [contextAddrs, parent]

theorem mem_contextAddrs_append (inner : List (Frame α)) (frame : Frame α)
    (frames : List (Frame α)) : frame.address ∈ contextAddrs (inner ++ frame :: frames) := by
  induction inner with
  | nil => simp [contextAddrs]
  | cons first inner ih => simp [contextAddrs, ih]

/-- Redirecting the one link into a hole. -/
theorem HoldsContext.relink {cells next : Addr → Option (Cell α)}
    {child newChild : Option Addr} {frames : List (Frame α)}
    (holds : HoldsContext cells child frames) (nodup : (contextAddrs frames).Nodup)
    (link : ∀ frame rest, frames = frame :: rest →
      next frame.address = some (frame.cell newChild (parentOf rest)))
    (outside : ∀ query ∈ contextAddrs frames, parentOf frames ≠ some query →
      next query = cells query) :
    HoldsContext next newChild frames := by
  cases frames with
  | nil => trivial
  | cons frame rest =>
      rcases holds with ⟨_, sibling, above⟩
      simp only [contextAddrs, List.nodup_cons, List.mem_append, not_or] at nodup
      rcases nodup with ⟨⟨notSibling, notRest⟩, _⟩
      refine ⟨link frame rest rfl, sibling.congr ?_, above.congr ?_⟩
      · intro query member
        apply outside query (by simp [contextAddrs, member])
        simpa [parentOf] using (ne_of_mem_of_not_mem member notSibling).symm
      · intro query member
        apply outside query (by simp [contextAddrs, member])
        simpa [parentOf] using (ne_of_mem_of_not_mem member notRest).symm

end Context

/-- The store holds exactly the tree `plug frames tree`: all links are in place,
no address occurs twice, and no other cell is allocated. -/
structure Focus {α : Type} (store : Store α) (frames : List (Frame α))
    (tree : BinTree α) : Prop where
  root : store.root = rootOf frames tree.root
  focus : tree.Holds store.cells (parentOf frames)
  context : HoldsContext store.cells tree.root frames
  nodup : (tree.addrs ++ contextAddrs frames).Nodup
  owned : ∀ query, store.cells query ≠ none → query ∈ tree.addrs ++ contextAddrs frames
  bound : ∀ query ∈ tree.addrs ++ contextAddrs frames, query < store.next

/-- The store holds exactly the given tree. -/
abbrev Represents {α : Type} (store : Store α) (tree : BinTree α) : Prop :=
  Focus store [] tree

namespace Focus

variable {α : Type} {store next : Store α} {frame : Frame α}
variable {frames : List (Frame α)} {tree replacement : BinTree α}

theorem addrs_plug_perm (frame : Frame α) (frames : List (Frame α)) (tree : BinTree α) :
    (tree.addrs ++ contextAddrs (frame :: frames)).Perm
      ((frame.plug tree).addrs ++ contextAddrs frames) := by
  have plugged := BinTree.addrs_mk_perm frame.side frame.address frame.info tree
    frame.sibling
  refine List.Perm.trans ?_ (List.Perm.append_right _ plugged).symm
  simp only [contextAddrs, List.cons_append, List.append_assoc]
  exact List.perm_middle

/-- Moving the focus to the node above changes nothing. -/
theorem up_iff :
    Focus store (frame :: frames) tree ↔ Focus store frames (frame.plug tree) := by
  have perm := addrs_plug_perm frame frames tree
  have rootEq : (frame.plug tree).root = some frame.address := BinTree.root_mk ..
  constructor
  · intro focus
    obtain ⟨top, sibling, rest⟩ := focus.context
    refine ⟨by rw [rootEq]; exact focus.root, ?_, by rw [rootEq]; exact rest,
      perm.nodup focus.nodup, fun query live => perm.mem_iff.mp (focus.owned query live),
      fun query member => focus.bound query (perm.mem_iff.mpr member)⟩
    exact (BinTree.holds_mk ..).mpr ⟨top, focus.focus, sibling⟩
  · intro focus
    obtain ⟨top, below, sibling⟩ := (BinTree.holds_mk ..).mp focus.focus
    refine ⟨?_, below, ⟨top, sibling, ?_⟩, perm.symm.nodup focus.nodup,
      fun query live => perm.mem_iff.mpr (focus.owned query live),
      fun query member => focus.bound query (perm.mem_iff.mp member)⟩
    · rw [focus.root, rootEq, rootOf]
    · rw [← rootEq]
      exact focus.context

theorem up (focus : Focus store (frame :: frames) tree) :
    Focus store frames (frame.plug tree) := up_iff.mp focus

theorem plug_iff (inner : List (Frame α)) :
    Focus store (inner ++ frames) tree ↔ Focus store frames (plug inner tree) := by
  induction inner generalizing tree with
  | nil => rfl
  | cons frame inner ih => exact up_iff.trans ih

theorem represents (focus : Focus store frames tree) :
    Represents store (plug frames tree) := by
  have whole : Focus store (frames ++ []) tree := by simpa using focus
  exact (plug_iff frames).mp whole

theorem of_represents (represents : Represents store (plug frames tree)) :
    Focus store frames tree := by
  have whole : Focus store (frames ++ []) tree := (plug_iff frames).mpr represents
  simpa using whole

theorem represents_empty : Represents (.empty : Store α) .nil := by
  constructor
  · rfl
  · trivial
  · trivial
  · exact List.nodup_nil
  · intro query live
    simp [Store.empty] at live
  · simp [contextAddrs]

/-- The frame rule. A step that fills the hole with another tree has to show the
new tree in place, the one link to it redirected, and everything else around the
hole untouched. -/
theorem replace (focus : Focus store frames tree)
    (root : next.root = rootOf frames replacement.root)
    (inside : replacement.Holds next.cells (parentOf frames))
    (link : ∀ frame rest, frames = frame :: rest →
      next.cells frame.address = some (frame.cell replacement.root (parentOf rest)))
    (outside : ∀ query ∈ contextAddrs frames, parentOf frames ≠ some query →
      next.cells query = store.cells query)
    (nodup : replacement.addrs.Nodup)
    (apart : ∀ query ∈ replacement.addrs, query ∉ contextAddrs frames)
    (owned : ∀ query, next.cells query ≠ none → query ∉ contextAddrs frames →
      query ∈ replacement.addrs)
    (bound : ∀ query ∈ replacement.addrs, query < next.next)
    (later : store.next ≤ next.next) :
    Focus next frames replacement := by
  have contextNodup := (List.nodup_append.mp focus.nodup).2.1
  refine ⟨root, inside, focus.context.relink contextNodup link outside, ?_, ?_, ?_⟩
  · rw [List.nodup_append]
    refine ⟨nodup, contextNodup, fun query member other memberOther equal => ?_⟩
    exact apart query member (equal ▸ memberOther)
  · intro query live
    by_cases member : query ∈ contextAddrs frames
    · exact List.mem_append_right _ member
    · exact List.mem_append_left _ (owned query live member)
  · intro query member
    rcases List.mem_append.mp member with member | member
    · exact bound query member
    · exact Nat.lt_of_lt_of_le (focus.bound query (List.mem_append_right _ member)) later

end Focus

end Wan.Library.LinkedTree
