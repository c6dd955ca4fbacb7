import Mathlib.Algebra.Ring.Nat
import Mathlib.Logic.Function.Basic
import Mathlib.Data.List.Basic

/-!
# Stores of linked tree cells

A store is the memory in which one binary tree with parent links lives.  Every
allocated address holds a cell: a payload and three links, each of which may be
null.  Accesses through a null or released address have no result, so that a
program over stores returns `none` exactly when it would follow a bad pointer.
-/

namespace Wan.Library.LinkedTree

/-- An address of an allocated cell. A link is an optional address. -/
abbrev Addr := Nat

/-- One of the two child positions of a cell. -/
inductive Side where
  | left
  | right
  deriving DecidableEq, Repr

namespace Side

/-- The opposite position. -/
def other : Side → Side
  | .left => .right
  | .right => .left

@[simp] theorem other_left : other .left = .right := rfl

@[simp] theorem other_right : other .right = .left := rfl

@[simp] theorem other_other (side : Side) : side.other.other = side := by
  cases side <;> rfl

@[simp] theorem other_ne (side : Side) : side.other ≠ side := by
  cases side <;> decide

@[simp] theorem ne_other (side : Side) : side ≠ side.other := by
  cases side <;> decide

theorem eq_or_eq_other (side reference : Side) :
    side = reference ∨ side = reference.other := by
  cases side <;> cases reference <;> simp

end Side

/-- A payload together with the links to two children and to a parent. -/
structure Cell (α : Type) where
  info : α
  left : Option Addr
  right : Option Addr
  parent : Option Addr
  deriving DecidableEq, Repr

namespace Cell

variable {α : Type}

/-- The child link on one side. -/
def child (cell : Cell α) : Side → Option Addr
  | .left => cell.left
  | .right => cell.right

/-- Redirect the child link on one side. -/
def setChild (cell : Cell α) : Side → Option Addr → Cell α
  | .left, link => { cell with left := link }
  | .right, link => { cell with right := link }

/-- Redirect the parent link. -/
def setParent (cell : Cell α) (link : Option Addr) : Cell α :=
  { cell with parent := link }

/-- Change the payload and keep all links. -/
def mapInfo (cell : Cell α) (change : α → α) : Cell α :=
  { cell with info := change cell.info }

/-- A cell given by the child on a chosen side and the one opposite to it. -/
def of : Side → α → Option Addr → Option Addr → Option Addr → Cell α
  | .left, info, near, far, parent => ⟨info, near, far, parent⟩
  | .right, info, near, far, parent => ⟨info, far, near, parent⟩

variable (side : Side) (info : α) (near far parent link : Option Addr)

@[simp] theorem info_of : (of side info near far parent).info = info := by
  cases side <;> rfl

@[simp] theorem parent_of : (of side info near far parent).parent = parent := by
  cases side <;> rfl

@[simp] theorem child_of : (of side info near far parent).child side = near := by
  cases side <;> rfl

@[simp] theorem child_other_of :
    (of side info near far parent).child side.other = far := by
  cases side <;> rfl

@[simp] theorem child_right_of_left :
    (of .left info near far parent).child .right = far := rfl

@[simp] theorem child_left_of_right :
    (of .right info near far parent).child .left = far := rfl

@[simp] theorem left_of :
    (of .left info near far parent).left = near := rfl

@[simp] theorem right_of :
    (of .left info near far parent).right = far := rfl

@[simp] theorem setChild_of :
    (of side info near far parent).setChild side link =
      of side info link far parent := by
  cases side <;> rfl

@[simp] theorem setChild_other_of :
    (of side info near far parent).setChild side.other link =
      of side info near link parent := by
  cases side <;> rfl

theorem setChild_self {cell : Cell α} {side : Side} {link : Option Addr}
    (same : cell.child side = link) : cell.setChild side link = cell := by
  subst same
  cases side <;> rfl

@[simp] theorem setParent_of :
    (of side info near far parent).setParent link = of side info near far link := by
  cases side <;> rfl

@[simp] theorem mapInfo_of (change : α → α) :
    (of side info near far parent).mapInfo change =
      of side (change info) near far parent := by
  cases side <;> rfl

end Cell

/-- The cells of one tree, the first address that was never handed out, and the
link to the root. -/
structure Store (α : Type) where
  cells : Addr → Option (Cell α)
  next : Addr
  root : Option Addr

namespace Store

variable {α : Type}

/-- The store of an empty tree. -/
def empty : Store α := ⟨fun _ => none, 0, none⟩

/-- Overwrite the cell at an address. -/
def put (store : Store α) (address : Addr) (cell : Cell α) : Store α :=
  { store with
    cells := fun query => if query = address then some cell else store.cells query }

/-- Read the cell at an allocated address. -/
def read (store : Store α) (address : Addr) : Option (Cell α) :=
  store.cells address

/-- Change the cell at an allocated address. -/
def modify (store : Store α) (address : Addr) (change : Cell α → Cell α) :
    Option (Store α) :=
  (store.cells address).map fun cell => store.put address (change cell)

/-- Redirect one child link of a cell. -/
def setChild (store : Store α) (side : Side) (address : Addr) (link : Option Addr) :
    Option (Store α) :=
  store.modify address (·.setChild side link)

/-- Redirect the parent link of a cell. -/
def setParent (store : Store α) (address : Addr) (link : Option Addr) :
    Option (Store α) :=
  store.modify address (·.setParent link)

/-- Redirect the parent link of a cell unless the link to it is null. -/
def adopt (store : Store α) (child parent : Option Addr) : Option (Store α) :=
  match child with
  | none => some store
  | some address => store.setParent address parent

/-- Change the payload of a cell. -/
def setInfo (store : Store α) (address : Addr) (change : α → α) :
    Option (Store α) :=
  store.modify address (·.mapInfo change)

/-- Redirect the root link. -/
def setRoot (store : Store α) (link : Option Addr) : Store α :=
  { store with root := link }

/-- Allocate a cell without children below a given parent. -/
def alloc (store : Store α) (info : α) (parent : Option Addr) : Addr × Store α :=
  (store.next, { (store.put store.next ⟨info, none, none, parent⟩) with
    next := store.next + 1 })

/-- Release an allocated cell. -/
def free (store : Store α) (address : Addr) : Option (Store α) :=
  (store.cells address).map fun _ =>
    { store with
      cells := fun query => if query = address then none else store.cells query }

/-- Redirect the one link that leads to `old`: the root link when `old` has no
parent, else the child link of the parent that names it.  The link on `side` is
the one compared. -/
def relink (store : Store α) (side : Side) (parent : Option Addr) (old : Addr)
    (link : Option Addr) : Option (Store α) :=
  match parent with
  | none => some (store.setRoot link)
  | some address => do
    if (← store.read address).child side = some old then
      store.setChild side address link
    else
      store.setChild side.other address link

variable {store : Store α} {address : Addr} {cell : Cell α}

@[simp] theorem put_cells (query : Addr) :
    (store.put address cell).cells query =
      if query = address then some cell else store.cells query := rfl

@[simp] theorem put_root : (store.put address cell).root = store.root := rfl

@[simp] theorem put_next : (store.put address cell).next = store.next := rfl

@[simp] theorem setRoot_cells (link : Option Addr) :
    (store.setRoot link).cells = store.cells := rfl

@[simp] theorem setRoot_root (link : Option Addr) :
    (store.setRoot link).root = link := rfl

@[simp] theorem setRoot_next (link : Option Addr) :
    (store.setRoot link).next = store.next := rfl

theorem read_eq (found : store.cells address = some cell) :
    store.read address = some cell := found

theorem modify_eq (change : Cell α → Cell α)
    (found : store.cells address = some cell) :
    store.modify address change = some (store.put address (change cell)) := by
  simp [modify, found]

theorem setChild_eq (side : Side) (link : Option Addr)
    (found : store.cells address = some cell) :
    store.setChild side address link =
      some (store.put address (cell.setChild side link)) :=
  modify_eq _ found

theorem setParent_eq (link : Option Addr)
    (found : store.cells address = some cell) :
    store.setParent address link =
      some (store.put address (cell.setParent link)) :=
  modify_eq _ found

/-- Writing the cell that is there already. -/
theorem put_self {cell : Cell α} (found : store.cells address = some cell) :
    store.put address cell = store := by
  cases store
  simp only [put, mk.injEq, and_true]
  funext query
  by_cases equal : query = address
  · simp [equal, ← found]
  · simp [equal]

theorem setInfo_eq (change : α → α) (found : store.cells address = some cell) :
    store.setInfo address change =
      some (store.put address (cell.mapInfo change)) :=
  modify_eq _ found

end Store

end Wan.Library.LinkedTree
