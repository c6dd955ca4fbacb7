import Wan.Library.LinkedTree.Search

/-!
# Copies of linked trees

A copy of a tree grows in fresh cells of the memory that the tree is in.  A link to a new leaf is
`Sown`; once the loop that copies has come back to what was pending before, the tree below the
leaf is `Filled`.  A memory whose root is the filled copy of another store `Duplicates` it: the
cells of the copy are those of the store with every link replaced by its twin.
-/

namespace Wan.Library.LinkedTree

variable {α : Type}

namespace BinTree

/-- Two trees of one shape with the same payloads. -/
inductive Alike : BinTree α → BinTree α → Prop where
  | nil : Alike nil nil
  | node {address other : Addr} {info : α} {left right otherLeft otherRight : BinTree α}
      (leftAlike : Alike left otherLeft) (rightAlike : Alike right otherRight) :
      Alike (node address info left right) (node other info otherLeft otherRight)

/-- The tree at other addresses. -/
def relabel (twin : Addr → Addr) : BinTree α → BinTree α
  | nil => nil
  | node address info left right =>
      node (twin address) info (left.relabel twin) (right.relabel twin)

variable {tree copy : BinTree α} {twin other : Addr → Addr}

theorem addrs_relabel (twin : Addr → Addr) (tree : BinTree α) :
    (tree.relabel twin).addrs = tree.addrs.map twin := by
  induction tree with
  | nil => rfl
  | node address info left right leftIH rightIH =>
      simp only [relabel, addrs, leftIH, rightIH, List.map_cons, List.map_append]

theorem root_relabel (twin : Addr → Addr) (tree : BinTree α) :
    (tree.relabel twin).root = tree.root.map twin := by
  cases tree <;> rfl

theorem relabel_congr (agree : ∀ query ∈ tree.addrs, twin query = other query) :
    tree.relabel twin = tree.relabel other := by
  induction tree with
  | nil => rfl
  | node address info left right leftIH rightIH =>
      rw [relabel, relabel, agree address (by simp [addrs])]
      rw [leftIH fun query member => agree query (by simp [addrs, member])]
      rw [rightIH fun query member => agree query (by simp [addrs, member])]

/-- Of trees of one shape one is the other at other addresses. -/
theorem Alike.exists_twin (alike : Alike tree copy) (nodup : tree.addrs.Nodup) :
    ∃ twin : Addr → Addr, copy = tree.relabel twin := by
  induction alike with
  | nil => exact ⟨id, rfl⟩
  | @node address other info left right otherLeft otherRight _ _ leftIH rightIH =>
      rw [addrs, List.nodup_cons, List.nodup_append, List.mem_append, not_or] at nodup
      rcases nodup with ⟨⟨notLeft, notRight⟩, leftNodup, rightNodup, apart⟩
      rcases leftIH leftNodup with ⟨leftTwin, rfl⟩
      rcases rightIH rightNodup with ⟨rightTwin, rfl⟩
      refine ⟨fun query =>
        if query = address then other
        else if query ∈ left.addrs then leftTwin query else rightTwin query, ?_⟩
      rw [relabel, if_pos rfl]
      congr 1
      · apply relabel_congr
        intro query member
        rw [if_neg (ne_of_mem_of_not_mem member notLeft), if_pos member]
      · apply relabel_congr
        intro query member
        have notInLeft : query ∉ left.addrs := fun inLeft => apart query inLeft query member rfl
        rw [if_neg (ne_of_mem_of_not_mem member notRight), if_neg notInLeft]

/-- The payloads of trees of one shape are the same, from left to right. -/
theorem Alike.inorder (alike : Alike tree copy) :
    copy.inorder.map Prod.snd = tree.inorder.map Prod.snd := by
  induction alike with
  | nil => rfl
  | node _ _ leftIH rightIH =>
      simp only [BinTree.inorder, List.map_append, List.map_cons, leftIH, rightIH]

/-- So are their values. -/
theorem Alike.values {V : Type} [Payload α V] (alike : Alike tree copy) :
    valuesOf copy.inorder = valuesOf tree.inorder := by
  have same := congrArg (List.map Payload.value) alike.inorder
  rwa [List.map_map, List.map_map] at same

end BinTree

/-- The cell with other links. -/
def Cell.relabel (twin : Addr → Addr) (cell : Cell α) : Cell α :=
  ⟨cell.info, cell.left.map twin, cell.right.map twin, cell.parent.map twin⟩

namespace Store

/-- Beside the cells of one store a memory holds a copy of the tree in it. -/
structure Duplicates (source memory : Store α) (twin : Addr → Addr) : Prop where
  /-- The root of the memory is that of the copy. -/
  root : memory.root = source.root.map twin
  /-- The links of the copy are those of the source, between the nodes of the copy. -/
  copied : ∀ address cell, source.cells address = some cell →
    memory.cells (twin address) = some (cell.relabel twin)
  /-- No node is shared. -/
  apart : ∀ address, source.cells address ≠ none → source.cells (twin address) = none
  injective : ∀ one other, source.cells one ≠ none → source.cells other ≠ none →
    twin one = twin other → one = other
  /-- The source is left as it is. -/
  unchanged : ∀ address, source.cells address ≠ none →
    memory.cells address = source.cells address
  /-- There are no other nodes. -/
  only : ∀ address, memory.cells address ≠ none → source.cells address ≠ none ∨
    ∃ origin, source.cells origin ≠ none ∧ address = twin origin

/-- What was allocated later than some address. -/
def beyond (store : Store α) (base : Addr) : Store α :=
  { store with cells := fun query => if query < base then none else store.cells query }

/-- Cells are allocated from below. -/
def Bounded (store : Store α) : Prop := ∀ query, store.next ≤ query → store.cells query = none

/-- The store with a new leaf as its root. -/
def sowRoot (store : Store α) (info : α) : Store α :=
  (store.alloc info none).2.setRoot (some store.next)

end Store

open BinTree (addrs relabel_congr addrs_relabel root_relabel Alike relabel)

/-- A link leads to a leaf that is to become the root of a copy. -/
def Sown (store : Store α) (link parent : Option Addr) : BinTree α → Prop
  | .nil => link = none
  | .node _ info _ _ => ∃ leaf, link = some leaf ∧ leaf < store.next ∧
      store.cells leaf = some ⟨info, none, none, parent⟩

/-- A new leaf has been put below a node unless the tree to copy is empty. -/
structure SownBelow (before after : Store α) (side : Side) (node : Addr) (tree : BinTree α)
    (link : Option Addr) : Prop where
  sown : Sown after link (some node) tree
  cell : ∀ cell, before.cells node = some cell → cell.child side = none →
    after.cells node = some (cell.setChild side link)
  range : ∀ query, some query = link ↔ before.next ≤ query ∧ query < after.next
  kept : ∀ query, query < before.next → query ≠ node → after.cells query = before.cells query
  bounded : before.Bounded → after.Bounded
  later : before.next ≤ after.next
  root : after.root = before.root

/-- A copy of a tree has been put below a node. -/
structure Added (before after : Store α) (side : Side) (node : Addr) (tree copy : BinTree α) :
    Prop where
  alike : Alike tree copy
  cell : ∀ cell, before.cells node = some cell → cell.child side = none →
    after.cells node = some (cell.setChild side copy.root)
  holds : copy.Holds after.cells (some node)
  nodup : copy.addrs.Nodup
  range : ∀ query, query ∈ copy.addrs ↔ before.next ≤ query ∧ query < after.next
  kept : ∀ query, query < before.next → query ≠ node → after.cells query = before.cells query
  bounded : before.Bounded → after.Bounded
  later : before.next ≤ after.next
  root : after.root = before.root

/-- The leaf at a link has become a copy of a tree whose other nodes are new. -/
structure Filled (before after : Store α) (link parent : Option Addr) (tree copy : BinTree α) :
    Prop where
  alike : Alike tree copy
  top : copy.root = link
  holds : copy.Holds after.cells parent
  nodup : copy.addrs.Nodup
  range : ∀ query, query ∈ copy.addrs ↔
    some query = link ∨ before.next ≤ query ∧ query < after.next
  kept : ∀ query, query < before.next → some query ≠ link →
    after.cells query = before.cells query
  bounded : before.Bounded → after.Bounded
  later : before.next ≤ after.next
  root : after.root = before.root

/-- Two stretches of addresses next to each other. -/
theorem stretch_append {low middle high query : Addr} (first : low ≤ middle)
    (second : middle ≤ high) :
    (low ≤ query ∧ query < middle ∨ middle ≤ query ∧ query < high) ↔
      low ≤ query ∧ query < high := by
  constructor
  · rintro (early | late)
    · exact ⟨early.1, Nat.lt_of_lt_of_le early.2 second⟩
    · exact ⟨Nat.le_trans first late.1, late.2⟩
  · rintro ⟨above, below⟩
    rcases Nat.lt_or_ge query middle with early | late
    · exact Or.inl ⟨above, early⟩
    · exact Or.inr ⟨late, below⟩

section Grow

variable {store before after : Store α} {side : Side} {node : Addr}
variable {link parent above : Option Addr} {tree copy : BinTree α} {cell : Cell α}

/-- An empty tree has no leaf. -/
theorem sownBelow_nil (found : store.cells node = some cell) (free : cell.child side = none) :
    SownBelow store store side node .nil none where
  sown := rfl
  cell other isOther _ := by
    rw [found] at isOther
    cases isOther
    rw [found, Cell.setChild_self free]
  range query := by simp
  kept _ _ _ := rfl
  bounded bounded := bounded
  later := Nat.le_refl _
  root := rfl

/-- A leaf is put below a node. -/
theorem sownBelow_node (side : Side) (address : Addr) (info : α) (left right : BinTree α)
    (found : store.cells node = some cell) (inside : node < store.next) :
    ∃ next, (store.alloc info (some node)).2.setChild side node (some store.next) = some next ∧
      SownBelow store next side node (.node address info left right) (some store.next) := by
  have different : node ≠ store.next := Nat.ne_of_lt inside
  have still : (store.alloc info (some node)).2.cells node = some cell := by
    rw [Store.alloc_cells, if_neg different, found]
  refine ⟨_, Store.setChild_eq side _ still, ?_⟩
  constructor
  · refine ⟨store.next, rfl, Nat.lt_succ_self _, ?_⟩
    rw [Store.put_cells, if_neg different.symm, Store.alloc_cells, if_pos rfl]
    rfl
  · intro other isOther _
    rw [found] at isOther
    cases isOther
    rw [Store.put_cells, if_pos rfl]
  · intro query
    constructor
    · intro same
      rw [Option.some.inj same]
      exact ⟨Nat.le_refl _, Nat.lt_succ_self _⟩
    · intro within
      exact congrArg some (Nat.le_antisymm (Nat.le_of_lt_succ within.2) within.1)
  · intro query within other
    rw [Store.put_cells, if_neg other, Store.alloc_cells, if_neg (Nat.ne_of_lt within)]
  · intro bounded query beyond
    have later : store.next < query := beyond
    rw [Store.put_cells, if_neg (Nat.ne_of_gt (Nat.lt_trans inside later)), Store.alloc_cells,
      if_neg (Nat.ne_of_gt later)]
    exact bounded query (Nat.le_of_lt later)
  · exact Nat.le_succ _
  · rfl

/-- The copy of an empty tree. -/
theorem filled_nil : Filled store store none parent (.nil : BinTree α) .nil where
  alike := .nil
  top := rfl
  holds := trivial
  nodup := List.nodup_nil
  range query := by simp
  kept _ _ _ := rfl
  bounded bounded := bounded
  later := Nat.le_refl _
  root := rfl

/-- The copies of two children below a leaf make it a copy. -/
theorem filled_of_children {address leaf : Addr} {info : α}
    {left right leftCopy rightCopy : BinTree α}
    (cell : after.cells leaf = some ⟨info, leftCopy.root, rightCopy.root, parent⟩)
    (leftAlike : Alike left leftCopy) (rightAlike : Alike right rightCopy)
    (leftHolds : leftCopy.Holds after.cells (some leaf))
    (rightHolds : rightCopy.Holds after.cells (some leaf))
    (nodup : (leftCopy.addrs ++ rightCopy.addrs).Nodup) (inside : leaf < before.next)
    (range : ∀ query, query ∈ leftCopy.addrs ++ rightCopy.addrs ↔
      before.next ≤ query ∧ query < after.next)
    (kept : ∀ query, query < before.next → query ≠ leaf →
      after.cells query = before.cells query)
    (bounded : before.Bounded → after.Bounded) (later : before.next ≤ after.next)
    (root : after.root = before.root) :
    Filled before after (some leaf) parent (.node address info left right)
      (.node leaf info leftCopy rightCopy) where
  alike := .node leftAlike rightAlike
  top := rfl
  holds := ⟨cell, leftHolds, rightHolds⟩
  nodup := List.nodup_cons.mpr
    ⟨fun member => Nat.not_lt_of_le ((range leaf).mp member).1 inside, nodup⟩
  range query := by
    rw [addrs, List.mem_cons, range, Option.some.injEq]
  kept query within other := kept query within fun same => other (congrArg some same)
  bounded := bounded
  later := later
  root := root

end Grow

section Finish

variable {source memory : Store α} {tree copy : BinTree α} {parent : Option Addr}

/-- The cells of a relabelled tree are those of the tree with every link replaced. -/
theorem BinTree.Holds.relabel {twin : Addr → Addr} (holds : tree.Holds source.cells parent)
    (copied : (tree.relabel twin).Holds memory.cells (parent.map twin)) :
    ∀ address ∈ tree.addrs, ∃ cell, source.cells address = some cell ∧
      memory.cells (twin address) = some (cell.relabel twin) := by
  induction tree generalizing parent with
  | nil =>
      intro address member
      cases member
  | node top info left right leftIH rightIH =>
      rcases holds with ⟨found, leftHolds, rightHolds⟩
      rcases copied with ⟨written, leftCopied, rightCopied⟩
      intro address member
      rw [addrs, List.mem_cons, List.mem_append] at member
      rcases member with rfl | inLeft | inRight
      · refine ⟨_, found, ?_⟩
        rw [written, root_relabel, root_relabel]
        rfl
      · exact leftIH leftHolds leftCopied address inLeft
      · exact rightIH rightHolds rightCopied address inRight

/-- The memory behind the copy of a tree. -/
structure Copied (source memory : Store α) (tree copy : BinTree α) : Prop where
  duplicates : ∃ twin, source.Duplicates memory twin
  represents : Represents (memory.beyond source.next) copy
  alike : Alike tree copy

/-- An empty store is its own copy. -/
theorem copied_nil (represents : Represents source .nil) :
    Copied source (source.setRoot none) .nil .nil := by
  have none : ∀ address, source.cells address = none := by
    intro address
    by_contra live
    have owned := represents.owned address live
    cases owned
  refine ⟨⟨id, ?_, ?_, ?_, ?_, ?_, ?_⟩, ⟨rfl, trivial, trivial, List.nodup_nil, ?_, ?_⟩, .nil⟩
  · exact (represents.root.symm ▸ rfl : Option.none = source.root.map id)
  · intro address cell found
    rw [none] at found
    cases found
  · exact fun address _ => none address
  · exact fun _ _ _ _ same => same
  · exact fun _ _ => rfl
  · exact fun address live => absurd (none address) live
  · intro address live
    refine absurd ?_ live
    show (if address < source.next then Option.none else source.cells address) = Option.none
    rw [none, ite_self]
  · intro address member
    cases member

/-- The filled copy of a store is a tree of its own, and its memory duplicates the store. -/
theorem copied_of_filled {address : Addr} {info : α} {left right : BinTree α}
    (represents : Represents source (.node address info left right))
    (filled : Filled (source.sowRoot info) memory (some source.next) none
      (.node address info left right) copy) :
    Copied source memory (.node address info left right) copy := by
  have unallocated : source.Bounded := by
    intro query beyond
    by_contra live
    have owned := represents.bound query (represents.owned query live)
    exact Nat.not_lt_of_le beyond owned
  have sown : ∀ query, (source.sowRoot info).cells query =
      if query = source.next then some ⟨info, none, none, none⟩ else source.cells query :=
    fun _ => rfl
  have isNew : ∀ query, query ∈ copy.addrs ↔ source.next ≤ query ∧ query < memory.next := by
    intro query
    rw [filled.range]
    have later : source.next + 1 ≤ memory.next := filled.later
    constructor
    · rintro (same | within)
      · rw [Option.some.inj same]
        exact ⟨Nat.le_refl _, later⟩
      · exact ⟨Nat.le_of_succ_le within.1, within.2⟩
    · rintro ⟨low, high⟩
      rcases Nat.eq_or_lt_of_le low with same | above
      · exact Or.inl (congrArg some same.symm)
      · exact Or.inr ⟨above, high⟩
  have bounded : memory.Bounded := by
    apply filled.bounded
    intro query beyond
    have above : source.next < query := beyond
    rw [sown, if_neg (Nat.ne_of_gt above)]
    exact unallocated query (Nat.le_of_lt above)
  have kept : ∀ query, query < source.next → memory.cells query = source.cells query := by
    intro query low
    rw [filled.kept query (Nat.lt_succ_of_lt low), sown, if_neg (Nat.ne_of_lt low)]
    intro same
    exact Nat.ne_of_lt low (Option.some.inj same)
  have inside : ∀ query, source.cells query ≠ none → query < source.next := by
    intro query live
    exact represents.bound query (represents.owned query live)
  have nodup : (BinTree.node address info left right).addrs.Nodup := represents.focus_nodup
  refine ⟨?_, ?_, filled.alike⟩
  · rcases filled.alike.exists_twin nodup with ⟨twin, rfl⟩
    have copied := represents.focus.relabel filled.holds
    have owned : ∀ query, source.cells query ≠ none → query ∈
        (BinTree.node address info left right).addrs := by
      intro query live
      simpa [contextAddrs] using represents.owned query live
    have twinNew : ∀ query, source.cells query ≠ none → source.next ≤ twin query := by
      intro query live
      have member : twin query ∈ ((BinTree.node address info left right).relabel twin).addrs := by
        rw [addrs_relabel]
        exact List.mem_map_of_mem (owned query live)
      exact ((isNew _).mp member).1
    refine ⟨twin, ?_, ?_, ?_, ?_, ?_, ?_⟩
    · have top : source.root = some address := represents.root
      rw [filled.root, top]
      exact filled.top.symm
    · intro query cell found
      rcases copied query (owned query (by rw [found]; exact Option.some_ne_none _)) with
        ⟨other, isOther, written⟩
      rw [found] at isOther
      rw [written, Option.some.inj isOther]
    · exact fun query live => unallocated _ (twinNew query live)
    · intro one other oneLive otherLive same
      have twins := filled.nodup
      rw [addrs_relabel] at twins
      exact List.inj_on_of_nodup_map twins (owned one oneLive) (owned other otherLive) same
    · exact fun query live => kept query (inside query live)
    · intro query live
      by_cases low : query < source.next
      · rw [kept query low] at live
        exact Or.inl live
      · have high : query < memory.next := by
          by_contra beyond
          exact live (bounded query (Nat.le_of_not_lt beyond))
        have member := (isNew query).mpr ⟨Nat.le_of_not_lt low, high⟩
        rw [addrs_relabel] at member
        rcases List.mem_map.mp member with ⟨origin, isOrigin, same⟩
        rcases copied origin isOrigin with ⟨cell, found, _⟩
        exact Or.inr ⟨origin, by rw [found]; exact Option.some_ne_none _, same.symm⟩
  · refine ⟨?_, ?_, trivial, ?_, ?_, ?_⟩
    · rw [rootOf, filled.top]
      exact filled.root
    · apply filled.holds.congr
      intro query member
      exact if_neg (Nat.not_lt_of_le ((isNew query).mp member).1)
    · simpa [contextAddrs] using filled.nodup
    · intro query live
      have high : ¬ query < source.next := by
        intro low
        exact live (if_pos low)
      have isLive : memory.cells query ≠ none := by
        intro dead
        exact live ((if_neg high).trans dead)
      have below : query < memory.next := by
        by_contra beyond
        exact isLive (bounded query (Nat.le_of_not_lt beyond))
      exact List.mem_append_left _ ((isNew query).mpr ⟨Nat.le_of_not_lt high, below⟩)
    · intro query member
      have inCopy : query ∈ copy.addrs := by simpa [contextAddrs] using member
      exact ((isNew query).mp inCopy).2

/-- The leaf for the root of a copy leaves the tree as it is. -/
theorem Focus.sowRoot {address : Addr} {info : α} {left right : BinTree α}
    (represents : Represents source (.node address info left right)) :
    Sown (source.sowRoot info) (some source.next) none (.node address info left right) ∧
      (BinTree.node address info left right).Holds (source.sowRoot info).cells none ∧
      ∀ query ∈ addrs (.node address info left right),
        query < (source.sowRoot info).next ∧ some query ≠ some source.next := by
  have inside : ∀ query ∈ addrs (.node address info left right), query < source.next := by
    intro query member
    exact represents.bound query (List.mem_append_left _ member)
  refine ⟨⟨source.next, rfl, Nat.lt_succ_self _, if_pos rfl⟩, ?_, ?_⟩
  · apply represents.focus.congr
    intro query member
    exact if_neg (Nat.ne_of_lt (inside query member))
  · intro query member
    exact ⟨Nat.lt_succ_of_lt (inside query member),
      fun same => Nat.ne_of_lt (inside query member) (Option.some.inj same)⟩

end Finish

section Preorder

variable {Entry : Type}

/-- The pending copy of a child below a node. -/
def offer (below : Side → Addr → Entry) (node : Addr) (side : Side) (child : Option Addr) :
    List (Addr × Entry) :=
  child.toList.map fun source => (source, below side node)

/-- A tree is copied with each node before its children and the left child before the right one.
An entry stands for the place of a copy, below `parent` and on the side that `side` finds. -/
def Store.preorderLoop (below : Side → Addr → Entry) (parent : Entry → Addr)
    (side : Store α → Addr → Entry → Option Side) :
    Nat → Store α → List (Addr × Entry) → Option (Store α)
  | _, store, [] => some store
  | 0, _, _ :: _ => none
  | fuel + 1, store, (source, entry) :: pending => do
      let cell ← store.read source
      let (node, store) := store.alloc cell.info (some (parent entry))
      let store ← store.setChild (← side store source entry) (parent entry) (some node)
      preorderLoop below parent side fuel store
        (offer below node .left cell.left ++ (offer below node .right cell.right ++ pending))

/-- Entries lead to the node that they were made for, on the side of the source node. -/
structure Finds (below : Side → Addr → Entry) (parent : Entry → Addr)
    (side : Store α → Addr → Entry → Option Side) : Prop where
  parent : ∀ chosen node, parent (below chosen node) = node
  side : ∀ (store : Store α) chosen node address source cell child,
    store.cells address = some cell → cell.child chosen = some source →
    (chosen = .right → cell.left ≠ some source) →
    store.cells source = some child → child.parent = some address →
    side store source (below chosen node) = some chosen

theorem offer_some (below : Side → Addr → Entry) (node : Addr) (side : Side) (child : Addr) :
    offer below node side (some child) = [(child, below side node)] := rfl

variable {below : Side → Addr → Entry} {parentNode : Entry → Addr}
variable {sideOf : Store α → Addr → Entry → Option Side}
variable {before middle after : Store α} {side : Side} {node leaf address : Addr}
variable {link parent above : Option Addr} {tree copy : BinTree α} {info : α}
variable {left right leftCopy rightCopy : BinTree α}

/-- A leaf is put below a node and grows to a copy. -/
theorem SownBelow.added (sown : SownBelow before middle side node tree link)
    (filled : Filled middle after link (some node) tree copy) (inside : node < before.next) :
    Added before after side node tree copy := by
  have notLink : ∀ query, query < before.next → some query ≠ link := by
    intro query within same
    exact Nat.not_lt_of_le ((sown.range query).mp same).1 within
  constructor
  · exact filled.alike
  · intro cell found free
    rw [filled.kept node (Nat.lt_of_lt_of_le inside sown.later) (notLink node inside),
      sown.cell cell found free, filled.top]
  · exact filled.holds
  · exact filled.nodup
  · intro query
    rw [filled.range, sown.range, stretch_append sown.later filled.later]
  · intro query within other
    rw [filled.kept query (Nat.lt_of_lt_of_le within sown.later) (notLink query within),
      sown.kept query within other]
  · exact fun bounded => filled.bounded (sown.bounded bounded)
  · exact Nat.le_trans sown.later filled.later
  · exact filled.root.trans sown.root

/-- A leaf stays where it is while other cells change. -/
theorem Sown.congr {store next : Store α} (sown : Sown store link parent tree)
    (later : store.next ≤ next.next)
    (agree : ∀ query, some query = link → query < store.next →
      next.cells query = store.cells query) :
    Sown next link parent tree := by
  cases tree with
  | nil => exact sown
  | node address info left right =>
      rcases sown with ⟨leaf, rfl, inside, found⟩
      exact ⟨leaf, rfl, Nat.lt_of_lt_of_le inside later, (agree leaf rfl inside).trans found⟩

/-- Both children of a leaf are put below it, and then the right one grows first. -/
theorem filled_of_sown {one two three : Store α} {leftLink rightLink : Option Addr}
    (leftSown : SownBelow before one .left leaf left leftLink)
    (rightSown : SownBelow one two .right leaf right rightLink)
    (rightFilled : Filled two three rightLink (some leaf) right rightCopy)
    (leftFilled : Filled three after leftLink (some leaf) left leftCopy)
    (inside : leaf < before.next)
    (found : before.cells leaf = some ⟨info, none, none, parent⟩) :
    Filled before after (some leaf) parent (.node address info left right)
      (.node leaf info leftCopy rightCopy) := by
  have first := leftSown.later
  have second := rightSown.later
  have third := rightFilled.later
  have fourth := leftFilled.later
  have inLeft : ∀ query, query ∈ leftCopy.addrs ↔ before.next ≤ query ∧ query < one.next ∨
      three.next ≤ query ∧ query < after.next := by
    intro query
    rw [leftFilled.range, leftSown.range]
  have inRight : ∀ query, query ∈ rightCopy.addrs ↔ one.next ≤ query ∧ query < three.next := by
    intro query
    rw [rightFilled.range, rightSown.range, stretch_append second third]
  have notLeft : ∀ query, (query < before.next ∨ one.next ≤ query) → some query ≠ leftLink := by
    intro query apart same
    have within := (leftSown.range query).mp same
    rcases apart with low | high
    · exact Nat.not_lt_of_le within.1 low
    · exact Nat.not_lt_of_le high within.2
  have notRight : ∀ query, query < one.next → some query ≠ rightLink := by
    intro query apart same
    exact Nat.not_lt_of_le ((rightSown.range query).mp same).1 apart
  have kept : ∀ query, query < before.next → after.cells query = two.cells query := by
    intro query within
    have below := Nat.lt_of_lt_of_le within first
    have inTwo := Nat.lt_of_lt_of_le below second
    rw [leftFilled.kept query (Nat.lt_of_lt_of_le inTwo third) (notLeft query (Or.inl within)),
      rightFilled.kept query inTwo (notRight query below)]
  apply filled_of_children
  · have leftCell := leftSown.cell _ found rfl
    rw [kept leaf inside, rightSown.cell _ leftCell rfl, leftFilled.top, rightFilled.top]
    rfl
  · exact leftFilled.alike
  · exact rightFilled.alike
  · exact leftFilled.holds
  · apply rightFilled.holds.congr
    intro query member
    have within := (inRight query).mp member
    exact leftFilled.kept query within.2 (notLeft query (Or.inr within.1))
  · rw [List.nodup_append]
    refine ⟨leftFilled.nodup, rightFilled.nodup, ?_⟩
    rintro query isLeft _ isRight rfl
    have rightRange := (inRight query).mp isRight
    rcases (inLeft query).mp isLeft with early | late
    · exact Nat.not_lt_of_le rightRange.1 early.2
    · exact Nat.not_lt_of_le late.1 rightRange.2
  · exact inside
  · intro query
    rw [List.mem_append, inLeft, inRight, or_right_comm,
      stretch_append first (Nat.le_trans second third),
      stretch_append (Nat.le_trans first (Nat.le_trans second third)) fourth]
  · intro query within other
    rw [kept query within, rightSown.kept query (Nat.lt_of_lt_of_le within first) other,
      leftSown.kept query within other]
  · exact fun bounded => leftFilled.bounded (rightFilled.bounded
      (rightSown.bounded (leftSown.bounded bounded)))
  · exact Nat.le_trans first (Nat.le_trans second (Nat.le_trans third fourth))
  · rw [leftFilled.root, rightFilled.root, rightSown.root, leftSown.root]

/-- Both children of a leaf are added. -/
theorem Added.filled (leftAdded : Added before middle .left leaf left leftCopy)
    (rightAdded : Added middle after .right leaf right rightCopy) (inside : leaf < before.next)
    (found : before.cells leaf = some ⟨info, none, none, parent⟩) :
    Filled before after (some leaf) parent (.node address info left right)
      (.node leaf info leftCopy rightCopy) := by
  have first := leftAdded.later
  have second := rightAdded.later
  have leftCell := leftAdded.cell _ found rfl
  apply filled_of_children
  · exact rightAdded.cell _ leftCell rfl
  · exact leftAdded.alike
  · exact rightAdded.alike
  · apply leftAdded.holds.congr
    intro query member
    have within := (leftAdded.range query).mp member
    exact rightAdded.kept query within.2 (Nat.ne_of_gt (Nat.lt_of_lt_of_le inside within.1))
  · exact rightAdded.holds
  · rw [List.nodup_append]
    refine ⟨leftAdded.nodup, rightAdded.nodup, ?_⟩
    rintro query inLeft _ inRight rfl
    exact Nat.not_lt_of_le ((rightAdded.range query).mp inRight).1
      ((leftAdded.range query).mp inLeft).2
  · exact inside
  · intro query
    rw [List.mem_append, leftAdded.range, rightAdded.range, stretch_append first second]
  · intro query within other
    rw [rightAdded.kept query (Nat.lt_of_lt_of_le within first) other,
      leftAdded.kept query within other]
  · exact fun bounded => rightAdded.bounded (leftAdded.bounded bounded)
  · exact Nat.le_trans first second
  · exact rightAdded.root.trans leftAdded.root

/-- The copies that are pending once a leaf has been put for the root of a tree. -/
def offers (below : Side → Addr → Entry) : BinTree α → Option Addr → List (Addr × Entry)
  | .node _ _ left right, some leaf =>
      offer below leaf .left left.root ++ offer below leaf .right right.root
  | _, _ => []

/-- The number of nodes below the root. -/
def countBelow : BinTree α → Nat
  | .nil => 0
  | .node _ _ left right => left.addrs.length + right.addrs.length

/-- The loop makes a copy of a tree from the leaf that was put for its root. -/
def Grows (below : Side → Addr → Entry) (parentNode : Entry → Addr)
    (sideOf : Store α → Addr → Entry → Option Side) (tree : BinTree α) : Prop :=
  ∀ (store : Store α) (link parent above : Option Addr) (fuel : Nat)
    (pending : List (Addr × Entry)),
    Sown store link parent tree → tree.Holds store.cells above → tree.addrs.Nodup →
    (∀ query ∈ tree.addrs, query < store.next ∧ some query ≠ link) →
    ∃ after copy,
      store.preorderLoop below parentNode sideOf (countBelow tree + fuel)
          (offers below tree link ++ pending) =
        after.preorderLoop below parentNode sideOf fuel pending ∧
      Filled store after link parent tree copy

/-- The loop adds the copy of a child. -/
theorem Grows.added (grows : Grows below parentNode sideOf tree)
    (finds : Finds below parentNode sideOf) (side : Side) {store : Store α} {cell origin : Cell α}
    (found : store.cells leaf = some cell) (free : cell.child side = none)
    (inside : leaf < store.next) (isOrigin : store.cells address = some origin)
    (isChild : origin.child side = tree.root)
    (leftOther : side = .right → tree.root ≠ none → origin.left ≠ tree.root)
    (holds : tree.Holds store.cells (some address)) (nodup : tree.addrs.Nodup)
    (old : ∀ query ∈ address :: tree.addrs, query < store.next ∧ query ≠ leaf)
    (fuel : Nat) (pending : List (Addr × Entry)) :
    ∃ after copy,
      store.preorderLoop below parentNode sideOf (tree.addrs.length + fuel)
          (offer below leaf side tree.root ++ pending) =
        after.preorderLoop below parentNode sideOf fuel pending ∧
      Added store after side leaf tree copy := by
  cases tree with
  | nil =>
      refine ⟨store, .nil, ?_, (sownBelow_nil found free).added filled_nil inside⟩
      rw [BinTree.addrs_nil, List.length_nil, Nat.zero_add]
      rfl
  | node source info left right =>
      rcases sownBelow_node side source info left right found inside with ⟨next, linked, sown⟩
      have sourceOld := old source (List.mem_cons_of_mem _ (List.mem_cons_self ..))
      have originOld := old address (List.mem_cons_self ..)
      have same : ∀ query ∈ (BinTree.node source info left right).addrs,
          next.cells query = store.cells query := by
        intro query member
        have isOld := old query (List.mem_cons_of_mem _ member)
        exact sown.kept query isOld.1 isOld.2
      have nextOld : ∀ query ∈ (BinTree.node source info left right).addrs,
          query < next.next ∧ some query ≠ some store.next := by
        intro query member
        have isOld := old query (List.mem_cons_of_mem _ member)
        exact ⟨Nat.lt_of_lt_of_le isOld.1 sown.later,
          fun here => Nat.ne_of_lt isOld.1 (Option.some.inj here)⟩
      rcases grows next _ _ _ fuel pending sown.sown (holds.congr same) nodup nextOld with
        ⟨after, copy, ran, filled⟩
      refine ⟨after, copy, ?_, sown.added filled inside⟩
      rw [← ran]
      rcases holds with ⟨sourceCell, leftHolds, rightHolds⟩
      have decided : sideOf (store.alloc info (some leaf)).2 source (below side leaf) =
          some side := by
        apply finds.side _ side leaf address source origin
        · rw [Store.alloc_cells, if_neg (Nat.ne_of_lt originOld.1), isOrigin]
        · exact isChild
        · exact fun isRight => leftOther isRight (Option.some_ne_none _)
        · rw [Store.alloc_cells, if_neg (Nat.ne_of_lt sourceOld.1), sourceCell]
        · rfl
      have count : (BinTree.node source info left right).addrs.length + fuel =
          (countBelow (BinTree.node source info left right) + fuel) + 1 := by
        simp only [addrs, countBelow, List.length_cons, List.length_append]
        omega
      rw [count, BinTree.root_node, offer_some, List.singleton_append, Store.preorderLoop,
        Store.read_eq sourceCell]
      simp only [Option.bind_eq_bind, Option.bind_some, finds.parent, Cell.info_of]
      rw [decided, Option.bind_some]
      show Option.bind (Store.setChild (store.alloc info (some leaf)).2 side leaf
        (some store.next)) _ = _
      rw [linked, Option.bind_some, offers, List.append_assoc]
      rfl

/-- The loop makes a copy of every tree. -/
theorem grows (finds : Finds below parentNode sideOf) (tree : BinTree α) :
    Grows below parentNode sideOf tree := by
  induction tree with
  | nil =>
      intro store link parent above fuel pending sown _ _ _
      cases sown
      exact ⟨store, .nil, by rw [countBelow, Nat.zero_add]; rfl, filled_nil⟩
  | node address info left right leftIH rightIH =>
      intro store link parent above fuel pending sown holds nodup old
      rcases sown with ⟨leaf, rfl, inside, found⟩
      rcases holds with ⟨isOrigin, leftHolds, rightHolds⟩
      have parts := nodup
      rw [addrs, List.nodup_cons, List.nodup_append] at parts
      rcases parts with ⟨top, leftNodup, rightNodup, apart⟩
      have isOld : ∀ query ∈ addrs (.node address info left right),
          query < store.next ∧ query ≠ leaf := by
        intro query member
        exact ⟨(old query member).1, fun same => (old query member).2 (congrArg some same)⟩
      have leftOld : ∀ query ∈ address :: left.addrs, query < store.next ∧ query ≠ leaf := by
        intro query member
        apply isOld
        rcases List.mem_cons.mp member with rfl | inLeft
        · exact List.mem_cons_self ..
        · exact List.mem_cons_of_mem _ (List.mem_append_left _ inLeft)
      have rightOld : ∀ query ∈ address :: right.addrs, query < store.next ∧ query ≠ leaf := by
        intro query member
        apply isOld
        rcases List.mem_cons.mp member with rfl | inRight
        · exact List.mem_cons_self ..
        · exact List.mem_cons_of_mem _ (List.mem_append_right _ inRight)
      rcases leftIH.added finds .left found rfl inside isOrigin rfl
        (fun isRight => by cases isRight) leftHolds leftNodup leftOld (right.addrs.length + fuel)
        (offer below leaf .right right.root ++ pending) with
        ⟨middle, leftCopy, leftRan, leftAdded⟩
      have same : ∀ query ∈ address :: right.addrs,
          middle.cells query = store.cells query := fun query member =>
        leftAdded.kept query (rightOld query member).1 (rightOld query member).2
      have leftOther : right.root ≠ none → left.root ≠ right.root := by
        intro some same
        cases isRoot : right.root with
        | none => exact some isRoot
        | some child =>
            have inLeft := BinTree.root_mem_addrs (same.trans isRoot)
            exact apart child inLeft child (BinTree.root_mem_addrs isRoot) rfl
      rcases rightIH.added finds .right (leftAdded.cell _ found rfl) rfl
        (Nat.lt_of_lt_of_le inside leftAdded.later)
        ((same address (List.mem_cons_self ..)).trans isOrigin) rfl (fun _ => leftOther)
        (rightHolds.congr fun query member => same query (List.mem_cons_of_mem _ member))
        rightNodup
        (fun query member => ⟨Nat.lt_of_lt_of_le (rightOld query member).1 leftAdded.later,
          (rightOld query member).2⟩) fuel pending with
        ⟨after, rightCopy, rightRan, rightAdded⟩
      refine ⟨after, .node leaf info leftCopy rightCopy, ?_,
        leftAdded.filled rightAdded inside found⟩
      rw [← rightRan, ← leftRan, countBelow, offers, List.append_assoc, Nat.add_assoc]

/-- Started with a leaf for the root, the loop makes a copy of a store. -/
theorem preorderLoop_copied (finds : Finds below parentNode sideOf) {source : Store α}
    (represents : Represents source (.node address info left right)) {fuel : Nat}
    (enough : source.next ≤ fuel) :
    ∃ memory copy,
      (source.sowRoot info).preorderLoop below parentNode sideOf fuel
          (offers below (.node address info left right) (some source.next)) = some memory ∧
      Copied source memory (.node address info left right) copy := by
  rcases represents.sowRoot with ⟨sown, holds, old⟩
  have large : countBelow (.node address info left right) ≤ fuel := calc
    _ = (left.addrs ++ right.addrs).length := List.length_append.symm
    _ ≤ (BinTree.node address info left right).addrs.length := Nat.le_succ _
    _ ≤ source.next := Nat.le_trans (Nat.le_add_right ..) represents.length_le
    _ ≤ fuel := enough
  rcases grows finds (.node address info left right) (source.sowRoot info) (some source.next) none
      none (fuel - countBelow (.node address info left right)) []
      sown holds represents.focus_nodup old with
    ⟨memory, copy, ran, filled⟩
  refine ⟨memory, copy, ?_, copied_of_filled represents filled⟩
  rw [Nat.add_sub_cancel' large, List.append_nil] at ran
  rw [ran]
  cases fuel - countBelow (.node address info left right) <;> rfl

end Preorder

end Wan.Library.LinkedTree
