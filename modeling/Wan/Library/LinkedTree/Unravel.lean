import Wan.Library.LinkedTree.Focus

/-!
# Deleting a tree by rotations

A tree is deleted without a stack: at a node with a left child the child is rotated up, and a
node without one is deleted.  The memory is a parameter, of which only the child links matter.
The tree stays a tree throughout, with its nodes in the same order, and `effort` counts what is
left to do: a rotation moves a node to the right spine, where it costs one step less.
-/

namespace Wan.Library.LinkedTree

variable {α τ : Type}

/-- The child links of every allocated node. -/
abbrev Links := Addr → Option (Option Addr × Option Addr)

namespace Links

/-- Write the links of a node, or release it. -/
def write (links : Links) (address : Addr) (content : Option (Option Addr × Option Addr)) :
    Links :=
  fun query => if query = address then content else links query

variable {links : Links} {address query : Addr} {content : Option (Option Addr × Option Addr)}

@[simp] theorem write_self : links.write address content address = content := if_pos rfl

theorem write_of_ne (different : query ≠ address) :
    links.write address content query = links query := if_neg different

end Links

/-- A memory of nodes with two child links. -/
structure Rewiring (τ : Type) where
  links : τ → Links
  setChild : τ → Side → Addr → Option Addr → Option τ
  free : τ → Addr → Option τ

/-- The steps on a memory do what they say to the links. -/
structure Rewiring.Lawful (rewiring : Rewiring τ) : Prop where
  setLeft : ∀ {memory address left right} (link : Option Addr),
    rewiring.links memory address = some (left, right) →
    ∃ next, rewiring.setChild memory .left address link = some next ∧
      rewiring.links next = (rewiring.links memory).write address (some (link, right))
  setRight : ∀ {memory address left right} (link : Option Addr),
    rewiring.links memory address = some (left, right) →
    ∃ next, rewiring.setChild memory .right address link = some next ∧
      rewiring.links next = (rewiring.links memory).write address (some (left, link))
  free : ∀ {memory address children}, rewiring.links memory address = some children →
    ∃ next, rewiring.free memory address = some next ∧
      rewiring.links next = (rewiring.links memory).write address none

/-- The loop: the memory afterwards and the nodes in the order of their deletion. -/
def unravel (rewiring : Rewiring τ) :
    Nat → τ → Option Addr → List Addr → Option (τ × List Addr)
  | _, memory, none, deleted => some (memory, deleted)
  | 0, _, some _, _ => none
  | fuel + 1, memory, some current, deleted => do
      let (left, right) ← rewiring.links memory current
      match left with
      | some left => do
          let (_, inner) ← rewiring.links memory left
          let memory ← rewiring.setChild memory .left current inner
          let memory ← rewiring.setChild memory .right left (some current)
          unravel rewiring fuel memory (some left) deleted
      | none => do
          let memory ← rewiring.free memory current
          unravel rewiring fuel memory right (deleted ++ [current])

namespace BinTree

/-- The child links of a tree are in place. -/
def Hangs (links : Links) : BinTree α → Prop
  | nil => True
  | node address _ left right =>
      links address = some (left.root, right.root) ∧ left.Hangs links ∧ right.Hangs links

/-- The number of rotations and deletions that are left: one for a node of the right spine, two
for every other one. -/
def effort : BinTree α → Nat
  | nil => 0
  | node _ _ left right => 2 * left.addrs.length + 1 + right.effort

theorem effort_le (tree : BinTree α) : tree.effort ≤ 2 * tree.addrs.length := by
  induction tree with
  | nil => exact Nat.le_refl _
  | node address info left right leftIH rightIH =>
      rw [effort, addrs, List.length_cons, List.length_append]
      omega

/-- A rotation saves one step. -/
theorem effort_rotate (outer inner : Addr) (outerInfo innerInfo : α) (a b c : BinTree α) :
    (node outer outerInfo (node inner innerInfo a b) c).effort =
      (node inner innerInfo a (node outer outerInfo b c)).effort + 1 := by
  rw [effort, effort, effort, addrs, List.length_cons, List.length_append]
  omega

theorem addrs_rotate (outer inner : Addr) (outerInfo innerInfo : α) (a b c : BinTree α) :
    (node outer outerInfo (node inner innerInfo a b) c).addrs.Perm
      (node inner innerInfo a (node outer outerInfo b c)).addrs := by
  simp only [addrs, List.cons_append, List.append_assoc]
  exact ((List.Perm.swap ..).trans (List.perm_middle.symm.cons _))

variable {links next : Links} {tree : BinTree α}

theorem Hangs.congr (hangs : tree.Hangs links)
    (agree : ∀ query ∈ tree.addrs, next query = links query) : tree.Hangs next := by
  induction tree with
  | nil => trivial
  | node address info left right leftIH rightIH =>
      obtain ⟨top, leftHangs, rightHangs⟩ := hangs
      refine ⟨(agree address List.mem_cons_self).trans top, leftIH leftHangs ?_,
        rightIH rightHangs ?_⟩
      · intro query member
        exact agree query (List.mem_cons_of_mem _ (List.mem_append_left _ member))
      · intro query member
        exact agree query (List.mem_cons_of_mem _ (List.mem_append_right _ member))

/-- A write outside a tree leaves it in place. -/
theorem Hangs.write {address : Addr} {content : Option (Option Addr × Option Addr)}
    (hangs : tree.Hangs links) (outside : address ∉ tree.addrs) :
    tree.Hangs (links.write address content) :=
  hangs.congr fun _ member => Links.write_of_ne (ne_of_mem_of_not_mem member outside)

theorem Hangs.allocated (hangs : tree.Hangs links)
    {address : Addr} (isIn : address ∈ tree.addrs) : links address ≠ none := by
  induction tree with
  | nil => exact absurd isIn List.not_mem_nil
  | node top info left right leftIH rightIH =>
      obtain ⟨found, leftHangs, rightHangs⟩ := hangs
      rcases List.mem_cons.1 isIn with rfl | isIn
      · rw [found]
        exact Option.some_ne_none _
      · rcases List.mem_append.1 isIn with isIn | isIn
        · exact leftIH leftHangs isIn
        · exact rightIH rightHangs isIn

end BinTree

open BinTree

section Unravel

variable {rewiring : Rewiring τ} {memory : τ}

/-- The memory holds a tree, and maybe other nodes. -/
structure Hanging (rewiring : Rewiring τ) (memory : τ) (tree : BinTree α) : Prop where
  hangs : tree.Hangs (rewiring.links memory)
  nodup : tree.addrs.Nodup

/-- Rotating the left child up: two child links are written, and the tree has turned. -/
theorem Hanging.rotate (lawful : rewiring.Lawful) {outer inner : Addr} {outerInfo innerInfo : α}
    {a b c : BinTree α}
    (hanging : Hanging rewiring memory (.node outer outerInfo (.node inner innerInfo a b) c)) :
    ∃ between next, rewiring.setChild memory .left outer b.root = some between ∧
      rewiring.setChild between .right inner (some outer) = some next ∧
      Hanging rewiring next (.node inner innerInfo a (.node outer outerInfo b c)) ∧
      ∀ query, query ≠ outer → query ≠ inner →
        rewiring.links next query = rewiring.links memory query := by
  obtain ⟨⟨outerLinks, ⟨innerLinks, aHangs, bHangs⟩, cHangs⟩, nodup⟩ := hanging
  have turned := (addrs_rotate outer inner outerInfo innerInfo a b c).nodup nodup
  simp only [addrs, List.cons_append, List.append_assoc, List.nodup_cons, List.mem_cons,
    List.mem_append, not_or] at nodup
  obtain ⟨⟨different, outerA, outerB, outerC⟩, ⟨innerA, innerB, innerC⟩, _⟩ := nodup
  obtain ⟨between, wroteOuter, betweenLinks⟩ := lawful.setLeft b.root outerLinks
  have innerStays : rewiring.links between inner = some (a.root, b.root) := by
    rw [betweenLinks, Links.write_of_ne (Ne.symm different), innerLinks]
  obtain ⟨next, wroteInner, nextLinks⟩ := lawful.setRight (some outer) innerStays
  refine ⟨between, next, wroteOuter, wroteInner, ⟨?_, turned⟩, ?_⟩
  · rw [nextLinks, betweenLinks]
    refine ⟨Links.write_self, (aHangs.write outerA).write innerA, ?_,
      (bHangs.write outerB).write innerB, (cHangs.write outerC).write innerC⟩
    rw [Links.write_of_ne different, Links.write_self]
  · intro query notOuter notInner
    rw [nextLinks, Links.write_of_ne notInner, betweenLinks, Links.write_of_ne notOuter]

/-- Deleting a node without a left child leaves its right subtree. -/
theorem Hanging.delete (lawful : rewiring.Lawful) {address : Addr} {info : α}
    {right : BinTree α} (hanging : Hanging rewiring memory (.node address info .nil right)) :
    ∃ next, rewiring.free memory address = some next ∧ Hanging rewiring next right ∧
      rewiring.links next = (rewiring.links memory).write address none := by
  obtain ⟨⟨top, _, rightHangs⟩, nodup⟩ := hanging
  rw [addrs, addrs_nil, List.nil_append, List.nodup_cons] at nodup
  obtain ⟨next, freed, nextLinks⟩ := lawful.free top
  refine ⟨next, freed, ⟨?_, nodup.2⟩, nextLinks⟩
  rw [nextLinks]
  exact rightHangs.write nodup.1

/-- Some nodes are gone and all others are as they were. -/
structure Cleared (rewiring : Rewiring τ) (before after : τ) (addresses : List Addr) : Prop where
  gone : ∀ query ∈ addresses, rewiring.links after query = none
  stays : ∀ query, query ∉ addresses → rewiring.links after query = rewiring.links before query

theorem unravel_none (fuel : Nat) (deleted : List Addr) :
    unravel rewiring fuel memory none deleted = some (memory, deleted) := by
  cases fuel <;> rfl

/-- The iteration at a node with a left child. -/
theorem unravel_rotate {between next : τ} {outer inner : Addr}
    {right innerLeft innerRight : Option Addr}
    (outerLinks : rewiring.links memory outer = some (some inner, right))
    (innerLinks : rewiring.links memory inner = some (innerLeft, innerRight))
    (wroteOuter : rewiring.setChild memory .left outer innerRight = some between)
    (wroteInner : rewiring.setChild between .right inner (some outer) = some next)
    (fuel : Nat) (deleted : List Addr) :
    unravel rewiring (fuel + 1) memory (some outer) deleted =
      unravel rewiring fuel next (some inner) deleted := by
  simp only [unravel, outerLinks, innerLinks, wroteOuter, wroteInner, Option.bind_eq_bind,
    Option.bind_some]

/-- The iteration at a node without one. -/
theorem unravel_delete {next : τ} {address : Addr} {right : Option Addr}
    (links : rewiring.links memory address = some (none, right))
    (freed : rewiring.free memory address = some next) (fuel : Nat) (deleted : List Addr) :
    unravel rewiring (fuel + 1) memory (some address) deleted =
      unravel rewiring fuel next right (deleted ++ [address]) := by
  simp only [unravel, links, freed, Option.bind_eq_bind, Option.bind_some]

/-- The loop ends, deletes the nodes of the tree from left to right, and touches no other. -/
theorem unravel_spec (lawful : rewiring.Lawful) {fuel : Nat} {tree : BinTree α}
    (hanging : Hanging rewiring memory tree) (enough : tree.effort ≤ fuel)
    (deleted : List Addr) :
    ∃ after, unravel rewiring fuel memory tree.root deleted =
        some (after, deleted ++ tree.inorder.map Prod.fst) ∧
      Cleared rewiring memory after tree.addrs := by
  -- Each iteration saves one unit of effort, whether it rotates or deletes.
  induction fuel generalizing memory tree deleted with
  | zero =>
      cases tree with
      | nil =>
          refine ⟨memory, ?_, fun _ isIn => absurd isIn List.not_mem_nil, fun _ _ => rfl⟩
          rw [root_nil, unravel_none, inorder_nil, List.map_nil, List.append_nil]
      | node address info left right =>
          rw [effort] at enough
          omega
  | succ fuel ih =>
      cases tree with
      | nil =>
          refine ⟨memory, ?_, fun _ isIn => absurd isIn List.not_mem_nil, fun _ _ => rfl⟩
          rw [root_nil, unravel_none, inorder_nil, List.map_nil, List.append_nil]
      | node outer outerInfo left c =>
          have outerLinks := hanging.hangs.1
          cases left with
          | nil =>
              have fresh := (List.nodup_cons.1 hanging.nodup).1
              rw [addrs_nil, List.nil_append] at fresh
              obtain ⟨next, freed, rest, nextLinks⟩ := hanging.delete lawful
              rw [effort, addrs_nil, List.length_nil] at enough
              obtain ⟨after, ran, cleared⟩ := ih rest (by omega) (deleted ++ [outer])
              refine ⟨after, ?_, ?_, ?_⟩
              · rw [root_node, unravel_delete outerLinks freed, ran, List.append_assoc]
                rfl
              · intro query isIn
                rcases List.mem_cons.1 isIn with rfl | isIn
                · rw [cleared.stays _ fresh, nextLinks, Links.write_self]
                · exact cleared.gone query isIn
              · intro query outside
                rw [addrs, addrs_nil, List.nil_append, List.mem_cons, not_or] at outside
                rw [cleared.stays query outside.2, nextLinks, Links.write_of_ne outside.1]
          | node inner innerInfo a b =>
              obtain ⟨between, next, wroteOuter, wroteInner, turned, others⟩ :=
                hanging.rotate lawful
              have perm := addrs_rotate outer inner outerInfo innerInfo a b c
              rw [effort_rotate] at enough
              obtain ⟨after, ran, cleared⟩ := ih turned (Nat.le_of_succ_le_succ enough) deleted
              refine ⟨after, ?_, ?_, ?_⟩
              · rw [root_node, unravel_rotate outerLinks hanging.hangs.2.1.1 wroteOuter wroteInner]
                have order : (node outer outerInfo (node inner innerInfo a b) c).inorder =
                    (node inner innerInfo a (node outer outerInfo b c)).inorder :=
                  inorder_rotate .left inner outer innerInfo outerInfo a b c
                rw [order]
                exact ran
              · intro query isIn
                exact cleared.gone query (perm.mem_iff.1 isIn)
              · intro query outside
                rw [cleared.stays query fun isIn => outside (perm.mem_iff.2 isIn)]
                apply others
                · rintro rfl
                  exact outside List.mem_cons_self
                · rintro rfl
                  exact outside (by simp [addrs])

/-- The memory holds a tree and nothing else. -/
structure Spans (rewiring : Rewiring τ) (memory : τ) (next : Addr) (root : Option Addr)
    (tree : BinTree α) : Prop extends Hanging rewiring memory tree where
  root : root = tree.root
  owned : ∀ address, rewiring.links memory address ≠ none → address ∈ tree.addrs
  bound : ∀ address ∈ tree.addrs, address < next

variable {next : Addr} {root : Option Addr} {tree : BinTree α}

theorem Spans.length_le (spans : Spans rewiring memory next root tree) :
    tree.addrs.length ≤ next := by
  have within : tree.addrs ⊆ List.range next := fun address isIn =>
    List.mem_range.2 (spans.bound address isIn)
  have length := (List.subperm_of_subset spans.nodup within).length_le
  rwa [List.length_range] at length

/-- Twice as many steps as nodes are enough to delete every node once. -/
theorem Spans.unravel (lawful : rewiring.Lawful)
    (spans : Spans rewiring memory next root tree) :
    ∃ after deleted, unravel rewiring (2 * next) memory root [] = some (after, deleted) ∧
      deleted.Nodup ∧ (∀ address, address ∈ deleted ↔ rewiring.links memory address ≠ none) ∧
      ∀ address, rewiring.links after address = none := by
  have enough : tree.effort ≤ 2 * next :=
    Nat.le_trans (effort_le tree) (Nat.mul_le_mul_left 2 spans.length_le)
  obtain ⟨after, ran, cleared⟩ := unravel_spec lawful spans.toHanging enough []
  have perm := inorder_addrs_perm tree
  rw [← spans.root, List.nil_append] at ran
  refine ⟨after, _, ran, perm.nodup_iff.2 spans.nodup, ?_, ?_⟩
  · intro address
    rw [perm.mem_iff]
    exact ⟨spans.hangs.allocated, spans.owned address⟩
  · intro address
    by_cases isIn : address ∈ tree.addrs
    · exact cleared.gone address isIn
    · rw [cleared.stays address isIn]
      by_contra live
      exact isIn (spans.owned address live)

end Unravel

section Store

/-- The child links of a store. -/
def Store.rewiring : Rewiring (Store α) where
  links store address := (store.read address).map fun cell => (cell.left, cell.right)
  setChild := Store.setChild
  free := Store.free

variable {store : Store α} {address : Addr}

theorem Store.links_put (cell : Cell α) : Store.rewiring.links (store.put address cell) =
    (Store.rewiring.links store).write address (some (cell.left, cell.right)) := by
  funext query
  by_cases same : query = address
  · simp [rewiring, read, Links.write, same]
  · simp [rewiring, read, Links.write, same]

theorem Store.rewiring_lawful : (rewiring : Rewiring (Store α)).Lawful where
  setLeft := by
    intro store address left right link found
    obtain ⟨cell, isCell, same⟩ := Option.map_eq_some_iff.1 found
    cases same
    exact ⟨_, setChild_eq .left link isCell, links_put _⟩
  setRight := by
    intro store address left right link found
    obtain ⟨cell, isCell, same⟩ := Option.map_eq_some_iff.1 found
    cases same
    exact ⟨_, setChild_eq .right link isCell, links_put _⟩
  free := by
    intro store address children found
    obtain ⟨cell, isCell, _⟩ := Option.map_eq_some_iff.1 found
    refine ⟨_, congrArg (Option.map _) isCell, ?_⟩
    funext query
    by_cases same : query = address
    · simp [rewiring, read, Links.write, same]
    · simp [rewiring, read, Links.write, same]

theorem BinTree.Holds.hangs {tree : BinTree α} {parent : Option Addr}
    (holds : tree.Holds store.cells parent) : tree.Hangs (Store.rewiring.links store) := by
  induction tree generalizing parent with
  | nil => trivial
  | node address info left right leftIH rightIH =>
      obtain ⟨found, leftHolds, rightHolds⟩ := holds
      exact ⟨congrArg (Option.map _) found, leftIH leftHolds, rightIH rightHolds⟩

/-- A store that represents a tree holds nothing else. -/
theorem Focus.spans {tree : BinTree α} (represents : Represents store tree) :
    Spans Store.rewiring store store.next store.root tree where
  hangs := represents.focus.hangs
  nodup := by simpa [contextAddrs] using represents.nodup
  root := represents.root
  owned address live := by
    have isIn := represents.owned address fun free =>
      live (congrArg (Option.map _) (show store.read address = none from free))
    simpa [contextAddrs] using isIn
  bound address isIn := represents.bound address (List.mem_append_left _ isIn)

end Store

end Wan.Library.LinkedTree
