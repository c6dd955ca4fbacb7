import Wan.Library.LinkedTree.Focus

/-!
# Updates of a focused store

What the primitive operations of a store do to the tree it represents: reading
the focused node and the frame above it, changing a payload, redirecting the
link above the focus, allocating into an empty hole and rotating.
-/

namespace Wan.Library.LinkedTree

namespace Focus

variable {α : Type} {store next : Store α} {frame : Frame α}
variable {frames : List (Frame α)} {tree near far : BinTree α}
variable {side : Side} {address : Addr} {info : α}

/-- The cell of the focused node. -/
theorem cell (focus : Focus store frames (.mk side address info near far)) :
    store.cells address =
      some (.of side info near.root far.root (parentOf frames)) :=
  ((BinTree.holds_mk ..).mp focus.focus).1

/-- The cell of the node above the focus. -/
theorem frame_cell (focus : Focus store (frame :: frames) tree) :
    store.cells frame.address = some (frame.cell tree.root (parentOf frames)) :=
  focus.context.1

/-- The focused subtree and the frames share no address. -/
theorem apart (focus : Focus store frames tree) {query : Addr}
    (member : query ∈ tree.addrs) : query ∉ contextAddrs frames :=
  fun inContext => (List.nodup_append.mp focus.nodup).2.2 query member query inContext rfl

/-- Every address of the represented tree is allocated. -/
theorem live (focus : Focus store frames tree) {query : Addr}
    (member : query ∈ tree.addrs ++ contextAddrs frames) : store.cells query ≠ none := by
  induction frames generalizing tree with
  | nil => exact focus.focus.allocated (by simpa [contextAddrs] using member)
  | cons frame frames ih => exact ih focus.up ((addrs_plug_perm ..).mem_iff.mp member)

theorem focus_nodup (focus : Focus store frames tree) : tree.addrs.Nodup :=
  (List.nodup_append.mp focus.nodup).1

/-- The addresses of a focused node and its two subtrees are apart. -/
theorem node_apart (focus : Focus store frames (.mk side address info near far)) :
    address ∉ near.addrs ∧ address ∉ far.addrs ∧
      (∀ query ∈ near.addrs, query ∉ far.addrs) := by
  have nodup := (BinTree.addrs_mk_perm side address info near far).nodup focus.focus_nodup
  simp only [List.nodup_cons, List.mem_append, not_or] at nodup
  exact ⟨nodup.1.1, nodup.1.2,
    fun query left right => (List.nodup_append.mp nodup.2).2.2 query left query right rfl⟩

theorem frame_sibling_root (focus : Focus store (frame :: frames) tree)
    (nonempty : tree ≠ .nil) : frame.sibling.root ≠ tree.root := by
  intro equal
  obtain ⟨address, root⟩ : ∃ address, tree.root = some address := by
    cases tree with
    | nil => exact absurd rfl nonempty
    | node address info left right => exact ⟨address, rfl⟩
  refine focus.apart (BinTree.root_mem_addrs root) ?_
  have member := BinTree.root_mem_addrs (equal.trans root)
  simp [contextAddrs, member]

/-- Comparing the left link of the node above the focus tells the side of the
hole. -/
theorem frame_left_iff (focus : Focus store (frame :: frames) tree)
    (root : tree.root = some address) (parent : Option Addr) :
    (frame.cell (some address) parent).left = some address ↔ frame.side = .left := by
  have sibling := focus.frame_sibling_root (by rintro rfl; simp at root)
  rw [root] at sibling
  rcases frame with ⟨side, top, topInfo, beside⟩
  cases side with
  | left => simp [Frame.cell, Cell.of]
  | right => simpa [Frame.cell, Cell.of] using sibling

theorem frame_side (focus : Focus store (frame :: frames) tree)
    (root : tree.root = some address) (parent : Option Addr) :
    (if (frame.cell (some address) parent).left = some address then Side.left
      else Side.right) = frame.side := by
  simp only [focus.frame_left_iff root parent]
  cases frame.side <;> rfl

/-- The focus is the root of the store exactly when no frame is above it. -/
theorem root_eq_iff (focus : Focus store frames tree) :
    tree.root = store.root ↔ frames = [] := by
  constructor
  · intro equal
    cases frames with
    | nil => rfl
    | cons frame frames =>
        obtain ⟨address, member, root⟩ := rootOf_mem frame frames tree.root
        rw [focus.root, root] at equal
        exact absurd member (focus.apart (BinTree.root_mem_addrs equal))
  · rintro rfl
    exact focus.root.symm

/-- Changing the payload of the focused node. -/
theorem setInfo (change : α → α)
    (focus : Focus store frames (.mk side address info near far)) :
    ∃ next, store.setInfo address change = some next ∧
      Focus next frames (.mk side address (change info) near far) := by
  have found := focus.cell
  obtain ⟨notNear, notFar, _⟩ := focus.node_apart
  have notContext : address ∉ contextAddrs frames :=
    focus.apart ((BinTree.mem_addrs_mk ..).mpr (Or.inl rfl))
  refine ⟨_, Store.setInfo_eq change found, ?_⟩
  have elsewhere : ∀ query, query ≠ address →
      (store.put address ((Cell.of side info near.root far.root
        (parentOf frames)).mapInfo change)).cells query = store.cells query := by
    intro query different
    simp [different]
  have inside := (BinTree.holds_mk ..).mp focus.focus
  have perm := (BinTree.addrs_mk_perm side address (change info) near far).trans
    (BinTree.addrs_mk_perm side address info near far).symm
  refine focus.replace (by simpa using focus.root) ?_ ?_ ?_ ?_ ?_ ?_ ?_ (Nat.le_refl _)
  · refine (BinTree.holds_mk ..).mpr ⟨by simp, inside.2.1.congr ?_, inside.2.2.congr ?_⟩
    · exact fun query member => elsewhere query (ne_of_mem_of_not_mem member notNear)
    · exact fun query member => elsewhere query (ne_of_mem_of_not_mem member notFar)
  · rintro frame rest rfl
    rw [elsewhere _ (by rintro rfl; simp [contextAddrs] at notContext), focus.frame_cell]
    simp
  · exact fun query member _ => elsewhere query (ne_of_mem_of_not_mem member notContext)
  · exact perm.symm.nodup focus.focus_nodup
  · exact fun query member => focus.apart (perm.mem_iff.mp member)
  · intro query live outside
    refine perm.mem_iff.mpr ?_
    have allocated : store.cells query ≠ none := by
      by_cases equal : query = address
      · simp [equal, found]
      · rwa [elsewhere query equal] at live
    exact (List.mem_append.mp (focus.owned query allocated)).resolve_right outside
  · exact fun query member => focus.bound query
      (List.mem_append_left _ (perm.mem_iff.mp member))

/-- Redirecting the link above the focus, whichever of the parent's links the
program compares. -/
theorem relink_eq (compared : Side) {old : Addr} (link : Option Addr)
    {parent : Option Addr} (sibling : frame.sibling.root ≠ some old)
    (found : store.cells frame.address = some (frame.cell (some old) parent)) :
    store.relink compared (some frame.address) old link =
      some (store.put frame.address (frame.cell link parent)) := by
  have read := Store.read_eq found
  simp only [Store.relink, read, Option.bind_eq_bind, Option.bind_some, Frame.cell]
  rcases Side.eq_or_eq_other compared frame.side with same | opposite
  · subst same
    simp [Store.setChild_eq _ _ found, Frame.cell]
  · subst opposite
    simp only [Cell.child_other_of, Side.other_other, sibling, if_false]
    simp [Store.setChild_eq _ _ found, Frame.cell]

/-- Redirecting the parent link behind a link that may be null. -/
theorem adopt_spec (link parent : Option Addr)
    (allocated : ∀ query, link = some query → store.cells query ≠ none) :
    ∃ next, store.adopt link parent = some next ∧
      next.root = store.root ∧ next.next = store.next ∧
      (∀ query cell, link = some query → store.cells query = some cell →
        next.cells query = some (cell.setParent parent)) ∧
      ∀ query, link ≠ some query → next.cells query = store.cells query := by
  cases link with
  | none => exact ⟨store, rfl, rfl, rfl, by simp, fun _ _ => rfl⟩
  | some address =>
      obtain ⟨cell, found⟩ := Option.ne_none_iff_exists'.mp (allocated address rfl)
      refine ⟨_, Store.setParent_eq parent found, rfl, rfl, ?_, ?_⟩
      · intro query cell equal here
        cases equal
        rw [found] at here
        cases here
        simp
      · intro query different
        have apart : query ≠ address := fun equal => different (by rw [equal])
        simp [apart]

/-- Redirecting the parent link of a focused subtree to where it points already. -/
theorem adopt_self (focus : Focus store frames tree) :
    store.adopt tree.root (parentOf frames) = some store := by
  cases tree with
  | nil => rfl
  | node address info left right =>
      have found := focus.focus.1
      rw [BinTree.root_node, Store.adopt, Store.setParent_eq _ found, Cell.setParent_of,
        Store.put_self found]

/-- Redirecting the one link that leads to `old` when it hangs below `frames`. -/
theorem relink_spec (compared : Side) {old : Addr} (link : Option Addr)
    (root : store.root = rootOf frames (some old))
    (top : ∀ frame rest, frames = frame :: rest →
      frame.sibling.root ≠ some old ∧
        store.cells frame.address = some (frame.cell (some old) (parentOf rest))) :
    ∃ next, store.relink compared (parentOf frames) old link = some next ∧
      next.root = rootOf frames link ∧ next.next = store.next ∧
      (∀ frame rest, frames = frame :: rest →
        next.cells frame.address = some (frame.cell link (parentOf rest))) ∧
      ∀ query, parentOf frames ≠ some query → next.cells query = store.cells query := by
  cases frames with
  | nil => exact ⟨store.setRoot link, rfl, rfl, rfl, by simp, fun _ _ => rfl⟩
  | cons frame rest =>
      obtain ⟨sibling, found⟩ := top frame rest rfl
      refine ⟨_, relink_eq compared link sibling found, root, rfl, ?_, ?_⟩
      · rintro _ _ ⟨rfl, rfl⟩
        simp
      · intro query different
        have apart : query ≠ frame.address := fun equal => different (by rw [equal]; rfl)
        simp [apart]

/-- The node above the focus is not part of it. -/
theorem parentOf_ne (focus : Focus store frames tree) {query : Addr}
    (member : query ∈ tree.addrs) : parentOf frames ≠ some query := by
  exact fun equal => focus.apart member (parentOf_mem equal)

/-- The node above a hole deeper in a subtree is not the node above the
subtree. -/
theorem parentOf_append_eq {inner : List (Frame α)}
    (focus : Focus store (inner ++ frame :: frames) tree) :
    parentOf (inner ++ frame :: frames) = some frame.address ↔ inner = [] := by
  constructor
  · intro equal
    cases inner with
    | nil => rfl
    | cons first inner =>
        have nodup := (List.nodup_append.mp focus.nodup).2.1
        simp only [List.cons_append, parentOf_cons, Option.some.injEq] at equal
        simp only [List.cons_append, contextAddrs, equal, List.nodup_cons, List.mem_append,
          not_or] at nodup
        exact absurd (mem_contextAddrs_append inner frame frames) nodup.1.2
  · intro equal
    simp [equal]

/-- Rotation. The links of the two turning nodes, of the subtree that changes
sides and of the node above are redirected, their payloads may change, and no
other cell does. -/
theorem rotate {outer inner : Addr} {outerInfo innerInfo newOuter newInner : α}
    {a b c : BinTree α}
    (focus : Focus store frames (.mk side outer outerInfo a (.mk side inner innerInfo b c)))
    (root : next.root = rootOf frames (some inner))
    (outerCell : next.cells outer = some (.of side newOuter a.root b.root (some inner)))
    (innerCell : next.cells inner =
      some (.of side newInner (some outer) c.root (parentOf frames)))
    (middle : ∀ query cell, b.root = some query → store.cells query = some cell →
      next.cells query = some (cell.setParent (some outer)))
    (link : ∀ frame rest, frames = frame :: rest →
      next.cells frame.address = some (frame.cell (some inner) (parentOf rest)))
    (outside : ∀ query, query ≠ outer → query ≠ inner → b.root ≠ some query →
      parentOf frames ≠ some query → next.cells query = store.cells query)
    (later : next.next = store.next) :
    Focus next frames (.mk side inner newInner (.mk side outer newOuter a b) c) := by
  have perm : (BinTree.mk side inner newInner (.mk side outer newOuter a b) c).addrs.Perm
      (BinTree.mk side outer outerInfo a (.mk side inner innerInfo b c)).addrs := by
    refine (BinTree.addrs_mk_perm ..).trans (List.Perm.trans ?_ (BinTree.addrs_mk_perm ..).symm)
    refine (List.Perm.cons _ (List.Perm.append_right _ (BinTree.addrs_mk_perm ..))).trans
      (List.Perm.trans ?_ (List.Perm.cons _ (List.Perm.append_left _
        (BinTree.addrs_mk_perm ..).symm)))
    simp only [List.cons_append, List.append_assoc]
    exact (List.Perm.swap ..).trans (List.Perm.cons _ List.perm_middle.symm)
  have nodup := (BinTree.addrs_mk_perm ..).nodup focus.focus_nodup
  have inside := (BinTree.holds_mk ..).mp focus.focus
  have lower := (BinTree.holds_mk ..).mp inside.2.2
  have notContext : ∀ query,
      query ∈ (BinTree.mk side outer outerInfo a (.mk side inner innerInfo b c)).addrs →
        parentOf frames ≠ some query := fun query member => focus.parentOf_ne member
  obtain ⟨outerA, outerLower, aLower⟩ := focus.node_apart
  have lowerNodup : (BinTree.mk side inner innerInfo b c).addrs.Nodup :=
    (List.nodup_append.mp (List.nodup_cons.mp nodup).2).2.1
  have lowerParts := (BinTree.addrs_mk_perm side inner innerInfo b c).nodup lowerNodup
  simp only [List.nodup_cons, List.nodup_append, List.mem_append, not_or] at lowerParts
  obtain ⟨⟨innerB, innerC⟩, bNodup, _, bc⟩ := lowerParts
  simp only [BinTree.mem_addrs_mk, not_or] at outerLower aLower notContext
  obtain ⟨outerInner, outerB, outerC⟩ := outerLower
  refine focus.replace (by simpa using root) ?_ ?_ ?_ ?_ ?_ ?_ ?_ (Nat.le_of_eq later.symm)
  · refine (BinTree.holds_mk ..).mpr ⟨by simpa using innerCell,
      (BinTree.holds_mk ..).mpr ⟨by simpa using outerCell, ?_, ?_⟩, ?_⟩
    · refine inside.2.1.congr fun query member => outside query ?_ ?_ ?_ ?_
      · rintro rfl; exact outerA member
      · rintro rfl; exact (aLower _ member).1 rfl
      · exact fun root => (aLower _ member).2.1 (BinTree.root_mem_addrs root)
      · exact notContext query (by simp [member])
    · refine lower.2.1.reparent bNodup (fun query cell root found => middle query cell root found)
        fun query member different => outside query ?_ ?_ different ?_
      · rintro rfl; exact outerB member
      · rintro rfl; exact innerB member
      · exact notContext query (by simp [member])
    · refine lower.2.2.congr fun query member => outside query ?_ ?_ ?_ ?_
      · rintro rfl; exact outerC member
      · rintro rfl; exact innerC member
      · exact fun root => bc query (BinTree.root_mem_addrs root) query member rfl
      · exact notContext query (by simp [member])
  · simpa using link
  · intro query member different
    have notFocused := fun inFocus => focus.apart inFocus member
    simp only [BinTree.mem_addrs_mk] at notFocused
    refine outside query ?_ ?_ ?_ different
    · rintro rfl; exact notFocused (by simp)
    · rintro rfl; exact notFocused (by simp)
    · exact fun root => notFocused (by simp [BinTree.root_mem_addrs root])
  · exact perm.symm.nodup focus.focus_nodup
  · exact fun query member => focus.apart (perm.mem_iff.mp member)
  · intro query live notIn
    by_cases isOuter : query = outer
    · simp [BinTree.mem_addrs_mk, isOuter]
    by_cases isInner : query = inner
    · simp [BinTree.mem_addrs_mk, isInner]
    by_cases isMiddle : b.root = some query
    · simp [BinTree.mem_addrs_mk, BinTree.root_mem_addrs isMiddle]
    have isNotLink : parentOf frames ≠ some query := fun equal => notIn (parentOf_mem equal)
    rw [outside query isOuter isInner isMiddle isNotLink] at live
    exact perm.mem_iff.mpr
      ((List.mem_append.mp (focus.owned query live)).resolve_right notIn)
  · intro query member
    rw [later]
    exact focus.bound query (List.mem_append_left _ (perm.mem_iff.mp member))

/-- The five places that a rotation writes to are apart. -/
structure RotationApart (frames : List (Frame α)) (outer inner : Addr) (b : BinTree α) :
    Prop where
  nodes : outer ≠ inner
  middleOuter : b.root ≠ some outer
  middleInner : b.root ≠ some inner
  middleAbove : ∀ query, b.root = some query → parentOf frames ≠ some query
  aboveOuter : parentOf frames ≠ some outer
  aboveInner : parentOf frames ≠ some inner

theorem rotationApart {outer inner : Addr} {outerInfo innerInfo : α} {a b c : BinTree α}
    (focus : Focus store frames (.mk side outer outerInfo a (.mk side inner innerInfo b c))) :
    RotationApart frames outer inner b := by
  have lower : Focus store (⟨side.other, outer, outerInfo, a⟩ :: frames)
      (.mk side inner innerInfo b c) :=
    up_iff.mpr (by simpa only [Frame.plug, BinTree.mk_other] using focus)
  have outerLower := focus.node_apart.2.1
  have innerB := lower.node_apart.1
  simp only [BinTree.mem_addrs_mk, not_or] at outerLower
  constructor
  · exact outerLower.1
  · exact fun root => outerLower.2.1 (BinTree.root_mem_addrs root)
  · exact fun root => innerB (BinTree.root_mem_addrs root)
  · intro query root
    apply focus.parentOf_ne
    simp [BinTree.mem_addrs_mk, BinTree.root_mem_addrs root]
  · apply focus.parentOf_ne
    simp [BinTree.mem_addrs_mk]
  · apply focus.parentOf_ne
    simp [BinTree.mem_addrs_mk]

end Focus

end Wan.Library.LinkedTree
