import Wan.Library.History
import Wan.Web.Router.Pattern

/-!
# The trees that registrations grow

The node at the end of a stem of tokens holds the handler that was registered last under
this stem, and its children divide the longer patterns among themselves.  `Grown` says
so for a node and everything below it.  Splitting a fragment, answering at a node and
changing one child keep it.
-/

namespace Wan.Web

open Wan.Library

variable {Handler : Type}

/-- What was registered, under the tokens of its pattern. -/
abbrev Routes (Handler : Type) := History Token Handler

/-- The tokens that lead from the parent of a node to the node. -/
def RadixNode.label (node : RadixNode Handler) : List Token :=
  if node.isParam then [.param node.parameterType node.paramName]
  else node.pathPrefix.map .literal

/-- No pattern follows both and none may. -/
def Parting (first second : List Token) : Prop :=
  ∀ left ∈ first.head?, ∀ right ∈ second.head?, ¬Token.Clash left right

/-- What holds of siblings, in their order: parameters stand in the order in which
registrations asked for them. -/
structure Apart (routes : Routes Handler) (stem first second : List Token) : Prop where
  parting : Parting first second
  earlier : ∀ left ∈ first.head?, ∀ right ∈ second.head?, left.isParam → right.isParam →
    routes.Earlier (stem ++ [left]) (stem ++ [right])

/-- What holds of a node itself. -/
structure Layer (routes : Routes Handler) (stem : List Token) (node : RadixNode Handler) :
    Prop where
  handler : node.handler = routes.latest stem
  labelled : ∀ child ∈ node.children, child.label ≠ []
  bare : ∀ child ∈ node.children, child.isParam → child.pathPrefix = []
  extended : ∀ child ∈ node.children, routes.Extended (stem ++ child.label)
  apart : node.children.Pairwise fun first second => Apart routes stem first.label second.label
  covered : ∀ route ∈ routes, stem <+: route.1 →
    route.1 = stem ∨ ∃ child ∈ node.children, stem ++ child.label <+: route.1

/-- A node, at the end of a stem, that the registrations have grown. -/
inductive Grown (routes : Routes Handler) : List Token → RadixNode Handler → Prop where
  | node {stem : List Token} {node : RadixNode Handler} (layer : Layer routes stem node)
      (children : ∀ child ∈ node.children, Grown routes (stem ++ child.label) child) :
      Grown routes stem node

section Places

variable {α : Type} {values before after : List α} {old new : α}

theorem forall_replaced (place : values = before ++ old :: after) (P : α → Prop)
    (all : ∀ value ∈ values, P value) (fresh : P new) :
    ∀ value ∈ before ++ new :: after, P value := by
  intro value member
  subst place
  simp only [List.mem_append, List.mem_cons] at all member
  rcases member with member | rfl | member
  · exact all value (.inl member)
  · exact fresh
  · exact all value (.inr (.inr member))

theorem pairwise_replaced {R S : α → α → Prop} (all : (before ++ old :: after).Pairwise R)
    (other : ∀ first second, R first second → S first second)
    (left : ∀ first, R first old → S first new) (right : ∀ second, R old second → S new second) :
    (before ++ new :: after).Pairwise S := by
  rw [List.pairwise_append, List.pairwise_cons] at all ⊢
  rcases all with ⟨all_before, ⟨old_after, all_after⟩, across⟩
  refine ⟨all_before.imp (other _ _), ⟨?_, all_after.imp (other _ _)⟩, ?_⟩
  · intro second member
    exact right second (old_after second member)
  · intro first isBefore second member
    rcases List.mem_cons.mp member with rfl | member
    · exact left first (across first isBefore old (List.mem_cons_self ..))
    · exact other _ _ (across first isBefore second (List.mem_cons_of_mem _ member))

theorem head?_of_le {first second : List α} (start : first <+: second)
    (nonempty : first ≠ []) : second.head? = first.head? := by
  rcases start with ⟨rest, rfl⟩
  cases first with
  | nil => exact absurd rfl nonempty
  | cons value first => rfl

theorem not_append_le {first second : List α} (nonempty : second ≠ []) :
    ¬first ++ second <+: first := by
  intro start
  have shorter := start.length_le
  rw [List.length_append] at shorter
  exact nonempty (List.length_eq_zero_iff.mp (by omega))

end Places

section Siblings

variable {routes more : Routes Handler} {stem first second first' second' : List Token}
  {node child other : RadixNode Handler} {before after : List (RadixNode Handler)}

/-- Only the first tokens matter, and later registrations do not. -/
theorem Apart.append (apart : Apart routes stem first second)
    (sameFirst : first'.head? = first.head?) (sameSecond : second'.head? = second.head?) :
    Apart (routes ++ more) stem first' second' := by
  constructor
  · intro left isLeft right isRight
    exact apart.parting left (sameFirst ▸ isLeft) right (sameSecond ▸ isRight)
  · intro left isLeft right isRight leftParam rightParam
    apply History.Earlier.append
    exact apart.earlier left (sameFirst ▸ isLeft) right (sameSecond ▸ isRight) leftParam rightParam

theorem Parting.symm (parting : Parting first second) : Parting second first :=
  fun left isLeft right isRight clash => parting right isRight left isLeft clash.symm

/-- No route follows both. -/
theorem Parting.not_both {route : List Token} (parting : Parting first second)
    (nonemptyFirst : first ≠ []) (nonemptySecond : second ≠ [])
    (alongFirst : stem ++ first <+: route) (alongSecond : stem ++ second <+: route) : False := by
  rcases alongFirst with ⟨rest, rfl⟩
  rw [List.append_assoc, List.prefix_append_right_inj] at alongSecond
  have same := head?_of_le alongSecond nonemptySecond
  cases first with
  | nil => exact nonemptyFirst rfl
  | cons token first =>
      rw [List.cons_append, List.head?_cons] at same
      exact parting token rfl token same.symm (.inl rfl)

/-- Siblings at different places part, in either order. -/
theorem Layer.siblings (layer : Layer routes stem node)
    (place : node.children = before ++ child :: after) (isOther : other ∈ before ++ after) :
    Parting other.label child.label := by
  have apart := layer.apart
  rw [place, List.pairwise_append, List.pairwise_cons] at apart
  rcases List.mem_append.mp isOther with isBefore | isAfter
  · exact (apart.2.2 other isBefore child (List.mem_cons_self ..)).parting
  · exact (apart.2.1.1 other isAfter).parting.symm

theorem Layer.not_both {route : List Token} (layer : Layer routes stem node)
    (place : node.children = before ++ child :: after) (isOther : other ∈ before ++ after)
    {start : List Token} (nonempty : start ≠ []) (ofChild : start <+: child.label)
    (along : stem ++ start <+: route) : ¬stem ++ other.label <+: route := by
  intro alongOther
  have isChild : other ∈ node.children := by
    rw [place]
    rcases List.mem_append.mp isOther with isBefore | isAfter
    · exact List.mem_append_left _ isBefore
    · exact List.mem_append_right _ (List.mem_cons_of_mem _ isAfter)
  have parting : Parting other.label start := by
    intro left isLeft right isRight
    apply layer.siblings place isOther left isLeft right
    rw [head?_of_le ofChild nonempty]
    exact isRight
  exact parting.not_both (layer.labelled other isChild) nonempty alongOther along

/-- Routes that start into a child's label follow it to its end. -/
theorem Layer.reaches {route : List Token × Handler} (layer : Layer routes stem node)
    (place : node.children = before ++ child :: after) {start : List Token} (nonempty : start ≠ [])
    (ofChild : start <+: child.label) (member : route ∈ routes)
    (along : stem ++ start <+: route.1) :
    stem ++ child.label <+: route.1 := by
  rcases layer.covered route member ((List.prefix_append _ _).trans along) with
    isStem | ⟨other, isChild, alongOther⟩
  · rw [isStem] at along
    exact absurd along (not_append_le nonempty)
  · rw [place] at isChild
    rcases List.mem_append.mp isChild with isBefore | isChild
    · exact absurd alongOther
        (layer.not_both place (List.mem_append_left _ isBefore) nonempty ofChild along)
    rcases List.mem_cons.mp isChild with rfl | isAfter
    · exact alongOther
    · exact absurd alongOther
        (layer.not_both place (List.mem_append_right _ isAfter) nonempty ofChild along)

/-- No route leads where all children part from. -/
theorem Layer.unused {label : List Token} (layer : Layer routes stem node) (nonempty : label ≠ [])
    (parting : ∀ child ∈ node.children, Parting child.label label) :
    ¬routes.Extended (stem ++ label) := by
  rintro ⟨route, member, along⟩
  rcases layer.covered route member ((List.prefix_append _ _).trans along) with
    isStem | ⟨child, isChild, alongChild⟩
  · rw [isStem] at along
    exact not_append_le nonempty along
  · exact (parting child isChild).not_both (layer.labelled child isChild) nonempty alongChild along

end Siblings

section Updates

variable {routes more : Routes Handler} {stem : List Token} {node old new : RadixNode Handler}
  {before after : List (RadixNode Handler)} {handler : Handler}

theorem Grown.layer (grown : Grown routes stem node) : Layer routes stem node := by
  cases grown with
  | node layer children => exact layer

theorem Grown.descend (grown : Grown routes stem node) (member : old ∈ node.children) :
    Grown routes (stem ++ old.label) old := by
  cases grown with
  | node layer children => exact children old member

/-- Registrations elsewhere leave a node as it is. -/
theorem Grown.append_other (grown : Grown routes stem node)
    (elsewhere : ∀ route ∈ more, ¬stem <+: route.1) : Grown (routes ++ more) stem node := by
  induction grown with
  | @node stem node layer children ih =>
      constructor
      · constructor
        · rw [layer.handler, History.latest_append_of_ne]
          intro route member isStem
          apply elsewhere route member
          exact isStem ▸ List.prefix_rfl
        · exact layer.labelled
        · exact layer.bare
        · intro child member
          exact (layer.extended child member).append more
        · exact layer.apart.imp fun apart => apart.append rfl rfl
        · intro route member along
          rcases List.mem_append.mp member with isOld | isNew
          · exact layer.covered route isOld along
          · exact absurd along (elsewhere route isNew)
      · intro child member
        apply ih child member
        intro route isNew along
        exact elsewhere route isNew ((List.prefix_append _ _).trans along)

/-- A child may change, and take new routes in, as long as it starts in the same way. -/
theorem Grown.replace (grown : Grown routes stem node)
    (place : node.children = before ++ old :: after) (shorter : new.label <+: old.label)
    (labelled : new.label ≠ []) (bare : new.isParam → new.pathPrefix = [])
    (grownNew : Grown (routes ++ more) (stem ++ new.label) new)
    (behind : ∀ route ∈ more, stem ++ new.label <+: route.1) :
    Grown (routes ++ more) stem { node with children := before ++ new :: after } := by
  have layer := grown.layer
  have sameHead : new.label.head? = old.label.head? := (head?_of_le shorter labelled).symm
  have start : stem ++ new.label <+: stem ++ old.label :=
    (List.prefix_append_right_inj stem).mpr shorter
  constructor
  · constructor
    · rw [layer.handler, History.latest_append_of_ne]
      intro route member isStem
      have along := behind route member
      rw [isStem] at along
      exact not_append_le labelled along
    · exact forall_replaced place (fun child => child.label ≠ []) layer.labelled labelled
    · exact forall_replaced place (fun child => child.isParam → child.pathPrefix = []) layer.bare
        bare
    · apply forall_replaced place fun child => (routes ++ more).Extended (stem ++ child.label)
      · intro other member
        exact (layer.extended other member).append more
      · have extended := layer.extended old (by simp [place])
        rcases extended.append more with ⟨route, member, along⟩
        exact ⟨route, member, start.trans along⟩
    · apply pairwise_replaced (place ▸ layer.apart)
      · intro first second apart
        exact apart.append rfl rfl
      · intro first apart
        exact apart.append rfl sameHead
      · intro second apart
        exact apart.append sameHead rfl
    · intro route member along
      rcases List.mem_append.mp member with isOld | isNew
      · rcases layer.covered route isOld along with isStem | ⟨other, isChild, alongOther⟩
        · exact .inl isStem
        · right
          rw [place] at isChild
          rcases List.mem_append.mp isChild with isBefore | isChild
          · exact ⟨other, List.mem_append_left _ isBefore, alongOther⟩
          rcases List.mem_cons.mp isChild with rfl | isAfter
          · exact ⟨new, by simp, start.trans alongOther⟩
          · exact ⟨other, by simp [isAfter], alongOther⟩
      · exact .inr ⟨new, by simp, behind route isNew⟩
  · intro other member
    rcases List.mem_append.mp member with isBefore | member
    · apply (grown.descend (by simp [place, isBefore])).append_other
      intro route isNew
      exact layer.not_both place (List.mem_append_left _ isBefore) labelled shorter
        (behind route isNew)
    rcases List.mem_cons.mp member with rfl | isAfter
    · exact grownNew
    · apply (grown.descend (by simp [place, isAfter])).append_other
      intro route isNew
      exact layer.not_both place (List.mem_append_right _ isAfter) labelled shorter
        (behind route isNew)

/-- A node may get a new child for routes that none of its children leads to. -/
theorem Grown.attach (grown : Grown routes stem node) (labelled : new.label ≠ [])
    (bare : new.isParam → new.pathPrefix = [])
    (parting : ∀ child ∈ node.children, Parting child.label new.label)
    (grownNew : Grown (routes ++ more) (stem ++ new.label) new)
    (some : (routes ++ more).Extended (stem ++ new.label))
    (behind : ∀ route ∈ more, stem ++ new.label <+: route.1) :
    Grown (routes ++ more) stem { node with children := node.children ++ [new] } := by
  have layer := grown.layer
  have unused : ∀ token ∈ new.label.head?, ¬routes.Extended (stem ++ [token]) := by
    intro token isHead
    apply layer.unused (List.cons_ne_nil _ _)
    intro child isChild left isLeft right isRight
    cases isRight
    exact parting child isChild left isLeft token isHead
  constructor
  · constructor
    · rw [layer.handler, History.latest_append_of_ne]
      intro route member isStem
      have along := behind route member
      rw [isStem] at along
      exact not_append_le labelled along
    · rw [List.forall_mem_append, List.forall_mem_singleton]
      exact ⟨layer.labelled, labelled⟩
    · rw [List.forall_mem_append, List.forall_mem_singleton]
      exact ⟨layer.bare, bare⟩
    · rw [List.forall_mem_append, List.forall_mem_singleton]
      exact ⟨fun child member => (layer.extended child member).append more, some⟩
    · rw [List.pairwise_append]
      refine ⟨layer.apart.imp fun apart => apart.append rfl rfl, List.pairwise_singleton _ _, ?_⟩
      intro child isChild other isNew
      rw [List.mem_singleton.mp isNew]
      constructor
      · exact parting child isChild
      intro left isLeft right isRight leftParam rightParam
      apply History.Earlier.of_new _ (unused right isRight)
      rcases layer.extended child isChild with ⟨route, member, along⟩
      refine ⟨route, member, List.IsPrefix.trans ?_ along⟩
      rw [List.prefix_append_right_inj]
      rcases List.head?_eq_some_iff.mp isLeft with ⟨rest, isLabel⟩
      exact ⟨rest, isLabel.symm⟩
    · intro route member along
      rcases List.mem_append.mp member with isOld | isNew
      · rcases layer.covered route isOld along with isStem | ⟨child, isChild, alongChild⟩
        · exact .inl isStem
        · exact .inr ⟨child, List.mem_append_left _ isChild, alongChild⟩
      · exact .inr ⟨new, by simp, behind route isNew⟩
  · rw [List.forall_mem_append, List.forall_mem_singleton]
    constructor
    · intro child isChild
      apply (grown.descend isChild).append_other
      intro route isNew along
      exact (parting child isChild).not_both (layer.labelled child isChild) labelled along
        (behind route isNew)
    · exact grownNew

/-- The node at the end of a route takes its handler. -/
theorem Grown.answer (grown : Grown routes stem node) :
    Grown (routes ++ [(stem, handler)]) stem { node with handler := some handler } := by
  have layer := grown.layer
  constructor
  · constructor
    · exact (History.latest_append_self).symm
    · exact layer.labelled
    · exact layer.bare
    · exact fun child member => (layer.extended child member).append _
    · exact layer.apart.imp fun apart => apart.append rfl rfl
    · intro route member along
      rcases List.mem_append.mp member with isOld | isNew
      · exact layer.covered route isOld along
      · exact .inl (by rw [List.mem_singleton.mp isNew])
  · intro child member
    apply (grown.descend member).append_other
    intro route isNew
    rw [List.mem_singleton.mp isNew]
    exact not_append_le (layer.labelled child member)

/-- The routes of a grown tree do not conflict with one another. -/
theorem Grown.consistent (grown : Grown routes stem node) {first second : List Token × Handler}
    (isFirst : first ∈ routes) (isSecond : second ∈ routes) (alongFirst : stem <+: first.1)
    (alongSecond : stem <+: second.1) : ¬Token.Conflicting first.1 second.1 := by
  induction grown with
  | @node stem node layer children ih =>
      rintro ⟨common, left, right, rest, rest', firstEq, secondEq, conflict⟩
      have apart := conflict.ne
      rcases layer.covered first isFirst alongFirst with firstEnds | ⟨one, isOne, alongOne⟩
      · rw [← firstEnds, firstEq, secondEq, List.prefix_append_right_inj,
          List.cons_prefix_cons] at alongSecond
        exact apart alongSecond.1
      rcases layer.covered second isSecond alongSecond with secondEnds | ⟨two, isTwo, alongTwo⟩
      · rw [← secondEnds, firstEq, secondEq, List.prefix_append_right_inj,
          List.cons_prefix_cons] at alongFirst
        exact apart alongFirst.1.symm
      by_cases same : one = two
      · subst same
        exact ih one isOne alongOne alongTwo
          ⟨common, left, right, rest, rest', firstEq, secondEq, conflict⟩
      · have parting : Parting one.label two.label := by
          rcases List.append_of_mem isTwo with ⟨before, after, place⟩
          apply layer.siblings place
          rw [place] at isOne
          simpa [same] using isOne
        -- The labels of different children come apart at their first tokens.
        rcases List.exists_cons_of_ne_nil (layer.labelled one isOne) with ⟨head, tail, oneEq⟩
        rcases List.exists_cons_of_ne_nil (layer.labelled two isTwo) with ⟨head', tail', twoEq⟩
        have unequal : ¬Token.Clash head head' :=
          parting head (by simp [oneEq]) head' (by simp [twoEq])
        rcases alongOne with ⟨later, alongOne⟩
        rcases alongTwo with ⟨later', alongTwo⟩
        rw [oneEq, List.append_assoc, List.cons_append, firstEq] at alongOne
        rw [twoEq, List.append_assoc, List.cons_append, secondEq] at alongTwo
        rcases divergence_unique alongOne alongTwo (fun equal => unequal (.inl equal)) apart with
          ⟨-, rfl, rfl⟩
        exact unequal (.inr conflict)

/-- Where no route leads, a node without children and handler has grown. -/
theorem Grown.fresh (unused : ¬routes.Extended stem) (noChildren : node.children = [])
    (noHandler : node.handler = none) : Grown routes stem node := by
  constructor
  · constructor
    · rw [noHandler, eq_comm, History.latest_eq_none]
      intro route member isStem
      exact unused ⟨route, member, isStem ▸ List.prefix_rfl⟩
    · simp [noChildren]
    · simp [noChildren]
    · simp [noChildren]
    · simp [noChildren]
    · intro route member along
      exact absurd ⟨route, member, along⟩ unused
  · simp [noChildren]

theorem label_literal (isLiteral : node.isParam = false) :
    node.label = node.pathPrefix.map .literal := by
  rw [RadixNode.label, isLiteral, if_neg Bool.false_ne_true]

theorem label_param (isParam : node.isParam = true) :
    node.label = [.param node.parameterType node.paramName] := by
  rw [RadixNode.label, if_pos isParam]

theorem isParam_split (commonLen : Nat) : (node.split commonLen).isParam = node.isParam := by
  unfold RadixNode.split
  split <;> rfl

theorem pathPrefix_split (commonLen : Nat) :
    (node.split commonLen).pathPrefix = node.pathPrefix.take commonLen := by
  unfold RadixNode.split
  split
  · rfl
  · next long => exact (List.take_of_length_le (Nat.le_of_not_lt long)).symm

/-- A fragment may be split where only routes that follow the whole fragment pass. -/
theorem Grown.split {front : List Token} {commonLen : Nat} (isLiteral : node.isParam = false)
    (grown : Grown routes (front ++ node.label) node)
    (reaches : ∀ route ∈ routes, front ++ (node.split commonLen).label <+: route.1 →
      front ++ node.label <+: route.1)
    (extended : routes.Extended (front ++ node.label)) :
    Grown routes (front ++ (node.split commonLen).label) (node.split commonLen) := by
  rw [label_literal ((isParam_split commonLen).trans isLiteral), pathPrefix_split] at reaches ⊢
  rw [label_literal isLiteral] at grown reaches extended
  unfold RadixNode.split
  split
  · next inside =>
    let lower : RadixNode Handler :=
      ⟨node.pathPrefix.drop commonLen, node.children, node.handler, .none, []⟩
    have lowerLabel : lower.label = (node.pathPrefix.drop commonLen).map .literal := rfl
    have rejoined : front ++ (node.pathPrefix.take commonLen).map Token.literal ++ lower.label =
        front ++ node.pathPrefix.map .literal := by
      rw [lowerLabel, List.append_assoc, ← List.map_append, List.take_append_drop]
    have nonempty : lower.label ≠ [] := by
      rw [lowerLabel, ne_eq, List.map_eq_nil_iff, List.drop_eq_nil_iff]
      omega
    constructor
    · constructor
      · rw [eq_comm, History.latest_eq_none]
        intro route member isUpper
        have along := reaches route member (isUpper ▸ List.prefix_rfl)
        rw [isUpper, ← rejoined] at along
        exact not_append_le nonempty along
      · rw [List.forall_mem_singleton]
        exact nonempty
      · rw [List.forall_mem_singleton]
        exact nofun
      · rw [List.forall_mem_singleton, rejoined]
        exact extended
      · exact List.pairwise_singleton _ _
      · intro route member along
        refine .inr ⟨lower, List.mem_singleton_self _, ?_⟩
        rw [rejoined]
        exact reaches route member along
    · rw [List.forall_mem_singleton, rejoined]
      have layer := grown.layer
      exact .node ⟨layer.handler, layer.labelled, layer.bare, layer.extended, layer.apart,
        layer.covered⟩ fun child member => grown.descend member
  · next long =>
    rw [List.take_of_length_le (Nat.le_of_not_lt long)]
    exact grown

end Updates

end Wan.Web
