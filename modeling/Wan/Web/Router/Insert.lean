import Mathlib.Data.List.TakeWhile
import Wan.Web.Router.Grown
import Wan.Web.Router.Parse

/-!
# Insertion keeps a tree grown

One step of the loop of `Insert` is refused, descends into a child or attaches a new
one.  From these steps follows what the whole loop does: it adds the route to the tree
or is refused by a registered pattern that conflicts with the new one.
-/

namespace Wan.Web

open Wan.Library

variable {Handler : Type}

namespace RadixTree

section Children

variable {children before after : List (RadixNode Handler)} {child : RadixNode Handler}
  {segment name : Bytes} {type : ParamType} {commonLen : Nat} {fault : RouterFault}

theorem findLiteral_some
    (found : findLiteral segment children = some ((before, child, after), commonLen)) :
    children = before ++ child :: after ∧ child.isParam = false ∧
      commonLen = Bytes.commonLength child.pathPrefix segment ∧ 0 < commonLen := by
  induction children generalizing before with
  | nil => cases found
  | cons first children ih =>
      rw [findLiteral] at found
      split at found
      · next common =>
        cases found
        exact ⟨rfl, common.1, rfl, common.2⟩
      · rcases Option.map_eq_some_iff.mp found with
          ⟨⟨⟨before, child, after⟩, commonLen⟩, later, equal⟩
        cases equal
        rcases ih later with ⟨rfl, rest⟩
        exact ⟨rfl, rest⟩

theorem findLiteral_none (found : findLiteral segment children = none) :
    ∀ child ∈ children, child.isParam = false →
      Bytes.commonLength child.pathPrefix segment = 0 := by
  induction children with
  | nil => exact nofun
  | cons first children ih =>
      rw [findLiteral] at found
      split at found
      · cases found
      · next different =>
        intro child member isLiteral
        rcases List.mem_cons.mp member with rfl | member
        · by_contra common
          exact different ⟨isLiteral, Nat.pos_of_ne_zero common⟩
        · exact ih (Option.map_eq_none_iff.mp found) child member isLiteral

theorem findParameter_some
    (found : findParameter type name children = .ok (some (before, child, after))) :
    children = before ++ child :: after ∧ child.isParam ∧ child.parameterType = type ∧
      child.paramName = name := by
  induction children generalizing before with
  | nil => cases found
  | cons first children ih =>
      rw [findParameter] at found
      split at found
      · cases found
      split at found
      · next same =>
        split at found
        · cases found
        · next sameName =>
          cases found
          exact ⟨rfl, same.1, same.2, not_not.mp sameName⟩
      · rcases later : findParameter type name children with fault | place
        · simp [later, Except.map] at found
        · simp only [later, Except.map, Except.ok.injEq] at found
          rcases Option.map_eq_some_iff.mp found with ⟨⟨before, child, after⟩, isPlace, equal⟩
          cases equal
          rcases ih (isPlace ▸ later) with ⟨rfl, rest⟩
          exact ⟨rfl, rest⟩

theorem findParameter_none (found : findParameter type name children = .ok none) :
    ∀ child ∈ children, child.isParam → child.parameterType ≠ type ∧ child.paramName ≠ name := by
  induction children with
  | nil => exact nofun
  | cons first children ih =>
      rw [findParameter] at found
      split at found
      · cases found
      next sameName =>
      split at found
      · split at found <;> cases found
      next sameType =>
      rcases later : findParameter type name children with fault | place
      · simp [later, Except.map] at found
      · simp only [later, Except.map, Except.ok.injEq, Option.map_eq_none_iff] at found
        intro child member isParam
        rcases List.mem_cons.mp member with rfl | member
        · have different : child.parameterType ≠ type := fun same => sameType ⟨isParam, same⟩
          exact ⟨different, fun same => sameName ⟨isParam, same, different⟩⟩
        · exact ih (found ▸ later) child member isParam

theorem findParameter_error (found : findParameter type name children = .error fault) :
    ∃ child ∈ children, child.isParam ∧
      Token.Conflict (.param child.parameterType child.paramName) (.param type name) := by
  induction children with
  | nil => cases found
  | cons first children ih =>
      rw [findParameter] at found
      split at found
      · next same => exact ⟨first, List.mem_cons_self .., same.1, .inr ⟨same.2.2, same.2.1⟩⟩
      split at found
      · next same =>
        split at found
        · next different => exact ⟨first, List.mem_cons_self .., same.1, .inl ⟨same.2, different⟩⟩
        · cases found
      · rcases later : findParameter type name children with fault | place
        · rcases ih (by simpa [later, Except.map] using found) with ⟨child, member, conflict⟩
          exact ⟨child, List.mem_cons_of_mem _ member, conflict⟩
        · simp [later, Except.map] at found

end Children

section Loop

variable {handler : Handler} {routes : Routes Handler} {stem tokens : List Token}
  {node : RadixNode Handler} {path : Bytes} {byte : UInt8}

/-- The tree `node` with a child between others that the loop has gone on with. -/
def throughChild (node : RadixNode Handler) (before after : List (RadixNode Handler))
    (grown : RadixNode Handler × Option RouterFault) : RadixNode Handler × Option RouterFault :=
  ({ node with children := before ++ grown.1 :: after }, grown.2)

/-- What one step of the loop does at a grown node. -/
inductive Step (handler : Handler) (routes : Routes Handler) (stem : List Token)
    (node : RadixNode Handler) (path : Bytes) (tokens : List Token) : Prop where
  /-- A registered pattern does not admit the next parameter. -/
  | refused (fault : RouterFault) (result : insertLoop handler path 0 node = (node, some fault))
      (conflict : ∃ route ∈ routes, stem <+: route.1 ∧ Token.Conflicting route.1 (stem ++ tokens))
  /-- The next tokens lead to a child that is there already, after a split perhaps. -/
  | into (before after : List (RadixNode Handler)) (old child : RadixNode Handler)
      (later : Bytes) (rest : List Token) (place : node.children = before ++ old :: after)
      (result : insertLoop handler path 0 node =
        throughChild node before after (insertLoop handler later 0 child))
      (shorter : child.label <+: old.label) (labelled : child.label ≠ [])
      (bare : child.isParam → child.pathPrefix = [])
      (grown : Grown routes (stem ++ child.label) child)
      (isTokens : tokens = child.label ++ rest) (parsed : Parsed later rest)
      (decreases : later.length < path.length)
  /-- The next tokens lead to a new child. -/
  | onto (child : RadixNode Handler) (later : Bytes) (rest : List Token)
      (result : insertLoop handler path 0 node =
        throughChild node node.children [] (insertLoop handler later 0 child))
      (labelled : child.label ≠ []) (bare : child.isParam → child.pathPrefix = [])
      (parting : ∀ other ∈ node.children, Parting other.label child.label)
      (noChildren : child.children = []) (noHandler : child.handler = none)
      (isTokens : tokens = child.label ++ rest) (parsed : Parsed later rest)
      (decreases : later.length < path.length)

theorem insertLoop_literal (handler : Handler) (path : Bytes) (node : RadixNode Handler)
    (notOpen : byte ≠ Bytes.char '<') :
    insertLoop handler (byte :: path) 0 node =
      match findLiteral (byte :: path.takeWhile (· ≠ Bytes.char '<')) node.children with
      | some ((before, child, after), commonLen) =>
          throughChild node before after
            (insertLoop handler (path.drop (commonLen - 1)) 0 (child.split commonLen))
      | none =>
          throughChild node node.children []
            (insertLoop handler (path.drop (path.takeWhile (· ≠ Bytes.char '<')).length) 0
              (.literal (byte :: path.takeWhile (· ≠ Bytes.char '<')))) := by
  rw [insertLoop, if_neg notOpen]
  dsimp only
  cases findLiteral (byte :: path.takeWhile (· ≠ Bytes.char '<')) node.children with
  | some found =>
      rcases found with ⟨⟨before, child, after⟩, commonLen⟩
      dsimp only
      rw [insertLoop_skip]
      rfl
  | none =>
      dsimp only
      rw [insertLoop_skip]
      rfl

theorem insertLoop_param (handler : Handler) (path : Bytes) (node : RadixNode Handler)
    {spec typeStr name : Bytes} {type : ParamType} (closed : Bytes.char '>' ∉ spec)
    (parts : splitSpec spec = (typeStr, name))
    (named : name ≠ []) (typed : typeOf typeStr = some type) :
    insertLoop handler (Bytes.char '<' :: (spec ++ Bytes.char '>' :: path)) 0 node =
      match findParameter type name node.children with
      | .error fault => (node, some fault)
      | .ok (some (before, child, after)) =>
          throughChild node before after (insertLoop handler path 0 child)
      | .ok none =>
          throughChild node node.children []
            (insertLoop handler path 0 (.parameter type name)) := by
  rw [insertLoop, if_pos rfl, if_neg (by simp)]
  simp only [takeWhile_spec closed, parts, if_neg named, typed]
  cases findParameter type name node.children with
  | error fault => rfl
  | ok found =>
      rcases found with _ | ⟨before, child, after⟩
      all_goals
        dsimp only
        rw [insertLoop_skip, drop_spec]
        rfl

theorem label_split (isLiteral : node.isParam = false) (commonLen : Nat) :
    (node.split commonLen).label = (node.pathPrefix.take commonLen).map .literal := by
  rw [label_literal ((isParam_split commonLen).trans isLiteral), pathPrefix_split]

/-- The pattern may be cut within a literal segment. -/
theorem literal_start (notOpen : byte ≠ Bytes.char '<') (parsed : Parsed (byte :: path) tokens)
    (commonLen : Nat)
    (inside : commonLen < (path.takeWhile (· ≠ Bytes.char '<')).length + 1) :
    ∃ rest, Parsed (path.drop commonLen) rest ∧ tokens =
      ((byte :: path.takeWhile (· ≠ Bytes.char '<')).take (commonLen + 1)).map .literal ++
        rest := by
  have start : (byte :: path.takeWhile (· ≠ Bytes.char '<')).take (commonLen + 1) =
      (byte :: path).take (commonLen + 1) := by
    rcases List.takeWhile_prefix (l := path) (· ≠ Bytes.char '<') with ⟨later, whole⟩
    conv_rhs => rw [← whole]
    rw [List.take_succ_cons, List.take_succ_cons, List.take_append_of_le_length (by omega)]
  have free : Bytes.char '<' ∉ (byte :: path).take (commonLen + 1) := by
    rw [← start]
    intro member
    rcases List.mem_cons.mp (List.mem_of_mem_take member) with same | member
    · exact notOpen same.symm
    · have different := List.mem_takeWhile_imp member
      simp at different
  rw [← List.take_append_drop (commonLen + 1) (byte :: path)] at parsed
  rcases parsed.literals free with ⟨rest, isTokens, later⟩
  exact ⟨rest, later, by rw [isTokens, start]⟩

/-- The step at a literal byte. -/
theorem step_literal (notOpen : byte ≠ Bytes.char '<') (parsed : Parsed (byte :: path) tokens)
    (grown : Grown routes stem node) : Step handler routes stem node (byte :: path) tokens := by
  have layer := grown.layer
  have result := insertLoop_literal handler path node notOpen
  have start := literal_start notOpen parsed
  generalize path.takeWhile (· ≠ Bytes.char '<') = run at result start
  rcases found : findLiteral (byte :: run) node.children with
    _ | ⟨⟨before, child, after⟩, commonLen⟩
  · rw [found] at result
    rcases start run.length (Nat.lt_succ_self _) with ⟨rest, later, isTokens⟩
    rw [← List.length_cons, List.take_length] at isTokens
    refine .onto (.literal (byte :: run)) (path.drop run.length) rest result
      (List.cons_ne_nil _ _) nofun ?_ rfl rfl isTokens later ?_
    · intro other isChild left isLeft right isRight clash
      cases isRight
      cases isParam : other.isParam with
      | true =>
          rw [label_param isParam] at isLeft
          cases isLeft
          rcases clash with equal | conflict
          · cases equal
          · exact conflict
      | false =>
          have apart := findLiteral_none found other isChild isParam
          rw [Bytes.commonLength_eq_zero] at apart
          rw [label_literal isParam, List.head?_map] at isLeft
          rcases Option.map_eq_some_iff.mp isLeft with ⟨first, isFirst, rfl⟩
          rcases clash with equal | conflict
          · cases equal
            exact apart byte isFirst rfl
          · exact conflict
    · rw [List.length_drop, List.length_cons]
      omega
  · rw [found] at result
    rcases findLiteral_some found with ⟨place, isLiteral, isCommon, common⟩
    have short : commonLen ≤ child.pathPrefix.length := isCommon ▸ Bytes.commonLength_le_left
    have shortSegment : commonLen ≤ run.length + 1 := isCommon ▸ Bytes.commonLength_le_right
    have same : child.pathPrefix.take commonLen = (byte :: run).take commonLen :=
      isCommon ▸ Bytes.take_commonLength
    have isChild : child ∈ node.children := by simp [place]
    have labelled : (child.split commonLen).label ≠ [] := by
      rw [label_split isLiteral, ne_eq, List.map_eq_nil_iff, List.take_eq_nil_iff]
      rintro (none | empty)
      · omega
      · rw [empty] at short
        exact absurd short (Nat.not_le_of_lt common)
    have shorter : (child.split commonLen).label <+: child.label := by
      rw [label_split isLiteral, label_literal isLiteral]
      exact (List.take_prefix _ _).map _
    rcases start (commonLen - 1) (by omega) with ⟨rest, later, isTokens⟩
    rw [Nat.sub_add_cancel common, ← same, ← label_split isLiteral] at isTokens
    refine .into before after child (child.split commonLen) _ rest place result shorter labelled
      ?_ ?_ isTokens later ?_
    · intro isParam
      rw [isParam_split, isLiteral] at isParam
      cases isParam
    · apply Grown.split isLiteral (grown.descend isChild) _ (layer.extended child isChild)
      intro route member along
      exact layer.reaches place labelled shorter member along
    · rw [List.length_drop, List.length_cons]
      omega

/-- The step at a parameter. -/
theorem step_param {spec typeStr name : Bytes} {type : ParamType} {rest : List Token}
    (closed : Bytes.char '>' ∉ spec) (parts : splitSpec spec = (typeStr, name))
    (named : name ≠ []) (typed : typeOf typeStr = some type) (parsed : Parsed path rest)
    (grown : Grown routes stem node) :
    Step handler routes stem node (Bytes.char '<' :: (spec ++ Bytes.char '>' :: path))
      (.param type name :: rest) := by
  have layer := grown.layer
  have result := insertLoop_param handler path node closed parts
    named typed
  have decreases : path.length < (Bytes.char '<' :: (spec ++ Bytes.char '>' :: path)).length := by
    simp only [List.length_cons, List.length_append]
    omega
  rcases found : findParameter type name node.children with fault | _ | ⟨before, child, after⟩
  · rw [found] at result
    refine .refused fault result ?_
    rcases findParameter_error found with ⟨child, isChild, isParam, conflict⟩
    rcases layer.extended child isChild with ⟨route, member, along⟩
    refine ⟨route, member, (List.prefix_append _ _).trans along, ?_⟩
    rcases along with ⟨later, isRoute⟩
    rw [label_param isParam, List.append_assoc] at isRoute
    exact ⟨stem, _, _, later, rest, isRoute.symm, rfl, conflict⟩
  · rw [found] at result
    have isParam : (RadixNode.parameter type name : RadixNode Handler).isParam = true := by
      rw [RadixNode.isParam, decide_eq_true_eq]
      exact typeOf_ne_none typed
    have label := label_param isParam
    refine .onto (.parameter type name) path rest result (by simp [label]) (fun _ => rfl) ?_
      rfl rfl (by rw [label]; rfl) parsed decreases
    intro other isChild left isLeft right isRight clash
    rw [label] at isRight
    cases isRight
    cases otherParam : other.isParam with
    | true =>
        rcases findParameter_none found other isChild otherParam with ⟨otherType, otherName⟩
        rw [label_param otherParam] at isLeft
        cases isLeft
        rcases clash with equal | ⟨sameType, different⟩ | ⟨different, sameName⟩
        · cases equal
          exact otherType rfl
        · exact otherType sameType
        · exact otherName sameName
    | false =>
        rw [label_literal otherParam, List.head?_map] at isLeft
        rcases Option.map_eq_some_iff.mp isLeft with ⟨first, isFirst, rfl⟩
        rcases clash with equal | conflict
        · cases equal
        · exact conflict
  · rw [found] at result
    rcases findParameter_some found with ⟨place, isParam, rfl, rfl⟩
    have isChild : child ∈ node.children := by simp [place]
    exact .into before after child child path rest place result List.prefix_rfl
      (layer.labelled child isChild) (layer.bare child isChild) (grown.descend isChild)
      (by rw [label_param isParam]; rfl) parsed decreases

/-- The loop changes neither the fragment of the node nor its parameter. -/
theorem insertLoop_same (handler : Handler) (path : Bytes) (skip : Nat) (node : RadixNode Handler) :
    (insertLoop handler path skip node).1.pathPrefix = node.pathPrefix ∧
      (insertLoop handler path skip node).1.parameterType = node.parameterType ∧
      (insertLoop handler path skip node).1.paramName = node.paramName := by
  cases path with
  | nil => exact ⟨rfl, rfl, rfl⟩
  | cons byte path =>
      cases skip with
      | succ skip => exact insertLoop_same handler path skip node
      | zero =>
          rw [insertLoop]
          dsimp only
          repeat' split
          all_goals exact ⟨rfl, rfl, rfl⟩

theorem label_insertLoop (handler : Handler) (path : Bytes) (node : RadixNode Handler) :
    (insertLoop handler path 0 node).1.label = node.label := by
  rcases insertLoop_same handler path 0 node with ⟨samePrefix, sameType, sameName⟩
  rw [RadixNode.label, RadixNode.isParam, samePrefix, sameType, sameName]
  rfl

theorem bare_insertLoop (handler : Handler) (path : Bytes)
    (bare : node.isParam → node.pathPrefix = []) :
    (insertLoop handler path 0 node).1.isParam →
      (insertLoop handler path 0 node).1.pathPrefix = [] := by
  rcases insertLoop_same handler path 0 node with ⟨samePrefix, sameType, -⟩
  rw [RadixNode.isParam, sameType, samePrefix]
  exact bare

/-- What an insertion adds to the registered routes. -/
def added (key : List Token) (handler : Handler) : Option RouterFault → Routes Handler
  | none => [(key, handler)]
  | some _ => []

theorem key_added {key : List Token} {fault : Option RouterFault} {route : List Token × Handler}
    (member : route ∈ added key handler fault) : route.1 = key := by
  cases fault with
  | none => rw [List.mem_singleton.mp member]
  | some fault => cases member

variable (handler) in
/-- The loop adds the route to a grown tree, or finds a route that conflicts with it. -/
theorem insertLoop_grown (parsed : Parsed path tokens) (grown : Grown routes stem node) :
    Grown (routes ++ added (stem ++ tokens) handler (insertLoop handler path 0 node).2) stem
        (insertLoop handler path 0 node).1 ∧
      ((insertLoop handler path 0 node).2 ≠ none →
        ∃ route ∈ routes, stem <+: route.1 ∧ Token.Conflicting route.1 (stem ++ tokens)) := by
  induction size : path.length using Nat.strongRecOn generalizing path tokens stem node with
  | _ size ih =>
      subst size
      have step : path = [] ∨ Step handler routes stem node path tokens := by
        cases parsed with
        | nil => exact .inl rfl
        | literal notOpen rest => exact .inr (step_literal notOpen (.literal notOpen rest) grown)
        | param closed parts named typed terminal rest =>
            exact .inr (step_param closed parts named typed rest grown)
      rcases step with rfl | ⟨fault, result, conflict⟩ |
        ⟨before, after, old, child, later, rest, place, result, shorter, labelled, bare, grownChild,
          rfl, remaining, decreases⟩ |
        ⟨child, later, rest, result, labelled, bare, parting, noChildren, noHandler, rfl, remaining,
          decreases⟩
      · cases parsed
        rw [insertLoop, List.append_nil]
        exact ⟨grown.answer, fun refused => absurd rfl refused⟩
      · rw [result]
        exact ⟨(List.append_nil routes).symm ▸ grown, fun _ => conflict⟩
      · rcases ih later.length decreases remaining grownChild rfl with ⟨below, refused⟩
        have label := label_insertLoop handler later child
        have bareBelow := bare_insertLoop handler later bare
        rw [result, throughChild, ← List.append_assoc]
        constructor
        · rw [← label] at below shorter labelled ⊢
          apply grown.replace place shorter labelled bareBelow below
          intro route isNew
          rw [key_added isNew]
          exact List.prefix_append _ _
        · intro fault
          rcases refused fault with ⟨route, member, along, conflicting⟩
          exact ⟨route, member, (List.prefix_append _ _).trans along, conflicting⟩
      · have unused := grown.layer.unused labelled parting
        rcases ih later.length decreases remaining (.fresh unused noChildren noHandler) rfl with
          ⟨below, refused⟩
        have accepted : (insertLoop handler later 0 child).2 = none := by
          by_contra fault
          rcases refused fault with ⟨route, member, along, conflicting⟩
          exact unused ⟨route, member, along⟩
        have label := label_insertLoop handler later child
        have bareBelow := bare_insertLoop handler later bare
        rw [result, throughChild, ← List.append_assoc]
        refine ⟨?_, fun fault => absurd accepted fault⟩
        dsimp only
        rw [accepted] at below ⊢
        rw [← label] at below parting labelled ⊢
        apply grown.attach labelled bareBelow parting below
        · exact ⟨_, List.mem_append_right _ (List.mem_singleton_self _), List.prefix_append _ _⟩
        · intro route isNew
          rw [key_added isNew]
          exact List.prefix_append _ _

end Loop

end RadixTree

end Wan.Web
