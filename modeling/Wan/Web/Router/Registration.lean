import Wan.Web.Router.Run

/-!
# Refused registrations

A conflict is found before the tree is changed: the loop of `Insert` splits a node only where
the pattern leaves the tree, and behind that there are no parameters to conflict with.
-/

namespace Wan.Web

open Wan.Library

variable {Handler : Type}

namespace RadixTree

section Refused

variable {handler : Handler} {node branch : RadixNode Handler} {path : Bytes} {tokens : List Token}

/-- What a test takes from the rest of a text. -/
theorem takeWhile_drop (test : UInt8 → Bool) (bytes : Bytes) (count : Nat)
    (inside : count ≤ (bytes.takeWhile test).length) :
    (bytes.drop count).takeWhile test = (bytes.takeWhile test).drop count := by
  induction bytes generalizing count with
  | nil => rw [List.drop_nil, List.takeWhile_nil, List.drop_nil]
  | cons byte bytes ih =>
      cases count with
      | zero => rfl
      | succ count =>
          rw [List.takeWhile_cons] at inside ⊢
          split at inside
          next passes =>
            rw [if_pos passes, List.drop_succ_cons, List.drop_succ_cons]
            exact ih count (Nat.le_of_succ_le_succ inside)
          next => exact absurd inside (Nat.not_succ_le_zero count)

/-- Where there are no children, nothing is refused. -/
theorem insertLoop_leaf (parsed : Parsed path tokens) (leaf : node.children = []) :
    (insertLoop handler path 0 node).2 = none := by
  induction size : path.length using Nat.strongRecOn generalizing path tokens node with
  | ind size ih =>
      cases parsed with
      | nil => rfl
      | @literal byte path tokens notOpen rest =>
          rcases literal_start notOpen (.literal notOpen rest)
            (path.takeWhile (· ≠ Bytes.char '<')).length (Nat.lt_succ_self _) with
            ⟨later, remaining, -⟩
          rw [insertLoop_literal handler path node notOpen, leaf]
          apply ih _ _ remaining rfl rfl
          rw [← size, List.length_drop, List.length_cons]
          omega
      | @param spec path typeStr name type tokens closed parts named typed terminal rest =>
          rw [insertLoop_param handler path node closed parts named typed, leaf]
          apply ih _ _ rest rfl rfl
          rw [← size, List.length_cons, List.length_append, List.length_cons]
          omega

/-- Where the only child has no common start with the pattern, nothing is refused. -/
theorem insertLoop_fork (parsed : Parsed path tokens) (fork : node.children = [branch])
    (literal : branch.isParam = false)
    (apart : Bytes.commonLength branch.pathPrefix (path.takeWhile (· ≠ Bytes.char '<')) = 0) :
    (insertLoop handler path 0 node).2 = none := by
  cases parsed with
  | nil => rfl
  | @literal byte path tokens notOpen rest =>
      have different : findLiteral (byte :: path.takeWhile (· ≠ Bytes.char '<')) [branch] = none := by
        rw [List.takeWhile_cons_of_pos (by simpa using notOpen)] at apart
        rw [findLiteral, apart]
        simp [findLiteral]
      rcases literal_start notOpen (.literal notOpen rest)
        (path.takeWhile (· ≠ Bytes.char '<')).length (Nat.lt_succ_self _) with
        ⟨later, remaining, -⟩
      rw [insertLoop_literal handler path node notOpen, fork, different]
      exact insertLoop_leaf remaining rfl
  | @param spec path typeStr name type tokens closed parts named typed terminal rest =>
      have missing : findParameter type name [branch] = .ok none := by
        rw [findParameter]
        simp [literal, findParameter, Except.map]
      rw [insertLoop_param handler path node closed parts named typed, fork, missing]
      exact insertLoop_leaf rest rfl

/-- When the loop throws, it has not changed the tree. -/
theorem insertLoop_refused (parsed : Parsed path tokens)
    (refused : (insertLoop handler path 0 node).2 ≠ none) :
    (insertLoop handler path 0 node).1 = node := by
  induction size : path.length using Nat.strongRecOn generalizing path tokens node with
  | ind size ih =>
      cases parsed with
      | nil => exact absurd rfl refused
      | @literal byte path tokens notOpen rest =>
          have result := insertLoop_literal handler path node notOpen
          have start := literal_start notOpen (.literal notOpen rest)
          have behind := takeWhile_drop (· ≠ Bytes.char '<') path
          generalize path.takeWhile (· ≠ Bytes.char '<') = run at result start behind
          rcases found : findLiteral (byte :: run) node.children with
            _ | ⟨⟨before, child, after⟩, commonLen⟩
          · rw [found] at result
            rcases start run.length (Nat.lt_succ_self _) with ⟨later, remaining, -⟩
            rw [result] at refused
            exact absurd (insertLoop_leaf remaining rfl) refused
          · rw [found] at result
            rcases findLiteral_some found with ⟨place, isLiteral, isCommon, common⟩
            have shortSegment : commonLen ≤ run.length + 1 := isCommon ▸ Bytes.commonLength_le_right
            rcases start (commonLen - 1) (by omega) with ⟨later, remaining, -⟩
            rw [result] at refused ⊢
            dsimp only [throughChild] at refused ⊢
            by_cases short : commonLen < child.pathPrefix.length
            · -- Behind a split the tree has no parameter to conflict with.
              have split : child.split commonLen = { child with
                  pathPrefix := child.pathPrefix.take commonLen
                  children := [⟨child.pathPrefix.drop commonLen, child.children, child.handler,
                    .none, []⟩]
                  handler := none } := if_pos short
              have apart : Bytes.commonLength (child.pathPrefix.drop commonLen)
                  ((path.drop (commonLen - 1)).takeWhile (· ≠ Bytes.char '<')) = 0 := by
                have cut : run.drop (commonLen - 1) = (byte :: run).drop commonLen := by
                  rw [← Nat.sub_add_cancel common, List.drop_succ_cons, Nat.add_sub_cancel]
                rw [behind (commonLen - 1) (by omega), cut, isCommon]
                exact Bytes.commonLength_drop
              rw [split] at refused
              exact absurd (insertLoop_fork remaining rfl rfl apart) refused
            · have whole : child.split commonLen = child := if_neg short
              rw [whole] at refused ⊢
              have same := ih _ (by rw [← size, List.length_cons, List.length_drop]; omega) remaining refused rfl
              rw [same, ← place]
              cases node
              rfl
      | @param spec path typeStr name type tokens closed parts named typed terminal rest =>
          have result := insertLoop_param handler path node closed parts named typed
          rcases found : findParameter type name node.children with fault | _ | ⟨before, child, after⟩
          · rw [found] at result
            rw [result]
          · rw [found] at result
            rw [result] at refused
            exact absurd (insertLoop_leaf rest rfl) refused
          · rw [found] at result
            rcases findParameter_some found with ⟨place, -⟩
            rw [result] at refused ⊢
            have same := ih path.length (by rw [← size]; simp; omega) rest refused rfl
            dsimp only [throughChild]
            rw [same, ← place]
            cases node
            rfl

/-- When `Insert` throws, it has not changed the tree. -/
theorem insert_refused {tree : RadixTree Handler} {pattern : Bytes} {handler : Option Handler}
    (refused : (insert tree pattern handler).2 ≠ none) : (insert tree pattern handler).1 = tree := by
  by_cases valid : Valid pattern
  · cases handler with
    | none => rw [RadixTree.insert, if_neg (not_not.mpr valid.1)]
    | some handler =>
        rw [insert_of_valid valid] at refused ⊢
        exact insertLoop_refused (parsed_of_validate pattern valid.2).1 refused
  · rcases insert_of_not_valid tree valid handler with ⟨fault, result⟩
    rw [result]

end Refused

end RadixTree

/-- `http::verb`: the methods that routes can be registered for, and the others by number. -/
inductive Verb where
  | get
  | post
  | put
  | delete
  | patch
  | other (code : Nat)
  deriving DecidableEq, Repr

/-- `Router`. -/
structure Router (Handler : Type) where
  /-- `MemberTrees`. -/
  trees : Verb → Option (RadixTree Handler)
  /-- `MemberFrozen`. -/
  frozen : Bool

namespace Router

/-- A new router. -/
def empty : Router Handler := ⟨fun _ => none, false⟩

/-- `Freeze`. -/
def freeze (router : Router Handler) : Router Handler := { router with frozen := true }

/-- `AddRoute`, which returns the router with what it throws. The tree of a new method is
given up when its first pattern is refused. -/
def addRoute (router : Router Handler) (method : Verb) (pattern : Bytes)
    (handler : Option Handler) : Router Handler × Option RouterFault :=
  if router.frozen then
    (router, some (.logicError "routes cannot be registered after the router is frozen"))
  else
    match router.trees method with
    | none =>
        match RadixTree.empty.insert pattern handler with
        | (_, some fault) => (router, some fault)
        | (tree, none) =>
            ({ router with trees := Function.update router.trees method (some tree) }, none)
    | some tree =>
        let (tree, fault) := tree.insert pattern handler
        ({ router with trees := Function.update router.trees method (some tree) }, fault)

/-- `Get`. -/
def get (router : Router Handler) := router.addRoute .get

/-- `Post`. -/
def post (router : Router Handler) := router.addRoute .post

/-- `Put`. -/
def put (router : Router Handler) := router.addRoute .put

/-- `Del`. -/
def del (router : Router Handler) := router.addRoute .delete

/-- `Patch`. -/
def patch (router : Router Handler) := router.addRoute .patch

/-- `Match`. -/
def matchRoute (router : Router Handler) (method : Verb) (target : Bytes) :
    Option (RouteMatch Handler) :=
  let path := target.takeWhile (· ≠ Bytes.char '?')
  match router.trees method with
  | none => none
  | some tree => tree.search path

/-- A call that may change a router. -/
inductive Call (Handler : Type) where
  | addRoute (method : Verb) (pattern : Bytes) (handler : Option Handler)
  | freeze

/-- A call, with what it throws. -/
def Call.run (router : Router Handler) : Call Handler → Router Handler × Option RouterFault
  | .addRoute method pattern handler => router.addRoute method pattern handler
  | .freeze => (router.freeze, none)

/-- Calls one after the other, with what each of them throws. -/
def run (router : Router Handler) : List (Call Handler) → Router Handler × List (Option RouterFault)
  | [] => (router, [])
  | call :: calls =>
      let (next, fault) := call.run router
      let (last, faults) := run next calls
      (last, fault :: faults)

section Rejected

variable {router : Router Handler} {method : Verb} {pattern : Bytes} {handler : Option Handler}

/-- When `AddRoute` throws, it has not changed the router. -/
theorem addRoute_refused (refused : (router.addRoute method pattern handler).2 ≠ none) :
    (router.addRoute method pattern handler).1 = router := by
  cases frozen : router.frozen with
  | true => rw [addRoute, if_pos frozen]
  | false =>
      have thawed : ¬router.frozen = true := by simp [frozen]
      rw [addRoute, if_neg thawed] at refused ⊢
      cases present : router.trees method with
      | none =>
          rw [present] at refused
          dsimp only at refused ⊢
          rcases result : RadixTree.empty.insert pattern handler with ⟨tree, _ | fault⟩
          · rw [result] at refused
            exact absurd rfl refused
          · rfl
      | some tree =>
          rw [present] at refused
          have same := RadixTree.insert_refused refused
          dsimp only
          rw [same, ← present, Function.update_eq_self]

end Rejected

/-- A rejected registration changes neither what a router of a run answers nor what later calls
do. -/
theorem rejected_no_effect (calls : List (Call Handler)) (method : Verb) (pattern : Bytes)
    (handler : Option Handler)
    (rejected : ((run empty calls).1.addRoute method pattern handler).2 ≠ none) :
    (∀ other target, ((run empty calls).1.addRoute method pattern handler).1.matchRoute other target =
      (run empty calls).1.matchRoute other target) ∧
    ∀ later, run ((run empty calls).1.addRoute method pattern handler).1 later =
      run (run empty calls).1 later := by
  rw [addRoute_refused rejected]
  exact ⟨fun _ _ => rfl, fun _ => rfl⟩

theorem rejected_no_effect_conflict :
    let router := (run empty [.addRoute .get (Bytes.text "/u/<int:id>/x") (some 4)]).1
    (∀ other target,
      (router.addRoute .get (Bytes.text "/u/<int:other>") (some 5)).1.matchRoute other target =
        router.matchRoute other target) ∧
      ∀ later, run (router.addRoute .get (Bytes.text "/u/<int:other>") (some 5)).1 later =
        run router later :=
  rejected_no_effect [.addRoute .get (Bytes.text "/u/<int:id>/x") (some 4)] .get
    (Bytes.text "/u/<int:other>") (some 5) (by decide +kernel)

end Router

end Wan.Web
