import Wan.Web.Router.Grown

/-!
# Searching a grown tree

What `SearchNode` reports about the routes below a node: if one of them matches the path,
the handler and the captures of a preferred one, and otherwise nothing, with the captured
parameters as they were before.
-/

namespace Wan.Web

open Wan.Library

variable {Handler : Type}

/-- Where two patterns that match the same path come apart, the search prefers literal
bytes to parameters, and among parameters the one that was registered first. -/
def Preferred (routes : Routes Handler) (first second : List Token) : Prop :=
  first = second ∨ ∃ stem left right rest rest', first = stem ++ left :: rest ∧
    second = stem ++ right :: rest' ∧ left ≠ right ∧ right.isParam ∧
      (left.isParam → routes.Earlier (stem ++ [left]) (stem ++ [right]))

/-- The result of a search for those routes behind a stem that go on in a certain way. -/
inductive Reports (routes : Routes Handler) (stem : List Token) (among : List Token → Prop)
    (path : Bytes) (params : Params) : Option Handler × Params → Prop where
  | found {handler : Handler} {tail : List Token} {captured : List (Bytes × Bytes)}
      (isAmong : among tail) (latest : routes.latest (stem ++ tail) = some handler)
      (matched : captures tail path = some captured)
      (preferred : ∀ other, among other → routes.Registered (stem ++ other) →
        captures other path ≠ none → Preferred routes (stem ++ tail) (stem ++ other)) :
      Reports routes stem among path params (some handler, record captured params)
  | missed (unmatched : ∀ other, among other → routes.Registered (stem ++ other) →
        captures other path = none) :
      Reports routes stem among path params (none, params)

namespace Reports

variable {routes : Routes Handler} {stem : List Token} {among others : List Token → Prop}
  {path rest bytes : Bytes} {params params' : Params} {handler : Handler}
  {result : Option Handler × Params}

/-- Only registered routes that match count. -/
theorem congr (reports : Reports routes stem among path params result)
    (same : ∀ tail, routes.Registered (stem ++ tail) → captures tail path ≠ none →
      (among tail ↔ others tail)) : Reports routes stem others path params result := by
  cases reports with
  | found isAmong latest matched preferred =>
      apply found ((same _ ⟨_, History.mem_of_latest latest⟩ (by simp [matched])).mp isAmong) latest
        matched
      intro other isOther registered matches_path
      exact preferred other ((same other registered matches_path).mpr isOther) registered
        matches_path
  | missed unmatched =>
      apply missed
      intro other isOther registered
      by_contra matches_path
      exact matches_path
        (unmatched other ((same other registered matches_path).mpr isOther) registered)

/-- A route that was found stays the result if it is preferred to all others. -/
theorem found_or (others : List Token → Prop)
    (reports : Reports routes stem among path params (some handler, params'))
    (preferred : ∀ tail, among tail → captures tail path ≠ none → ∀ other, others other →
      captures other path ≠ none → Preferred routes (stem ++ tail) (stem ++ other)) :
    Reports routes stem (fun tail => among tail ∨ others tail) path params
      (some handler, params') := by
  cases reports with
  | found isAmong latest matched best =>
      apply found (.inl isAmong) latest matched
      intro other isOther registered matches_path
      rcases isOther with isAmong' | isOther
      · exact best other isAmong' registered matches_path
      · exact preferred _ isAmong (by simp [matched]) other isOther matches_path

/-- Where nothing was found, the search goes on. -/
theorem missed_or (reports : Reports routes stem among path params (none, params'))
    (more : Reports routes stem others path params' result) :
    Reports routes stem (fun tail => among tail ∨ others tail) path params result := by
  cases reports with
  | missed unmatched =>
      apply more.congr
      intro tail registered matches_path
      constructor
      · exact .inr
      · intro isEither
        rcases isEither with isAmong | isOther
        · exact absurd (unmatched tail isAmong registered) matches_path
        · exact isOther

/-- Where nothing was found, nothing is captured. -/
theorem params_eq (reports : Reports routes stem among path params (none, params')) :
    params' = params := by
  cases reports
  rfl

/-- Nothing is found among no routes. -/
theorem none (empty : ∀ tail, ¬among tail) :
    Reports routes stem among path params (none, params) :=
  missed fun other isOther _ => absurd isOther (empty other)

/-- The literal bytes of a fragment in front of the routes. -/
theorem behind_literals
    (reports : Reports routes (stem ++ bytes.map .literal) (fun _ => True) rest params result) :
    Reports routes stem (fun tail => bytes.map .literal <+: tail) (bytes ++ rest) params
      result := by
  cases reports with
  | @found _ tail _ isAmong latest matched preferred =>
      rw [List.append_assoc] at latest
      apply found (List.prefix_append _ _) latest (captures_literals.trans matched)
      intro other isOther registered matches_path
      rcases isOther with ⟨other, rfl⟩
      rw [captures_literals] at matches_path
      rw [← List.append_assoc] at registered ⊢
      rw [← List.append_assoc]
      exact preferred other trivial registered matches_path
  | missed unmatched =>
      apply missed
      intro other isOther registered
      rcases isOther with ⟨other, rfl⟩
      rw [← List.append_assoc] at registered
      rw [captures_literals]
      exact unmatched other trivial registered

/-- An empty fragment admits all routes. -/
theorem of_no_literals (bare : bytes = [])
    (reports : Reports routes stem (fun tail => bytes.map .literal <+: tail) path params result) :
    Reports routes stem (fun _ => True) path params result := by
  subst bare
  apply reports.congr
  intro tail _ _
  exact ⟨fun _ => trivial, fun _ => List.nil_prefix⟩

section Parameter

variable {type : ParamType} {name value : Bytes} {other : List Token}

theorem captures_behind (taken : capture type path = some (value, rest)) :
    captures ([.param type name] ++ other) path ≠ Option.none ↔
      captures other rest ≠ Option.none := by
  rw [List.singleton_append, captures_param taken, ne_eq, Option.map_eq_none_iff]

/-- The capture of a parameter in front of a route that was found. -/
theorem behind_parameter (taken : capture type path = some (value, rest))
    (reports : Reports routes (stem ++ [.param type name]) (fun _ => True) rest
      (Function.update params name (some value)) (some handler, params')) :
    Reports routes stem (fun tail => [.param type name] <+: tail) path params
      (some handler, params') := by
  cases reports with
  | @found _ tail captured isAmong latest matched preferred =>
      rw [List.append_assoc] at latest
      have whole : captures ([.param type name] ++ tail) path =
          some ((name, value) :: captured) := by
        rw [List.singleton_append, captures_param taken, matched]
        rfl
      rw [← record_cons]
      apply found (List.prefix_append _ _) latest whole
      intro other isOther registered matches_path
      rcases isOther with ⟨other, rfl⟩
      rw [← List.append_assoc] at registered ⊢
      rw [← List.append_assoc]
      exact preferred other trivial registered ((captures_behind taken).mp matches_path)

/-- The capture of a parameter is undone where nothing is found. -/
theorem behind_parameter_missed (taken : capture type path = some (value, rest))
    (unset : params name = .none)
    (reports : Reports routes (stem ++ [.param type name]) (fun _ => True) rest
      (Function.update params name (some value)) (.none, params')) :
    Reports routes stem (fun tail => [.param type name] <+: tail) path params
      (.none, Function.update params' name .none) := by
  cases reports with
  | missed unmatched =>
      rw [Function.update_idem, ← unset, Function.update_eq_self]
      apply missed
      intro other isOther registered
      rcases isOther with ⟨other, rfl⟩
      rw [← List.append_assoc] at registered
      by_contra matches_path
      exact (captures_behind taken).mp matches_path (unmatched other trivial registered)

/-- Routes that start with a parameter do not match where it captures nothing. -/
theorem uncaptured (name : Bytes) (taken : capture type path = .none) :
    Reports routes stem (fun tail => [.param type name] <+: tail) path params
      (.none, params) := by
  apply missed
  intro other isOther registered
  rcases isOther with ⟨other, rfl⟩
  exact captures_param_of_none taken

end Parameter

end Reports

section Search

variable {routes : Routes Handler} {stem front : List Token}
  {node child : RadixNode Handler} {children : List (RadixNode Handler)} {path : Bytes}
  {params : Params}

/-- What holds of the children of a grown node, from one of them on. -/
structure Offspring (routes : Routes Handler) (stem : List Token)
    (children : List (RadixNode Handler)) : Prop where
  labelled : ∀ child ∈ children, child.label ≠ []
  bare : ∀ child ∈ children, child.isParam → child.pathPrefix = []
  extended : ∀ child ∈ children, routes.Extended (stem ++ child.label)
  apart : children.Pairwise fun first second => Apart routes stem first.label second.label
  grown : ∀ child ∈ children, Grown routes (stem ++ child.label) child

theorem Grown.offspring (grown : Grown routes stem node) : Offspring routes stem node.children :=
  ⟨grown.layer.labelled, grown.layer.bare, grown.layer.extended, grown.layer.apart,
    fun _ member => grown.descend member⟩

theorem Offspring.tail (offspring : Offspring routes stem (child :: children)) :
    Offspring routes stem children :=
  ⟨(List.forall_mem_cons.mp offspring.labelled).2, (List.forall_mem_cons.mp offspring.bare).2,
    (List.forall_mem_cons.mp offspring.extended).2, (List.pairwise_cons.mp offspring.apart).2,
    (List.forall_mem_cons.mp offspring.grown).2⟩

/-- No parameter is captured yet but those on the way to a node. -/
def Unset (stem : List Token) (params : Params) : Prop :=
  ∀ name, name ∉ Token.names stem → params name = none

/-- A literal child's routes match only paths that start like it. -/
theorem head_of_literal {tail : List Token} (isLiteral : child.isParam = false)
    (labelled : child.label ≠ []) (along : child.label <+: tail)
    (matched : captures tail path ≠ none) :
    ∃ byte, child.label.head? = some (.literal byte) ∧ path.head? = some byte := by
  rw [label_literal isLiteral] at labelled along ⊢
  cases fragment : child.pathPrefix with
  | nil => simp [fragment] at labelled
  | cons byte rest =>
      refine ⟨byte, rfl, ?_⟩
      rcases along with ⟨later, rfl⟩
      rw [fragment, List.map_cons, List.cons_append, captures] at matched
      by_contra different
      rw [if_neg different] at matched
      exact matched rfl

theorem Unset.literals {bytes : Bytes} (unset : Unset front params) :
    Unset (front ++ bytes.map .literal) params := by
  intro name notIn
  rw [Token.names_append, Token.names_literals, List.append_nil] at notIn
  exact unset name notIn

theorem Unset.parameter {type : ParamType} {name value : Bytes} (unset : Unset stem params) :
    Unset (stem ++ [.param type name]) (Function.update params name (some value)) := by
  intro other notIn
  rw [Token.names_append, List.mem_append, not_or] at notIn
  have different : other ≠ name := fun same => notIn.2 (same ▸ List.mem_cons_self ..)
  rw [Function.update_of_ne different]
  exact unset other notIn.1

/-- The end of a path is matched by the route to the node alone. -/
theorem reports_end {handler : Option Handler} (isLatest : handler = routes.latest stem) :
    Reports routes stem (fun _ => True) [] params (handler, params) := by
  cases handler with
  | none =>
      apply Reports.missed
      intro other _ registered
      by_contra matched
      rcases Option.ne_none_iff_exists'.mp matched with ⟨captured, matched⟩
      rcases captures_nil matched with ⟨rfl, -⟩
      rw [List.append_nil] at registered
      rcases registered with ⟨value, member⟩
      exact History.latest_eq_none.mp isLatest.symm _ member rfl
  | some handler =>
      have whole : routes.latest (stem ++ []) = some handler := by rw [List.append_nil, isLatest]
      have empty : captures [] [] = some [] := if_pos rfl
      refine Reports.found trivial whole empty fun other _ registered matched => ?_
      rcases Option.ne_none_iff_exists'.mp matched with ⟨captured, matched⟩
      rcases captures_nil matched with ⟨rfl, -⟩
      exact .inl rfl

/-- A path that goes on is matched by routes through the children. -/
theorem through_child (layer : Layer routes stem node) (nonempty : path ≠ []) {tail : List Token}
    (registered : routes.Registered (stem ++ tail)) (matched : captures tail path ≠ none) :
    (∃ child ∈ node.children, child.isParam = false ∧ child.label <+: tail) ∨
      ∃ child ∈ node.children, child.isParam = true ∧ child.label <+: tail := by
  rcases registered with ⟨value, member⟩
  rcases layer.covered _ member (List.prefix_append _ _) with isStem | ⟨child, isChild, along⟩
  · rw [List.append_right_eq_self.mp isStem, captures, if_neg nonempty] at matched
    exact absurd rfl matched
  · rw [List.prefix_append_right_inj] at along
    cases isParam : child.isParam with
    | false => exact .inl ⟨child, isChild, isParam, along⟩
    | true => exact .inr ⟨child, isChild, isParam, along⟩

/-- A route through a literal child is preferred to one through a parameter. -/
theorem preferred_literal (offspring : Offspring routes stem children) {tail other : List Token}
    (isLiteral : ∃ child ∈ children, child.isParam = false ∧ child.label <+: tail)
    (matched : captures tail path ≠ none)
    (isParameter : ∃ child ∈ children, child.isParam = true ∧ child.label <+: other) :
    Preferred routes (stem ++ tail) (stem ++ other) := by
  rcases isLiteral with ⟨first, isFirst, literal, alongFirst⟩
  rcases isParameter with ⟨second, isSecond, param, alongSecond⟩
  rcases head_of_literal literal (offspring.labelled first isFirst) alongFirst matched with
    ⟨byte, isHead, -⟩
  rcases List.head?_eq_some_iff.mp isHead with ⟨later, isLabel⟩
  rcases alongFirst with ⟨rest, rfl⟩
  rcases alongSecond with ⟨rest', rfl⟩
  rw [isLabel, label_param param]
  exact .inr ⟨stem, _, _, _, _, rfl, rfl, nofun, rfl, nofun⟩

/-- A route through a parameter is preferred to one through a later parameter. -/
theorem preferred_parameter (offspring : Offspring routes stem (child :: children))
    (isParam : child.isParam = true) {tail other : List Token} (along : child.label <+: tail)
    (isParameter : ∃ child ∈ children, child.isParam = true ∧ child.label <+: other) :
    Preferred routes (stem ++ tail) (stem ++ other) := by
  rcases isParameter with ⟨second, isSecond, param, alongSecond⟩
  have apart := (List.pairwise_cons.mp offspring.apart).1 second isSecond
  rcases along with ⟨rest, rfl⟩
  rcases alongSecond with ⟨rest', rfl⟩
  rw [label_param isParam, label_param param] at apart ⊢
  refine .inr ⟨stem, _, _, _, _, rfl, rfl, ?_, rfl, fun _ => apart.earlier _ rfl _ rfl rfl rfl⟩
  intro same
  exact apart.parting _ rfl _ rfl (.inl same)

/-- Routes through different literal children do not match the same path. -/
theorem preferred_different (offspring : Offspring routes stem (child :: children))
    (isLiteral : child.isParam = false) {tail other : List Token} (along : child.label <+: tail)
    (matched : captures tail path ≠ none)
    (isLiteral' : ∃ child ∈ children, child.isParam = false ∧ child.label <+: other)
    (matched' : captures other path ≠ none) : Preferred routes (stem ++ tail) (stem ++ other) := by
  rcases isLiteral' with ⟨second, isSecond, literal, alongSecond⟩
  have apart := (List.pairwise_cons.mp offspring.apart).1 second isSecond
  have labelled := List.forall_mem_cons.mp offspring.labelled
  rcases head_of_literal isLiteral labelled.1 along matched with ⟨byte, isHead, start⟩
  rcases head_of_literal literal (labelled.2 second isSecond) alongSecond matched' with
    ⟨byte', isHead', start'⟩
  cases start.symm.trans start'
  exact absurd (.inl rfl) (apart.parting _ isHead _ isHead')

/-- The name of a parameter behind a stem does not occur in the stem. -/
theorem fresh_name {type : ParamType} {name : Bytes}
    (distinct : ∀ route ∈ routes, (Token.names route.1).Nodup)
    (extended : routes.Extended (stem ++ [.param type name])) : name ∉ Token.names stem := by
  rcases extended with ⟨route, member, rest, isRoute⟩
  have nodup := distinct route member
  rw [← isRoute, Token.names_append, Token.names_append] at nodup
  intro again
  exact List.disjoint_of_nodup_append (List.nodup_append.mp nodup).1 again (List.mem_cons_self ..)

mutual

/-- The search at a node whose fragment is still ahead. -/
theorem searchNode_reports (distinct : ∀ route ∈ routes, (Token.names route.1).Nodup)
    (node : RadixNode Handler) (front : List Token) (path : Bytes)
    (params : Params) (grown : Grown routes (front ++ node.pathPrefix.map .literal) node)
    (unset : Unset front params) :
    Reports routes front (fun tail => node.pathPrefix.map .literal <+: tail) path params
      (RadixTree.searchNode node path params) := by
  rcases node with ⟨pathPrefix, children, handler, type, name⟩
  rw [RadixTree.searchNode]
  split
  · next start =>
    rw [List.isPrefixOf_iff_prefix] at start
    rcases start with ⟨rest, rfl⟩
    rw [List.drop_left]
    apply Reports.behind_literals
    split
    · next atEnd =>
      rw [atEnd]
      exact reports_end grown.layer.handler
    · next goesOn =>
      have literals := searchLiterals_reports distinct children (front ++ pathPrefix.map .literal)
        rest params
        grown.offspring unset.literals
      rcases result : RadixTree.searchLiterals children rest params with ⟨_ | found, params'⟩
      · rw [result] at literals
        have restored := literals.params_eq
        subst restored
        have parameters := searchParameters_reports distinct children
          (front ++ pathPrefix.map .literal) rest
          params' grown.offspring unset.literals goesOn
        apply (literals.missed_or parameters).congr
        intro tail registered matched
        exact ⟨fun _ => trivial, fun _ => through_child grown.layer goesOn registered matched⟩
      · rw [result] at literals
        apply (literals.found_or _ fun tail isLiteral matched other isParameter matchedOther =>
          preferred_literal grown.offspring isLiteral matched isParameter).congr
        intro tail registered matched
        exact ⟨fun _ => trivial, fun _ => through_child grown.layer goesOn registered matched⟩
  · next different =>
    rw [List.isPrefixOf_iff_prefix] at different
    apply Reports.missed
    intro other isOther registered
    rcases isOther with ⟨other, rfl⟩
    exact captures_literals_of_not different

theorem searchLiterals_reports (distinct : ∀ route ∈ routes, (Token.names route.1).Nodup)
    (children : List (RadixNode Handler)) (stem : List Token) (path : Bytes)
    (params : Params) (offspring : Offspring routes stem children)
    (unset : Unset stem params) :
    Reports routes stem
      (fun tail => ∃ child ∈ children, child.isParam = false ∧ child.label <+: tail)
      path params (RadixTree.searchLiterals children path params) := by
  cases children with
  | nil => exact .none fun _ ⟨_, member, _⟩ => nomatch member
  | cons child children =>
      have more := searchLiterals_reports distinct children stem path params offspring.tail unset
      rw [RadixTree.searchLiterals]
      split
      · next isParam =>
        apply more.congr
        intro tail _ _
        simp [isParam]
      · next isLiteral =>
        rw [Bool.not_eq_true] at isLiteral
        have label := label_literal isLiteral
        have here := searchNode_reports distinct child stem path params
          (label ▸ offspring.grown child (List.mem_cons_self ..)) unset
        rcases result : RadixTree.searchNode child path params with ⟨_ | found, params'⟩
        · rw [result] at here
          have restored := here.params_eq
          subst restored
          apply (here.missed_or more).congr
          intro tail _ _
          simp [isLiteral, label]
        · rw [result] at here
          apply (here.found_or _ fun tail along matched other isOther matchedOther =>
            preferred_different offspring isLiteral (label.symm ▸ along) matched isOther
              matchedOther).congr
          intro tail _ _
          simp [isLiteral, label]

theorem searchParameters_reports (distinct : ∀ route ∈ routes, (Token.names route.1).Nodup)
    (children : List (RadixNode Handler)) (stem : List Token) (path : Bytes)
    (params : Params) (offspring : Offspring routes stem children)
    (unset : Unset stem params) (nonempty : path ≠ []) :
    Reports routes stem
      (fun tail => ∃ child ∈ children, child.isParam = true ∧ child.label <+: tail)
      path params (RadixTree.searchParameters children path params) := by
  cases children with
  | nil => exact .none fun _ ⟨_, member, _⟩ => nomatch member
  | cons child children =>
      have more := searchParameters_reports distinct children stem path params offspring.tail unset
        nonempty
      rw [RadixTree.searchParameters]
      cases isParam : child.isParam with
      | false =>
          rw [if_pos (.inl rfl)]
          apply more.congr
          intro tail _ _
          simp [isParam]
      | true =>
          have label := label_param isParam
          have isType : child.parameterType ≠ .none := by
            simpa [RadixNode.isParam] using isParam
          have taken := capture_eq path isType
          have remainder : child.parameterType = .pathParam →
              RadixTree.captureValue child.parameterType path ≠ [] := by
            intro isPath
            rwa [isPath, RadixTree.captureValue, if_pos rfl]
          generalize RadixTree.captureValue child.parameterType path = value at taken remainder ⊢
          by_cases empty : value = []
          · rw [if_pos empty] at taken
            rw [if_pos (.inr ⟨fun isPath => remainder isPath empty, empty⟩)]
            apply ((Reports.uncaptured child.paramName taken).missed_or more).congr
            intro tail _ _
            simp [isParam, label]
          · rw [if_neg empty] at taken
            rw [if_neg (by simp [empty])]
            have first := offspring.extended child (List.mem_cons_self ..)
            have grown := offspring.grown child (List.mem_cons_self ..)
            have bare := offspring.bare child (List.mem_cons_self ..) isParam
            rw [label] at first grown
            have unsetName := unset child.paramName (fresh_name distinct first)
            have here := searchNode_reports distinct child
              (stem ++ [.param child.parameterType child.paramName])
              (path.drop value.length) (Function.update params child.paramName (some value))
              (by rwa [bare, List.map_nil, List.append_nil]) unset.parameter
            have below := here.of_no_literals bare
            rcases result : RadixTree.searchNode child (path.drop value.length)
              (Function.update params child.paramName (some value)) with ⟨_ | found, params'⟩
            · rw [result] at below
              have missed := Reports.behind_parameter_missed taken unsetName below
              have restored := missed.params_eq
              dsimp only
              rw [restored] at missed ⊢
              apply (missed.missed_or more).congr
              intro tail _ _
              simp [isParam, label]
            · rw [result] at below
              have found := Reports.behind_parameter taken below
              apply (found.found_or _ fun tail along matched other isOther matchedOther =>
                preferred_parameter offspring isParam (label.symm ▸ along) isOther).congr
              intro tail _ _
              simp [isParam, label]

end

end Search

end Wan.Web
