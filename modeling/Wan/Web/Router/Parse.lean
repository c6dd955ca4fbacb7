import Wan.Web.Router.Pattern

/-!
# Parsing route patterns

`parsePattern` reads a pattern in the way of the two loops of `Insert`.  `Parsed` is
the grammar of the patterns that pass the first loop, and the second loop takes
its steps along that grammar.
-/

namespace Wan.Web

open Wan.Library

namespace RadixTree

/-- The tokens of a pattern, what lies behind the first `skip` bytes. -/
def parsePattern : Bytes → Nat → List Token
  | [], _ => []
  | _ :: path, skip + 1 => parsePattern path skip
  | byte :: path, 0 =>
      if byte ≠ Bytes.char '<' then
        .literal byte :: parsePattern path 0
      else
        let paramSpec := path.takeWhile (· ≠ Bytes.char '>')
        let (type, name) := splitSpec paramSpec
        .param ((typeOf type).getD .none) name :: parsePattern path (paramSpec.length + 1)

/-- The tokens of a pattern. -/
abbrev tokensOf (path : Bytes) : List Token := parsePattern path 0

/-- The grammar of patterns. -/
inductive Parsed : Bytes → List Token → Prop where
  | nil : Parsed [] []
  | literal {byte : UInt8} {path : Bytes} {tokens : List Token} (notOpen : byte ≠ Bytes.char '<')
      (rest : Parsed path tokens) : Parsed (byte :: path) (.literal byte :: tokens)
  | param {spec path typeStr name : Bytes} {type : ParamType} {tokens : List Token}
      (closed : Bytes.char '>' ∉ spec) (parts : splitSpec spec = (typeStr, name))
      (named : name ≠ []) (typed : typeOf typeStr = some type)
      (terminal : type = .pathParam → path = []) (rest : Parsed path tokens) :
      Parsed (Bytes.char '<' :: (spec ++ Bytes.char '>' :: path)) (.param type name :: tokens)

section Skip

variable {Handler : Type} {handler : Handler}

theorem parsePattern_skip (path : Bytes) (skip : Nat) :
    parsePattern path skip = tokensOf (path.drop skip) := by
  induction path generalizing skip with
  | nil => simp [parsePattern]
  | cons byte path ih =>
      cases skip with
      | zero => rfl
      | succ skip => rw [parsePattern, ih, List.drop_succ_cons]

theorem validate_skip (names : List Bytes) (path : Bytes) (skip : Nat) :
    validate names path skip = validate names (path.drop skip) 0 := by
  induction path generalizing skip with
  | nil => simp [validate]
  | cons byte path ih =>
      cases skip with
      | zero => rfl
      | succ skip => rw [validate, ih, List.drop_succ_cons]

theorem insertLoop_skip (path : Bytes) (skip : Nat) (node : RadixNode Handler) :
    insertLoop handler path skip node = insertLoop handler (path.drop skip) 0 node := by
  induction path generalizing skip with
  | nil => simp [insertLoop]
  | cons byte path ih =>
      cases skip with
      | zero => rfl
      | succ skip => rw [insertLoop, ih, List.drop_succ_cons]

end Skip

section Spec

variable {spec path typeStr name : Bytes} {type : ParamType} {tokens : List Token}

/-- The specification of a parameter ends at the first terminator. -/
theorem takeWhile_spec (closed : Bytes.char '>' ∉ spec) :
    (spec ++ Bytes.char '>' :: path).takeWhile (· ≠ Bytes.char '>') = spec := by
  rw [List.takeWhile_append_of_pos]
  · simp
  · intro byte member
    rw [decide_eq_true_eq]
    intro same
    exact closed (same ▸ member)

theorem drop_spec : (spec ++ Bytes.char '>' :: path).drop (spec.length + 1) = path := by
  rw [List.drop_append, List.drop_eq_nil_of_le (Nat.le_succ _), Nat.add_sub_cancel_left]
  rfl

theorem typeOf_ne_none (typed : typeOf typeStr = some type) : type ≠ .none := by
  unfold typeOf at typed
  split at typed
  · cases typed
    exact nofun
  split at typed
  · cases typed
    exact nofun
  split at typed
  · cases typed
    exact nofun
  · cases typed

/-- The validating loop at a parameter. -/
theorem validate_param (names : List Bytes) (closed : Bytes.char '>' ∉ spec)
    (parts : splitSpec spec = (typeStr, name)) :
    validate names (Bytes.char '<' :: (spec ++ Bytes.char '>' :: path)) 0 =
      if typeOf typeStr = none ∨ name = [] then
        .error (.invalidArgument "invalid route parameter specification")
      else if typeStr = Bytes.text "path" ∧ path ≠ [] then
        .error (.invalidArgument "path route parameter must be terminal")
      else if ¬name.all isNameByte then
        .error (.invalidArgument "invalid route parameter name")
      else if name ∈ names then
        .error (.invalidArgument "duplicate route parameter name")
      else
        validate (name :: names) path 0 := by
  have longer : spec.length + 1 < (spec ++ Bytes.char '>' :: path).length ↔ path ≠ [] := by
    rw [List.length_append, List.length_cons, ← List.length_pos_iff]
    omega
  rw [validate, if_neg (by simp), if_neg (by simp)]
  simp only [takeWhile_spec closed, parts, longer]
  rw [validate_skip _ _ (spec.length + 1), drop_spec]

theorem parsePattern_param (closed : Bytes.char '>' ∉ spec)
    (parts : splitSpec spec = (typeStr, name)) (typed : typeOf typeStr = some type) :
    tokensOf (Bytes.char '<' :: (spec ++ Bytes.char '>' :: path)) =
      .param type name :: tokensOf path := by
  rw [tokensOf, parsePattern, if_neg (by simp)]
  simp only [takeWhile_spec closed, parts, typed, Option.getD_some]
  rw [parsePattern_skip, drop_spec]

theorem text_of_path (typed : typeOf typeStr = some .pathParam) : typeStr = Bytes.text "path" := by
  unfold typeOf at typed
  split at typed
  · cases typed
  split at typed
  · next same => exact same
  split at typed <;> cases typed

end Spec

section Grammar

variable {path first second : Bytes} {tokens : List Token}

/-- What the first loop accepts follows the grammar, and no name occurs twice. -/
theorem parsed_of_validate {names : List Bytes} (path : Bytes)
    (valid : validate names path 0 = .ok ()) :
    Parsed path (tokensOf path) ∧ (Token.names (tokensOf path)).Nodup ∧
      ∀ name ∈ Token.names (tokensOf path), name ∉ names := by
  induction size : path.length using Nat.strongRecOn generalizing path names with
  | _ size ih =>
      subst size
      cases path with
      | nil => exact ⟨.nil, List.nodup_nil, nofun⟩
      | cons byte path =>
          by_cases isOpen : byte = Bytes.char '<'
          · subst isOpen
            by_cases closed : Bytes.char '>' ∈ path
            · rcases List.eq_append_cons_of_mem closed with ⟨spec, path, rfl, free⟩
              rcases parts : splitSpec spec with ⟨typeStr, name⟩
              rw [validate_param names free parts] at valid
              split at valid
              · cases valid
              next known =>
              split at valid
              · cases valid
              next terminal =>
              split at valid
              · cases valid
              split at valid
              · cases valid
              next fresh =>
              rw [not_or] at known
              rcases Option.ne_none_iff_exists'.mp known.1 with ⟨type, typed⟩
              rcases ih path.length (by simp; omega) path valid rfl with ⟨parsed, distinct, others⟩
              rw [parsePattern_param free parts typed]
              refine ⟨.param free parts known.2 typed ?_ parsed, ?_, ?_⟩
              · intro isPath
                subst isPath
                by_contra more
                exact terminal ⟨text_of_path typed, more⟩
              · rw [Token.names, List.nodup_cons]
                exact ⟨fun again => others name again (List.mem_cons_self ..), distinct⟩
              · intro other member
                rw [Token.names, List.mem_cons] at member
                rcases member with rfl | member
                · exact fresh
                · intro again
                  exact others other member (List.mem_cons_of_mem _ again)
            · rw [validate, if_neg (by simp), if_pos closed] at valid
              cases valid
          · rw [validate, if_pos isOpen] at valid
            split at valid
            · cases valid
            · rcases ih path.length (by simp) path valid rfl with ⟨parsed, distinct, others⟩
              rw [tokensOf, parsePattern, if_pos isOpen]
              exact ⟨.literal isOpen parsed, distinct, others⟩

/-- A run of literal bytes at the start of a pattern. -/
theorem Parsed.literals (parsed : Parsed (first ++ second) tokens)
    (literals : Bytes.char '<' ∉ first) :
    ∃ rest, tokens = first.map .literal ++ rest ∧ Parsed second rest := by
  induction first generalizing tokens with
  | nil => exact ⟨tokens, rfl, parsed⟩
  | cons byte first ih =>
      rw [List.mem_cons, not_or] at literals
      rw [List.cons_append] at parsed
      generalize whole : first ++ second = path at parsed
      cases parsed with
      | literal notOpen rest =>
          rcases ih (whole ▸ rest) literals.2 with ⟨later, rfl, remaining⟩
          exact ⟨later, rfl, remaining⟩
      | param => exact absurd rfl literals.1

end Grammar

end RadixTree

end Wan.Web
