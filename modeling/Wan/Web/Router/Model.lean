import Mathlib.Logic.Function.Basic
import Wan.Library.Bytes

/-!
# The radix tree of `Web/Router/Router.hpp`

`RadixTree` as pure functions on its nodes.  Where the source walks the pattern with
an index, `skip` counts the bytes of the remaining pattern that the index has passed
already.  `insert` returns the tree together with what it throws, because a throw in
the middle of a walk leaves the splits made so far in place.
-/

namespace Wan.Web

open Wan.Library

/-- `ParamType`. -/
inductive ParamType where
  | none
  | intParam
  | stringParam
  | pathParam
  deriving DecidableEq, Repr

/-- `RadixNode`. A `Handler` that holds no function is `none`. -/
structure RadixNode (Handler : Type) where
  pathPrefix : Bytes
  children : List (RadixNode Handler)
  handler : Option Handler
  parameterType : ParamType
  paramName : Bytes

/-- The exceptions of the router. -/
inductive RouterFault where
  /-- `std::invalid_argument`. -/
  | invalidArgument (what : String)
  /-- `std::logic_error`. -/
  | logicError (what : String)
  deriving DecidableEq, Repr

/-- The captured parameters, a `std::map` from names to values. -/
abbrev Params := Bytes → Option Bytes

/-- `RouteMatch`. -/
structure RouteMatch (Handler : Type) where
  handler : Handler
  params : Params

/-- `RadixTree`: its root. -/
abbrev RadixTree (Handler : Type) := RadixNode Handler

variable {Handler : Type}

namespace RadixNode

/-- `IsParam`. -/
def isParam (node : RadixNode Handler) : Bool := node.parameterType ≠ .none

/-- A new node with a literal fragment. -/
def literal (pathPrefix : Bytes) : RadixNode Handler := ⟨pathPrefix, [], none, .none, []⟩

/-- A new parameter node. -/
def parameter (type : ParamType) (name : Bytes) : RadixNode Handler := ⟨[], [], none, type, name⟩

/-- Move what lies behind the first bytes of a fragment into a branch of its own. -/
def split (node : RadixNode Handler) (commonLen : Nat) : RadixNode Handler :=
  if commonLen < node.pathPrefix.length then
    { node with
      pathPrefix := node.pathPrefix.take commonLen
      children := [⟨node.pathPrefix.drop commonLen, node.children, node.handler, .none, []⟩]
      handler := none }
  else
    node

end RadixNode

namespace RadixTree

section Insert

/-- The type and the name in a parameter specification. -/
def splitSpec (paramSpec : Bytes) : Bytes × Bytes :=
  if Bytes.char ':' ∈ paramSpec then
    (paramSpec.takeWhile (· ≠ Bytes.char ':'), (paramSpec.dropWhile (· ≠ Bytes.char ':')).tail)
  else
    (Bytes.text "string", paramSpec)

/-- The parameter types by their names. -/
def typeOf (type : Bytes) : Option ParamType :=
  if type = Bytes.text "int" then some .intParam
  else if type = Bytes.text "path" then some .pathParam
  else if type = Bytes.text "string" then some .stringParam
  else none

/-- The characters of parameter names. -/
def isNameByte (byte : UInt8) : Bool := Bytes.isAlnum byte || byte = Bytes.char '_'

/-- The loop of `Insert` that validates the pattern. -/
def validate (parameterNames : List Bytes) : Bytes → Nat → Except RouterFault Unit
  | [], _ => .ok ()
  | _ :: path, skip + 1 => validate parameterNames path skip
  | byte :: path, 0 =>
      if byte ≠ Bytes.char '<' then
        if byte = Bytes.char '>' then
          .error (.invalidArgument "unmatched route parameter terminator")
        else
          validate parameterNames path 0
      else if Bytes.char '>' ∉ path then
        .error (.invalidArgument "unterminated route parameter")
      else
        let paramSpec := path.takeWhile (· ≠ Bytes.char '>')
        let (type, name) := splitSpec paramSpec
        if typeOf type = none ∨ name = [] then
          .error (.invalidArgument "invalid route parameter specification")
        else if type = Bytes.text "path" ∧ paramSpec.length + 1 < path.length then
          .error (.invalidArgument "path route parameter must be terminal")
        else if ¬name.all isNameByte then
          .error (.invalidArgument "invalid route parameter name")
        else if name ∈ parameterNames then
          .error (.invalidArgument "duplicate route parameter name")
        else
          validate (name :: parameterNames) path (paramSpec.length + 1)

/-- A child with the children before and after it. -/
abbrev Place (Handler : Type) :=
  List (RadixNode Handler) × RadixNode Handler × List (RadixNode Handler)

/-- A place further right. -/
def Place.after (first : RadixNode Handler) (place : Place Handler) : Place Handler :=
  (first :: place.1, place.2)

/-- The loop of `Insert` over the children for a parameter. -/
def findParameter (type : ParamType) (name : Bytes) :
    List (RadixNode Handler) → Except RouterFault (Option (Place Handler))
  | [] => .ok none
  | child :: children =>
      if child.isParam ∧ child.paramName = name ∧ child.parameterType ≠ type then
        .error (.invalidArgument "conflicting parameter types for route shape")
      else if child.isParam ∧ child.parameterType = type then
        if child.paramName ≠ name then
          .error (.invalidArgument "conflicting parameter names for route shape")
        else
          .ok (some ([], child, children))
      else
        (findParameter type name children).map (Option.map (Place.after child))

/-- The loop of `Insert` over the children for a literal segment: the first child
with a common start, and the length of that start. -/
def findLiteral (segment : Bytes) :
    List (RadixNode Handler) → Option (Place Handler × Nat)
  | [] => none
  | child :: children =>
      let commonLen := Bytes.commonLength child.pathPrefix segment
      if child.isParam = false ∧ 0 < commonLen then
        some (([], child, children), commonLen)
      else
        (findLiteral segment children).map fun found => (Place.after child found.1, found.2)

/-- The loop of `Insert` that walks down the tree and adds what is missing. -/
def insertLoop (handler : Handler) :
    Bytes → Nat → RadixNode Handler → RadixNode Handler × Option RouterFault
  | [], _, node => ({ node with handler := some handler }, none)
  | _ :: path, skip + 1, node => insertLoop handler path skip node
  | byte :: path, 0, node =>
      if byte = Bytes.char '<' then
        if Bytes.char '>' ∉ path then
          (node, some (.invalidArgument "unterminated route parameter"))
        else
          let paramSpec := path.takeWhile (· ≠ Bytes.char '>')
          let (typeStr, name) := splitSpec paramSpec
          if name = [] then
            (node, some (.invalidArgument "route parameter name must not be empty"))
          else
            match typeOf typeStr with
            | none => (node, some (.invalidArgument "invalid route parameter type"))
            | some type =>
                match findParameter type name node.children with
                | .error fault => (node, some fault)
                | .ok (some (before, child, after)) =>
                    let (child, fault) := insertLoop handler path (paramSpec.length + 1) child
                    ({ node with children := before ++ child :: after }, fault)
                | .ok none =>
                    let (child, fault) := insertLoop handler path (paramSpec.length + 1)
                      (.parameter type name)
                    ({ node with children := node.children ++ [child] }, fault)
      else
        let segment := byte :: path.takeWhile (· ≠ Bytes.char '<')
        match findLiteral segment node.children with
        | some ((before, child, after), commonLen) =>
            let (child, fault) := insertLoop handler path (commonLen - 1) (child.split commonLen)
            ({ node with children := before ++ child :: after }, fault)
        | none =>
            let (child, fault) := insertLoop handler path (segment.length - 1) (.literal segment)
            ({ node with children := node.children ++ [child] }, fault)

/-- `Insert`. -/
def insert (tree : RadixTree Handler) (path : Bytes) (handler : Option Handler) :
    RadixTree Handler × Option RouterFault :=
  if path.head? ≠ some (Bytes.char '/') then
    (tree, some (.invalidArgument "route pattern must be an absolute path"))
  else
    match handler with
    | none => (tree, some (.invalidArgument "route handler must not be empty"))
    | some handler =>
        match validate [] path 0 with
        | .error fault => (tree, some fault)
        | .ok () => insertLoop handler path 0 tree

end Insert

section Search

/-- What a parameter captures at the start of a path. -/
def captureValue (type : ParamType) (path : Bytes) : Bytes :=
  if type = .pathParam then path
  else path.takeWhile fun byte =>
    byte ≠ Bytes.char '/' && (type ≠ .intParam || Bytes.isDigit byte)

mutual

/-- `SearchNode`, which yields the handler of the node it finds and leaves the captured
parameters behind. The path is what follows `Pos`. -/
def searchNode : RadixNode Handler → Bytes → Params → Option Handler × Params
  | ⟨pathPrefix, children, handler, _, _⟩, path, params =>
      if pathPrefix.isPrefixOf path then
        if path.drop pathPrefix.length = [] then
          (handler, params)
        else
          match searchLiterals children (path.drop pathPrefix.length) params with
          | (some found, params) => (some found, params)
          | (none, params) => searchParameters children (path.drop pathPrefix.length) params
      else
        (none, params)

/-- The loop of `SearchNode` over the literal children. -/
def searchLiterals : List (RadixNode Handler) → Bytes → Params → Option Handler × Params
  | [], _, params => (none, params)
  | child :: children, path, params =>
      if child.isParam then
        searchLiterals children path params
      else
        match searchNode child path params with
        | (some found, params) => (some found, params)
        | (none, params) => searchLiterals children path params

/-- The loop of `SearchNode` over the parameter children. -/
def searchParameters : List (RadixNode Handler) → Bytes → Params → Option Handler × Params
  | [], _, params => (none, params)
  | child :: children, path, params =>
      let paramValue := captureValue child.parameterType path
      if child.isParam = false ∨ (child.parameterType ≠ .pathParam ∧ paramValue = []) then
        searchParameters children path params
      else
        match searchNode child (path.drop paramValue.length)
            (Function.update params child.paramName (some paramValue)) with
        | (some found, params) => (some found, params)
        | (none, params) =>
            searchParameters children path (Function.update params child.paramName none)

end

/-- `Search`. -/
def search (tree : RadixTree Handler) (path : Bytes) : Option (RouteMatch Handler) :=
  match searchNode tree path fun _ => none with
  | (some handler, params) => some ⟨handler, params⟩
  | (none, _) => none

end Search

/-- The tree of a new `RadixTree`. -/
def empty : RadixTree Handler := ⟨[], [], none, .none, []⟩

end RadixTree

end Wan.Web
