import Wan.Web.Client.Redirect
import Wan.Web.Context.Query
import Wan.Web.Middleware.Total
import Wan.Web.Router.Registration

/-!
# Requests, responses and the request context

The part of `Web/Core/Context.hpp` that builds responses.  What Beast does with them is a
parameter: `set` replaces a field, and `prepare_payload` sets the fields that describe the body or
throws when the status allows none.  `World` is whatever the handlers of a program share.
-/

namespace Wan.Web.Serving

open Wan.Library

/-- What a handler throws: a `std::exception` with its text, or something else. -/
inductive Exception where
  | standard (what : Bytes)
  | other
  deriving DecidableEq, Repr

/-- How a call ends that may throw. -/
abbrev Outcome := Onion.Outcome Exception

/-- `Http::request<Http::string_body>`, as far as the server reads it. -/
structure Request where
  method : Verb
  target : Bytes
  version : Nat := 11
  keepAlive : Bool := true
  cookie : Option Bytes := none
  body : Bytes := []
  deriving DecidableEq, Repr

/-- `Http::response<Http::string_body>`. -/
structure Response where
  result : Nat
  version : Nat
  fields : List (Bytes × Bytes) := []
  body : Bytes := []
  keepAlive : Bool := true
  deriving DecidableEq, Repr

/-- Field names are compared without case. -/
def sameName (first second : Bytes) : Bool :=
  first.map HttpClient.lowerCase == second.map HttpClient.lowerCase

/-- What the server calls of Beast. -/
structure Beast where
  /-- `set`, on the fields of a response. -/
  set : List (Bytes × Bytes) → Bytes → Bytes → List (Bytes × Bytes)
  preparePayload : Response → Except Exception Response
  /-- `int_to_status` knows the number. -/
  knows : Nat → Bool

/-- The statuses whose responses have no body: the informational ones that Beast knows, 204 and
304. -/
def Beast.bodiless (beast : Beast) (result : Nat) : Bool :=
  (100 ≤ result && result < 200 && beast.knows result) || result == 204 || result == 304

/-- A field that `prepare_payload` sets. -/
def DescribesBody (field : Bytes × Bytes) : Prop :=
  sameName field.1 (Bytes.text "Content-Length") = true ∨
    sameName field.1 (Bytes.text "Transfer-Encoding") = true

/-- What Beast documents: `set` adds no field of another name, and `prepare_payload` refuses a body
under a status that has none and otherwise changes nothing but the fields that describe the
body. -/
structure Beast.Rules (beast : Beast) : Prop where
  set : ∀ fields name value, ∀ field ∈ beast.set fields name value,
    field ∈ fields ∨ sameName field.1 name = true
  accepts : ∀ response, (∃ prepared, beast.preparePayload response = .ok prepared) ↔
    (beast.bodiless response.result = true → response.body = [])
  result : ∀ response prepared, beast.preparePayload response = .ok prepared →
    prepared.result = response.result
  body : ∀ response prepared, beast.preparePayload response = .ok prepared →
    prepared.body = response.body
  fields : ∀ response prepared, beast.preparePayload response = .ok prepared →
    ∀ field ∈ prepared.fields, field ∈ response.fields ∨ DescribesBody field

section Documented

theorem sameName_self {name : Bytes} : sameName name name = true := beq_self_eq_true _

/-- `set` replaces the fields of the name by one with the trimmed value. -/
def documentedSet (fields : List (Bytes × Bytes)) (name value : Bytes) : List (Bytes × Bytes) :=
  fields.filter (fun field => !sameName field.1 name) ++
    [(name, Bytes.trim (Bytes.text " \t") value)]

theorem documentedSet_fields (fields : List (Bytes × Bytes)) (name value : Bytes)
    (field : Bytes × Bytes) (isIn : field ∈ documentedSet fields name value) :
    field ∈ fields ∨ sameName field.1 name = true := by
  rcases List.mem_append.mp isIn with before | single
  · exact .inl (List.mem_of_mem_filter before)
  · rw [List.mem_singleton.mp single]
    exact .inr sameName_self

/-- A Beast that does what is documented and no more; 103 is its last informational status. -/
def Beast.documented : Beast where
  set := documentedSet
  preparePayload response :=
    if ((100 ≤ response.result && response.result ≤ 103) || response.result == 204 ||
        response.result == 304) && response.body ≠ [] then
      .error (.standard (Bytes.text "invalid response body"))
    else
      .ok { response with
        fields := documentedSet response.fields (Bytes.text "Content-Length")
          (Bytes.text (toString response.body.length)) }
  knows result := (100 ≤ result && result ≤ 103) || (200 ≤ result && result < 600)

theorem Beast.documented_bodiless (result : Nat) : Beast.documented.bodiless result =
    ((100 ≤ result && result ≤ 103) || result == 204 || result == 304) := by
  rw [Beast.bodiless, Beast.documented, Bool.eq_iff_iff]
  simp only [Bool.or_eq_true, Bool.and_eq_true, decide_eq_true_eq, beq_iff_eq]
  omega

theorem Beast.documented_rules : Beast.documented.Rules where
  set := documentedSet_fields
  accepts response := by
    rw [Beast.documented_bodiless, Beast.documented]
    dsimp only
    split
    next refused =>
      simp only [Bool.and_eq_true, decide_eq_true_eq] at refused
      simp [refused]
    next allowed =>
      simp only [Bool.and_eq_true, decide_eq_true_eq, not_and, not_not] at allowed
      exact ⟨fun _ => allowed, fun _ => ⟨_, rfl⟩⟩
  result response prepared done := by
    rw [Beast.documented] at done
    dsimp only at done
    split at done <;> cases done
    rfl
  body response prepared done := by
    rw [Beast.documented] at done
    dsimp only at done
    split at done <;> cases done
    rfl
  fields response prepared done field isIn := by
    rw [Beast.documented] at done
    dsimp only at done
    split at done <;> cases done
    exact (documentedSet_fields _ _ _ field isIn).imp_right .inl

end Documented

/-- `set` of a response. -/
def Response.set (beast : Beast) (response : Response) (name value : Bytes) : Response :=
  { response with fields := beast.set response.fields name value }

/-- `Context`. -/
structure RequestContext (World : Type) where
  memberRequest : Request
  memberResponse : Response
  memberParams : Params
  memberQueryParams : Context.QueryParams
  cookies : Context
  world : World

namespace RequestContext

variable {World : Type} (beast : Beast)

/-- `Context(RequestType&&)`. -/
def ofRequest (req : Request) (world : World) : RequestContext World where
  memberRequest := req
  memberResponse :=
    (Response.set beast { result := 200, version := req.version } (Bytes.text "Server")
      (Bytes.text "wan/web")).set beast (Bytes.text "Content-Type") (Bytes.text "text/plain")
  memberParams := fun _ => none
  memberQueryParams := Context.queryParams req.target
  cookies := Context.ofRequest req.cookie
  world := world

/-- `Method`. -/
def method (ctx : RequestContext World) : Verb := ctx.memberRequest.method

/-- `Target`. -/
def target (ctx : RequestContext World) : Bytes := ctx.memberRequest.target

/-- `KeepAlive`. -/
def keepAlive (ctx : RequestContext World) : Bool := ctx.memberRequest.keepAlive

/-- `SetParams`. -/
def setParams (ctx : RequestContext World) (params : Params) : RequestContext World :=
  { ctx with memberParams := params }

/-- `Status`. -/
def status (ctx : RequestContext World) (statusValue : Nat) : RequestContext World :=
  { ctx with memberResponse := { ctx.memberResponse with result := statusValue } }

/-- `SetHeader`, and `Response().set`. -/
def setHeader (ctx : RequestContext World) (name value : Bytes) : RequestContext World :=
  { ctx with memberResponse := ctx.memberResponse.set beast name value }

/-- `Response().prepare_payload()`. -/
def prepare (ctx : RequestContext World) : RequestContext World × Outcome :=
  match beast.preparePayload ctx.memberResponse with
  | .ok response => ({ ctx with memberResponse := response }, .ok ())
  | .error exception => (ctx, .error exception)

/-- The common body of `Json`, `Text` and `Html`. -/
def withBody (contentType : String) (ctx : RequestContext World) (bodyStr : Bytes) :
    RequestContext World × Outcome :=
  let response :=
    ctx.memberResponse.set beast (Bytes.text "Content-Type") (Bytes.text contentType)
  { ctx with memberResponse := { response with body := bodyStr } }.prepare beast

/-- `Json`. -/
def json (ctx : RequestContext World) (bodyStr : Bytes) : RequestContext World × Outcome :=
  ctx.withBody beast "application/json" bodyStr

/-- `Text`. -/
def text (ctx : RequestContext World) (bodyStr : Bytes) : RequestContext World × Outcome :=
  ctx.withBody beast "text/plain" bodyStr

/-- `Html`. -/
def html (ctx : RequestContext World) (bodyStr : Bytes) : RequestContext World × Outcome :=
  ctx.withBody beast "text/html" bodyStr

end RequestContext

/-- `Handler`. -/
abbrev Handler (World : Type) := Onion.Handler (RequestContext World) Exception

/-- `MiddlewareChain`. -/
abbrev MiddlewareChain (World : Type) := Onion.MiddlewareChain (RequestContext World) Exception

/-- `Run`, which always returns: the context that is left and how it ended. -/
def runChain {World : Type} (chain : MiddlewareChain World) (ctx : RequestContext World)
    (finalHandler : Handler World) : RequestContext World × Outcome :=
  let (outcome, after) := (chain.run ctx finalHandler).get (chain.run_isSome ctx finalHandler)
  (after.ctx, outcome)

end Wan.Web.Serving
