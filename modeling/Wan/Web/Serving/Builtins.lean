import Wan.Web.Middleware.Layer
import Wan.Web.Serving.Exchange

/-!
# The middlewares of `Web/Middleware/Builtins.hpp`

Their activities, and what the error handler does for a connection when it is the outermost
middleware.  Beast, the JSON serializer of Boost and what `printf` does to the world are
parameters.
-/

namespace Wan.Web.Serving

open Wan.Library

variable {World : Type}

/-- `Middleware`. -/
abbrev Middleware (World : Type) := Onion.Middleware (RequestContext World) Exception

/-- `LoggingMiddleware`. -/
def loggingMiddleware (printf : RequestContext World → World) : Middleware World where
  fn := fun ctx => .next ctx fun ctx inner =>
    match inner with
    | .ok () => .finish { ctx with world := printf ctx } (.ok ())
    | .error exception => .finish ctx (.error exception)
  priority := 0
  name := "logging"

/-- `Http::verb::options`, by its number in the enumeration of Beast. -/
def options : Verb := .other 7

/-- `CorsMiddleware`. -/
def corsMiddleware (beast : Beast) (allowOrigin : Bytes := Bytes.text "*")
    (allowMethods : Bytes := Bytes.text "GET, POST, PUT, DELETE, PATCH, OPTIONS")
    (allowHeaders : Bytes := Bytes.text "Content-Type, Authorization") : Middleware World where
  fn := fun ctx =>
    let ctx := ctx.setHeader beast (Bytes.text "Access-Control-Allow-Origin") allowOrigin
    let ctx := ctx.setHeader beast (Bytes.text "Access-Control-Allow-Methods") allowMethods
    let ctx := ctx.setHeader beast (Bytes.text "Access-Control-Allow-Headers") allowHeaders
    if ctx.method = options then .finish (ctx.status 204) (.ok ())
    else .next ctx .finish
  priority := 10
  name := "cors"

/-- The body of the response to an exception. -/
def internalServerError (serialize : List (Bytes × Bytes) → Bytes) : Exception → Bytes
  | .standard what =>
      serialize [(Bytes.text "error", Bytes.text "internal_server_error"),
        (Bytes.text "message", what)]
  | .other => Bytes.text "\x7b\"error\":\"internal_server_error\"\x7d"

/-- `ErrorHandlerMiddleware`. -/
def errorHandlerMiddleware (beast : Beast) (serialize : List (Bytes × Bytes) → Bytes) :
    Middleware World where
  fn := fun ctx => .next ctx fun ctx inner =>
    match inner with
    | .ok () => .finish ctx (.ok ())
    | .error exception =>
        let (ctx, outcome) :=
          (ctx.status 500).json beast (internalServerError serialize exception)
        .finish ctx outcome
  priority := -100
  name := "error_handler"

section Payload

variable {beast : Beast}

/-- A body under a status that allows one is prepared. -/
theorem Beast.Rules.prepare (rules : beast.Rules) (ctx : RequestContext World)
    (allowed : beast.bodiless ctx.memberResponse.result = true → ctx.memberResponse.body = []) :
    ∃ prepared, ctx.prepare beast = ({ ctx with memberResponse := prepared }, .ok ()) ∧
      beast.preparePayload ctx.memberResponse = .ok prepared := by
  obtain ⟨prepared, accepted⟩ := (rules.accepts ctx.memberResponse).mpr allowed
  exact ⟨prepared, by rw [RequestContext.prepare, accepted], accepted⟩

/-- `Json`, `Text` and `Html` under a status that allows a body. -/
theorem Beast.Rules.withBody (rules : beast.Rules) (contentType : String)
    (ctx : RequestContext World) (bodyStr : Bytes)
    (allowed : beast.bodiless ctx.memberResponse.result = true → bodyStr = []) :
    ∃ last, ctx.withBody beast contentType bodyStr = (last, .ok ()) ∧
      last.memberRequest = ctx.memberRequest ∧
      last.memberResponse.result = ctx.memberResponse.result ∧
      last.memberResponse.body = bodyStr := by
  obtain ⟨prepared, done, accepted⟩ := rules.prepare
    { ctx with memberResponse := { ctx.memberResponse.set beast (Bytes.text "Content-Type")
        (Bytes.text contentType) with body := bodyStr } } allowed
  have sameResult := rules.result _ _ accepted
  have sameBody := rules.body _ _ accepted
  exact ⟨_, done, rfl, sameResult, sameBody⟩

variable {server : Server World}

/-- A response is prepared unless its status allows no body and it has one. -/
theorem Beast.Rules.prepared (rules : server.beast.Rules) (ctx : RequestContext World)
    (response : Response)
    (allowed : server.beast.bodiless response.result = true → response.body = []) :
    ∃ last, Serving.prepared server ctx response = some last ∧
      last.memberRequest = ctx.memberRequest ∧ last.memberResponse.result = response.result ∧
      last.memberResponse.body = response.body ∧
      ∀ field ∈ last.memberResponse.fields, field ∈ response.fields ∨ DescribesBody field := by
  obtain ⟨prepared, accepted⟩ := (rules.accepts response).mpr allowed
  refine ⟨{ ctx with memberResponse := prepared }, ?_, rfl, rules.result _ _ accepted,
    rules.body _ _ accepted, rules.fields _ _ accepted⟩
  rw [Serving.prepared, accepted]
  rfl

/-- Only a body under a status that allows none is refused. -/
theorem Beast.Rules.prepared_eq_none (rules : server.beast.Rules) (ctx : RequestContext World)
    (response : Response) : Serving.prepared server ctx response = none ↔
      server.beast.bodiless response.result = true ∧ response.body ≠ [] := by
  have accepts := rules.accepts response
  rw [Serving.prepared, Option.map_eq_none_iff, ← Classical.not_imp, ← accepts]
  cases server.beast.preparePayload response with
  | ok prepared => simp [Except.toOption]
  | error exception => simp [Except.toOption]

end Payload

section Answers

variable {server : Server World} {environment : Environment World} {requestCount : Nat}
variable {req : Request}

/-- Where nothing else throws, a request is answered from the context it leaves. -/
theorem reply_eq (constructed : environment.throws requestCount .construct = false)
    (finished : environment.throws requestCount .finish = false) :
    reply server environment requestCount req =
      (answer server req (environment.world requestCount)).bind fun ctx =>
        prepared server ctx (outgoing ctx) := by
  rw [reply, constructed, finished, if_neg (by simp)]

/-- A route is answered from what the chain leaves behind. -/
theorem answer_matched {world : World} {routeMatch : RouteMatch (Handler World)}
    (matched : server.memberRouter.matchRoute req.method req.target = some routeMatch) :
    answer server req world = returned (invoke server
      ((RequestContext.ofRequest server.beast req world).setParams routeMatch.params)
      routeMatch.handler) := by
  rw [returned_invoke, answer, matched]
  rfl

/-- An unknown target is answered with a status that allows a body, whatever else is registered. -/
theorem answer_unmatched (rules : server.beast.Rules) (world : World)
    (unmatched : server.memberRouter.matchRoute req.method req.target = none) :
    ∃ left, answer server req world = some left ∧ left.memberResponse.result = 404 ∧
      ∀ field ∈ left.memberResponse.fields,
        field ∈ (RequestContext.ofRequest server.beast req world).memberResponse.fields ∨
          DescribesBody field ∨ sameName field.1 (Bytes.text "Content-Type") = true := by
  obtain ⟨left, answered, -, result, -, fields⟩ := rules.prepared
    (RequestContext.ofRequest server.beast req world)
    (notFound server (RequestContext.ofRequest server.beast req world).memberResponse)
    (fun refused => absurd refused (by simp [notFound, Beast.bodiless]))
  refine ⟨left, ?_, result, ?_⟩
  · rw [answer, unmatched]
    exact answered
  · intro field isIn
    rcases fields field isIn with before | describes
    · exact (rules.set _ _ _ field before).imp_right .inr
    · exact .inr (.inl describes)

end Answers

section Containment

variable {server : Server World} {serialize : List (Bytes × Bytes) → Bytes}

theorem runChain_eq {chain : MiddlewareChain World} {ctx last : RequestContext World}
    {handler : Handler World} {outcome : Outcome}
    (ran : ∃ after, chain.run ctx handler = some (outcome, after) ∧ after.ctx = last) :
    runChain chain ctx handler = (last, outcome) := by
  obtain ⟨after, ended, rfl⟩ := ran
  simp only [runChain, ended, Option.get_some]

/-- The outermost error handler turns an exception into a response. -/
theorem runChain_errorHandler (rules : server.beast.Rules)
    (serialize : List (Bytes × Bytes) → Bytes) (others : MiddlewareChain World)
    (ctx : RequestContext World) (handler : Handler World) :
    ∃ last, runChain
        ⟨errorHandlerMiddleware server.beast serialize :: others.memberMiddlewares⟩
        ctx handler = (last, .ok ()) ∧
      match runChain others ctx handler with
      | (left, .ok ()) => last = left
      | (left, .error exception) =>
          last.memberRequest = left.memberRequest ∧ last.memberResponse.result = 500 ∧
            last.memberResponse.body = internalServerError serialize exception := by
  obtain ⟨⟨outcome, between⟩, ran⟩ := Option.isSome_iff_exists.mp (others.run_isSome ctx handler)
  have inner : runChain others ctx handler = (between.ctx, outcome) := runChain_eq ⟨_, ran, rfl⟩
  cases outcome with
  | ok value =>
      refine ⟨between.ctx, runChain_eq ?_, by rw [inner]⟩
      exact Onion.MiddlewareChain.run_cons_next rfl ran rfl
  | error exception =>
      obtain ⟨last, done, same, result, body⟩ := rules.withBody "application/json"
        (between.ctx.status 500) (internalServerError serialize exception)
        fun refused => absurd refused (by simp [RequestContext.status, Beast.bodiless])
      refine ⟨last, runChain_eq (Onion.MiddlewareChain.run_cons_next rfl ran ?_), ?_⟩
      · dsimp only
        rw [RequestContext.json, done]
      · rw [inner]
        exact ⟨same, result, body⟩

/-- With the error handler in front of all other middlewares no exception of a handler or a
middleware keeps a request from being answered: the peer gets a status 500 with the error, and
the connection goes on as the request wants it.  What stays unanswered is a response that was
left with a body under a status that has none. -/
theorem errorHandler_contains (rules : server.beast.Rules)
    (before after : List (Middleware World))
    (later : ∀ other ∈ before, -100 < other.priority)
    (notSooner : ∀ other ∈ after, -100 ≤ other.priority)
    (chain : server.memberChain = (before ++ errorHandlerMiddleware server.beast
      serialize :: after).foldl Onion.MiddlewareChain.use {}) :
    ∃ others : MiddlewareChain World, others.memberMiddlewares.Perm (before ++ after) ∧
      ∀ (environment : Environment World) (requestCount : Nat) (req : Request)
        (routeMatch : RouteMatch (Handler World)),
        environment.throws requestCount .construct = false →
        environment.throws requestCount .finish = false →
        server.memberRouter.matchRoute req.method req.target = some routeMatch →
        match runChain others ((RequestContext.ofRequest server.beast req
          (environment.world requestCount)).setParams routeMatch.params) routeMatch.handler with
        | (left, .ok ()) => reply server environment requestCount req = none ↔
            server.beast.bodiless left.memberResponse.result = true ∧ left.memberResponse.body ≠ []
        | (left, .error exception) => ∃ ctx, reply server environment requestCount req = some ctx ∧
            ctx.memberResponse.result = 500 ∧
            ctx.memberResponse.body = internalServerError serialize exception ∧
            ctx.keepAlive = left.keepAlive := by
  obtain ⟨rest, first, perm⟩ := Onion.MiddlewareChain.first_of_uses
    (m := errorHandlerMiddleware server.beast serialize) before after later notSooner
  refine ⟨⟨rest⟩, perm, ?_⟩
  intro environment requestCount req routeMatch constructed finished matched
  rw [first] at chain
  obtain ⟨last, ran, left⟩ := runChain_errorHandler rules serialize ⟨rest⟩
    ((RequestContext.ofRequest server.beast req (environment.world requestCount)).setParams
      routeMatch.params) routeMatch.handler
  have invoked : returned (invoke server ((RequestContext.ofRequest server.beast req
      (environment.world requestCount)).setParams routeMatch.params) routeMatch.handler) =
        some last := by
    rw [returned_invoke, chain]
    exact congrArg returned ran
  have replied : reply server environment requestCount req =
      prepared server last (outgoing last) := by
    rw [reply_eq constructed finished, answer_matched matched, invoked, Option.bind_some]
  revert left
  generalize runChain (⟨rest⟩ : MiddlewareChain World) ((RequestContext.ofRequest server.beast req
    (environment.world requestCount)).setParams routeMatch.params) routeMatch.handler = inner
  obtain ⟨left, outcome⟩ := inner
  cases outcome with
  | ok value =>
      intro same
      have same : last = left := same
      subst same
      change reply server environment requestCount req = none ↔ _
      rw [replied]
      exact rules.prepared_eq_none last (outgoing last)
  | error exception =>
      intro ⟨same, result, body⟩
      have allowed : server.beast.bodiless (outgoing last).result = true →
          (outgoing last).body = [] := by
        rw [outgoing, result]
        exact fun refused => absurd refused (by simp [Beast.bodiless])
      obtain ⟨ctx, done, sameRequest, sameResult, sameBody, -⟩ :=
        rules.prepared last (outgoing last) allowed
      refine ⟨ctx, replied.trans done, sameResult.trans result, sameBody.trans body, ?_⟩
      rw [RequestContext.keepAlive, RequestContext.keepAlive, sameRequest, same]

end Containment

/-- A handler throws behind the error handler, which was registered last. -/
theorem errorHandler_contains_thrown :
    let fails : Handler Unit := fun ctx => (ctx, .error (.standard (Bytes.text "oops")))
    let serialize : List (Bytes × Bytes) → Bytes := fun members => members.flatMap Prod.snd
    let pass : Middleware Unit := ⟨fun ctx => .next ctx .finish, 10, "pass"⟩
    let server : Server Unit := ⟨{}, (Router.empty.get (Bytes.text "/") (some fails)).1,
      [pass, errorHandlerMiddleware .documented serialize].foldl
        Onion.MiddlewareChain.use {}, false, .documented⟩
    let environment : Environment Unit :=
      { handshake := .done, read := fun _ => .endOfStream, world := fun _ => (),
        throws := fun _ _ => false, write := fun _ => .done, shutdownFails := false }
    ∃ ctx, reply server environment 0 { method := .get, target := Bytes.text "/" } = some ctx ∧
      ctx.memberResponse.result = 500 ∧
      ctx.memberResponse.body = serialize [(Bytes.text "error", Bytes.text "internal_server_error"),
        (Bytes.text "message", Bytes.text "oops")] ∧ ctx.keepAlive = true := by
  intro fails serialize pass server environment
  have rules : server.beast.Rules := Beast.documented_rules
  obtain ⟨others, perm, contains⟩ := errorHandler_contains rules [pass] [] (by simp [pass])
    (by simp) rfl
  have single : others = ⟨[pass]⟩ := congrArg Onion.MiddlewareChain.mk (List.perm_singleton.mp perm)
  subst single
  exact contains environment 0 { method := .get, target := Bytes.text "/" } _ rfl rfl rfl

section Preflight

variable {Handler : Type}

/-- A call that registers a route or freezes the router. -/
inductive Registering (Handler : Type) where
  | get (pattern : Bytes) (handler : Option Handler)
  | post (pattern : Bytes) (handler : Option Handler)
  | put (pattern : Bytes) (handler : Option Handler)
  | del (pattern : Bytes) (handler : Option Handler)
  | patch (pattern : Bytes) (handler : Option Handler)
  | freeze

/-- The router after a call. -/
def Registering.run (router : Router Handler) : Registering Handler → Router Handler
  | .get pattern handler => (router.get pattern handler).1
  | .post pattern handler => (router.post pattern handler).1
  | .put pattern handler => (router.put pattern handler).1
  | .del pattern handler => (router.del pattern handler).1
  | .patch pattern handler => (router.patch pattern handler).1
  | .freeze => router.freeze

/-- `AddRoute` changes the tree of its own method at most. -/
theorem addRoute_trees (router : Router Handler) (method other : Verb) (pattern : Bytes)
    (handler : Option Handler) (different : other ≠ method) :
    (router.addRoute method pattern handler).1.trees other = router.trees other := by
  rw [Router.addRoute]
  split
  · rfl
  · split
    · split
      · rfl
      · exact Function.update_of_ne different ..
    · exact Function.update_of_ne different ..

/-- There is no call for any other method. -/
theorem trees_other (calls : List (Registering Handler)) (code : Nat) :
    (calls.foldl Registering.run Router.empty).trees (.other code) = none := by
  induction calls using List.reverseRecOn with
  | nil => rfl
  | append_singleton calls call ih =>
      rw [List.foldl_append, List.foldl_cons, List.foldl_nil, ← ih]
      cases call with
      | freeze => rfl
      | _ => exact addRoute_trees _ _ _ _ _ (by simp)

end Preflight

/-- The fields of `CorsMiddleware`. -/
def corsFields : List Bytes :=
  [Bytes.text "Access-Control-Allow-Origin", Bytes.text "Access-Control-Allow-Methods",
    Bytes.text "Access-Control-Allow-Headers"]

theorem ofRequest_fields {beast : Beast} (rules : beast.Rules) (req : Request) (world : World)
    (field : Bytes × Bytes)
    (isIn : field ∈ (RequestContext.ofRequest beast req world).memberResponse.fields) :
    sameName field.1 (Bytes.text "Server") = true ∨
      sameName field.1 (Bytes.text "Content-Type") = true := by
  rcases rules.set _ _ _ field isIn with before | type
  · rcases rules.set _ _ _ field before with none | server
    · cases none
    · exact .inl server
  · exact .inr type

theorem not_corsField {field : Bytes × Bytes} {name own : Bytes} (isCors : name ∈ corsFields)
    (same : sameName field.1 own = true) (apart : ∀ name ∈ corsFields, sameName own name = false) :
    sameName field.1 name = false := by
  have different := apart name isCors
  rw [sameName, beq_iff_eq] at same
  rw [sameName, same]
  exact different

/-- Routes cannot be registered for `OPTIONS`, so a preflight request never gets to a middleware:
whatever the chain is, it is answered with a status 404 and none of the fields that
`CorsMiddleware` sets. -/
theorem preflight_unmatched {server : Server World} (rules : server.beast.Rules)
    (calls : List (Registering (Handler World))) (environment : Environment World)
    (built : server.memberRouter = calls.foldl Registering.run Router.empty)
    (requestCount code : Nat) (req : Request) (other : req.method = .other code)
    (constructed : environment.throws requestCount .construct = false)
    (finished : environment.throws requestCount .finish = false) :
    (respond server (.ofRequest server.beast req (environment.world requestCount))).1 = [] ∧
    ∃ ctx, reply server environment requestCount req = some ctx ∧
      ctx.memberResponse.result = 404 ∧
      ∀ name ∈ corsFields, ∀ field ∈ ctx.memberResponse.fields, sameName field.1 name = false := by
  have unmatched : server.memberRouter.matchRoute req.method req.target = none := by
    rw [Router.matchRoute, built, other, trees_other]
  obtain ⟨left, answered, result, leftFields⟩ :=
    answer_unmatched rules (environment.world requestCount) unmatched
  have allowed : server.beast.bodiless (outgoing left).result = true →
      (outgoing left).body = [] := by
    rw [outgoing, result]
    exact fun refused => absurd refused (by simp [Beast.bodiless])
  obtain ⟨ctx, done, -, sameResult, -, fields⟩ := rules.prepared left (outgoing left) allowed
  refine ⟨?_, ctx, ?_, sameResult.trans result, ?_⟩
  · have missed : server.memberRouter.matchRoute
        (RequestContext.ofRequest server.beast req (environment.world requestCount)).method
        (RequestContext.ofRequest server.beast req (environment.world requestCount)).target =
          none := unmatched
    rw [respond, missed]
  · rw [reply_eq constructed finished, answered, Option.bind_some, done]
  · intro name isCors field isIn
    have described : DescribesBody field → sameName field.1 name = false := by
      rintro (length | encoding)
      · exact not_corsField isCors length (by decide)
      · exact not_corsField isCors encoding (by decide)
    have typed : sameName field.1 (Bytes.text "Content-Type") = true →
        sameName field.1 name = false := fun type => not_corsField isCors type (by decide)
    rcases fields field isIn with before | describes
    · rcases leftFields field before with first | describes | type
      · rcases ofRequest_fields rules _ _ field first with server | type
        · exact not_corsField isCors server (by decide)
        · exact typed type
      · exact described describes
      · exact typed type
    · exact described describes

/-- Two routes to a target behind the middleware that is there for the preflight request. -/
theorem preflight_unmatched_cors :
    let handler : Handler Unit := fun ctx => (ctx, .ok ())
    let calls : List (Registering (Handler Unit)) :=
      [.get (Bytes.text "/a") (some handler), .post (Bytes.text "/a") (some handler), .freeze]
    let server : Server Unit := ⟨{}, calls.foldl Registering.run Router.empty,
      Onion.MiddlewareChain.use {} (corsMiddleware .documented), false, .documented⟩
    let environment : Environment Unit :=
      { handshake := .done, read := fun _ => .endOfStream, world := fun _ => (),
        throws := fun _ _ => false, write := fun _ => .done, shutdownFails := false }
    let preflight : Request := { method := options, target := Bytes.text "/a" }
    (respond server (.ofRequest server.beast preflight ())).1 = [] ∧
    ∃ ctx, reply server environment 0 preflight = some ctx ∧ ctx.memberResponse.result = 404 ∧
      ∀ name ∈ corsFields, ∀ field ∈ ctx.memberResponse.fields,
        sameName field.1 name = false := by
  intro handler calls server environment preflight
  have rules : server.beast.Rules := Beast.documented_rules
  exact preflight_unmatched rules calls environment rfl 0 7 preflight rfl rfl rfl

end Wan.Web.Serving
