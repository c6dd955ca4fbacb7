import Wan.Web.Serving.Model

/-!
# One iteration of the connection loop

The ways in which the body of the loop ends, each with everything that is done until then.
-/

namespace Wan.Web.Serving

open Wan.Library

variable {World : Type}

section Stages

variable {α β : Type} {events : List (Event World)} {next : α → Stage World β}

@[simp] theorem Stage.andThen_ok (value : α) :
    Stage.andThen (events, .ok value) next = (events ++ (next value).1, (next value).2) := rfl

@[simp] theorem Stage.andThen_error (leaving : Leaving) :
    Stage.andThen ((events, .error leaving) : Stage World α) next = (events, .error leaving) := rfl

end Stages

variable (server : Server World) (environment : Environment World)

/-- The context that a call leaves, unless it throws. -/
def returned : RequestContext World × Outcome → Option (RequestContext World)
  | (ctx, .ok ()) => some ctx
  | (_, .error _) => none

/-- A context with the response as Beast prepares it, unless that throws. -/
def prepared (ctx : RequestContext World) (response : Response) : Option (RequestContext World) :=
  (server.beast.preparePayload response).toOption.map fun memberResponse =>
    { ctx with memberResponse }

/-- The response to an unknown target. -/
def notFound (response : Response) : Response :=
  { response with
    result := 404
    fields := server.beast.set response.fields (Bytes.text "Content-Type")
      (Bytes.text "application/json")
    body := Bytes.text "\x7b\"error\":\"not_found\"\x7d" }

/-- The context that a request leaves: of its route's handler inside the middlewares, or else of
the answer to an unknown target. -/
def answer (req : Request) (world : World) : Option (RequestContext World) :=
  let first := RequestContext.ofRequest server.beast req world
  match server.memberRouter.matchRoute req.method req.target with
  | some routeMatch =>
      let routed := { first with memberParams := routeMatch.params }
      match server.memberChain.memberMiddlewares with
      | [] => returned (routeMatch.handler routed)
      | _ :: _ => returned (runChain server.memberChain routed routeMatch.handler)
  | none =>
      prepared server first (notFound server first.memberResponse)

/-- The response that is to be sent, with the keep-alive of the request. -/
def outgoing (ctx : RequestContext World) : Response :=
  { ctx.memberResponse with keepAlive := ctx.memberRequest.keepAlive }

/-- The context whose response is written for a request, unless something throws. -/
def reply (requestCount : Nat) (req : Request) : Option (RequestContext World) :=
  if environment.throws requestCount .construct ∨ environment.throws requestCount .finish then none
  else
    (answer server req (environment.world requestCount)).bind fun ctx =>
      prepared server ctx (outgoing ctx)

/-- What is done until a request is there. -/
def received (requestCount : Nat) (req : Request) : List (Event World) :=
  setStreamTimeout (readTimeout server requestCount) ++ [.read (.request req)] ++
    setStreamTimeout 0 ++ count server .incRequests ++
    count server (.incBytesRead req.body.length)

/-- The part that a handler takes in an iteration. -/
inductive Handling : List (Event World) → Prop where
  | skipped : Handling []
  | ran (ctx : RequestContext World) (outcome : Outcome) :
      Handling [.handlerActive true, .handled ctx outcome, .handlerActive false]

/-- What an iteration does and how it ends. -/
inductive Exchanged (requestCount : Nat) : Stage World (RequestContext World) → Prop where
  | endOfStream (read : environment.read requestCount = .endOfStream) :
      Exchanged requestCount
        (setStreamTimeout (readTimeout server requestCount) ++ [.read .endOfStream] ++
          setStreamTimeout 0, .error .broken)
  | readFailed (read : environment.read requestCount = .failed) :
      Exchanged requestCount
        (setStreamTimeout (readTimeout server requestCount) ++ [.read .failed] ++
          setStreamTimeout 0 ++ count server .incErrors, .error .broken)
  | readThrown (read : environment.read requestCount = .thrown) :
      Exchanged requestCount
        (setStreamTimeout (readTimeout server requestCount) ++ [.read .thrown], .error .thrown)
  | unanswered (req : Request) {handling : List (Event World)}
      (read : environment.read requestCount = .request req)
      (replied : reply server environment requestCount req = none) (handled : Handling handling) :
      Exchanged requestCount (received server requestCount req ++ handling, .error .thrown)
  | writeThrown (req : Request) (ctx : RequestContext World) {handling : List (Event World)}
      (read : environment.read requestCount = .request req)
      (replied : reply server environment requestCount req = some ctx)
      (handled : Handling handling) (written : environment.write requestCount = .thrown) :
      Exchanged requestCount
        (received server requestCount req ++ handling ++
          setStreamTimeout server.memberConfig.writeTimeout ++
          [.write ctx.memberResponse .thrown], .error .thrown)
  | writeFailed (req : Request) (ctx : RequestContext World) {handling : List (Event World)}
      (ended : Ended) (read : environment.read requestCount = .request req)
      (replied : reply server environment requestCount req = some ctx)
      (handled : Handling handling) (written : environment.write requestCount = ended)
      (code : ended = .failed ∨ ended = .aborted) :
      Exchanged requestCount
        (received server requestCount req ++ handling ++
          setStreamTimeout server.memberConfig.writeTimeout ++
          [.write ctx.memberResponse ended] ++ setStreamTimeout 0 ++
          count server .incErrors, .error .broken)
  | answered (req : Request) (ctx : RequestContext World) {handling : List (Event World)}
      (read : environment.read requestCount = .request req)
      (replied : reply server environment requestCount req = some ctx)
      (handled : Handling handling) (written : environment.write requestCount = .done) :
      Exchanged requestCount
        (received server requestCount req ++ handling ++
          setStreamTimeout server.memberConfig.writeTimeout ++
          [.write ctx.memberResponse .done] ++ setStreamTimeout 0 ++
          count server (.incBytesWritten ctx.memberResponse.body.length), .ok ctx)

/-- A route takes the handler's part, the answer to an unknown target takes none. -/
theorem respond_handling (ctx : RequestContext World) : Handling (respond server ctx).1 := by
  rw [respond]
  split
  · exact .ran _ _
  · exact .skipped

/-- Preparing is the only part of setting the response that may throw. -/
theorem prepare_returned (ctx : RequestContext World) (response : Response) :
    returned ({ ctx with memberResponse := response }.prepare server.beast) =
      prepared server ctx response := by
  rw [RequestContext.prepare, prepared]
  cases server.beast.preparePayload response <;> rfl

/-- A call that throws ends the body, after any other it goes on with the context that is left. -/
def orThrown {α : Type} (result : Option α) : Except Leaving α := result.elim (.error .thrown) .ok

/-- The handler is called directly where there is no middleware. -/
theorem returned_invoke (ctx : RequestContext World) (handler : Handler World) :
    returned (invoke server ctx handler) =
      match server.memberChain.memberMiddlewares with
      | [] => returned (handler ctx)
      | _ :: _ => returned (runChain server.memberChain ctx handler) := by
  rw [invoke, Onion.MiddlewareChain.empty]
  cases server.memberChain.memberMiddlewares <;> rfl

/-- The handler's part leaves the answer. -/
theorem respond_answer (req : Request) (world : World) :
    (respond server (.ofRequest server.beast req world)).2 =
      orThrown (answer server req world) := by
  have target : (RequestContext.ofRequest server.beast req world).target = req.target := rfl
  have method : (RequestContext.ofRequest server.beast req world).method = req.method := rfl
  rw [respond, answer, method, target]
  cases server.memberRouter.matchRoute req.method req.target with
  | none =>
      dsimp only
      have left : returned
          (((RequestContext.ofRequest server.beast req world).status 404).json server.beast
            (Bytes.text "\x7b\"error\":\"not_found\"\x7d")) =
          prepared server (.ofRequest server.beast req world)
            (notFound server (RequestContext.ofRequest server.beast req world).memberResponse) :=
        prepare_returned ..
      rw [← left]
      generalize RequestContext.json .. = result
      obtain ⟨ctx, exception | value⟩ := result <;> rfl
  | some routeMatch =>
      have invoked := returned_invoke server
        ((RequestContext.ofRequest server.beast req world).setParams routeMatch.params)
        routeMatch.handler
      dsimp only [RequestContext.setParams] at invoked ⊢
      rw [← invoked]
      generalize invoke .. = result
      obtain ⟨ctx, exception | value⟩ := result <;> rfl

/-- The last step prepares the response. -/
theorem finish_prepared (ctx : RequestContext World) :
    finish server ctx = orThrown (prepared server ctx (outgoing ctx)) := by
  have left := prepare_returned server ctx (outgoing ctx)
  rw [finish, ← left]
  dsimp only [RequestContext.keepAlive, outgoing]
  generalize RequestContext.prepare .. = result
  obtain ⟨last, exception | value⟩ := result <;> rfl

theorem receive_request {requestCount : Nat} {req : Request}
    (read : environment.read requestCount = .request req) :
    receive server environment requestCount =
      (received server requestCount req, .ok req) := by
  rw [receive, read]
  rfl

/-- The body with a request: an exception in front of the write leaves no reply. -/
theorem exchange_request {requestCount : Nat} {req : Request}
    (read : environment.read requestCount = .request req) :
    ∃ handling, Handling handling ∧
      ((reply server environment requestCount req = none ∧
        exchange server environment requestCount =
          (received server requestCount req ++ handling, .error .thrown)) ∨
      ∃ ctx, reply server environment requestCount req = some ctx ∧
        exchange server environment requestCount =
          (received server requestCount req ++ handling ++
            (send server environment requestCount ctx).1,
            (send server environment requestCount ctx).2)) := by
  have answered := respond_answer server req (environment.world requestCount)
  have handled :=
    respond_handling server (.ofRequest server.beast req (environment.world requestCount))
  rw [exchange, receive_request server environment read, Stage.andThen_ok, reply, throwing]
  generalize respond server (.ofRequest server.beast req (environment.world requestCount)) =
    responded at answered handled ⊢
  obtain ⟨handling, ended⟩ := responded
  dsimp only at answered handled
  subst answered
  cases environment.throws requestCount .construct with
  | true => exact ⟨[], .skipped, .inl ⟨rfl, rfl⟩⟩
  | false =>
      refine ⟨handling, handled, ?_⟩
      cases answer server req (environment.world requestCount) with
      | none => exact .inl ⟨by simp, by simp [orThrown]⟩
      | some ctx =>
          cases finishing : environment.throws requestCount .finish with
          | true => exact .inl ⟨by simp, by simp [orThrown, throwing, finishing]⟩
          | false =>
              have finished := finish_prepared server ctx
              cases replied : prepared server ctx (outgoing ctx) with
              | none =>
                  rw [replied] at finished
                  exact .inl ⟨by simp [replied],
                    by simp [orThrown, throwing, finishing, finished]⟩
              | some last =>
                  rw [replied] at finished
                  exact .inr ⟨last, by simp [replied],
                    by simp [orThrown, throwing, finishing, finished]⟩

/-- Every iteration ends in one of the ways. -/
theorem exchange_exchanged (requestCount : Nat) :
    Exchanged server environment requestCount (exchange server environment requestCount) := by
  cases read : environment.read requestCount with
  | endOfStream =>
      rw [exchange, receive, read]
      exact .endOfStream read
  | failed =>
      rw [exchange, receive, read]
      exact .readFailed read
  | thrown =>
      rw [exchange, receive, read]
      exact .readThrown read
  | request req =>
      obtain ⟨handling, handled, ⟨replied, ended⟩ | ⟨ctx, replied, ended⟩⟩ :=
        exchange_request server environment read
      · rw [ended]
        exact .unanswered req read replied handled
      · rw [ended, send]
        cases written : environment.write requestCount with
        | done =>
            simp only [← List.append_assoc]
            exact .answered req ctx read replied handled written
        | failed =>
            simp only [← List.append_assoc]
            exact .writeFailed req ctx .failed read replied handled written (.inl rfl)
        | aborted =>
            simp only [← List.append_assoc]
            exact .writeFailed req ctx .aborted read replied handled written (.inr rfl)
        | thrown =>
            simp only [← List.append_assoc]
            exact .writeThrown req ctx read replied handled written

end Wan.Web.Serving
