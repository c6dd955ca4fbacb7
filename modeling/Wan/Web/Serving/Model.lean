import Wan.Web.Serving.Message

/-!
# `HandleConnection` of `Web/Server/Server.hpp`

The coroutine of one connection from the TLS handshake to the end of `Close`, as the list of what
it does.  What the peer and the handlers' world do is given by an environment, request by request;
the lifecycle of the server is not seen from here, and what `Close` does to it is an event.
-/

namespace Wan.Web.Serving

open Wan.Library

/-- The fields of `ServerConfig` that `HandleConnection` reads; times are in seconds. -/
structure ServerConfig where
  readTimeout : Int := 30
  writeTimeout : Int := 30
  keepAliveTimeout : Int := 30
  keepAliveEnabled : Bool := true
  maxKeepaliveRequests : UInt64 := 100
  enableMetrics : Bool := true

/-- What the connections of a server share, and whether the stream is a `TlsStream`. -/
structure Server (World : Type) where
  memberConfig : ServerConfig
  memberRouter : Router (Handler World)
  memberChain : MiddlewareChain World
  tls : Bool
  beast : Beast

/-- How a handshake or a write ends. -/
inductive Ended where
  | done
  /-- An error code other than `operation_aborted`. -/
  | failed
  /-- `operation_aborted`. -/
  | aborted
  | thrown
  deriving DecidableEq, Repr

/-- How a read ends. -/
inductive Arrival where
  | request (req : Request)
  /-- `Http::error::end_of_stream`. -/
  | endOfStream
  /-- Any other error code. -/
  | failed
  | thrown
  deriving DecidableEq, Repr

/-- Where an iteration may throw beside its reads, its writes and the handler. -/
inductive Step where
  /-- Constructing the context and matching the route. -/
  | construct
  /-- Setting what describes the response. -/
  | finish
  deriving DecidableEq, Repr

/-- What happens to a connection. The number is that of the request. -/
structure Environment (World : Type) where
  handshake : Ended
  read : Nat → Arrival
  world : Nat → World
  throws : Nat → Step → Bool
  write : Nat → Ended
  /-- `async_shutdown` yields an error code that is counted. -/
  shutdownFails : Bool

/-- A call of `ServerMetrics`. -/
inductive MetricsCall where
  | incRequests
  | incActiveConnections
  | decActiveConnections
  | resetActiveConnections
  | incErrors
  | incBytesRead (n : Nat)
  | incBytesWritten (n : Nat)
  deriving DecidableEq, Repr

/-- What the coroutine does. -/
inductive Event (World : Type) where
  /-- `expires_after`. -/
  | expiresAfter (timeout : Int)
  /-- `expires_never`. -/
  | expiresNever
  | handshake (ended : Ended)
  | read (arrival : Arrival)
  /-- `IsHandlerActive->store`. -/
  | handlerActive (active : Bool)
  /-- The handler, or the chain around it, has ended. -/
  | handled (ctx : RequestContext World) (outcome : Outcome)
  | write (response : Response) (ended : Ended)
  | metrics (call : MetricsCall)
  /-- `async_shutdown` of a TLS stream. -/
  | shutdownTls (fails : Bool)
  /-- `shutdown` and `close` of the socket. -/
  | closeSocket
  /-- `MemberConnections.Remove`. -/
  | remove
  /-- `MemberActiveConnections.fetch_sub`. -/
  | fetchSub
  | maybeFinishGracefulStop

/-- How the loop is left from inside its body. -/
inductive Leaving where
  | broken
  | thrown
  deriving DecidableEq, Repr

/-- A part of the body: what it does, and whether the body goes on. -/
abbrev Stage (World α : Type) := List (Event World) × Except Leaving α

/-- The body goes on with what comes next. -/
def Stage.andThen {World α β : Type} (stage : Stage World α) (next : α → Stage World β) :
    Stage World β :=
  match stage.2 with
  | .ok value => (stage.1 ++ (next value).1, (next value).2)
  | .error leaving => (stage.1, .error leaving)

section Handling

variable {World : Type} (server : Server World)

/-- `SetStreamTimeout`. -/
def setStreamTimeout (timeout : Int) : List (Event World) :=
  if 0 < timeout then [.expiresAfter timeout] else [.expiresNever]

/-- A call of `MemberMetrics`, if metrics are enabled. -/
def count (call : MetricsCall) : List (Event World) :=
  if server.memberConfig.enableMetrics then [.metrics call] else []

/-- `ReadTimeout` of an iteration. -/
def readTimeout (requestCount : Nat) : Int :=
  if requestCount = 0 then server.memberConfig.readTimeout
  else if server.memberConfig.keepAliveEnabled then server.memberConfig.keepAliveTimeout
  else server.memberConfig.readTimeout

variable (environment : Environment World)

/-- The part of the body that reads a request. -/
def receive (requestCount : Nat) : Stage World Request :=
  let before := setStreamTimeout (readTimeout server requestCount) ++
    [.read (environment.read requestCount)]
  match environment.read requestCount with
  | .request req =>
      (before ++ setStreamTimeout 0 ++ count server .incRequests ++
        count server (.incBytesRead req.body.length), .ok req)
  | .endOfStream => (before ++ setStreamTimeout 0, .error .broken)
  | .failed => (before ++ setStreamTimeout 0 ++ count server .incErrors, .error .broken)
  | .thrown => (before, .error .thrown)

/-- The handler of a route, with the chain around it unless that is empty. -/
def invoke (ctx : RequestContext World) (handler : Handler World) :
    RequestContext World × Outcome :=
  if server.memberChain.empty then handler ctx else runChain server.memberChain ctx handler

/-- The part of the body that answers a request. -/
def respond (ctx : RequestContext World) : Stage World (RequestContext World) :=
  match server.memberRouter.matchRoute ctx.method ctx.target with
  | some routeMatch =>
      let (ctx, outcome) := invoke server (ctx.setParams routeMatch.params) routeMatch.handler
      ([.handlerActive true, .handled ctx outcome, .handlerActive false],
        match outcome with
        | .ok () => .ok ctx
        | .error _ => .error .thrown)
  | none =>
      let (ctx, outcome) := (ctx.status 404).json server.beast
        (Bytes.text "\x7b\"error\":\"not_found\"\x7d")
      ([], match outcome with
        | .ok () => .ok ctx
        | .error _ => .error .thrown)

/-- `keep_alive` and `prepare_payload` of the response. -/
def finish (ctx : RequestContext World) : Except Leaving (RequestContext World) :=
  let response := { ctx.memberResponse with keepAlive := ctx.keepAlive }
  match { ctx with memberResponse := response }.prepare server.beast with
  | (ctx, .ok ()) => .ok ctx
  | (_, .error _) => .error .thrown

/-- The part of the body that writes the response. -/
def send (requestCount : Nat) (ctx : RequestContext World) :
    Stage World (RequestContext World) :=
  let before := setStreamTimeout server.memberConfig.writeTimeout ++
    [.write ctx.memberResponse (environment.write requestCount)]
  match environment.write requestCount with
  | .done =>
      (before ++ setStreamTimeout 0 ++
        count server (.incBytesWritten ctx.memberResponse.body.length), .ok ctx)
  | .thrown => (before, .error .thrown)
  | _ => (before ++ setStreamTimeout 0 ++ count server .incErrors, .error .broken)

/-- Throw where the environment says so. -/
def throwing (requestCount : Nat) (step : Step) : Stage World Unit :=
  ([], if environment.throws requestCount step then .error .thrown else .ok ())

/-- The body of the loop up to the keep-alive check. -/
def exchange (requestCount : Nat) : Stage World (RequestContext World) :=
  (receive server environment requestCount).andThen fun req =>
  (throwing environment requestCount .construct).andThen fun _ =>
  (respond server (.ofRequest server.beast req (environment.world requestCount))).andThen fun ctx =>
  (throwing environment requestCount .finish).andThen fun _ =>
  Stage.andThen ([], finish server ctx) fun ctx =>
  send server environment requestCount ctx

/-- The loop: what it does, and how it is left. `RequestCount` never wraps, because the loop ends
before it reaches `MaxKeepaliveRequests`. -/
@[grind =] def serve (requestCount : Nat) : List (Event World) × Leaving :=
  match exchange server environment requestCount with
  | (events, .error leaving) => (events, leaving)
  | (events, .ok ctx) =>
      if _ends : server.memberConfig.keepAliveEnabled = false ∨ ctx.keepAlive = false ∨
          server.memberConfig.maxKeepaliveRequests.toNat ≤ requestCount + 1 then
        (events, .broken)
      else
        let (later, leaving) := serve (requestCount + 1)
        (events ++ later, leaving)
termination_by server.memberConfig.maxKeepaliveRequests.toNat - requestCount
decreasing_by omega

/-- `Close`. -/
def close (tlsHandshakeComplete : Bool) : List (Event World) :=
  (if server.tls && tlsHandshakeComplete then
    setStreamTimeout server.memberConfig.writeTimeout ++
      [.shutdownTls environment.shutdownFails] ++
      (if environment.shutdownFails then count server .incErrors else [])
  else []) ++
  [.closeSocket, .remove, .fetchSub] ++ count server .decActiveConnections ++
  [.maybeFinishGracefulStop]

/-- What is left of the coroutine after the handshake. -/
def serveAndClose : List (Event World) :=
  match serve server environment 0 with
  | (events, .broken) => events ++ close server environment true
  | (events, .thrown) => events ++ count server .incErrors ++ close server environment true

/-- `HandleConnection`. -/
def handleConnection : List (Event World) :=
  if server.tls then
    let before := setStreamTimeout server.memberConfig.readTimeout ++
      [.handshake environment.handshake]
    match environment.handshake with
    | .done => before ++ setStreamTimeout 0 ++ serveAndClose server environment
    | .failed =>
        before ++ setStreamTimeout 0 ++ count server .incErrors ++ close server environment false
    | .aborted => before ++ setStreamTimeout 0 ++ close server environment false
    | .thrown => before ++ count server .incErrors ++ close server environment false
  else
    serveAndClose server environment

end Handling

end Wan.Web.Serving
