import Wan.Web.Serving.Exchange

/-!
# What a peer sees of a connection

The operations on the stream follow a protocol, whatever the peer and the handlers do: reads and
writes alternate, each write carries the reply to the request that was read before it, and the
connection is closed once, at the end.
-/

namespace Wan.Web.Serving

open Wan.Library

variable {World : Type}

/-- An operation on the stream. -/
def Event.isTransport : Event World → Bool
  | .handshake _ => true
  | .read _ => true
  | .write _ _ => true
  | .shutdownTls _ => true
  | .closeSocket => true
  | _ => false

/-- The operations on the stream. -/
def transport (events : List (Event World)) : List (Event World) :=
  events.filter Event.isTransport

/-- How many requests or ends of the stream are waited for. -/
def reads (events : List (Event World)) : Nat :=
  events.countP fun event =>
    match event with
    | .read _ => true
    | _ => false

/-- An operation of the part of `Close` that undoes what `LaunchConnection` did. -/
@[grind =] def Event.isCleanup : Event World → Bool
  | .closeSocket => true
  | .remove => true
  | .fetchSub => true
  | .metrics .decActiveConnections => true
  | .maybeFinishGracefulStop => true
  | _ => false

section Operations

variable (server : Server World) {events : List (Event World)}

@[simp] theorem transport_append (first second : List (Event World)) :
    transport (first ++ second) = transport first ++ transport second := List.filter_append ..

@[simp] theorem transport_setStreamTimeout (timeout : Int) :
    transport (setStreamTimeout timeout : List (Event World)) = [] := by
  rw [setStreamTimeout]
  split <;> rfl

@[simp] theorem transport_count (call : MetricsCall) : transport (count server call) = [] := by
  rw [count]
  split <;> rfl

theorem Handling.transport (handled : Handling events) : transport events = [] := by
  cases handled <;> rfl

@[simp] theorem transport_nil : transport ([] : List (Event World)) = [] := rfl

@[simp] theorem transport_read (arrival : Arrival) :
    transport (.read arrival :: events) = .read arrival :: transport events := rfl

@[simp] theorem transport_write (response : Response) (ended : Ended) :
    transport (.write response ended :: events) = .write response ended :: transport events := rfl

@[simp] theorem transport_handshake (ended : Ended) :
    transport (.handshake ended :: events) = .handshake ended :: transport events := rfl

@[simp] theorem transport_shutdownTls (fails : Bool) :
    transport (.shutdownTls fails :: events) = .shutdownTls fails :: transport events := rfl

@[simp] theorem transport_received (requestCount : Nat) (req : Request) :
    transport (received server requestCount req) = [.read (.request req)] := by
  simp [received]

end Operations

variable (server : Server World) (environment : Environment World)

/-- The loop goes on after a request. -/
def Continues (requestCount : Nat) (ctx : RequestContext World) : Prop :=
  server.memberConfig.keepAliveEnabled = true ∧ ctx.keepAlive = true ∧
    requestCount + 1 < server.memberConfig.maxKeepaliveRequests.toNat

theorem continues_iff {requestCount : Nat} {ctx : RequestContext World} :
    ¬(server.memberConfig.keepAliveEnabled = false ∨ ctx.keepAlive = false ∨
      server.memberConfig.maxKeepaliveRequests.toNat ≤ requestCount + 1) ↔
      Continues server requestCount ctx := by
  rw [Continues, not_or, not_or, Bool.not_eq_false, Bool.not_eq_false, Nat.not_le]

/-- The protocol from a request on. -/
inductive Conversation : Nat → List (Event World) → Prop where
  | noRequest {requestCount : Nat}
      (read : ∀ req, environment.read requestCount ≠ .request req) :
      Conversation requestCount [.read (environment.read requestCount)]
  | unanswered {requestCount : Nat} {req : Request}
      (read : environment.read requestCount = .request req)
      (replied : reply server environment requestCount req = none) :
      Conversation requestCount [.read (.request req)]
  | undelivered {requestCount : Nat} {req : Request} {ctx : RequestContext World}
      (read : environment.read requestCount = .request req)
      (replied : reply server environment requestCount req = some ctx)
      (lost : environment.write requestCount ≠ .done) :
      Conversation requestCount
        [.read (.request req), .write ctx.memberResponse (environment.write requestCount)]
  | last {requestCount : Nat} {req : Request} {ctx : RequestContext World}
      (read : environment.read requestCount = .request req)
      (replied : reply server environment requestCount req = some ctx)
      (delivered : environment.write requestCount = .done)
      (ends : ¬Continues server requestCount ctx) :
      Conversation requestCount [.read (.request req), .write ctx.memberResponse .done]
  | next {requestCount : Nat} {req : Request} {ctx : RequestContext World}
      {later : List (Event World)} (read : environment.read requestCount = .request req)
      (replied : reply server environment requestCount req = some ctx)
      (delivered : environment.write requestCount = .done)
      (goesOn : Continues server requestCount ctx)
      (rest : Conversation (requestCount + 1) later) :
      Conversation requestCount
        (.read (.request req) :: .write ctx.memberResponse .done :: later)

variable {server environment}

/-- An iteration that ends the loop ends the conversation. -/
theorem Exchanged.stopped {requestCount : Nat} {events : List (Event World)} {leaving : Leaving}
    (exchanged : Exchanged server environment requestCount (events, .error leaving)) :
    Conversation server environment requestCount (transport events) := by
  generalize stage : ((events, .error leaving) : Stage World (RequestContext World)) = result
    at exchanged
  have noRequest : ∀ arrival, environment.read requestCount = arrival →
      (∀ req, arrival ≠ .request req) →
      Conversation server environment requestCount [.read arrival] := by
    rintro arrival rfl other
    exact .noRequest other
  have undelivered : ∀ req ctx ended, environment.read requestCount = .request req →
      reply server environment requestCount req = some ctx →
      environment.write requestCount = ended → ended ≠ .done →
      Conversation server environment requestCount
        [.read (.request req), .write ctx.memberResponse ended] := by
    rintro req ctx ended read replied rfl lost
    exact .undelivered read replied lost
  cases exchanged with
  | endOfStream read =>
      cases stage
      simpa using noRequest _ read (by simp)
  | readFailed read =>
      cases stage
      simpa using noRequest _ read (by simp)
  | readThrown read =>
      cases stage
      simpa using noRequest _ read (by simp)
  | unanswered req read replied handled =>
      cases stage
      simpa [handled.transport] using Conversation.unanswered read replied
  | writeThrown req ctx read replied handled written =>
      cases stage
      simpa [handled.transport] using undelivered req ctx _ read replied written (by simp)
  | writeFailed req ctx ended read replied handled written code =>
      cases stage
      have lost : ended ≠ .done := by
        rintro rfl
        exact code.elim nofun nofun
      simpa [handled.transport] using undelivered req ctx ended read replied written lost
  | answered req ctx read replied handled written => cases stage

/-- An iteration after which the loop is asked whether it goes on has answered a request. -/
theorem Exchanged.answered_of_ok {requestCount : Nat} {events : List (Event World)}
    {ctx : RequestContext World}
    (exchanged : Exchanged server environment requestCount (events, .ok ctx)) :
    ∃ req, environment.read requestCount = .request req ∧
      reply server environment requestCount req = some ctx ∧
      environment.write requestCount = .done ∧
      transport events = [.read (.request req), .write ctx.memberResponse .done] := by
  generalize stage : ((events, .ok ctx) : Stage World (RequestContext World)) = result
    at exchanged
  cases exchanged with
  | answered req ctx read replied handled written =>
      cases stage
      refine ⟨req, read, replied, written, ?_⟩
      simp [handled.transport]
  | _ => cases stage

variable (server environment)

/-- The loop keeps to the protocol. -/
theorem serve_conversation (requestCount : Nat) :
    Conversation server environment requestCount
      (transport (serve server environment requestCount).1) := by
  induction requestCount using serve.induct server environment with
  | case1 requestCount events leaving body =>
      have exchanged := exchange_exchanged server environment requestCount
      rw [body] at exchanged
      rw [serve, body]
      exact exchanged.stopped
  | case2 requestCount events ctx body ends =>
      have exchanged := exchange_exchanged server environment requestCount
      rw [body] at exchanged
      obtain ⟨req, read, replied, delivered, operations⟩ := exchanged.answered_of_ok
      rw [serve, body]
      simp only [dif_pos ends, operations]
      exact .last read replied delivered fun goesOn => (continues_iff server).mpr goesOn ends
  | case3 requestCount events ctx body goesOn later leaving rest ih =>
      have exchanged := exchange_exchanged server environment requestCount
      rw [body] at exchanged
      obtain ⟨req, read, replied, delivered, operations⟩ := exchanged.answered_of_ok
      rw [rest] at ih
      rw [serve, body]
      simp only [dif_neg goesOn, rest, transport_append, operations]
      exact .next read replied delivered ((continues_iff server).mp goesOn) ih

/-- The responses that were written without an error. -/
def deliveredResponses (events : List (Event World)) : List Response :=
  events.filterMap fun event =>
    match event with
    | .write response .done => some response
    | _ => none

section Conversation

variable {server environment} {requestCount : Nat} {talk : List (Event World)}

theorem reads_exchange (arrival : Arrival) (response : Response) (ended : Ended) :
    reads (.read arrival :: .write response ended :: talk) = reads talk + 1 := by
  simp [reads]

/-- The loop reads as often as the settings allow. -/
theorem Conversation.reads_le (conversation : Conversation server environment requestCount talk) :
    reads talk ≤ 1 ∨ (server.memberConfig.keepAliveEnabled = true ∧
      requestCount + reads talk ≤ server.memberConfig.maxKeepaliveRequests.toNat) := by
  induction conversation with
  | noRequest read => exact .inl (Nat.le_refl _)
  | unanswered read replied => exact .inl (Nat.le_refl _)
  | undelivered read replied lost => exact .inl (Nat.le_refl _)
  | last read replied delivered ends => exact .inl (Nat.le_refl _)
  | @next requestCount req ctx later read replied delivered goesOn rest ih =>
      obtain ⟨enabled, -, more⟩ := goesOn
      refine .inr ⟨enabled, ?_⟩
      rw [reads_exchange]
      omega

/-- At most the last read stays without a delivered response. -/
theorem Conversation.reads_le_delivered
    (conversation : Conversation server environment requestCount talk) :
    (deliveredResponses talk).length ≤ reads talk ∧
      reads talk ≤ (deliveredResponses talk).length + 1 := by
  induction conversation with
  | noRequest read => exact ⟨Nat.zero_le _, Nat.le_refl _⟩
  | unanswered read replied => exact ⟨Nat.zero_le _, Nat.le_refl _⟩
  | @undelivered requestCount req ctx read replied lost =>
      have none : deliveredResponses [(.read (.request req) : Event World),
          .write ctx.memberResponse (environment.write requestCount)] = [] := by
        cases written : environment.write requestCount with
        | done => exact absurd written lost
        | _ => rfl
      rw [none]
      exact ⟨Nat.zero_le _, Nat.le_refl _⟩
  | last read replied delivered ends => exact ⟨Nat.le_refl _, Nat.le_succ _⟩
  | next read replied delivered goesOn rest ih =>
      rw [reads_exchange]
      exact ⟨Nat.succ_le_succ ih.1, Nat.succ_le_succ ih.2⟩

/-- The responses answer the requests in the order in which these were read. -/
theorem Conversation.delivered_replies
    (conversation : Conversation server environment requestCount talk) (index : Nat)
    (response : Response) (found : (deliveredResponses talk)[index]? = some response) :
    ∃ req ctx, environment.read (requestCount + index) = .request req ∧
      reply server environment (requestCount + index) req = some ctx ∧
      environment.write (requestCount + index) = .done ∧ ctx.memberResponse = response := by
  induction conversation generalizing index with
  | noRequest read => cases found
  | unanswered read replied => cases found
  | @undelivered requestCount req ctx read replied lost =>
      cases written : environment.write requestCount with
      | done => exact absurd written lost
      | _ =>
          rw [written] at found
          cases found
  | @last requestCount req ctx read replied delivered ends =>
      cases index with
      | zero =>
          cases found
          exact ⟨req, ctx, read, replied, delivered, rfl⟩
      | succ index => cases found
  | @next requestCount req ctx later read replied delivered goesOn rest ih =>
      cases index with
      | zero =>
          cases found
          exact ⟨req, ctx, read, replied, delivered, rfl⟩
      | succ index =>
          rw [Nat.add_succ, ← Nat.succ_add]
          exact ih index found

end Conversation

/-- What `Close` does after the shutdown of TLS. -/
def cleanup : List (Event World) :=
  [.closeSocket, .remove, .fetchSub] ++ count server .decActiveConnections ++
    [.maybeFinishGracefulStop]

section Cleanup

variable {server environment} {events : List (Event World)}

/-- Events that leave the cleanup alone. -/
def NoCleanup (events : List (Event World)) : Prop := ∀ event ∈ events, event.isCleanup = false

@[simp] theorem noCleanup_nil : NoCleanup ([] : List (Event World)) := nofun

@[simp] theorem noCleanup_cons (event : Event World) :
    NoCleanup (event :: events) ↔ event.isCleanup = false ∧ NoCleanup events :=
  List.forall_mem_cons

@[simp] theorem noCleanup_append (first second : List (Event World)) :
    NoCleanup (first ++ second) ↔ NoCleanup first ∧ NoCleanup second :=
  List.forall_mem_append

@[simp] theorem noCleanup_setStreamTimeout (timeout : Int) :
    NoCleanup (setStreamTimeout timeout : List (Event World)) := by
  rw [setStreamTimeout]
  split <;> simp [Event.isCleanup]

@[simp] theorem noCleanup_count (call : MetricsCall) (other : call ≠ .decActiveConnections) :
    NoCleanup (count server call) := by
  rw [count]
  split
  · cases call <;> simp_all [Event.isCleanup]
  · exact noCleanup_nil

theorem Handling.noCleanup (handled : Handling events) : NoCleanup events := by
  cases handled <;> simp [Event.isCleanup]

/-- An iteration leaves the cleanup to `Close`. -/
theorem Exchanged.noCleanup {requestCount : Nat} {stage : Stage World (RequestContext World)}
    (exchanged : Exchanged server environment requestCount stage) : NoCleanup stage.1 := by
  cases exchanged with
  | endOfStream read => simp [Event.isCleanup]
  | readFailed read => simp [Event.isCleanup]
  | readThrown read => simp [Event.isCleanup]
  | unanswered req read replied handled => simp [Event.isCleanup, received, handled.noCleanup]
  | writeThrown req ctx read replied handled written =>
      simp [Event.isCleanup, received, handled.noCleanup]
  | writeFailed req ctx ended read replied handled written code =>
      simp [Event.isCleanup, received, handled.noCleanup]
  | answered req ctx read replied handled written =>
      simp [Event.isCleanup, received, handled.noCleanup]

variable (server environment)

theorem serve_noCleanup (requestCount : Nat) :
    NoCleanup (serve server environment requestCount).1 := by
  induction requestCount using serve.induct server environment with
  | case1 requestCount events leaving body =>
      have exchanged := (exchange_exchanged server environment requestCount).noCleanup
      rw [body] at exchanged
      rw [serve, body]
      exact exchanged
  | case2 requestCount events ctx body ends =>
      have exchanged := (exchange_exchanged server environment requestCount).noCleanup
      rw [body] at exchanged
      rw [serve, body]
      simp only [dif_pos ends]
      exact exchanged
  | case3 requestCount events ctx body goesOn later leaving rest ih =>
      have exchanged := (exchange_exchanged server environment requestCount).noCleanup
      rw [body] at exchanged
      rw [rest] at ih
      rw [serve, body]
      simp only [dif_neg goesOn, rest]
      exact (noCleanup_append ..).mpr ⟨exchanged, ih⟩

/-- `Close` shuts TLS down after a handshake and then cleans up. -/
theorem close_eq (tlsHandshakeComplete : Bool) :
    ∃ ending, close server environment tlsHandshakeComplete = ending ++ cleanup server ∧
      NoCleanup ending ∧
      transport ending = if server.tls && tlsHandshakeComplete then
        [.shutdownTls environment.shutdownFails] else [] := by
  refine ⟨_, by rw [close, List.append_assoc, List.append_assoc]; rfl, ?_, ?_⟩
  · split
    · split <;> simp [Event.isCleanup]
    · exact noCleanup_nil
  · split
    · split <;> simp
    · rfl

/-- After the handshake comes the conversation. -/
theorem serveAndClose_eq :
    ∃ before talk, serveAndClose server environment = before ++ cleanup server ∧
      NoCleanup before ∧ Conversation server environment 0 talk ∧
      transport before = talk ++ if server.tls then
        [.shutdownTls environment.shutdownFails] else [] := by
  obtain ⟨ending, closed, clean, operations⟩ := close_eq server environment true
  have conversation := serve_conversation server environment 0
  have untouched := serve_noCleanup server environment 0
  rw [Bool.and_true] at operations
  rw [serveAndClose]
  generalize serve server environment 0 = served at conversation untouched ⊢
  obtain ⟨events, leaving⟩ := served
  cases leaving with
  | broken =>
      refine ⟨events ++ ending, transport events, ?_, ?_, conversation, ?_⟩
      · rw [List.append_assoc, ← closed]
      · exact (noCleanup_append ..).mpr ⟨untouched, clean⟩
      · rw [transport_append, operations]
  | thrown =>
      refine ⟨events ++ count server .incErrors ++ ending, transport events, ?_, ?_,
        conversation, ?_⟩
      · rw [List.append_assoc, ← closed]
      · simp [untouched, clean]
      · simp [operations]

variable {before : List (Event World)}

/-- A complete handshake comes before everything else. -/
theorem handleConnection_secured (secured : server.tls = true)
    (complete : environment.handshake = .done)
    (served : serveAndClose server environment = before ++ cleanup server) :
    handleConnection server environment =
      (setStreamTimeout server.memberConfig.readTimeout ++ [.handshake .done] ++
        setStreamTimeout 0 ++ before) ++ cleanup server := by
  rw [handleConnection, if_pos secured, complete, served, List.append_assoc _ before]

/-- After any other handshake the connection is closed. -/
theorem handleConnection_refused (secured : server.tls = true)
    (refused : environment.handshake ≠ .done) :
    ∃ before, handleConnection server environment = before ++ cleanup server ∧
      NoCleanup before ∧ transport before = [.handshake environment.handshake] := by
  obtain ⟨ending, closed, clean, operations⟩ := close_eq server environment false
  rw [Bool.and_false, if_neg Bool.false_ne_true] at operations
  rw [handleConnection, if_pos secured]
  cases ended : environment.handshake with
  | done => exact absurd ended refused
  | failed =>
      rw [closed]
      refine ⟨_, (List.append_assoc ..).symm, ?_, ?_⟩
      · simp [Event.isCleanup, clean]
      · simp [operations]
  | aborted =>
      rw [closed]
      refine ⟨_, (List.append_assoc ..).symm, ?_, ?_⟩
      · simp [Event.isCleanup, clean]
      · simp [operations]
  | thrown =>
      rw [closed]
      refine ⟨_, (List.append_assoc ..).symm, ?_, ?_⟩
      · simp [Event.isCleanup, clean]
      · simp [operations]

end Cleanup

end Wan.Web.Serving
