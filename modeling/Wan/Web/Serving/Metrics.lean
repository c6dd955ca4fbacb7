import Wan.Library.Interleaving
import Wan.Web.Serving.Protocol

/-!
# The counters of `Web/Core/Metrics.hpp`

The connections of a server count on the same atomic counters, in any interleaving.  A counter
wraps at 64 bits.
-/

namespace Wan.Web.Serving

open Wan.Library

/-- `ServerMetrics`. -/
structure ServerMetrics where
  memberTotalRequests : UInt64 := 0
  memberActiveConnections : UInt64 := 0
  memberTotalErrors : UInt64 := 0
  memberBytesRead : UInt64 := 0
  memberBytesWritten : UInt64 := 0
  deriving DecidableEq, Repr

/-- The calls of the counters. -/
def ServerMetrics.call (metrics : ServerMetrics) : MetricsCall → ServerMetrics
  | .incRequests => { metrics with memberTotalRequests := metrics.memberTotalRequests + 1 }
  | .incActiveConnections =>
      { metrics with memberActiveConnections := metrics.memberActiveConnections + 1 }
  | .decActiveConnections =>
      { metrics with memberActiveConnections := metrics.memberActiveConnections - 1 }
  | .resetActiveConnections => { metrics with memberActiveConnections := 0 }
  | .incErrors => { metrics with memberTotalErrors := metrics.memberTotalErrors + 1 }
  | .incBytesRead n => { metrics with memberBytesRead := metrics.memberBytesRead + .ofNat n }
  | .incBytesWritten n =>
      { metrics with memberBytesWritten := metrics.memberBytesWritten + .ofNat n }

/-- How `LaunchConnection` ends. -/
inductive Launch where
  /-- The coroutine of the connection runs. -/
  | spawned
  /-- Something throws before the connection is counted. -/
  | uncounted
  /-- `co_spawn` throws. -/
  | unspawned
  deriving DecidableEq, Repr

variable {World : Type}

/-- The calls of the counters among events. -/
def metricsCalls (events : List (Event World)) : List MetricsCall :=
  events.filterMap fun event =>
    match event with
    | .metrics call => some call
    | _ => none

/-- A connection that was accepted. -/
structure Connection (World : Type) where
  launch : Launch
  environment : Environment World

/-- What a connection does from `LaunchConnection` to the end of its coroutine. -/
def Connection.events (server : Server World) (connection : Connection World) :
    List (Event World) :=
  match connection.launch with
  | .spawned =>
      count server .incActiveConnections ++ handleConnection server connection.environment
  | .uncounted => []
  | .unspawned =>
      count server .incActiveConnections ++ count server .decActiveConnections ++
        count server .incErrors

section Sums

/-- What a call adds to a sum. -/
inductive Counter where
  | requests
  | opened
  | closed
  | errors
  | bytesRead
  | bytesWritten
  | resets
  deriving DecidableEq, Repr

/-- What a call adds. -/
def Counter.amount : Counter → MetricsCall → Nat
  | .requests, .incRequests => 1
  | .opened, .incActiveConnections => 1
  | .closed, .decActiveConnections => 1
  | .errors, .incErrors => 1
  | .bytesRead, .incBytesRead n => n
  | .bytesWritten, .incBytesWritten n => n
  | .resets, .resetActiveConnections => 1
  | _, _ => 0

/-- What calls add together. -/
def Counter.sum (counter : Counter) (calls : List MetricsCall) : Nat :=
  (calls.map counter.amount).sum

variable {counter : Counter} {calls first second : List MetricsCall}

@[simp] theorem Counter.sum_nil : counter.sum [] = 0 := rfl

@[simp] theorem Counter.sum_cons (call : MetricsCall) :
    counter.sum (call :: calls) = counter.amount call + counter.sum calls := by
  simp [Counter.sum]

@[simp] theorem Counter.sum_append :
    counter.sum (first ++ second) = counter.sum first + counter.sum second := by
  simp [Counter.sum]

theorem Counter.sum_perm (perm : first.Perm second) : counter.sum first = counter.sum second :=
  (perm.map _).sum_eq

theorem Counter.sum_le_of_suffix (suffix : first <:+ second) :
    counter.sum first ≤ counter.sum second := by
  obtain ⟨before, rfl⟩ := suffix
  rw [Counter.sum_append]
  exact Nat.le_add_left ..

theorem Counter.opened_sum : Counter.opened.sum calls = calls.count .incActiveConnections := by
  induction calls with
  | nil => rfl
  | cons call calls ih => cases call <;> simp [ih, Counter.amount, Nat.add_comm]

theorem Counter.closed_sum : Counter.closed.sum calls = calls.count .decActiveConnections := by
  induction calls with
  | nil => rfl
  | cons call calls ih => cases call <;> simp [ih, Counter.amount, Nat.add_comm]

/-- The counters hold the sums, and the gauge the difference, as long as nothing resets it. -/
theorem ServerMetrics.foldl_call (metrics : ServerMetrics) (calls : List MetricsCall)
    (kept : Counter.resets.sum calls = 0) :
    calls.foldl ServerMetrics.call metrics =
      { memberTotalRequests := metrics.memberTotalRequests + .ofNat (Counter.requests.sum calls)
        memberActiveConnections := metrics.memberActiveConnections +
          .ofNat (Counter.opened.sum calls) - .ofNat (Counter.closed.sum calls)
        memberTotalErrors := metrics.memberTotalErrors + .ofNat (Counter.errors.sum calls)
        memberBytesRead := metrics.memberBytesRead + .ofNat (Counter.bytesRead.sum calls)
        memberBytesWritten :=
          metrics.memberBytesWritten + .ofNat (Counter.bytesWritten.sum calls) } := by
  induction calls generalizing metrics with
  | nil => simp
  | cons call calls ih =>
      rw [Counter.sum_cons, Nat.add_eq_zero_iff] at kept
      rw [List.foldl_cons, ih _ kept.2]
      cases call <;> simp_all [ServerMetrics.call, Counter.amount, UInt64.ofNat_add] <;> grind

end Sums

section Tallies

/-- What is counted about events. -/
inductive Fact where
  | counted (counter : Counter)
  | requests
  | bodiesRead
  | bodiesWritten
  | writes
  /-- An operation on the stream has failed, other than by its end. -/
  | failures
  deriving DecidableEq, Repr

/-- What an event adds. -/
def Fact.amount : Fact → Event World → Nat
  | .counted counter, .metrics call => counter.amount call
  | .requests, .read (.request _) => 1
  | .bodiesRead, .read (.request req) => req.body.length
  | .bodiesWritten, .write response .done => response.body.length
  | .writes, .write _ _ => 1
  | .failures, .handshake .failed => 1
  | .failures, .handshake .thrown => 1
  | .failures, .read .failed => 1
  | .failures, .read .thrown => 1
  | .failures, .write _ .failed => 1
  | .failures, .write _ .aborted => 1
  | .failures, .write _ .thrown => 1
  | .failures, .shutdownTls true => 1
  | _, _ => 0

/-- What events add together. -/
def tally (fact : Fact) (events : List (Event World)) : Nat := (events.map fact.amount).sum

variable {server : Server World} {events first second : List (Event World)} {fact : Fact}

@[simp] theorem tally_nil : tally fact ([] : List (Event World)) = 0 := rfl

@[simp] theorem tally_cons (event : Event World) :
    tally fact (event :: events) = fact.amount event + tally fact events := by
  simp [tally]

@[simp] theorem tally_append :
    tally fact (first ++ second) = tally fact first + tally fact second := by
  simp [tally]

@[simp] theorem tally_setStreamTimeout (timeout : Int) :
    tally fact (setStreamTimeout timeout : List (Event World)) = 0 := by
  rw [setStreamTimeout]
  split <;> cases fact <;> rfl

theorem Handling.tally (handled : Handling events) : tally fact events = 0 := by
  cases handled with
  | skipped => rfl
  | ran ctx outcome => cases fact <;> rfl

theorem tally_count (enabled : server.memberConfig.enableMetrics = true) (call : MetricsCall) :
    tally fact (count server call) = fact.amount (.metrics call : Event World) := by
  rw [count, if_pos enabled, tally_cons, tally_nil, Nat.add_zero]

theorem tally_counted (counter : Counter) (events : List (Event World)) :
    tally (.counted counter) events = counter.sum (metricsCalls events) := by
  induction events with
  | nil => rfl
  | cons event events ih =>
      rw [tally_cons, ih]
      cases event <;> simp [metricsCalls, Fact.amount]

/-- The calls say what has happened: `owed` errors are still to be counted, and `extra` ones are
counted without a failure of an operation. -/
structure Accounted (owed extra opened closed : Nat) (events : List (Event World)) : Prop where
  requests : tally (.counted .requests) events = tally .requests events
  bytesRead : tally (.counted .bytesRead) events = tally .bodiesRead events
  bytesWritten : tally (.counted .bytesWritten) events = tally .bodiesWritten events
  answers : tally .writes events ≤ tally .requests events
  errors : tally (.counted .errors) events + tally .writes events + owed =
    tally .failures events + tally .requests events + extra
  opened : tally (.counted .opened) events = opened
  closed : tally (.counted .closed) events = closed
  resets : tally (.counted .resets) events = 0

theorem Accounted.append {owed extra opened closed owed' extra' opened' closed' : Nat}
    (before : Accounted owed extra opened closed first)
    (after : Accounted owed' extra' opened' closed' second) :
    Accounted (owed + owed') (extra + extra') (opened + opened') (closed + closed')
      (first ++ second) := by
  constructor
  · rw [tally_append, tally_append, before.requests, after.requests]
  · rw [tally_append, tally_append, before.bytesRead, after.bytesRead]
  · rw [tally_append, tally_append, before.bytesWritten, after.bytesWritten]
  · rw [tally_append, tally_append]
    exact Nat.add_le_add before.answers after.answers
  · have early := before.errors
    have late := after.errors
    simp only [tally_append]
    omega
  · rw [tally_append, before.opened, after.opened]
  · rw [tally_append, before.closed, after.closed]
  · rw [tally_append, before.resets, after.resets]

/-- What was owed has been counted. -/
theorem Accounted.settle {owed opened closed : Nat}
    (accounted : Accounted owed owed opened closed events) :
    Accounted 0 0 opened closed events :=
  { accounted with errors := Nat.add_right_cancel accounted.errors }

/-- What an iteration owes. -/
def owedAfter {α : Type} : Except Leaving α → Nat
  | .error .thrown => 1
  | _ => 0

variable {environment : Environment World}

/-- An iteration calls the counters for what it does. -/
theorem Exchanged.accounted {requestCount : Nat} {stage : Stage World (RequestContext World)}
    (enabled : server.memberConfig.enableMetrics = true)
    (exchanged : Exchanged server environment requestCount stage) :
    Accounted (owedAfter stage.2) 0 0 0 stage.1 := by
  cases exchanged with
  | endOfStream read => constructor <;> simp [Fact.amount, owedAfter]
  | readFailed read =>
      constructor <;> simp [Fact.amount, Counter.amount, owedAfter, tally_count enabled]
  | readThrown read => constructor <;> simp [Fact.amount, owedAfter]
  | unanswered req read replied handled =>
      constructor <;> simp [Fact.amount, Counter.amount, owedAfter, tally_count enabled, received,
        handled.tally]
  | writeThrown req ctx read replied handled written =>
      constructor <;> simp [Fact.amount, Counter.amount, owedAfter, tally_count enabled, received,
        handled.tally]
  | writeFailed req ctx ended read replied handled written code =>
      rcases code with rfl | rfl <;> constructor <;>
        simp [Fact.amount, Counter.amount, owedAfter, tally_count enabled, received,
          handled.tally]
  | answered req ctx read replied handled written =>
      constructor <;> simp [Fact.amount, Counter.amount, owedAfter, tally_count enabled, received,
        handled.tally]

variable (environment)

/-- What the loop owes. -/
def owedBy : Leaving → Nat
  | .thrown => 1
  | .broken => 0

theorem serve_accounted (enabled : server.memberConfig.enableMetrics = true)
    (requestCount : Nat) :
    Accounted (owedBy (serve server environment requestCount).2) 0 0 0
      (serve server environment requestCount).1 := by
  induction requestCount using serve.induct server environment with
  | case1 requestCount events leaving body =>
      have exchanged := (exchange_exchanged server environment requestCount).accounted enabled
      rw [body] at exchanged
      rw [serve, body]
      cases leaving <;> exact exchanged
  | case2 requestCount events ctx body ends =>
      have exchanged := (exchange_exchanged server environment requestCount).accounted enabled
      rw [body] at exchanged
      rw [serve, body]
      simp only [dif_pos ends]
      exact exchanged
  | case3 requestCount events ctx body goesOn later leaving rest ih =>
      have exchanged := (exchange_exchanged server environment requestCount).accounted enabled
      rw [body] at exchanged
      rw [rest] at ih
      rw [serve, body]
      simp only [dif_neg goesOn, rest]
      have both : Accounted (0 + owedBy leaving) 0 0 0 (events ++ later) := exchanged.append ih
      rwa [Nat.zero_add] at both

theorem accounted_incErrors (enabled : server.memberConfig.enableMetrics = true) :
    Accounted 0 1 0 0 (count server .incErrors) := by
  constructor <;> simp [tally_count enabled, Fact.amount, Counter.amount]

/-- `Close` counts the connection out. -/
theorem close_accounted (enabled : server.memberConfig.enableMetrics = true)
    (tlsHandshakeComplete : Bool) :
    Accounted 0 0 0 1 (close server environment tlsHandshakeComplete) := by
  rw [close]
  cases failing : environment.shutdownFails <;> split <;> constructor <;>
    simp [tally_count enabled, Fact.amount, Counter.amount]

theorem serveAndClose_accounted (enabled : server.memberConfig.enableMetrics = true) :
    Accounted 0 0 0 1 (serveAndClose server environment) := by
  have served := serve_accounted environment enabled 0
  have closed := close_accounted environment enabled true
  rw [serveAndClose]
  generalize serve server environment 0 = run at served ⊢
  obtain ⟨events, leaving⟩ := run
  cases leaving with
  | broken => exact served.append closed
  | thrown => exact ((served.append (accounted_incErrors enabled)).append closed).settle

/-- A connection counts what happens on it, and itself out once. -/
theorem handleConnection_accounted (enabled : server.memberConfig.enableMetrics = true) :
    Accounted 0 0 0 1 (handleConnection server environment) := by
  have closed := close_accounted environment enabled false
  rw [handleConnection]
  split
  · cases environment.handshake with
    | done =>
        have shaken : Accounted 0 0 0 0 (setStreamTimeout server.memberConfig.readTimeout ++
            [.handshake .done] ++ setStreamTimeout 0 : List (Event World)) := by
          constructor <;> simp [Fact.amount]
        exact shaken.append (serveAndClose_accounted environment enabled)
    | failed =>
        have shaken : Accounted 0 0 0 0 (setStreamTimeout server.memberConfig.readTimeout ++
            [.handshake .failed] ++ setStreamTimeout 0 ++ count server .incErrors) := by
          constructor <;> simp [Fact.amount, Counter.amount, tally_count enabled]
        exact shaken.append closed
    | aborted =>
        have shaken : Accounted 0 0 0 0 (setStreamTimeout server.memberConfig.readTimeout ++
            [.handshake .aborted] ++ setStreamTimeout 0 : List (Event World)) := by
          constructor <;> simp [Fact.amount]
        exact shaken.append closed
    | thrown =>
        have shaken : Accounted 0 0 0 0 (setStreamTimeout server.memberConfig.readTimeout ++
            [.handshake .thrown] ++ count server .incErrors) := by
          constructor <;> simp [Fact.amount, Counter.amount, tally_count enabled]
        exact shaken.append closed
  · exact serveAndClose_accounted environment enabled

/-- How many connections were counted. -/
def Launch.counted : Launch → Nat
  | .uncounted => 0
  | _ => 1

/-- How many connections were counted but not spawned. -/
def Launch.lost : Launch → Nat
  | .unspawned => 1
  | _ => 0

theorem Connection.accounted (enabled : server.memberConfig.enableMetrics = true)
    (connection : Connection World) :
    Accounted 0 connection.launch.lost connection.launch.counted connection.launch.counted
      (connection.events server) := by
  have opened : Accounted 0 0 1 0 (count server .incActiveConnections) := by
    constructor <;> simp [tally_count enabled, Fact.amount, Counter.amount]
  have closed : Accounted 0 0 0 1 (count server .decActiveConnections) := by
    constructor <;> simp [tally_count enabled, Fact.amount, Counter.amount]
  obtain ⟨launch, environment⟩ := connection
  cases launch with
  | spawned => exact opened.append (handleConnection_accounted environment enabled)
  | uncounted => constructor <;> rfl
  | unspawned => exact (opened.append closed).append (accounted_incErrors enabled)

/-- A connection with these calls to come has been counted in, and not yet out. -/
def countedIn (calls : List MetricsCall) : Bool :=
  decide (.decActiveConnections ∈ calls ∧ .incActiveConnections ∉ calls)

/-- A connection is counted in before it is counted out, and once at most. -/
def Paired (calls : List MetricsCall) : Prop :=
  ∀ rest, rest <:+ calls →
    Counter.opened.sum rest ≤ Counter.closed.sum rest ∧ Counter.closed.sum rest ≤ 1

theorem paired_of_opened {calls : List MetricsCall} (opened : Counter.opened.sum calls = 0)
    (closed : Counter.closed.sum calls ≤ 1) : Paired calls := by
  intro rest suffix
  have fewer : Counter.opened.sum rest ≤ 0 := opened ▸ Counter.sum_le_of_suffix suffix
  exact ⟨Nat.le_trans fewer (Nat.zero_le _),
    Nat.le_trans (Counter.sum_le_of_suffix suffix) closed⟩

theorem paired_cons {calls : List MetricsCall} (opened : Counter.opened.sum calls = 0)
    (closed : Counter.closed.sum calls = 1) : Paired (.incActiveConnections :: calls) := by
  intro rest suffix
  rcases List.suffix_cons_iff.mp suffix with rfl | behind
  · simp [Counter.amount, opened, closed]
  · exact paired_of_opened opened (Nat.le_of_eq closed) rest behind

theorem Paired.suffix {calls rest : List MetricsCall} (paired : Paired calls)
    (suffix : rest <:+ calls) : Paired rest :=
  fun last behind => paired last (behind.trans suffix)

/-- What is still to be counted out is counted in, or still to be counted in. -/
theorem Paired.closed_eq {calls : List MetricsCall} (paired : Paired calls) :
    Counter.closed.sum calls = Counter.opened.sum calls + (countedIn calls).toNat := by
  have bounds := paired calls List.suffix_rfl
  rw [Counter.opened_sum, Counter.closed_sum] at bounds ⊢
  cases within : countedIn calls with
  | true =>
      obtain ⟨closes, opens⟩ := of_decide_eq_true within
      have one := List.count_pos_iff.mpr closes
      rw [List.count_eq_zero.mpr opens, Bool.toNat_true]
      omega
  | false =>
      rw [Bool.toNat_false, Nat.add_zero]
      by_cases closes : MetricsCall.decActiveConnections ∈ calls
      · have opens : MetricsCall.incActiveConnections ∈ calls := by
          by_contra absent
          exact of_decide_eq_false within ⟨closes, absent⟩
        have one := List.count_pos_iff.mpr opens
        omega
      · rw [List.count_eq_zero.mpr closes] at bounds ⊢
        exact (Nat.le_zero.mp bounds.1).symm

theorem Connection.paired (enabled : server.memberConfig.enableMetrics = true)
    (connection : Connection World) : Paired (metricsCalls (connection.events server)) := by
  obtain ⟨launch, environment⟩ := connection
  cases launch with
  | spawned =>
      have handled := handleConnection_accounted environment enabled
      rw [Connection.events, count, if_pos enabled]
      exact paired_cons ((tally_counted ..).symm.trans handled.opened)
        ((tally_counted ..).symm.trans handled.closed)
  | uncounted => exact paired_of_opened rfl (Nat.zero_le 1)
  | unspawned =>
      rw [Connection.events, count, if_pos enabled, count, if_pos enabled, count, if_pos enabled]
      exact paired_cons rfl rfl

/-- All connections together. -/
theorem accounted_all (enabled : server.memberConfig.enableMetrics = true)
    (connections : List (Connection World)) :
    Accounted 0 (connections.map (·.launch.lost)).sum (connections.map (·.launch.counted)).sum
      (connections.map (·.launch.counted)).sum (connections.flatMap (·.events server)) := by
  induction connections with
  | nil => constructor <;> rfl
  | cons connection connections ih =>
      have both := (connection.accounted enabled).append ih
      rwa [Nat.zero_add] at both

end Tallies

section Counters

variable {server : Server World}

/-- The calls of each connection. -/
def callsOf (server : Server World) (connections : List (Connection World)) :
    List (List MetricsCall) :=
  connections.map fun connection => metricsCalls (connection.events server)

theorem sum_callsOf (counter : Counter) (connections : List (Connection World)) :
    counter.sum (callsOf server connections).flatten =
      tally (.counted counter) (connections.flatMap (·.events server)) := by
  induction connections with
  | nil => rfl
  | cons connection connections ih =>
      rw [callsOf, List.map_cons, List.flatten_cons, Counter.sum_append, List.flatMap_cons,
        tally_append, tally_counted, ← ih]
      rfl

/-- What has been counted and what is still to be counted make up the whole. -/
theorem sum_interleaved {connections : List (Connection World)} {taken : List MetricsCall}
    {left : List (List MetricsCall)}
    (interleaved : Interleaved (callsOf server connections) taken left) (counter : Counter) :
    counter.sum taken + counter.sum left.flatten =
      tally (.counted counter) (connections.flatMap (·.events server)) := by
  rw [← Counter.sum_append, Counter.sum_perm interleaved.perm, sum_callsOf]

/-- What is to be counted out besides what is to be counted in are the connections that are
counted in. -/
theorem closed_flatten {left : List (List MetricsCall)} (paired : ∀ calls ∈ left, Paired calls) :
    Counter.closed.sum left.flatten =
      Counter.opened.sum left.flatten + left.countP countedIn := by
  induction left with
  | nil => rfl
  | cons calls left ih =>
      rw [List.forall_mem_cons] at paired
      rw [List.flatten_cons, Counter.sum_append, Counter.sum_append, paired.1.closed_eq,
        ih paired.2, List.countP_cons]
      cases countedIn calls <;> simp <;> omega

end Counters

end Wan.Web.Serving
