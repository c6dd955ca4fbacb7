import Wan.Web.Serving.Protocol

/-!
# Timers and the handler flag of a connection

A watch follows the timer of the stream and `IsHandlerActive`.  Every wait for the peer stands
under its configured timeout, no timer runs while a handler does, and the flag that
`ConnectionRegistry` reads is set exactly while a handler runs.
-/

namespace Wan.Web.Serving

open Wan.Library

variable {World : Type}

/-- What the events so far have left. -/
structure Watch where
  /-- The timeout that is set on the stream. -/
  timer : Option Int := none
  /-- `IsHandlerActive`. -/
  active : Bool := false
  /-- How many responses have been written. -/
  written : Nat := 0
  deriving DecidableEq, Repr

/-- The watch after an event. -/
@[grind =] def Watch.after (watch : Watch) : Event World → Watch
  | .expiresAfter timeout => { watch with timer := some timeout }
  | .expiresNever => { watch with timer := none }
  | .handlerActive active => { watch with active }
  | .write _ _ => { watch with written := watch.written + 1 }
  | _ => watch

/-- A timeout of zero is none. -/
def armed (timeout : Int) : Option Int := if 0 < timeout then some timeout else none

/-- An event is in order. -/
@[grind =] def Allowed (server : Server World) (watch : Watch) : Event World → Prop
  | .expiresAfter _ => True
  | .expiresNever => True
  | .metrics _ => True
  | .handshake _ =>
      watch.active = false ∧ watch.timer = armed server.memberConfig.readTimeout
  | .read _ =>
      watch.active = false ∧ watch.timer = armed
        (if watch.written = 0 then server.memberConfig.readTimeout
        else if server.memberConfig.keepAliveEnabled then server.memberConfig.keepAliveTimeout
        else server.memberConfig.readTimeout)
  | .handlerActive active => active = !watch.active
  | .handled _ _ => watch.active = true ∧ watch.timer = none
  | .write _ _ => watch.active = false ∧ watch.timer = armed server.memberConfig.writeTimeout
  | .shutdownTls _ =>
      watch.active = false ∧ watch.timer = armed server.memberConfig.writeTimeout
  | .closeSocket => watch.active = false
  | .remove => watch.active = false
  | .fetchSub => watch.active = false
  | .maybeFinishGracefulStop => watch.active = false

/-- The events are in order, from a watch on, and leave another one. -/
def Disciplined (server : Server World) (watch : Watch) (events : List (Event World))
    (last : Watch) : Prop :=
  (∀ before event after, events = before ++ event :: after →
    Allowed server (before.foldl Watch.after watch) event) ∧
  events.foldl Watch.after watch = last

section Rules

variable {server : Server World} {watch between last : Watch}
variable {events first second : List (Event World)}

@[simp] theorem disciplined_nil : Disciplined server watch [] last ↔ watch = last := by
  simp [Disciplined]

@[simp] theorem disciplined_cons (event : Event World) :
    Disciplined server watch (event :: events) last ↔
      Allowed server watch event ∧ Disciplined server (watch.after event) events last := by
  constructor
  · rintro ⟨allowed, ended⟩
    refine ⟨allowed [] event events rfl, ?_, ended⟩
    intro before later after split
    exact allowed (event :: before) later after (by rw [split, List.cons_append])
  · rintro ⟨now, allowed, ended⟩
    refine ⟨?_, ended⟩
    intro before later after split
    cases before with
    | nil =>
        cases split
        exact now
    | cons head before =>
        obtain ⟨rfl, rest⟩ := List.cons.inj split
        exact allowed before later after rest

theorem Disciplined.append (before : Disciplined server watch first between)
    (after : Disciplined server between second last) :
    Disciplined server watch (first ++ second) last := by
  induction first generalizing watch with
  | nil =>
      cases disciplined_nil.mp before
      exact after
  | cons event first ih =>
      obtain ⟨allowed, rest⟩ := (disciplined_cons event).mp before
      exact (disciplined_cons event).mpr ⟨allowed, ih rest⟩

theorem disciplined_setStreamTimeout (timeout : Int) :
    Disciplined server watch (setStreamTimeout timeout) { watch with timer := armed timeout } := by
  rw [setStreamTimeout, armed]
  split <;> simp [Allowed, Watch.after]

theorem disciplined_count (call : MetricsCall) :
    Disciplined server watch (count server call) watch := by
  rw [count]
  split <;> simp [Allowed, Watch.after]

/-- A handler runs without a timer and leaves the flag as it was. -/
theorem Handling.disciplined (handled : Handling events) (idle : watch.active = false)
    (free : watch.timer = none) : Disciplined server watch events watch := by
  obtain ⟨timer, active, written⟩ := watch
  cases idle
  cases free
  cases handled <;> simp [Allowed, Watch.after]

end Rules

variable {server : Server World} {environment : Environment World}

/-- The watch while no handler runs. -/
def Watch.idle (timer : Option Int) (written : Nat) : Watch := ⟨timer, false, written⟩

/-- Reading sets the timeout and takes it away. -/
theorem disciplined_read (timer : Option Int) (written : Nat) (arrival : Arrival) :
    Disciplined server (.idle timer written)
      (setStreamTimeout (readTimeout server written) ++ [.read arrival])
      (.idle (armed (readTimeout server written)) written) :=
  (disciplined_setStreamTimeout _).append (by simp [Allowed, Watch.after, Watch.idle, readTimeout])

theorem disciplined_never (timer : Option Int) (written : Nat) :
    Disciplined server (.idle timer written) (setStreamTimeout 0) (.idle none written) :=
  disciplined_setStreamTimeout 0

theorem disciplined_received (timer : Option Int) (written : Nat) (req : Request) :
    Disciplined server (.idle timer written) (received server written req)
      (.idle none written) :=
  (((disciplined_read timer written _).append (disciplined_never _ _)).append
    (disciplined_count _)).append (disciplined_count _)

/-- Writing, after a handler that may have run. -/
theorem disciplined_written (timer : Option Int) (written : Nat) (req : Request)
    {handling : List (Event World)} (handled : Handling handling) (response : Response)
    (ended : Ended) :
    Disciplined server (.idle timer written)
      (received server written req ++ handling ++
        setStreamTimeout server.memberConfig.writeTimeout ++ [.write response ended])
      (.idle (armed server.memberConfig.writeTimeout) (written + 1)) :=
  (((disciplined_received timer written req).append (handled.disciplined rfl rfl)).append
    (disciplined_setStreamTimeout _)).append (by simp [Allowed, Watch.after, Watch.idle])

/-- An iteration is in order and leaves no handler running; after a response the next number is
due. -/
theorem Exchanged.disciplined {requestCount : Nat} {stage : Stage World (RequestContext World)}
    (exchanged : Exchanged server environment requestCount stage) (timer : Option Int) :
    ∃ later written, Disciplined server (.idle timer requestCount) stage.1 (.idle later written) ∧
      ∀ ctx, stage.2 = .ok ctx → written = requestCount + 1 := by
  cases exchanged with
  | endOfStream read =>
      exact ⟨_, _, (disciplined_read ..).append (disciplined_never ..), nofun⟩
  | readFailed read =>
      exact ⟨_, _, ((disciplined_read ..).append (disciplined_never ..)).append
        (disciplined_count _), nofun⟩
  | readThrown read => exact ⟨_, _, disciplined_read .., nofun⟩
  | unanswered req read replied handled =>
      exact ⟨_, _, (disciplined_received ..).append (handled.disciplined rfl rfl), nofun⟩
  | writeThrown req ctx read replied handled written =>
      exact ⟨_, _, disciplined_written timer requestCount req handled _ _, nofun⟩
  | writeFailed req ctx ended read replied handled written code =>
      exact ⟨_, _, ((disciplined_written timer requestCount req handled _ _).append
        (disciplined_never ..)).append (disciplined_count _), nofun⟩
  | answered req ctx read replied handled written =>
      exact ⟨_, _, ((disciplined_written timer requestCount req handled _ _).append
        (disciplined_never ..)).append (disciplined_count _), fun _ _ => rfl⟩

variable (server environment)

theorem serve_disciplined (requestCount : Nat) (timer : Option Int) :
    ∃ later written, Disciplined server (.idle timer requestCount)
      (serve server environment requestCount).1 (.idle later written) := by
  induction requestCount using serve.induct server environment generalizing timer with
  | case1 requestCount events leaving body =>
      have exchanged := exchange_exchanged server environment requestCount
      obtain ⟨later, written, run, -⟩ := exchanged.disciplined timer
      rw [body] at run
      rw [serve, body]
      exact ⟨later, written, run⟩
  | case2 requestCount events ctx body ends =>
      have exchanged := exchange_exchanged server environment requestCount
      obtain ⟨later, written, run, -⟩ := exchanged.disciplined timer
      rw [body] at run
      rw [serve, body]
      simp only [dif_pos ends]
      exact ⟨later, written, run⟩
  | case3 requestCount events ctx body goesOn rest leaving served ih =>
      have exchanged := exchange_exchanged server environment requestCount
      obtain ⟨between, written, run, due⟩ := exchanged.disciplined timer
      rw [body] at run due
      cases due ctx rfl
      obtain ⟨later, last, restRun⟩ := ih between
      rw [served] at restRun
      rw [serve, body]
      simp only [dif_neg goesOn, served]
      exact ⟨later, last, run.append restRun⟩

theorem cleanup_disciplined (timer : Option Int) (written : Nat) :
    Disciplined server (.idle timer written) (cleanup server) (.idle timer written) :=
  ((show Disciplined server (.idle timer written) [.closeSocket, .remove, .fetchSub]
      (.idle timer written) by simp [Allowed, Watch.after, Watch.idle]).append
    (disciplined_count _)).append (by simp [Allowed, Watch.after, Watch.idle])

/-- `Close` waits for the shutdown of TLS under the write timeout. -/
theorem close_disciplined (tlsHandshakeComplete : Bool) (timer : Option Int) (written : Nat) :
    ∃ later, Disciplined server (.idle timer written)
      (close server environment tlsHandshakeComplete) (.idle later written) := by
  have split : close server environment tlsHandshakeComplete =
      (if server.tls && tlsHandshakeComplete then
        setStreamTimeout server.memberConfig.writeTimeout ++
          [.shutdownTls environment.shutdownFails] ++
          (if environment.shutdownFails then count server .incErrors else [])
      else []) ++ cleanup server := by
    rw [close, List.append_assoc, List.append_assoc]
    rfl
  have counted : Disciplined server (.idle (armed server.memberConfig.writeTimeout) written)
      (if environment.shutdownFails then count server .incErrors else [])
      (.idle (armed server.memberConfig.writeTimeout) written) := by
    split
    · exact disciplined_count _
    · exact disciplined_nil.mpr rfl
  rw [split]
  split
  · have shut : Disciplined server (.idle timer written)
        (setStreamTimeout server.memberConfig.writeTimeout ++
          [.shutdownTls environment.shutdownFails])
        (.idle (armed server.memberConfig.writeTimeout) written) :=
      (disciplined_setStreamTimeout _).append (by simp [Allowed, Watch.after, Watch.idle])
    exact ⟨_, (shut.append counted).append (cleanup_disciplined server _ written)⟩
  · exact ⟨timer, cleanup_disciplined server timer written⟩

theorem serveAndClose_disciplined (timer : Option Int) :
    ∃ later written, Disciplined server (.idle timer 0) (serveAndClose server environment)
      (.idle later written) := by
  obtain ⟨between, written, served⟩ := serve_disciplined server environment 0 timer
  obtain ⟨later, closed⟩ := close_disciplined server environment true between written
  rw [serveAndClose]
  generalize serve server environment 0 = run at served ⊢
  obtain ⟨events, leaving⟩ := run
  cases leaving with
  | broken => exact ⟨later, written, served.append closed⟩
  | thrown => exact ⟨later, written, (served.append (disciplined_count _)).append closed⟩

/-- Whatever the peer and the handlers do: a handshake and a first read wait under the read
timeout, a later read under the keep-alive timeout, a write and the shutdown of TLS under the
write timeout; no timer runs while a handler does; and `IsHandlerActive` is set exactly while a
handler runs, so it is not set when the connection leaves the registry. -/
theorem connection_disciplined :
    ∃ last : Watch, last.active = false ∧
      Disciplined server {} (handleConnection server environment) last := by
  have shaken : Disciplined server (.idle none 0)
      (setStreamTimeout server.memberConfig.readTimeout ++ [.handshake environment.handshake])
      (.idle (armed server.memberConfig.readTimeout) 0) :=
    (disciplined_setStreamTimeout _).append (by simp [Allowed, Watch.after, Watch.idle])
  have never := (shaken.append (disciplined_never ..))
  rw [handleConnection]
  split
  · cases ended : environment.handshake with
    | done =>
        rw [ended] at never
        obtain ⟨later, written, served⟩ := serveAndClose_disciplined server environment none
        exact ⟨_, rfl, never.append served⟩
    | failed =>
        rw [ended] at never
        obtain ⟨later, closed⟩ := close_disciplined server environment false none 0
        exact ⟨_, rfl, (never.append (disciplined_count _)).append closed⟩
    | aborted =>
        rw [ended] at never
        obtain ⟨later, closed⟩ := close_disciplined server environment false none 0
        exact ⟨_, rfl, never.append closed⟩
    | thrown =>
        rw [ended] at shaken
        obtain ⟨later, closed⟩ := close_disciplined server environment false
          (armed server.memberConfig.readTimeout) 0
        exact ⟨_, rfl, (shaken.append (disciplined_count _)).append closed⟩
  · obtain ⟨later, written, served⟩ := serveAndClose_disciplined server environment none
    exact ⟨_, rfl, served⟩

end Wan.Web.Serving
