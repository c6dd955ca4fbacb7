import Wan.Library.Failure
import Wan.Web.Session.Ledger

/-!
# Runs of the session store

In every run the store stays within its limits, answers from its ledger, and leaves alone the
sessions that an operation does not name.
-/

namespace Wan.Web.Session

open Wan.Library

/-- A session is within the limits of the configuration. -/
structure WithinLimits (config : SessionConfig) (session : SessionData) : Prop where
  count : session.values.size ≤ config.maxValuesPerSession.toNat
  keySize : ∀ entry ∈ session.values.toList, entry.1.length ≤ config.maxKeySize.toNat
  valueSize : ∀ entry ∈ session.values.toList, entry.2.length ≤ config.maxValueSize.toNat

/-- Every session is within the limits, and so is their number. -/
structure Bounded (config : SessionConfig) (sessions : Sessions) : Prop where
  capacity : sessions.size ≤ config.maxSessions.toNat
  limits : ∀ {id session}, sessions.find? id = some session → WithinLimits config session

/-- What holds of a store under a configuration. -/
structure Invariant (config : SessionConfig) (world : World) : Prop where
  configured : world.store.config = config
  bounded : Bounded config world.store.sessions
  recorded : Recorded world.store.sessions world.ledger world.clock

/-- The session that is stored under an identifier and has not expired. -/
def Sessions.live (sessions : Sessions) (now : TimePoint) (id : Bytes) : Option SessionData :=
  (sessions.find? id).filter fun session => decide (now < session.expires)

/-- A call is about the session that it creates, sets or destroys. -/
def Call.Concerns (id : Bytes) : Call → Except Failure Reply → Prop
  | .create .., .ok (.created session) => session.id = id
  | .set other .., _ => other = id
  | .destroy other, _ => other = id
  | _, _ => False

/-- What a store guarantees, whatever operation comes next. -/
structure Safe (config : SessionConfig) (world : World) : Prop where
  capacity : world.store.sessions.size ≤ config.maxSessions.toNat
  limits : ∀ session ∈ world.store.sessions.toList, WithinLimits config session
  /-- `Get` answers when the ledger knows a session that has not expired. -/
  missed : ∀ id now, world.clock ≤ now →
    ((world.store.get id now).1 = none ↔
      ∀ record, world.ledger id = some record → record.expires ≤ now.toInt)
  /-- The answer is that session with the values that were set last. -/
  found : ∀ id now session, world.clock ≤ now → (world.store.get id now).1 = some session →
    session.id = id ∧ now < session.expires ∧
      ∃ record, world.ledger id = some record ∧ Agrees session record
  /-- Other sessions that have not expired are unchanged. -/
  frame : ∀ call, call.Timely world.clock → ∀ now, (world.after call).clock ≤ now →
    ∀ id, ¬call.Concerns id (call.run world.store).1 →
      (world.after call).store.sessions.live now id = world.store.sessions.live now id
  /-- A rejected operation changes no session that has not expired. -/
  rejected : ∀ call failure, call.Timely world.clock → (call.run world.store).1 = .error failure →
    ∀ now, (world.after call).clock ≤ now → ∀ id,
      (world.after call).store.sessions.live now id = world.store.sessions.live now id
  /-- A session is created under a free identifier and expires when its lifetime is over. -/
  created : ∀ ttl first now random session,
    (world.store.create ttl first now random).1 = .ok session →
      world.store.sessions.live now session.id = none ∧
        session.expires.toInt = now.toInt + ttl.toInt * 10 ^ 9

section Step

variable {config : SessionConfig} {store : SessionStore} {call : Call}
  {outcome : Except Failure Reply} {sessions later : Sessions} {clock now time : TimePoint}
  {id : Bytes} {session : SessionData}

theorem WithinLimits.assign {key value : Bytes} (within : WithinLimits config session)
    (keyFits : key.length ≤ config.maxKeySize.toNat)
    (valueFits : value.length ≤ config.maxValueSize.toNat)
    (room : session.values.find? key = none →
      session.values.size < config.maxValuesPerSession.toNat) :
    WithinLimits config { session with values := session.values.assign (key, value) } where
  count := by
    dsimp only
    cases present : session.values.find? key with
    | none =>
        rw [InsertionMap.size_assign_of_none present]
        exact room present
    | some entry =>
        rw [InsertionMap.size_assign_of_some present]
        exact within.count
  keySize := by
    intro entry member
    rcases InsertionMap.mem_assign.mp member with rfl | ⟨stored, -⟩
    · exact keyFits
    · exact within.keySize entry stored
  valueSize := by
    intro entry member
    rcases InsertionMap.mem_assign.mp member with rfl | ⟨stored, -⟩
    · exact valueFits
    · exact within.valueSize entry stored

/-- A session that was just created has no values. -/
theorem WithinLimits.of_created {expires : TimePoint} :
    WithinLimits config ⟨id, .empty, expires⟩ where
  count := Nat.zero_le _
  keySize := List.forall_mem_nil _
  valueSize := List.forall_mem_nil _

theorem Bounded.purge (bounded : Bounded config sessions) (purged : Purged now sessions later) :
    Bounded config later where
  capacity := Nat.le_trans purged.size_le bounded.capacity
  limits found := bounded.limits (purged.stored found)

theorem Bounded.assign (bounded : Bounded config sessions) (within : WithinLimits config session)
    (room : (sessions.assign session).size ≤ config.maxSessions.toNat) :
    Bounded config (sessions.assign session) where
  capacity := room
  limits := by
    intro id other found
    rw [InsertionMap.find?_assign] at found
    split at found
    next =>
      cases found
      exact within
    next => exact bounded.limits found

theorem Bounded.erase (bounded : Bounded config sessions) : Bounded config (sessions.erase id) where
  capacity := Nat.le_trans InsertionMap.size_erase_le bounded.capacity
  limits := by
    intro other session found
    rw [InsertionMap.find?_erase] at found
    split at found
    next => cases found
    next => exact bounded.limits found

theorem Bounded.after (bounded : Bounded store.config store.sessions)
    (effect : Effect store call outcome later) : Bounded store.config later := by
  cases effect with
  | createRejected purged => exact bounded.purge purged
  | created purged representable room fresh =>
      apply (bounded.purge purged).assign .of_created
      rw [InsertionMap.size_assign_of_none fresh]
      exact room
  | missed purged dead => exact bounded.purge purged
  | found stored live => exact bounded
  | setRejected => exact bounded
  | ignored purged dead => exact bounded.purge purged
  | assigned stored live keyFits valueFits room =>
      apply bounded.assign ((bounded.limits stored).assign keyFits valueFits room)
      rw [InsertionMap.size_assign_of_some]
      · exact bounded.capacity
      · rw [← InsertionMap.key_of_find? stored] at stored
        exact stored
  | destroyed => exact bounded.erase
  | cleaned purged => exact bounded.purge purged

/-- A purge is not seen in what is live. -/
theorem live_purged (purged : Purged now sessions later) (timely : now ≤ time) :
    later.live time id = sessions.live time id := by
  apply Option.ext
  intro session
  rw [Sessions.live, Sessions.live, Option.filter_eq_some_iff, Option.filter_eq_some_iff,
    decide_eq_true_eq]
  constructor
  · rintro ⟨found, live⟩
    exact ⟨purged.stored found, live⟩
  · rintro ⟨found, live⟩
    exact ⟨purged.kept found (Int64.lt_of_le_of_lt timely live), live⟩

theorem live_assign (different : session.id ≠ id) :
    Sessions.live (sessions.assign session) time id = sessions.live time id := by
  rw [Sessions.live, InsertionMap.find?_assign, if_neg different, Sessions.live]

theorem live_erase {other : Bytes} (different : other ≠ id) :
    Sessions.live (sessions.erase other) time id = sessions.live time id := by
  rw [Sessions.live, InsertionMap.find?_erase, if_neg (Ne.symm different), Sessions.live]

/-- What is live under an identifier is unchanged by a call that is not about it. -/
theorem Effect.frame (effect : Effect store call outcome later)
    (timely : call.clock clock ≤ time) (unconcerned : ¬call.Concerns id outcome) :
    later.live time id = store.sessions.live time id := by
  cases effect with
  | createRejected purged => exact live_purged purged timely
  | created purged representable room fresh =>
      rw [live_assign unconcerned]
      exact live_purged purged timely
  | missed purged dead => exact live_purged purged timely
  | found stored live => rfl
  | setRejected => rfl
  | ignored purged dead => exact live_purged purged timely
  | assigned stored live keyFits valueFits room =>
      apply live_assign
      rw [InsertionMap.key_of_find? stored]
      exact unconcerned
  | destroyed => exact live_erase unconcerned
  | cleaned purged => exact live_purged purged timely

theorem Effect.rejected {failure : Failure} (effect : Effect store call (.error failure) later)
    (timely : call.clock clock ≤ time) : later.live time id = store.sessions.live time id := by
  cases effect with
  | createRejected purged => exact live_purged purged timely
  | setRejected => rfl

theorem live_eq_none (absent : later.find? id = none) (purged : Purged now sessions later) :
    sessions.live now id = none := by
  rw [← live_purged purged (Int64.le_refl now), Sessions.live, absent]
  rfl

/-- A call keeps the invariant. -/
theorem Invariant.after {world : World} (invariant : Invariant config world)
    (timely : call.Timely world.clock) : Invariant config (world.after call) where
  configured := (run_config call).trans invariant.configured
  bounded := by
    have bounded := invariant.bounded
    rw [← invariant.configured] at bounded ⊢
    exact bounded.after (run_effect call)
  recorded := invariant.recorded.after (run_effect call) timely

theorem Invariant.start (constructed : SessionStore.construct config = .ok store) :
    Invariant config (.start store) := by
  rcases bind_eq_ok.mp constructed with ⟨_, -, made⟩
  cases made
  exact {
    configured := rfl
    bounded := { capacity := Nat.zero_le _, limits := nofun }
    recorded := { agrees := nofun, kept := nofun } }

end Step

/-- `Get` answers from the ledger. -/
theorem Recorded.get {store : SessionStore} {ledger : Ledger} {clock now : TimePoint}
    (recorded : Recorded store.sessions ledger clock) (id : Bytes) (timely : clock ≤ now) :
    match (store.get id now).1 with
    | none => ∀ record, ledger id = some record → record.expires ≤ now.toInt
    | some session => session.id = id ∧ now < session.expires ∧
        ∃ record, ledger id = some record ∧ Agrees session record := by
  have effect : Effect store (.get id now) (.ok (.got (store.get id now).1))
      (store.get id now).2.sessions := get_effect
  generalize (store.get id now).1 = answer, (store.get id now).2.sessions = later at effect ⊢
  cases effect with
  | missed purged dead => exact fun record known => recorded.expired timely dead known
  | found stored live => exact ⟨InsertionMap.key_of_find? stored, live, recorded.agrees stored⟩

theorem Invariant.safe {config : SessionConfig} {world : World}
    (invariant : Invariant config world) : Safe config world where
  capacity := invariant.bounded.capacity
  limits session stored := invariant.bounded.limits (InsertionMap.find?_of_mem stored)
  missed := by
    intro id now timely
    have answer := invariant.recorded.get id timely
    generalize (world.store.get id now).1 = reply at answer ⊢
    cases reply with
    | none => exact ⟨fun _ => answer, fun _ => rfl⟩
    | some session =>
        rcases answer with ⟨-, live, record, known, agrees⟩
        constructor
        · nofun
        · intro expired
          exact absurd (expired record known) (agrees.live live)
  found := by
    intro id now session timely got
    have answer := invariant.recorded.get id timely
    rw [got] at answer
    exact answer
  frame call _ _ later _ unconcerned := (run_effect call).frame later unconcerned
  rejected := by
    intro call failure _ thrown now later id
    have effect : Effect world.store call (call.run world.store).1 (call.run world.store).2.sessions :=
      run_effect call
    rw [thrown] at effect
    exact effect.rejected later
  created := by
    intro ttl first now random session made
    have effect : Effect world.store (.create ttl first now random)
        ((world.store.create ttl first now random).1.map .created)
        (world.store.create ttl first now random).2.sessions := create_effect
    rw [made] at effect
    generalize (world.store.create ttl first now random).2.sessions = later at effect
    cases effect with
    | created purged representable room fresh =>
        exact ⟨live_eq_none fresh purged, toInt_expires representable⟩

/-- Whatever the operations and in whatever order they take the mutex, a session store stays
within its limits and answers from its ledger. -/
theorem safe_of_reaches {config : SessionConfig} {store : SessionStore} {world : World}
    (constructed : SessionStore.construct config = .ok store)
    (reaches : World.Reaches store world) : Safe config world := by
  have invariant : Invariant config world := by
    apply reaches.invariant (Invariant.start constructed)
    intro state later call timely taken invariant
    cases taken
    exact invariant.after timely
  exact invariant.safe

/-- A store in which a value was set in a session. -/
def visited : World :=
  ((World.start { config := {}, sessions := .empty }).after
    (.create 60 1 2 fun _ => .replicate 32 7)).after
    (.set (generateId (.replicate 32 7)) [1] [2, 3] 4)

theorem safe_of_reaches_visited :
    ((visited.store.get (generateId (.replicate 32 7)) 5).1.map fun session =>
      session.values.toList) = some [([1], [2, 3])] ∧ Safe {} visited :=
  ⟨by decide +kernel,
    safe_of_reaches rfl (.step (.step .start (by decide) rfl) (by decide) rfl)⟩

end Wan.Web.Session
