import Wan.Web.Session.Model

/-!
# What an operation does to the session store

Each operation may drop sessions that have expired, and does at most one thing besides.
-/

namespace Wan.Web.Session

open Wan.Library

/-- Only sessions that have expired are gone. -/
structure Purged (now : TimePoint) (before after : Sessions) : Prop where
  size_le : after.size ≤ before.size
  stored : ∀ {id session}, after.find? id = some session → before.find? id = some session
  kept : ∀ {id session}, before.find? id = some session → now < session.expires →
    after.find? id = some session

section Purged

variable {now : TimePoint} {sessions : Sessions} {id : Bytes} {session : SessionData}

theorem Purged.refl (now : TimePoint) (sessions : Sessions) : Purged now sessions sessions where
  size_le := Nat.le_refl _
  stored found := found
  kept found _ := found

theorem cleanupExpiredLocked_purged :
    Purged now sessions (cleanupExpiredLocked sessions now) where
  size_le := InsertionMap.size_filter_le
  stored found := by
    rw [cleanupExpiredLocked, InsertionMap.find?_filter] at found
    exact (Option.filter_eq_some_iff.mp found).1
  kept found live := by
    rw [cleanupExpiredLocked, InsertionMap.find?_filter]
    exact Option.filter_eq_some_iff.mpr ⟨found, by simpa using live⟩

theorem erase_purged (found : sessions.find? id = some session) (expired : session.expires ≤ now) :
    Purged now sessions (sessions.erase id) where
  size_le := InsertionMap.size_erase_le
  stored := by
    intro other stored found
    rw [InsertionMap.find?_erase] at found
    split at found
    next => cases found
    next => exact found
  kept := by
    intro other stored otherFound live
    rw [InsertionMap.find?_erase, if_neg, otherFound]
    rintro rfl
    rw [found] at otherFound
    cases otherFound
    exact Int64.not_le.mpr live expired

end Purged

/-- The identifier that `Create` settles on is not taken. -/
theorem find?_of_allocateId {sessions : Sessions} {random : Nat → Vector UInt8 32} {id : Bytes}
    (allocated : allocateId sessions random = some id) : sessions.find? id = none := by
  simpa using List.find?_some allocated

/-- What a call does, by its outcome. -/
inductive Effect (store : SessionStore) : Call → Except Failure Reply → Sessions → Prop where
  | createRejected {ttl first now random failure later} (purged : Purged now store.sessions later) :
      Effect store (.create ttl first now random) (.error failure) later
  | created {ttl first now random later id} (purged : Purged now store.sessions later)
      (representable : isTtlRepresentable ttl now = true)
      (room : later.size < store.config.maxSessions.toNat) (fresh : later.find? id = none) :
      Effect store (.create ttl first now random)
        (.ok (.created ⟨id, .empty, now + ttl * nanoseconds⟩))
        (later.assign ⟨id, .empty, now + ttl * nanoseconds⟩)
  | missed {id now later} (purged : Purged now store.sessions later)
      (dead : ∀ session, store.sessions.find? id = some session → session.expires ≤ now) :
      Effect store (.get id now) (.ok (.got none)) later
  | found {id now session} (stored : store.sessions.find? id = some session)
      (live : now < session.expires) :
      Effect store (.get id now) (.ok (.got (some session))) store.sessions
  | setRejected {id key value now failure} :
      Effect store (.set id key value now) (.error failure) store.sessions
  | ignored {id key value now later} (purged : Purged now store.sessions later)
      (dead : ∀ session, store.sessions.find? id = some session → session.expires ≤ now) :
      Effect store (.set id key value now) (.ok .done) later
  | assigned {id key value now session} (stored : store.sessions.find? id = some session)
      (live : now < session.expires) (keyFits : key.length ≤ store.config.maxKeySize.toNat)
      (valueFits : value.length ≤ store.config.maxValueSize.toNat)
      (room : session.values.find? key = none →
        session.values.size < store.config.maxValuesPerSession.toNat) :
      Effect store (.set id key value now) (.ok .done)
        (store.sessions.assign { session with values := session.values.assign (key, value) })
  | destroyed {id} : Effect store (.destroy id) (.ok .done) (store.sessions.erase id)
  | cleaned {now later} (purged : Purged now store.sessions later) :
      Effect store (.cleanup now) (.ok .done) later

section Effect

variable {store : SessionStore}

theorem create_effect {ttl : Seconds} {first now : TimePoint} {random : Nat → Vector UInt8 32} :
    Effect store (.create ttl first now random) ((store.create ttl first now random).1.map .created)
      (store.create ttl first now random).2.sessions := by
  unfold SessionStore.create
  split
  · exact .createRejected (.refl now _)
  · split
    · exact .createRejected (.refl now _)
    · next representable =>
      simp only [Bool.not_eq_true', Bool.not_eq_false] at representable
      dsimp only
      split
      · exact .createRejected cleanupExpiredLocked_purged
      · next room =>
        split
        · exact .createRejected cleanupExpiredLocked_purged
        · next id allocated =>
          exact .created cleanupExpiredLocked_purged representable (Nat.not_le.mp room)
            (find?_of_allocateId allocated)

theorem get_effect {id : Bytes} {now : TimePoint} :
    Effect store (.get id now) (.ok (.got (store.get id now).1)) (store.get id now).2.sessions := by
  unfold SessionStore.get
  split
  · next absent =>
    apply Effect.missed (.refl now _)
    intro session stored
    rw [absent] at stored
    cases stored
  · next session stored =>
    split
    · next expired =>
      apply Effect.missed (erase_purged stored expired)
      intro other otherStored
      rw [stored] at otherStored
      cases otherStored
      exact expired
    · next live => exact .found stored (Int64.not_le.mp live)

theorem set_effect {id key value : Bytes} {now : TimePoint} :
    Effect store (.set id key value now) ((store.set id key value now).1.map fun _ => .done)
      (store.set id key value now).2.sessions := by
  unfold SessionStore.set
  split
  · next absent =>
    apply Effect.ignored (.refl now _)
    intro session stored
    rw [absent] at stored
    cases stored
  · next session stored =>
    split
    · next expired =>
      apply Effect.ignored (erase_purged stored expired)
      intro other otherStored
      rw [stored] at otherStored
      cases otherStored
      exact expired
    · next live =>
      split
      · exact .setRejected
      · next fits =>
        split
        · exact .setRejected
        · next room =>
          simp only [Bool.or_eq_true, decide_eq_true_eq, not_or, Nat.not_lt] at fits
          simp only [Bool.and_eq_true, Option.isNone_iff_eq_none, decide_eq_true_eq, not_and,
            Nat.not_le] at room
          exact .assigned stored (Int64.not_le.mp live) fits.1 fits.2 room

theorem run_effect (call : Call) :
    Effect store call (call.run store).1 (call.run store).2.sessions := by
  cases call with
  | create ttl first now random => exact create_effect
  | get id now => exact get_effect
  | set id key value now => exact set_effect
  | destroy id => exact .destroyed
  | cleanup now => exact .cleaned cleanupExpiredLocked_purged

/-- No operation changes the limits. -/
theorem run_config (call : Call) : (call.run store).2.config = store.config := by
  cases call with
  | create ttl first now random =>
      rw [Call.run, SessionStore.create]
      grind
  | get id now =>
      rw [Call.run, SessionStore.get]
      grind
  | set id key value now =>
      rw [Call.run, SessionStore.set]
      grind
  | destroy id => rfl
  | cleanup now => rfl

end Effect

end Wan.Web.Session
