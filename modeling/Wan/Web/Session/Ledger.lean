import Mathlib.Logic.Function.Basic
import Mathlib.Algebra.Ring.Int.Defs
import Wan.Library.Machine
import Wan.Web.Session.Effects

/-!
# The session store keeps a ledger

A ledger knows every session that was created and not destroyed, with the values set last;
nothing leaves it because it expired.  The store holds part of the ledger, and at least what
has not expired.
-/

namespace Wan.Web.Session

open Wan.Library

/-- What is known of a session: the nanosecond at which it expires and its values. -/
structure Record where
  expires : Int
  values : Bytes → Option Bytes

/-- The sessions that are known under their identifiers. -/
abbrev Ledger := Bytes → Option Record

/-- The ledger after a call with the given outcome. -/
def Ledger.after (ledger : Ledger) : Call → Except Failure Reply → Ledger
  | .create ttl _ now _, .ok (.created session) =>
      Function.update ledger session.id
        (some { expires := now.toInt + ttl.toInt * 10 ^ 9, values := fun _ => none })
  | .set id key value now, .ok _ =>
      match ledger id with
      | none => ledger
      | some record =>
          if record.expires ≤ now.toInt then ledger
          else
            let values := Function.update record.values key (some value)
            Function.update ledger id (some { record with values })
  | .destroy id, _ => Function.update ledger id none
  | _, _ => ledger

/-- A store, its ledger, and the last reading of the clock under the mutex. -/
structure World where
  store : SessionStore
  ledger : Ledger
  clock : TimePoint

/-- A store that was just constructed. -/
def World.start (store : SessionStore) : World :=
  { store, ledger := fun _ => none, clock := Int64.minValue }

/-- The last reading of the clock after a call. -/
def Call.clock (clock : TimePoint) : Call → TimePoint
  | .create _ _ now _ => now
  | .get _ now => now
  | .set _ _ _ now => now
  | .destroy _ => clock
  | .cleanup now => now

/-- The clock does not run backwards. The first reading of `Create` may be older than what
other calls have read since. -/
def Call.Timely (clock : TimePoint) : Call → Prop
  | .create _ first now _ => first ≤ now ∧ clock ≤ now
  | .get _ now => clock ≤ now
  | .set _ _ _ now => clock ≤ now
  | .destroy _ => True
  | .cleanup now => clock ≤ now

instance (clock : TimePoint) (call : Call) : Decidable (call.Timely clock) :=
  match call with
  | .create _ first now _ => inferInstanceAs (Decidable (first ≤ now ∧ clock ≤ now))
  | .get _ now => inferInstanceAs (Decidable (clock ≤ now))
  | .set _ _ _ now => inferInstanceAs (Decidable (clock ≤ now))
  | .destroy _ => inferInstanceAs (Decidable True)
  | .cleanup now => inferInstanceAs (Decidable (clock ≤ now))

/-- The world after a call. -/
def World.after (world : World) (call : Call) : World where
  store := (call.run world.store).2
  ledger := world.ledger.after call (call.run world.store).1
  clock := call.clock world.clock

/-- The worlds that any sequence of operations reaches under a clock that does not run
backwards. -/
abbrev World.Reaches (store : SessionStore) : World → Prop :=
  Machine.Reaches (fun world call => some (world.after call))
    (fun world call => call.Timely world.clock) (.start store)

/-- The stored session is the one that the ledger knows. -/
structure Agrees (session : SessionData) (record : Record) : Prop where
  expires : session.expires.toInt = record.expires
  values : ∀ key, (session.values.find? key).map Prod.snd = record.values key

/-- The store holds part of the ledger, and all of it that has not expired. -/
structure Recorded (sessions : Sessions) (ledger : Ledger) (clock : TimePoint) : Prop where
  agrees : ∀ {id session}, sessions.find? id = some session →
    ∃ record, ledger id = some record ∧ Agrees session record
  kept : ∀ {id record}, ledger id = some record → clock.toInt < record.expires →
    ∃ session, sessions.find? id = some session

/-- The clock of a lifetime that is representable is not negative, and the lifetime ends within
its range. -/
theorem bounds_of_representable {ttl : Seconds} {now : TimePoint}
    (representable : isTtlRepresentable ttl now = true) :
    0 < ttl.toInt ∧ 0 ≤ now.toInt ∧ ttl.toInt * 10 ^ 9 ≤ 2 ^ 63 - 1 - now.toInt := by
  have unit : nanoseconds.toInt = 10 ^ 9 := by decide
  have maximum : Int64.maxValue.toInt = 2 ^ 63 - 1 := by decide
  have low := now.le_toInt
  have high := now.toInt_lt
  simp only [isTtlRepresentable, Bool.and_eq_true, decide_eq_true_eq, Int64.lt_iff_toInt_lt,
    Int64.le_iff_toInt_le, Int64.toInt_div_of_ne_right _ nanoseconds (by decide), Int64.toInt_sub,
    unit, maximum, Int64.toInt_zero] at representable
  rcases representable with ⟨positive, fits⟩
  rcases Int.lt_or_le now.toInt 0 with negative | nonnegative
  · -- The difference wraps around to a negative number, whose seconds are not positive.
    have wrapped : (2 ^ 63 - 1 - now.toInt).bmod (2 ^ 64) = -(now.toInt + 2 ^ 63 + 1) := by
      rw [← Int.sub_bmod_right, Int.bmod_eq_of_le] <;> omega
    rw [wrapped, Int.neg_tdiv] at fits
    have seconds := Int.tdiv_nonneg (show 0 ≤ now.toInt + 2 ^ 63 + 1 by omega)
      (show (0 : Int) ≤ 10 ^ 9 by decide)
    omega
  · rw [Int.bmod_eq_of_le (by omega) (by omega), Int.tdiv_eq_ediv_of_nonneg (by omega)] at fits
    omega

/-- The time at which a session expires is computed without overflow. -/
theorem toInt_expires {ttl : Seconds} {now : TimePoint}
    (representable : isTtlRepresentable ttl now = true) :
    (now + ttl * nanoseconds).toInt = now.toInt + ttl.toInt * 10 ^ 9 := by
  have unit : nanoseconds.toInt = 10 ^ 9 := by decide
  rcases bounds_of_representable representable with ⟨positive, nonnegative, fits⟩
  have lifetime : (ttl.toInt * 10 ^ 9).bmod (2 ^ 64) = ttl.toInt * 10 ^ 9 := by
    rw [Int.bmod_eq_of_le] <;> omega
  rw [Int64.toInt_add, Int64.toInt_mul, unit, lifetime, Int.bmod_eq_of_le] <;> omega

section Step

variable {sessions later : Sessions} {ledger : Ledger} {clock now : TimePoint} {id : Bytes}
  {session : SessionData} {record : Record}

theorem Recorded.agree (recorded : Recorded sessions ledger clock)
    (found : sessions.find? id = some session) (known : ledger id = some record) :
    Agrees session record := by
  rcases recorded.agrees found with ⟨other, otherKnown, agrees⟩
  rw [known] at otherKnown
  cases otherKnown
  exact agrees

/-- What is left after a purge is still recorded. -/
theorem Recorded.purge (recorded : Recorded sessions ledger clock)
    (purged : Purged now sessions later) (timely : clock ≤ now) : Recorded later ledger now where
  agrees found := recorded.agrees (purged.stored found)
  kept := by
    intro id record known live
    rw [Int64.le_iff_toInt_le] at timely
    rcases recorded.kept known (Int.lt_of_le_of_lt timely live) with ⟨session, found⟩
    rw [← (recorded.agree found known).expires] at live
    exact ⟨session, purged.kept found (Int64.lt_iff_toInt_lt.mpr live)⟩

/-- A session and its record may be stored together under the identifier of the session. -/
theorem Recorded.assign (recorded : Recorded sessions ledger clock)
    (agrees : Agrees session record) :
    Recorded (sessions.assign session) (Function.update ledger session.id (some record)) clock where
  agrees := by
    intro id other found
    rw [InsertionMap.find?_assign] at found
    split at found
    next same =>
      cases found
      rw [← same, Function.update_self]
      exact ⟨record, rfl, agrees⟩
    next different =>
      rw [Function.update_of_ne (Ne.symm different)]
      exact recorded.agrees found
  kept := by
    intro id other known live
    rw [InsertionMap.find?_assign]
    split
    next same => exact ⟨session, rfl⟩
    next different =>
      rw [Function.update_of_ne (Ne.symm different)] at known
      exact recorded.kept known live

theorem Recorded.erase (recorded : Recorded sessions ledger clock) :
    Recorded (sessions.erase id) (Function.update ledger id none) clock where
  agrees := by
    intro other session found
    rw [InsertionMap.find?_erase] at found
    split at found
    next => cases found
    next different =>
      rw [Function.update_of_ne different]
      exact recorded.agrees found
  kept := by
    intro other record known live
    rw [InsertionMap.find?_erase]
    split
    next same =>
      rw [same, Function.update_self] at known
      cases known
    next different =>
      rw [Function.update_of_ne different] at known
      exact recorded.kept known live

/-- What is not stored alive is not alive in the ledger. -/
theorem Recorded.expired (recorded : Recorded sessions ledger clock) (timely : clock ≤ now)
    (dead : ∀ session, sessions.find? id = some session → session.expires ≤ now)
    (known : ledger id = some record) : record.expires ≤ now.toInt := by
  rcases Int.lt_or_le now.toInt record.expires with live | expired
  · rw [Int64.le_iff_toInt_le] at timely
    rcases recorded.kept known (Int.lt_of_le_of_lt timely live) with ⟨session, found⟩
    have expired := Int64.le_iff_toInt_le.mp (dead session found)
    rw [(recorded.agree found known).expires] at expired
    exact expired
  · exact expired

/-- What is stored alive is alive in the ledger. -/
theorem Agrees.live (agrees : Agrees session record) (live : now < session.expires) :
    ¬record.expires ≤ now.toInt := by
  rw [← agrees.expires, Int.not_le]
  exact Int64.lt_iff_toInt_lt.mp live

theorem Agrees.assign {key value : Bytes} (agrees : Agrees session record) :
    Agrees { session with values := session.values.assign (key, value) }
      { record with values := Function.update record.values key (some value) } where
  expires := agrees.expires
  values := by
    intro other
    dsimp only
    rw [InsertionMap.find?_assign]
    split
    next same =>
      subst other
      rw [Function.update_self]
      rfl
    next different =>
      rw [Function.update_of_ne (Ne.symm different)]
      exact agrees.values other

variable {store : SessionStore} {call : Call} {outcome : Except Failure Reply}

/-- The ledger follows the store. -/
theorem Recorded.after (recorded : Recorded store.sessions ledger clock)
    (effect : Effect store call outcome later) (timely : call.Timely clock) :
    Recorded later (ledger.after call outcome) (call.clock clock) := by
  cases effect with
  | createRejected purged => exact recorded.purge purged timely.2
  | created purged representable room fresh =>
      apply (recorded.purge purged timely.2).assign
      exact ⟨toInt_expires representable, fun _ => rfl⟩
  | missed purged dead => exact recorded.purge purged timely
  | found stored live => exact recorded.purge (.refl _ _) timely
  | setRejected => exact recorded.purge (.refl _ _) timely
  | @ignored id key value now _ purged dead =>
      have unchanged : ledger.after (.set id key value now) (.ok .done) = ledger := by
        rw [Ledger.after]
        split
        next => rfl
        next record known => exact if_pos (recorded.expired timely dead known)
      rw [unchanged]
      exact recorded.purge purged timely
  | @assigned id key value now session stored live keyFits valueFits room =>
      rcases recorded.agrees stored with ⟨record, known, agrees⟩
      simp only [Ledger.after, known, if_neg (agrees.live live)]
      rw [← InsertionMap.key_of_find? stored]
      exact (recorded.purge (.refl now _) timely).assign agrees.assign
  | destroyed => exact recorded.erase
  | cleaned purged => exact recorded.purge purged timely

end Step

end Wan.Web.Session
