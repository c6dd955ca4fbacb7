import Mathlib.Data.List.Induction

/-!
# Histories of registrations

A history lists what was registered under which key, the oldest registration first.
Keys are lists, so that a stem of keys is registered as soon as a key extends it.
-/

namespace Wan.Library

/-- Registrations of values under keys, the oldest first. -/
abbrev History (α V : Type) := List (List α × V)

namespace History

variable {α V : Type}

/-- Some registered key extends the stem. -/
def Extended (history : History α V) (stem : List α) : Prop :=
  ∃ entry ∈ history, stem <+: entry.1

/-- Something is registered under the key. -/
def Registered (history : History α V) (key : List α) : Prop := ∃ value, (key, value) ∈ history

/-- The first stem was extended before the second one was. -/
def Earlier (history : History α V) (first second : List α) : Prop :=
  ∃ older entry younger, history = older ++ entry :: younger ∧ first <+: entry.1 ∧
    ∀ other ∈ older ++ [entry], ¬second <+: other.1

variable {history : History α V} {entry : List α × V} {stem first second : List α}

theorem Extended.append (extended : Extended history stem) (more : History α V) :
    Extended (history ++ more) stem := by
  rcases extended with ⟨entry, member, extends_stem⟩
  exact ⟨entry, List.mem_append_left _ member, extends_stem⟩

/-- What has been extended once stays the earlier one. -/
theorem Earlier.append (earlier : Earlier history first second) (more : History α V) :
    Earlier (history ++ more) first second := by
  rcases earlier with ⟨older, entry, younger, rfl, extended, unextended⟩
  exact ⟨older, entry, younger ++ more, by simp, extended, unextended⟩

/-- A stem that is extended for the first time is later than all others. -/
theorem Earlier.of_new (extended : Extended history first) (new : ¬Extended history second)
    (more : History α V) : Earlier (history ++ more) first second := by
  rcases extended with ⟨entry, member, extends_first⟩
  rcases List.append_of_mem member with ⟨older, younger, rfl⟩
  refine ⟨older, entry, younger ++ more, by simp, extends_first, ?_⟩
  intro other otherMember extends_second
  apply new
  refine ⟨other, ?_, extends_second⟩
  rcases List.mem_append.mp otherMember with inOlder | isEntry
  · exact List.mem_append_left _ inOlder
  · simp [List.mem_singleton.mp isEntry]

/-- The oldest registration decides between the stems that it tells apart. -/
theorem Earlier.of_head (extended : first <+: entry.1) (unextended : ¬second <+: entry.1)
    (more : History α V) : Earlier (entry :: more) first second :=
  ⟨[], entry, more, rfl, extended, fun _ member => List.mem_singleton.mp member ▸ unextended⟩

/-- Of two stems only one can be the earlier one. -/
theorem Earlier.asymm (one : Earlier history first second) (other : Earlier history second first) :
    False := by
  rcases one with ⟨older, entry, younger, split, extends_first, unextended⟩
  rcases other with ⟨older', entry', younger', split', extends_second, unextended'⟩
  rw [split] at split'
  rcases List.append_eq_append_iff.mp split' with ⟨middle, olderEq, rest⟩ | ⟨middle, olderEq, rest⟩
  · cases middle with
    | nil =>
        rw [List.nil_append, List.cons.injEq] at rest
        exact unextended' entry (by simp [rest.1]) extends_first
    | cons head tail =>
        rw [List.cons_append, List.cons.injEq] at rest
        exact unextended' entry (by simp [olderEq, rest.1]) extends_first
  · cases middle with
    | nil =>
        rw [List.nil_append, List.cons.injEq] at rest
        exact unextended' entry (by simp [← rest.1]) extends_first
    | cons head tail =>
        rw [List.cons_append, List.cons.injEq] at rest
        exact unextended entry' (by simp [olderEq, rest.1]) extends_second

variable [DecidableEq α]

/-- The value registered last under a key. -/
def latest (history : History α V) (key : List α) : Option V :=
  (history.reverse.find? fun entry => entry.1 = key).map Prod.snd

theorem latest_append_self {value : V} : latest (history ++ [(stem, value)]) stem = some value := by
  simp [latest]

theorem latest_append_of_ne {more : History α V} (different : ∀ entry ∈ more, entry.1 ≠ stem) :
    latest (history ++ more) stem = latest history stem := by
  have absent : (more.reverse.find? fun entry => entry.1 = stem) = none := by
    rw [List.find?_eq_none]
    intro entry member
    simpa using different entry (List.mem_reverse.mp member)
  rw [latest, List.reverse_append, List.find?_append, absent, Option.none_or, latest]

theorem latest_eq_none : latest history stem = none ↔ ∀ entry ∈ history, entry.1 ≠ stem := by
  simp [latest]

/-- The latest value is that of the last registration under the key. -/
theorem exists_of_latest {value : V} (found : latest history stem = some value) :
    ∃ older younger, history = older ++ (stem, value) :: younger ∧
      ∀ later ∈ younger, later.1 ≠ stem := by
  induction history using List.reverseRecOn with
  | nil => cases found
  | append_singleton history entry ih =>
      by_cases same : entry.1 = stem
      · subst same
        rw [latest_append_self] at found
        cases found
        exact ⟨history, [], rfl, nofun⟩
      · rw [latest_append_of_ne (List.forall_mem_singleton.mpr same)] at found
        rcases ih found with ⟨older, younger, rfl, others⟩
        refine ⟨older, younger ++ [entry], by simp, ?_⟩
        rw [List.forall_mem_append, List.forall_mem_singleton]
        exact ⟨others, same⟩

theorem mem_of_latest {value : V} (found : latest history stem = some value) :
    (stem, value) ∈ history := by
  rcases exists_of_latest found with ⟨older, younger, rfl, -⟩
  exact List.mem_append_right _ (List.mem_cons_self ..)

end History

/-- Two lists come apart at one place only. -/
theorem divergence_unique {α : Type} {stem stem' first first' second second' : List α}
    {left left' right right' : α} (sameFirst : stem ++ left :: first = stem' ++ left' :: first')
    (sameSecond : stem ++ right :: second = stem' ++ right' :: second')
    (apart : left ≠ right) (apart' : left' ≠ right') :
    stem = stem' ∧ left = left' ∧ right = right' := by
  induction stem generalizing stem' with
  | nil =>
      cases stem' with
      | nil =>
          rw [List.nil_append, List.nil_append, List.cons.injEq] at sameFirst sameSecond
          exact ⟨rfl, sameFirst.1, sameSecond.1⟩
      | cons head stem' =>
          rw [List.nil_append, List.cons_append, List.cons.injEq] at sameFirst sameSecond
          exact absurd (sameFirst.1.trans sameSecond.1.symm) apart
  | cons head stem ih =>
      cases stem' with
      | nil =>
          rw [List.nil_append, List.cons_append, List.cons.injEq] at sameFirst sameSecond
          exact absurd (sameFirst.1.symm.trans sameSecond.1) apart'
      | cons head' stem' =>
          rw [List.cons_append, List.cons_append, List.cons.injEq] at sameFirst sameSecond
          rcases ih sameFirst.2 sameSecond.2 with ⟨rfl, same⟩
          exact ⟨by rw [sameFirst.1], same⟩

end Wan.Library
