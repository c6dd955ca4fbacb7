import Wan.Library.Bytes
import Wan.Library.Machine

/-!
# Complete transfers of `Transport/Transmission.hpp`

`AsyncWrite` and `AsyncRead` call the partial operation of a transport until the buffer
is done or the transport fails.  A transport is any state machine: its counts may be
zero or too large, and may come together with an error.
-/

namespace Wan.Transport

open Wan.Library Wan.Library.Machine

/-- The errors a transfer ends with. -/
inductive Fault where
  /-- `std::errc::message_size`. -/
  | messageSize
  /-- `std::errc::io_error`. -/
  | ioError
  /-- An error of the transport, by value and category. -/
  | transport (value : Int) (category : Nat)
  deriving DecidableEq, Repr

/-- `std::error_code`; a cleared one is `none`. -/
abbrev ErrorCode := Option Fault

/-- How a partial operation ends. -/
structure Answer (τ : Type) where
  count : Nat
  ec : ErrorCode
  next : τ

/-- `Transmission`. A read leaves other bytes in the span it is given, but as many. -/
structure Transmission (τ : Type) where
  asyncReadSome : τ → Bytes → Bytes × Answer τ
  asyncWriteSome : τ → Bytes → Answer τ
  length_span : ∀ state buffer, (asyncReadSome state buffer).1.length = buffer.length

/-- A call of a partial operation: where in the buffer its span starts, the bytes that are
sent or that are left in the span, and the answer. -/
structure Call where
  offset : Nat
  span : Bytes
  count : Nat
  ec : ErrorCode
  deriving DecidableEq, Repr

/-- The count of a call, unless it is larger than the span. -/
def Call.accepted (call : Call) : Nat := if call.count ≤ call.span.length then call.count else 0

/-- The error of a transfer that ends with the call, if it ends with it. -/
def Call.fault (call : Call) : ErrorCode :=
  if call.span.length < call.count then some .messageSize
  else if call.ec.isSome then call.ec
  else if call.count = 0 then some .ioError
  else none

/-- The accepted counts of calls. -/
def accepted (calls : List Call) : Nat := (calls.map Call.accepted).sum

/-- What has happened in a transfer. -/
structure Transfer (σ : Type) where
  total : Nat := 0
  ec : ErrorCode := none
  calls : List Call := []
  state : σ

variable {σ τ : Type}

/-- The loop of `AsyncWrite` and `AsyncRead` over a buffer of some size. -/
def complete (size : Nat) (exchange : Nat → σ → Call × σ) : Nat → Transfer σ → Option (Transfer σ)
  | 0, _ => none
  | fuel + 1, transfer =>
      if transfer.total < size then
        let (call, state) := exchange transfer.total transfer.state
        let calls := transfer.calls ++ [call]
        if call.span.length < call.count then
          some { transfer with ec := some .messageSize, calls, state }
        else
          let total := transfer.total + call.count
          if call.ec.isSome then
            some { total, ec := call.ec, calls, state }
          else if call.count = 0 then
            some { total, ec := some .ioError, calls, state }
          else
            complete size exchange fuel { total, calls, state }
      else
        some transfer

namespace Transmission

/-- A step of `AsyncWrite`. -/
def writeSome (transmission : Transmission τ) (buffer : Bytes) (total : Nat) (state : τ) :
    Call × τ :=
  let remaining := buffer.drop total
  let answer := transmission.asyncWriteSome state remaining
  (⟨total, remaining, answer.count, answer.ec⟩, answer.next)

/-- `AsyncWrite`. -/
def asyncWrite (transmission : Transmission τ) (buffer : Bytes) (state : τ) :
    Option (Transfer τ) :=
  complete buffer.length (transmission.writeSome buffer) (buffer.length + 1) { state }

/-- A step of `AsyncRead`, on the buffer and the transport. -/
def readSome (transmission : Transmission τ) (total : Nat) (state : Bytes × τ) :
    Call × (Bytes × τ) :=
  let remaining := state.1.drop total
  let (content, answer) := transmission.asyncReadSome state.2 remaining
  (⟨total, content, answer.count, answer.ec⟩, (state.1.take total ++ content, answer.next))

/-- `AsyncRead`. -/
def asyncRead (transmission : Transmission τ) (buffer : Bytes) (state : τ) :
    Option (Transfer (Bytes × τ)) :=
  complete buffer.length transmission.readSome (buffer.length + 1) { state := (buffer, state) }

end Transmission

section Accounting

/-- Each span starts where the accepted bytes of the calls before it end. -/
def Consecutive (calls : List Call) : Prop :=
  ∀ before call later, calls = before ++ call :: later → call.offset = accepted before

@[simp] theorem accepted_append (calls : List Call) (call : Call) :
    accepted (calls ++ [call]) = accepted calls + call.accepted := by
  rw [accepted, List.map_append, List.sum_append]
  rfl

theorem Consecutive.snoc {calls : List Call} {call : Call} (consecutive : Consecutive calls)
    (offset : call.offset = accepted calls) : Consecutive (calls ++ [call]) := by
  intro before other later split
  rcases List.eq_nil_or_concat' later with rfl | ⟨later, last, rfl⟩
  · obtain ⟨rfl, last⟩ := List.append_inj' split rfl
    rw [List.cons.injEq] at last
    rw [← last.1, offset]
  · rw [← List.cons_append, ← List.append_assoc] at split
    obtain ⟨split, -⟩ := List.append_inj' split rfl
    exact consecutive before other later split

/-- The books of a transfer. -/
structure Accounted (size : Nat) (transfer : Transfer σ) : Prop where
  total : transfer.total = accepted transfer.calls
  le_size : transfer.total ≤ size
  consecutive : Consecutive transfer.calls

/-- The books of a transfer that has ended. -/
structure Ended (size : Nat) (transfer : Transfer σ) : Prop extends Accounted size transfer where
  success : transfer.ec = none → transfer.total = size
  steps : transfer.calls.length ≤ size + 1
  /-- The error is that of the last call. -/
  fault : transfer.ec = transfer.calls.getLast?.bind Call.fault
  /-- No call before it has an error. -/
  faultless : ∀ call ∈ transfer.calls.dropLast, call.fault = none

theorem Call.accepted_le {size total : Nat} {call : Call} (within : total ≤ size)
    (length : call.span.length = size - total) : total + call.accepted ≤ size := by
  rw [Call.accepted]
  split <;> omega

/-- A property of the total, the calls and the state that a transfer keeps: `exchange` is
called with a span from the total to the end of the buffer. -/
structure Kept (size : Nat) (exchange : Nat → σ → Call × σ)
    (property : Nat → List Call → σ → Prop) : Prop where
  offset : ∀ total state, (exchange total state).1.offset = total
  length : ∀ {total calls state}, total < size → property total calls state →
    (exchange total state).1.span.length = size - total
  step : ∀ {total calls state}, total < size → property total calls state →
    property (total + (exchange total state).1.accepted) (calls ++ [(exchange total state).1])
      (exchange total state).2

/-- A transfer that ends with a call. -/
theorem Ended.of_last {size : Nat} {transfer : Transfer σ} {earlier : List Call} {call : Call}
    (books : Accounted size transfer) (calls : transfer.calls = earlier ++ [call])
    (steps : transfer.calls.length ≤ size + 1) (faultless : ∀ call ∈ earlier, call.fault = none)
    (fault : transfer.ec = call.fault) (failed : call.fault ≠ none) : Ended size transfer where
  toAccounted := books
  success clear := absurd (fault.symm.trans clear) failed
  steps := steps
  fault := by rw [fault, calls, List.getLast?_concat, Option.bind_some]
  faultless := by rwa [calls, List.dropLast_concat]

/-- A transfer ends, with its books in order. -/
theorem complete_ends {size : Nat} {exchange : Nat → σ → Call × σ}
    {property : Nat → List Call → σ → Prop} (kept : Kept size exchange property) :
    ∀ (fuel : Nat) (transfer : Transfer σ), Accounted size transfer → transfer.ec = none →
      (∀ call ∈ transfer.calls, call.fault = none) → transfer.calls.length ≤ transfer.total →
      property transfer.total transfer.calls transfer.state → size < transfer.total + fuel →
      ∃ after, complete size exchange fuel transfer = some after ∧ Ended size after ∧
        property after.total after.calls after.state := by
  intro fuel
  induction fuel with
  | zero =>
      intro transfer books _ _ _ _ enough
      exact absurd enough (Nat.not_lt.2 books.le_size)
  | succ fuel ih =>
      intro transfer books clear faultless progress holds enough
      rw [complete]
      split
      next unfinished =>
        have offset := kept.offset transfer.total transfer.state
        have length := kept.length unfinished holds
        have holds := kept.step unfinished holds
        generalize exchange transfer.total transfer.state = answer at offset length holds
        obtain ⟨call, state⟩ := answer
        have consecutive := books.consecutive.snoc (offset.trans books.total)
        have total : transfer.total + call.accepted = accepted (transfer.calls ++ [call]) := by
          rw [accepted_append, books.total]
        have within := Call.accepted_le books.le_size length
        have steps : (transfer.calls ++ [call]).length ≤ transfer.total + 1 := by
          rw [List.length_append]
          exact Nat.succ_le_succ progress
        have steps_le : (transfer.calls ++ [call]).length ≤ size + 1 :=
          steps.trans (Nat.succ_le_succ books.le_size)
        dsimp only at offset length holds ⊢
        split
        next overlong =>
          have unaccepted : call.accepted = 0 := if_neg (Nat.not_le.2 overlong)
          have fault : call.fault = some .messageSize := if_pos overlong
          rw [unaccepted, Nat.add_zero] at total holds within
          exact ⟨_, rfl, .of_last ⟨total, within, consecutive⟩ rfl steps_le faultless fault.symm
            (fault ▸ Option.some_ne_none _), holds⟩
        next fits =>
          have counted : call.accepted = call.count := if_pos (Nat.not_lt.1 fits)
          rw [counted] at total holds within
          split
          next failed =>
            have fault : call.fault = call.ec := (if_neg fits).trans (if_pos failed)
            exact ⟨_, rfl, .of_last ⟨total, within, consecutive⟩ rfl steps_le faultless fault.symm
              (fault ▸ Option.isSome_iff_ne_none.mp failed), holds⟩
          next passed =>
            have fault : call.fault = if call.count = 0 then some .ioError else none :=
              (if_neg fits).trans (if_neg passed)
            split
            next empty =>
              rw [if_pos empty] at fault
              exact ⟨_, rfl, .of_last ⟨total, within, consecutive⟩ rfl steps_le faultless fault.symm
                (fault ▸ Option.some_ne_none _), holds⟩
            next nonzero =>
              rw [if_neg nonzero] at fault
              apply ih _ ⟨total, within, consecutive⟩ rfl _ _ holds
              · change size < transfer.total + call.count + fuel
                omega
              · rw [List.forall_mem_append, List.forall_mem_singleton]
                exact ⟨faultless, fault⟩
              · exact steps.trans (Nat.add_le_add_left (Nat.pos_of_ne_zero nonzero) _)
      next finished =>
        have whole : transfer.total = size :=
          Nat.le_antisymm books.le_size (Nat.not_lt.1 finished)
        refine ⟨transfer, rfl, ⟨books, fun _ => whole, ?_, ?_, ?_⟩, holds⟩
        · exact progress.trans (books.le_size.trans (Nat.le_succ size))
        · rw [clear, eq_comm, Option.bind_eq_none_iff]
          exact fun call last => faultless call (List.mem_of_getLast? last)
        · exact fun call member => faultless call (List.dropLast_subset _ member)

/-- A new transfer has its books in order. -/
theorem complete_ends_of_start {size : Nat} {exchange : Nat → σ → Call × σ}
    {property : Nat → List Call → σ → Prop} (kept : Kept size exchange property) (state : σ)
    (start : property 0 [] state) :
    ∃ after, complete size exchange (size + 1) { state } = some after ∧ Ended size after ∧
      property after.total after.calls after.state := by
  apply complete_ends kept _ _ ⟨rfl, Nat.zero_le _, ?_⟩ rfl
    (fun _ member => absurd member List.not_mem_nil) (Nat.le_refl _) start
  · change size < 0 + (size + 1)
    omega
  · intro before call later split
    exact absurd split.symm (List.append_ne_nil_of_right_ne_nil _ (List.cons_ne_nil _ _))

end Accounting

section Contents

/-- The accepted bytes of calls. -/
def filled (calls : List Call) : Bytes := calls.flatMap fun call => call.span.take call.accepted

/-- A call of `AsyncWriteSome` hands over what the buffer has from an offset on, and moves the
transport on. -/
def Transmission.Wrote (transmission : Transmission τ) (buffer : Bytes) (state : τ) (call : Call)
    (next : τ) : Prop :=
  call.span = buffer.drop call.offset ∧
    transmission.asyncWriteSome state call.span = ⟨call.count, call.ec, next⟩

/-- A call of `AsyncReadSome` overwrites what the buffer has from an offset on, and moves the
transport on. -/
def Transmission.Read (transmission : Transmission τ) (before : Bytes × τ) (call : Call)
    (after : Bytes × τ) : Prop :=
  transmission.asyncReadSome before.2 (before.1.drop call.offset) =
      (call.span, ⟨call.count, call.ec, after.2⟩) ∧
    after.1 = before.1.take call.offset ++ call.span

/-- The calls of a write lead the transport from state to state. -/
theorem Transmission.writeSome_kept (transmission : Transmission τ) (buffer : Bytes) (first : τ) :
    Kept buffer.length (transmission.writeSome buffer) fun _ calls state =>
      Trail (transmission.Wrote buffer) first calls state where
  offset _ _ := rfl
  length _ _ := List.length_drop ..
  step _ trail := .snoc trail ⟨rfl, rfl⟩

/-- The calls of a read lead the buffer and the transport from state to state; every call has
the span behind what is filled, and fills a part of it. -/
theorem Transmission.readSome_kept (transmission : Transmission τ) (size : Nat)
    (first : Bytes × τ) :
    Kept size transmission.readSome fun total calls state =>
      Trail transmission.Read first calls state ∧ state.1.length = size ∧
        state.1.take total = filled calls ∧
        ∀ call ∈ calls, call.span.length = size - call.offset where
  offset _ _ := rfl
  length := by
    intro total calls state _ holds
    change (transmission.asyncReadSome state.2 (state.1.drop total)).1.length = _
    rw [transmission.length_span, List.length_drop, holds.2.1]
  step := by
    intro total calls state unfinished holds
    obtain ⟨trail, length, read, spans⟩ := holds
    have span := transmission.length_span state.2 (state.1.drop total)
    rw [List.length_drop, length] at span
    have taken : (state.1.take total).length = total := by
      rw [List.length_take, length]
      exact Nat.min_eq_left unfinished.le
    refine ⟨.snoc trail ⟨rfl, rfl⟩, ?_, ?_, ?_⟩
    · change (state.1.take total ++ _).length = size
      rw [List.length_append, taken, span]
      omega
    · change (state.1.take total ++ _).take _ = _
      rw [List.take_append, taken, Nat.add_sub_cancel_left, List.take_take, filled,
        List.flatMap_append, List.flatMap_singleton, Nat.min_eq_right (Nat.le_add_right ..), read]
      rfl
    · intro call isIn
      rcases List.mem_append.1 isIn with isIn | isIn
      · exact spans call isIn
      · rw [List.mem_singleton.1 isIn]
        exact span

/-- Whatever the transport answers, `AsyncWrite` ends after at most one call more than the
buffer has bytes.  The calls lead the transport from its first state to its last; each hands
over the unsent rest of the buffer.  The error is that of the last call, and the calls before
it have none; there is one unless all bytes are accepted.  `AsyncRead` does the same with the
unfilled rest. -/
theorem Transmission.transfers (transmission : Transmission τ) (buffer : Bytes) (state : τ) :
    (∃ after, transmission.asyncWrite buffer state = some after ∧
      Trail (transmission.Wrote buffer) state after.calls after.state ∧
      Consecutive after.calls ∧
      (∀ call ∈ after.calls, call.span = buffer.drop call.offset) ∧
      after.total = accepted after.calls ∧ after.total ≤ buffer.length ∧
      after.ec = after.calls.getLast?.bind Call.fault ∧
      (∀ call ∈ after.calls.dropLast, call.fault = none) ∧
      (after.ec = none → after.total = buffer.length) ∧
      (after.total < buffer.length → after.ec ≠ none) ∧
      after.calls.length ≤ buffer.length + 1) ∧
    ∃ after, transmission.asyncRead buffer state = some after ∧
      Trail transmission.Read (buffer, state) after.calls after.state ∧
      Consecutive after.calls ∧
      (∀ call ∈ after.calls, call.span.length = buffer.length - call.offset) ∧
      after.state.1.length = buffer.length ∧
      after.state.1.take after.total = filled after.calls ∧
      after.total = accepted after.calls ∧ after.total ≤ buffer.length ∧
      after.ec = after.calls.getLast?.bind Call.fault ∧
      (∀ call ∈ after.calls.dropLast, call.fault = none) ∧
      (after.ec = none → after.total = buffer.length) ∧
      (after.total < buffer.length → after.ec ≠ none) ∧
      after.calls.length ≤ buffer.length + 1 := by
  constructor
  · obtain ⟨after, ran, ended, trail⟩ :=
      complete_ends_of_start (transmission.writeSome_kept buffer state) state .nil
    have spans : ∀ call ∈ after.calls, call.span = buffer.drop call.offset :=
      trail.forall_mem fun wrote => wrote.1
    exact ⟨after, ran, trail, ended.consecutive, spans, ended.total, ended.le_size, ended.fault,
      ended.faultless, ended.success, fun short clear => Nat.ne_of_lt short (ended.success clear),
      ended.steps⟩
  · obtain ⟨after, ran, ended, trail, length, read, spans⟩ :=
      complete_ends_of_start (transmission.readSome_kept buffer.length (buffer, state))
        (buffer, state) ⟨.nil, rfl, rfl, fun _ isIn => absurd isIn List.not_mem_nil⟩
    exact ⟨after, ran, trail, ended.consecutive, spans, length, read, ended.total, ended.le_size,
      ended.fault, ended.faultless, ended.success,
      fun short clear => Nat.ne_of_lt short (ended.success clear), ended.steps⟩

end Contents

end Wan.Transport
