import Wan.Network.Agreement.Message
import Wan.Network.Agreement.RequestText

/-!
# The text form of messages

`FromString` of a message hands the header text to the header up to the line break before
the empty line, and the header insists on the empty line.  No text is ever read.
-/

namespace Wan.Network

open Wan.Library

variable {Start : Type} {startLine : List Bytes → Option Start} {special data line body : Bytes}
  {nowMs : Int} {start : Start} {lines : ProtocolHeader.Lines}

/-- A header text ends with an empty line. -/
theorem ProtocolHeader.parseText_terminated
    (read : parseText startLine special nowMs data = some (start, lines)) :
    ∃ front, data = front ++ (Bytes.crlf ++ Bytes.crlf) := by
  rcases parseText_cases read with ⟨first, rest, cut, _, readLines, seen, -⟩
  have split := (Bytes.cutAt_some cut).1
  rcases terminated readLines rfl seen with last | ⟨front, later⟩
  · rw [split, last]
    exact ⟨first, List.append_assoc ..⟩
  · rw [split, later]
    exact ⟨first ++ Bytes.crlf ++ front, by simp only [List.append_assoc]⟩

/-- The part of a message that is handed to the header has no empty line. -/
theorem ProtocolHeader.parseText_take
    (cut : Bytes.cutAt (Bytes.crlf ++ Bytes.crlf) data = some (line, body)) :
    parseText startLine special nowMs (data.take (line.length + 2)) = none := by
  cases read : parseText startLine special nowMs (data.take (line.length + 2)) with
  | none => rfl
  | some result =>
      rcases parseText_terminated read with ⟨front, whole⟩
      have first := (Bytes.cutAt_some cut).2 front (data.drop (line.length + 2))
        (by rw [← whole, List.take_append_drop])
      have short := congrArg List.length whole
      have four : (Bytes.crlf ++ Bytes.crlf).length = 4 := rfl
      rw [List.length_append, four] at short
      have limit := List.length_take_le (line.length + 2) data
      omega

namespace Message

variable {digests : Digests}

/-- No text is read as a request. -/
theorem fromString_request (receiver : Message RequestHeader) :
    receiver.fromString digests nowMs data = (receiver, false) := by
  rw [fromString]
  split
  · rfl
  next line body cut =>
    have failed : (HeaderConstraint.fromString nowMs receiver.header
        (data.take (line.length + 2))).2 = false := by
      change (RequestHeader.fromString nowMs receiver.header _).2 = false
      rw [RequestHeader.fromString, ProtocolHeader.parseText_take cut]
    dsimp only
    rw [failed]
    rfl

/-- No text is read as a response. -/
theorem fromString_response (receiver : Message ResponseHeader) :
    receiver.fromString digests nowMs data = (receiver, false) := by
  rw [fromString]
  split
  · rfl
  next line body cut =>
    have failed : (HeaderConstraint.fromString nowMs receiver.header
        (data.take (line.length + 2))).2 = false := by
      change (ResponseHeader.fromString nowMs receiver.header _).2 = false
      rw [ResponseHeader.fromString, ProtocolHeader.parseText_take cut]
    dsimp only
    rw [failed]
    rfl

/-- No message comes back from its text. -/
theorem text_roundtrip_never :
    (∀ sender receiver : Message RequestHeader,
      (receiver.fromString digests nowMs (sender.toString digests).cachedFull).2 = false) ∧
    ∀ sender receiver : Message ResponseHeader,
      (receiver.fromString digests nowMs (sender.toString digests).cachedFull).2 = false :=
  ⟨fun _ receiver => congrArg Prod.snd receiver.fromString_request,
    fun _ receiver => congrArg Prod.snd receiver.fromString_response⟩

/-- Neither does one with the simplest header. -/
theorem text_roundtrip_fails : ∃ (setters : List RequestHeader.Setter) (header : RequestHeader),
    setters.foldlM RequestHeader.set (RequestHeader.default 0) = .ok header ∧
      header.Sendable 0 ∧ header.Unblanked ∧
      ∀ digests, ((Message.new header []).fromString digests 0
        ((Message.new header []).toString digests).cachedFull).2 = false :=
  ⟨[.method (Bytes.text "GET"), .target (Bytes.text "/")], .bare (Bytes.text "/"), rfl,
    RequestHeader.sendable_bare (by decide), ⟨by decide, rfl, fun _ member => by cases member⟩,
    fun _ => congrArg Prod.snd (fromString_request _)⟩

end Message

end Wan.Network
