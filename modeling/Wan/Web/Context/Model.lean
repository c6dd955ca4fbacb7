import Wan.Library.InsertionMap
import Wan.Library.Text

/-!
# The request context of `Web/Core/Context.hpp`

The part of `Context` that reads the cookies of a request.  The views of the source are byte
strings, and positions are subtracted as `std::size_t`.
-/

namespace Wan.Web

open Wan.Library

/-- The value of a field that names and values are stored in. -/
abbrev Cookies := InsertionMap (Prod.fst : Bytes × Bytes → Bytes)

/-- A request context. -/
structure Context where
  /-- The value of the `Cookie` field of `MemberRequest`. -/
  cookieHeader : Option Bytes
  /-- `MemberCookies`. -/
  cookies : Cookies
  /-- `MemberCookiesParsed`. -/
  cookiesParsed : Bool

namespace Context

/-- Subtraction of `std::size_t`. -/
def sizeSub (first second : Nat) : Nat :=
  if second ≤ first then first - second else first + 2 ^ 64 - second

/-- `std::string_view::substr`. -/
def substr (bytes : Bytes) (position count : Nat) : Bytes := (bytes.drop position).take count

/-- The loop that removes the blanks in front of the next cookie. -/
def skipBlanks (bytes : Bytes) : Bytes := bytes.dropWhile (· == Bytes.char ' ')

theorem length_skipBlanks_lt {bytes : Bytes} (nonempty : bytes ≠ []) (position : Nat) :
    (skipBlanks (bytes.drop (position + 1))).length < bytes.length := by
  have shorter : (skipBlanks (bytes.drop (position + 1))).length ≤
      (bytes.drop (position + 1)).length := (List.dropWhile_sublist _).length_le
  rw [List.length_drop] at shorter
  have positive := List.length_pos_iff.mpr nonempty
  omega

/-- The loop of `ParseCookies`. -/
def parseCookiesFrom (cookies : Cookies) (cookieString : Bytes) : Cookies :=
  if _nonempty : cookieString = [] then cookies
  else
    match cookieString.idxOf? (Bytes.char '=') with
    | none => cookies
    | some equalsPos =>
        let semicolonPos := cookieString.idxOf? (Bytes.char ';')
        let name := substr cookieString 0 equalsPos
        let valueEnd := semicolonPos.getD cookieString.length
        let value := substr cookieString (equalsPos + 1) (sizeSub (sizeSub valueEnd equalsPos) 1)
        match semicolonPos with
        | some position =>
            parseCookiesFrom (cookies.assign (name, value))
              (skipBlanks (cookieString.drop (position + 1)))
        | none => cookies.assign (name, value)
termination_by cookieString.length
decreasing_by exact length_skipBlanks_lt ‹_› position

/-- `ParseCookies`. -/
def parseCookies (context : Context) : Context :=
  if context.cookiesParsed then context
  else
    match context.cookieHeader with
    | none => { context with cookiesParsed := true }
    | some value =>
        { context with
          cookies := parseCookiesFrom context.cookies value
          cookiesParsed := true }

/-- `Cookie`: the context after parsing, and the value. -/
def cookie (context : Context) (name : Bytes) : Context × Bytes :=
  let parsed := context.parseCookies
  (parsed, ((parsed.cookies.find? name).map Prod.snd).getD [])

/-- `HasCookie`. -/
def hasCookie (context : Context) (name : Bytes) : Context × Bool :=
  let parsed := context.parseCookies
  (parsed, (parsed.cookies.find? name).isSome)

/-- The context of a request with some `Cookie` field. -/
def ofRequest (cookieHeader : Option Bytes) : Context := ⟨cookieHeader, .empty, false⟩

end Context

end Wan.Web
