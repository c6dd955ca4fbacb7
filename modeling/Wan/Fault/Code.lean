import Mathlib.Algebra.Group.Int.Defs
import Mathlib.Data.List.Nodup

/-!
# Error codes and their bridges

The codes of `Fault/Code.hpp`, the two error categories of `Fault/Compatible.hpp` and the
translations of `Fault/Handling.hpp`, from library codes to the error codes of the standard
library and of Boost and back.  The numbers of the platform's own errors are a parameter.
-/

namespace Wan.Fault

/-- `Code`, an enumeration over `int`: a cast gives any value, also one without a name. -/
structure Code where
  value : Int32
  deriving DecidableEq, Repr

namespace Code

def success : Code := ⟨0⟩
def genericError : Code := ⟨1⟩
def eof : Code := ⟨3⟩
def invalidArgument : Code := ⟨7⟩
def ioError : Code := ⟨10⟩
def timeout : Code := ⟨11⟩
def canceled : Code := ⟨12⟩
def connectionRefused : Code := ⟨18⟩
def connectionReset : Code := ⟨19⟩
def connectionAborted : Code := ⟨20⟩
def networkUnreachable : Code := ⟨21⟩
def hostUnreachable : Code := ⟨22⟩

/-- `Count`. -/
def count : Nat := 38

/-- `Describe`. -/
def describe (code : Code) : String :=
  match code.value.toInt with
  | 0 => "success"
  | 1 => "generic_error"
  | 2 => "parse_error"
  | 3 => "eof"
  | 4 => "would_block"
  | 5 => "protocol_error"
  | 6 => "bad_message"
  | 7 => "invalid_argument"
  | 8 => "not_supported"
  | 9 => "message_too_large"
  | 10 => "io_error"
  | 11 => "timeout"
  | 12 => "canceled"
  | 13 => "tls_handshake_failed"
  | 14 => "tls_shutdown_failed"
  | 15 => "auth_failed"
  | 16 => "dns_failed"
  | 17 => "upstream_unreachable"
  | 18 => "connection_refused"
  | 19 => "connection_reset"
  | 20 => "connection_aborted"
  | 21 => "network_unreachable"
  | 22 => "host_unreachable"
  | 23 => "bad_gateway"
  | 26 => "path_not_found"
  | 27 => "method_not_allowed"
  | 28 => "unsupported_command"
  | 29 => "unsupported_address"
  | 30 => "blocked"
  | 31 => "config_error"
  | 32 => "pool_full"
  | 33 => "ssl_handshake_failed"
  | 34 => "not_implemented"
  | 35 => "crypto_error"
  | 36 => "ssl_cert_load_failed"
  | 37 => "ssl_key_load_failed"
  | _ => "unknown"

/-- A value that is an enumerator's, or one of the two numbers between them that have no name. -/
def InRange (code : Code) : Prop := 0 ≤ code.value.toInt ∧ code.value.toInt < count

instance (code : Code) : Decidable code.InRange := by
  unfold InRange
  infer_instance

/-- The cast of `CachedMessage` to `std::size_t`. -/
def index (code : Code) : Nat := (code.value.toInt % 2 ^ 64).toNat

/-- The array of `CachedMessage`. -/
def messages : List String := (List.range count).map fun index => describe ⟨Int32.ofNat index⟩

/-- `CachedMessage`. -/
def cachedMessage (code : Code) : String := messages[code.index]?.getD "unknown"

end Code

/-- A `std::error_category`, by identity. -/
inductive StdCategory where
  /-- `Wan::Fault::Category`. -/
  | fault
  | generic
  | system
  | other (id : Nat)
  deriving DecidableEq, Repr

/-- `std::error_code`. -/
structure StdError where
  value : Int32
  category : StdCategory
  deriving DecidableEq, Repr

/-- A `boost::system::error_category`, by identity. -/
inductive BoostCategory where
  /-- `boost::system::Category`. -/
  | fault
  | generic
  | system
  /-- The category of `boost::asio::error::misc_errors`. -/
  | misc
  | other (id : Nat) (name : String)
  deriving DecidableEq, Repr

/-- `boost::system::error_code`. -/
structure BoostError where
  value : Int32
  category : BoostCategory
  deriving DecidableEq, Repr

/-- The conditions that both translations know. -/
inductive Condition where
  | canceled
  | timedOut
  | connectionRefused
  | connectionReset
  | connectionAborted
  | hostUnreachable
  | networkUnreachable
  deriving DecidableEq, Repr

/-- The numbers of the platform: `boost::asio::error` in the system category and `std::errc` in
the generic one, and `boost::asio::error::eof`. -/
structure Platform where
  asio : Condition → Int32
  errc : Condition → Int32
  eof : Int32

/-- The numbers are errors, and different ones for different conditions. -/
structure Platform.Lawful (platform : Platform) : Prop where
  asio_ne : ∀ condition, platform.asio condition ≠ 0
  errc_ne : ∀ condition, platform.errc condition ≠ 0
  eof_ne : platform.eof ≠ 0
  asio_injective : ∀ one two, platform.asio one = platform.asio two → one = two
  errc_injective : ∀ one two, platform.errc one = platform.errc two → one = two

/-- `boost::system::error_category::name`. -/
def BoostCategory.name : BoostCategory → String
  | .fault => "wan::fault"
  | .generic => "generic"
  | .system => "system"
  | .misc => "asio.misc"
  | .other _ name => name

/-- `FaultCategory::message` of both categories. -/
def message (value : Int32) : String := Code.cachedMessage ⟨value⟩

/-- `Wan::Fault::make_error_code`. -/
def makeErrorCode (code : Code) : StdError := ⟨code.value, .fault⟩

/-- `boost::system::make_error_code`. -/
def boostMakeErrorCode (code : Code) : BoostError := ⟨code.value, .fault⟩

/-- The cast of a value of the own category. -/
def ofValue (value : Int32) : Code :=
  if 0 ≤ value.toInt ∧ value.toInt < Code.count then ⟨value⟩ else .genericError

section Translations

variable (platform : Platform)

/-- A condition as `boost::asio::error` has it. -/
def Platform.boost (condition : Condition) : BoostError := ⟨platform.asio condition, .system⟩

/-- A condition as `std::make_error_code` has it. -/
def Platform.std (condition : Condition) : StdError := ⟨platform.errc condition, .generic⟩

/-- `ToCode` of a Boost error code. -/
def toCodeBoost (ec : BoostError) : Code :=
  if ec.value = 0 then .success
  else if ec.category.name = "wan::fault" then ofValue ec.value
  else if ec = ⟨platform.eof, .misc⟩ then .eof
  else if ec = platform.boost .canceled then .canceled
  else if ec = platform.boost .timedOut then .timeout
  else if ec = platform.boost .connectionRefused then .connectionRefused
  else if ec = platform.boost .connectionReset then .connectionReset
  else if ec = platform.boost .connectionAborted then .connectionAborted
  else if ec = platform.boost .hostUnreachable then .hostUnreachable
  else if ec = platform.boost .networkUnreachable then .networkUnreachable
  else .ioError

/-- `ToCode` of a standard error code. -/
def toCodeStd (ec : StdError) : Code :=
  if ec.value = 0 then .success
  else if ec.category = .fault then ofValue ec.value
  else if ec = platform.std .connectionRefused then .connectionRefused
  else if ec = platform.std .connectionReset then .connectionReset
  else if ec = platform.std .connectionAborted then .connectionAborted
  else if ec = platform.std .timedOut then .timeout
  else if ec = platform.std .hostUnreachable then .hostUnreachable
  else if ec = platform.std .networkUnreachable then .networkUnreachable
  else if ec = platform.std .canceled then .canceled
  else .ioError

/-- `ToBoostError` of `Transport/Transmission.hpp`. -/
def toBoostError (ec : StdError) : BoostError :=
  if ec.value = 0 then ⟨0, .system⟩
  else if ec.category = .fault then ⟨ec.value, .fault⟩
  else ⟨ec.value, .generic⟩

end Translations

namespace Code

variable {code other : Code} {value : Int32}

/-- A code in range is one of finitely many. -/
theorem InRange.exists_lt (inRange : code.InRange) :
    ∃ index < count, code = ⟨Int32.ofNat index⟩ ∧ code.value.toInt = index := by
  obtain ⟨lower, upper⟩ := inRange
  obtain ⟨index, same⟩ := Int.eq_ofNat_of_zero_le lower
  rw [same] at upper
  refine ⟨index, Int.ofNat_lt.mp upper, ?_, same⟩
  have value : code.value = Int32.ofNat index := by
    rw [← Int32.toInt_inj, same, Int32.toInt_ofNat_of_lt]
    have := Int.ofNat_lt.mp upper
    rw [count] at this
    omega
  rw [← value]

/-- A value out of range has no name. -/
theorem describe_of_not_inRange (outside : ¬code.InRange) : code.describe = "unknown" := by
  rw [InRange, count, not_and_or] at outside
  unfold describe
  split <;> first | rfl | omega

/-- The array has the names. -/
theorem getElem?_messages {index : Nat} (bound : index < count) :
    messages[index]? = some (describe ⟨Int32.ofNat index⟩) := by
  rw [messages, List.getElem?_map, List.getElem?_range bound]
  rfl

/-- The cached message of any code is its description. -/
theorem cachedMessage_eq (code : Code) : code.cachedMessage = code.describe := by
  by_cases inRange : code.InRange
  · obtain ⟨index, bound, rfl, value⟩ := inRange.exists_lt
    have position : index = Code.index ⟨Int32.ofNat index⟩ := by
      rw [Code.index, value, Int.emod_eq_of_lt (Int.natCast_nonneg index), Int.toNat_natCast]
      rw [count] at bound
      omega
    rw [cachedMessage, ← position, getElem?_messages bound]
    rfl
  · have beyond : messages[code.index]? = none := by
      rw [List.getElem?_eq_none]
      have length : messages.length = count := by rw [messages, List.length_map, List.length_range]
      have lower := code.value.le_toInt
      have upper := code.value.toInt_lt
      rw [InRange, not_and_or] at inRange
      rw [length, index]
      rw [count] at inRange ⊢
      omega
    rw [cachedMessage, beyond, describe_of_not_inRange inRange]
    rfl

/-- The numbers of the enumerators. -/
def enumerators : List Nat := (List.range count).filter fun index => index ≠ 24 ∧ index ≠ 25

theorem nodup_names : (enumerators.map fun index => describe ⟨Int32.ofNat index⟩).Nodup := by
  decide +kernel

theorem known_names :
    ∀ index ∈ enumerators, describe ⟨Int32.ofNat index⟩ ≠ "unknown" := by
  decide +kernel

/-- A code with a name is an enumerator. -/
theorem exists_enumerator (named : code.describe ≠ "unknown") :
    ∃ index ∈ enumerators, code = ⟨Int32.ofNat index⟩ := by
  have inRange : code.InRange := not_not.mp fun outside => named (describe_of_not_inRange outside)
  obtain ⟨index, bound, rfl, -⟩ := inRange.exists_lt
  refine ⟨index, ?_, rfl⟩
  rw [enumerators, List.mem_filter, List.mem_range]
  refine ⟨bound, ?_⟩
  rw [decide_eq_true_eq]
  constructor
  · rintro rfl
    exact named (by decide +kernel)
  · rintro rfl
    exact named (by decide +kernel)

/-- No two codes share a name. -/
theorem named_iff (code : Code) : code.describe ≠ "unknown" ↔
    ∃ index ∈ enumerators, code = ⟨Int32.ofNat index⟩ := by
  constructor
  · exact exists_enumerator
  · rintro ⟨index, member, rfl⟩
    exact known_names index member

theorem describe_injective (named : code.describe ≠ "unknown")
    (same : code.describe = other.describe) : code = other := by
  obtain ⟨one, member, rfl⟩ := exists_enumerator named
  obtain ⟨two, member', rfl⟩ := exists_enumerator (same ▸ named)
  rw [List.inj_on_of_nodup_map nodup_names member member' same]

end Code

section Values

variable {value : Int32}

theorem inRange_ofValue (value : Int32) : (ofValue value).InRange := by
  rw [ofValue]
  split
  next inRange => exact inRange
  next => decide

theorem ofValue_ne_success (some : value ≠ 0) : ofValue value ≠ .success := by
  rw [ofValue]
  split
  next => exact fun same => some (Code.mk.inj same)
  next => decide

end Values

/-- The code of a condition. -/
def Condition.code : Condition → Code
  | .canceled => .canceled
  | .timedOut => .timeout
  | .connectionRefused => .connectionRefused
  | .connectionReset => .connectionReset
  | .connectionAborted => .connectionAborted
  | .hostUnreachable => .hostUnreachable
  | .networkUnreachable => .networkUnreachable

/-- A code, unless it is out of range. -/
def Code.checked (code : Code) : Code := if code.InRange then code else .genericError

section RoundTrips

variable {platform : Platform} (lawful : platform.Lawful)

theorem checked_of_zero {code : Code} (zero : code.value = 0) : code.checked = .success := by
  obtain ⟨value⟩ := code
  cases zero
  rfl

/-- The codes of the library go through both kinds of error code and back. -/
theorem toCodeStd_make (platform : Platform) (code : Code) :
    toCodeStd platform (makeErrorCode code) = code.checked := by
  rw [toCodeStd, makeErrorCode]
  split
  next zero => exact (checked_of_zero zero).symm
  next => rfl

theorem toCodeBoost_make (platform : Platform) (code : Code) :
    toCodeBoost platform (boostMakeErrorCode code) = code.checked := by
  rw [toCodeBoost, boostMakeErrorCode]
  split
  next zero => exact (checked_of_zero zero).symm
  next => rfl

include lawful

/-- The translations know every condition. -/
theorem toCodeBoost_condition (condition : Condition) :
    toCodeBoost platform (platform.boost condition) = condition.code := by
  have same : ∀ other, platform.boost condition = platform.boost other ↔ condition = other := by
    refine fun other => ⟨fun equal => ?_, congrArg _⟩
    exact lawful.asio_injective _ _ (BoostError.mk.inj equal).1
  have some : (platform.boost condition).value ≠ 0 := lawful.asio_ne condition
  have foreign : (platform.boost condition).category.name ≠ "wan::fault" := by
    rw [show (platform.boost condition).category.name = "system" from rfl]
    decide
  have basic : platform.boost condition ≠ ⟨platform.eof, .misc⟩ :=
    fun equal => nomatch (BoostError.mk.inj equal).2
  rw [toCodeBoost, if_neg some, if_neg foreign, if_neg basic]
  cases condition <;> simp [same, Condition.code]

theorem toCodeStd_condition (condition : Condition) :
    toCodeStd platform (platform.std condition) = condition.code := by
  have same : ∀ other, platform.std condition = platform.std other ↔ condition = other := by
    refine fun other => ⟨fun equal => ?_, congrArg _⟩
    exact lawful.errc_injective _ _ (StdError.mk.inj equal).1
  have some : (platform.std condition).value ≠ 0 := lawful.errc_ne condition
  have foreign : (platform.std condition).category ≠ .fault := by
    rw [show (platform.std condition).category = .generic from rfl]
    decide
  rw [toCodeStd, if_neg some, if_neg foreign]
  cases condition <;> simp [same, Condition.code]

theorem toCodeBoost_eof : toCodeBoost platform ⟨platform.eof, .misc⟩ = .eof := by
  have foreign : BoostCategory.misc.name ≠ "wan::fault" := by decide
  rw [toCodeBoost, if_neg lawful.eof_ne, if_neg foreign, if_pos rfl]

omit lawful

/-- A translated code is in range, and it is success for no error. -/
theorem toCodeBoost_spec (platform : Platform) (ec : BoostError) :
    (toCodeBoost platform ec).InRange ∧ (toCodeBoost platform ec = .success ↔ ec.value = 0) := by
  rw [toCodeBoost]
  split
  next zero => exact ⟨by decide, fun _ => zero, fun _ => rfl⟩
  next some =>
    have failed : ∀ code : Code, code.InRange → code ≠ .success →
        code.InRange ∧ (code = .success ↔ ec.value = 0) :=
      fun code inRange different => ⟨inRange, fun same => absurd same different,
        fun zero => absurd zero some⟩
    split
    next => exact failed _ (inRange_ofValue _) (ofValue_ne_success some)
    next =>
      (repeat' split) <;> exact failed _ (by decide) (by decide)

theorem toCodeStd_spec (platform : Platform) (ec : StdError) :
    (toCodeStd platform ec).InRange ∧ (toCodeStd platform ec = .success ↔ ec.value = 0) := by
  rw [toCodeStd]
  split
  next zero => exact ⟨by decide, fun _ => zero, fun _ => rfl⟩
  next some =>
    have failed : ∀ code : Code, code.InRange → code ≠ .success →
        code.InRange ∧ (code = .success ↔ ec.value = 0) :=
      fun code inRange different => ⟨inRange, fun same => absurd same different,
        fun zero => absurd zero some⟩
    split
    next => exact failed _ (inRange_ofValue _) (ofValue_ne_success some)
    next =>
      (repeat' split) <;> exact failed _ (by decide) (by decide)

/-- What is left of an error that goes through `ToBoostError`: an error of the library keeps its
code, and any other one is no more than an I/O error, as `ToCode` looks for the numbers of Asio in
another category. -/
theorem toCodeBoost_toBoostError (platform : Platform) (ec : StdError) :
    toCodeBoost platform (toBoostError ec) =
      if ec.value = 0 then .success
      else if ec.category = .fault then toCodeStd platform ec else .ioError := by
  rw [toBoostError]
  split
  next => rfl
  next some =>
    split
    next own =>
      have named : BoostCategory.fault.name = "wan::fault" := rfl
      rw [toCodeBoost, toCodeStd, if_neg some, if_neg some, if_pos named, if_pos own]
    next =>
      have generic : ∀ other : BoostError, other.category ≠ .generic →
          (⟨ec.value, .generic⟩ : BoostError) ≠ other := by
        rintro other different rfl
        exact different rfl
      have foreign : BoostCategory.generic.name ≠ "wan::fault" := by decide
      have system : BoostCategory.system ≠ .generic := by decide
      have misc : BoostCategory.misc ≠ .generic := by decide
      have condition : ∀ other, (⟨ec.value, .generic⟩ : BoostError) ≠ platform.boost other :=
        fun other => generic _ system
      rw [toCodeBoost, if_neg some, if_neg foreign, if_neg (generic _ misc)]
      simp only [if_neg (condition _)]

/-- A code in range that is made an error code of the standard library comes back from the
bridge. -/
theorem toCodeBoost_toBoostError_make {code : Code} (inRange : code.InRange) :
    toCodeBoost platform (toBoostError (makeErrorCode code)) = code := by
  have checked : code.checked = code := if_pos inRange
  rw [toCodeBoost_toBoostError, toCodeStd_make, checked]
  split
  next zero => rw [← checked, checked_of_zero zero]
  next => rfl

end RoundTrips

/-- The numbers of Linux. -/
def linux : Platform where
  asio
    | .canceled => 125
    | .timedOut => 110
    | .connectionRefused => 111
    | .connectionReset => 104
    | .connectionAborted => 103
    | .hostUnreachable => 113
    | .networkUnreachable => 101
  errc
    | .canceled => 125
    | .timedOut => 110
    | .connectionRefused => 111
    | .connectionReset => 104
    | .connectionAborted => 103
    | .hostUnreachable => 113
    | .networkUnreachable => 101
  eof := 2

theorem linux_lawful : linux.Lawful where
  asio_ne := by rintro (_ | _ | _ | _ | _ | _ | _) <;> decide
  errc_ne := by rintro (_ | _ | _ | _ | _ | _ | _) <;> decide
  eof_ne := by decide
  asio_injective := by rintro (_ | _ | _ | _ | _ | _ | _) (_ | _ | _ | _ | _ | _ | _) <;> decide
  errc_injective := by rintro (_ | _ | _ | _ | _ | _ | _) (_ | _ | _ | _ | _ | _ | _) <;> decide

end Wan.Fault
