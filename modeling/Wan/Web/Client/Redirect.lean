import Wan.Library.Machine
import Wan.Web.Router.Registration
import Mathlib.Data.List.Chain

/-!
# Redirects of `Web/Client/Client.hpp`

`HttpClient::DoRequest` over any peer that answers requests one after the other.  The resolution
of a redirect target belongs to the URL library and is a parameter: any function that yields an
`http` or `https` URL or nothing.
-/

namespace Wan.Web

open Wan.Library Wan.Library.Machine

/-- `http::verb::head`. -/
def Verb.head : Verb := .other 3

/-- `http::status`: the statuses that the client tells apart, and the others by number. -/
inductive Status where
  | movedPermanently
  | found
  | seeOther
  | temporaryRedirect
  | permanentRedirect
  | other (code : Nat)
  deriving DecidableEq, Repr

/-- The schemes of a request. -/
inductive Scheme where
  | http
  | https
  deriving DecidableEq, Repr

/-- `ParsedHttpUrl`. -/
structure ParsedHttpUrl where
  scheme : Scheme
  host : Bytes
  port : Bytes
  hostHeader : Bytes
  authority : Bytes
  target : Bytes
  deriving DecidableEq, Repr

/-- `ClientResponse`. -/
structure ClientResponse where
  status : Status
  body : Bytes
  headers : List (Bytes × Bytes)
  deriving DecidableEq, Repr

/-- `RequestParameters`. -/
structure RequestParameters where
  method : Verb
  scheme : Scheme
  host : Bytes
  port : Bytes
  hostHeader : Bytes
  authority : Bytes
  target : Bytes
  body : Bytes
  deriving DecidableEq, Repr

/-- What `DoRequest` throws: its own error or that of a request. -/
inductive Thrown (Fault : Type) where
  | invalidArgument (what : String)
  | sending (fault : Fault)
  deriving DecidableEq, Repr

namespace HttpClient

/-- An upper-case letter as a lower-case one. -/
def lowerCase (byte : UInt8) : UInt8 :=
  if Bytes.char 'A' ≤ byte ∧ byte ≤ Bytes.char 'Z' then byte + 32 else byte

/-- `Headers.find(field::location)`: field names are compared without case. -/
def findLocation (headers : List (Bytes × Bytes)) : Option Bytes :=
  (headers.find? fun field => field.1.map lowerCase = Bytes.text "location").map Prod.snd

/-- The statuses that `DoRequest` follows. -/
def isRedirect (status : Status) : Bool :=
  status = .movedPermanently || status = .found || status = .seeOther ||
    status = .temporaryRedirect || status = .permanentRedirect

/-- The statuses after which a request other than GET and HEAD becomes a GET. -/
def changesMethod (status : Status) : Bool :=
  status = .movedPermanently || status = .found || status = .seeOther

/-- The assignments of the URL components. -/
def retarget (parameters : RequestParameters) (parsed : ParsedHttpUrl) : RequestParameters :=
  { parameters with
    scheme := parsed.scheme
    host := parsed.host
    port := parsed.port
    hostHeader := parsed.hostHeader
    authority := parsed.authority
    target := parsed.target }

/-- The change of the method behind them. -/
def changeMethod (status : Status) (parameters : RequestParameters) : RequestParameters :=
  if changesMethod status && parameters.method ≠ .get && parameters.method ≠ .head then
    { parameters with method := .get, body := [] }
  else
    parameters

section Loop

variable (resolveRedirect : RequestParameters → Bytes → Option ParsedHttpUrl)
variable (memberAllowInsecureRedirects : Bool)

/-- The parameters of the request that follows a redirect, unless it is not followed. -/
def redirected (parameters : RequestParameters) (resp : ClientResponse) :
    Option RequestParameters := do
  let location ← findLocation resp.headers
  let parsed ← resolveRedirect parameters location
  if parameters.scheme = .https && parsed.scheme = .http && !memberAllowInsecureRedirects then
    none
  else
    some (changeMethod resp.status (retarget parameters parsed))

variable {Fault Peer : Type}
variable (sendRequest : Peer → RequestParameters → Except Fault ClientResponse × Peer)

/-- The loop of `DoRequest`, which ends with what the caller gets and the peer that is left.
`none` is a loop that outruns its bound. -/
def doRequestLoop (maxRedirects : Int) : Nat → Nat → RequestParameters → Peer →
    Option (Except (Thrown Fault) ClientResponse × Peer)
  | 0, _, _, _ => none
  | fuel + 1, redirectCount, parameters, peer =>
      match sendRequest peer parameters with
      | (.error fault, peer) => some (.error (.sending fault), peer)
      | (.ok resp, peer) =>
          if isRedirect resp.status && redirectCount < maxRedirects then
            match redirected resolveRedirect memberAllowInsecureRedirects parameters resp with
            | none => some (.ok resp, peer)
            | some next => doRequestLoop maxRedirects fuel (redirectCount + 1) next peer
          else
            some (.ok resp, peer)

/-- `DoRequest`. -/
def doRequest (fuel : Nat) (parameters : RequestParameters) (maxRedirects : Int) (peer : Peer) :
    Option (Except (Thrown Fault) ClientResponse × Peer) :=
  if maxRedirects < 0 then
    some (.error (.invalidArgument "maximum redirects must not be negative"), peer)
  else
    doRequestLoop resolveRedirect memberAllowInsecureRedirects sendRequest maxRedirects fuel 0
      parameters peer

end Loop

section Step

variable {resolveRedirect : RequestParameters → Bytes → Option ParsedHttpUrl}
variable {memberAllowInsecureRedirects : Bool} {parameters next : RequestParameters}
variable {resp : ClientResponse}

/-- What a request has to do with the one before it. -/
structure Follows (allowed : Bool) (request : RequestParameters) (resp : ClientResponse)
    (next : RequestParameters) : Prop where
  secure : allowed = false → request.scheme = .https → next.scheme = .https
  kept : changesMethod resp.status = false ∨ request.method = .get ∨ request.method = .head →
    next.method = request.method ∧ next.body = request.body
  changed : changesMethod resp.status = true → request.method ≠ .get → request.method ≠ .head →
    next.method = .get ∧ next.body = []

/-- A redirect that is followed leads to a request that follows. -/
theorem follows_of_redirected
    (followed : redirected resolveRedirect memberAllowInsecureRedirects parameters resp =
      some next) :
    Follows memberAllowInsecureRedirects parameters resp next := by
  rcases Option.bind_eq_some_iff.mp followed with ⟨location, _, followed⟩
  rcases Option.bind_eq_some_iff.mp followed with ⟨parsed, _, followed⟩
  split at followed
  next => cases followed
  next safe =>
    cases followed
    have secure : memberAllowInsecureRedirects = false → parameters.scheme = .https →
        parsed.scheme = .https := by
      intro strict encrypted
      cases scheme : parsed.scheme with
      | https => rfl
      | http => simp [strict, encrypted, scheme] at safe
    rw [changeMethod]
    split
    next changes =>
      simp only [Bool.and_eq_true, retarget] at changes
      refine ⟨secure, fun same => ?_, fun _ _ _ => ⟨rfl, rfl⟩⟩
      rcases same with same | same | same
      · rw [changes.1.1] at same
        cases same
      · exact absurd same (of_decide_eq_true changes.1.2)
      · exact absurd same (of_decide_eq_true changes.2)
    next keeps =>
      refine ⟨secure, fun _ => ⟨rfl, rfl⟩, fun status noGet noHead => ?_⟩
      simp [status, noGet, noHead, retarget] at keeps

/-- A request and its answer. -/
abbrev Exchange (Fault : Type) := RequestParameters × Except Fault ClientResponse

/-- The peer gets the request of an exchange and gives the answer. -/
def Sent {Fault Peer : Type}
    (sendRequest : Peer → RequestParameters → Except Fault ClientResponse × Peer)
    (peer : Peer) (exchange : Exchange Fault) (later : Peer) : Prop :=
  sendRequest peer exchange.1 = (exchange.2, later)

/-- The exchange before and the exchange behind a followed redirect. -/
def Chained {Fault : Type} (allowed : Bool) (first second : Exchange Fault) : Prop :=
  ∃ resp, first.2 = .ok resp ∧ Follows allowed first.1 resp second.1

end Step

section Run

variable {resolveRedirect : RequestParameters → Bytes → Option ParsedHttpUrl}
variable {memberAllowInsecureRedirects : Bool} {Fault : Type}
variable {Peer : Type} {maxRedirects : Int}
variable {sendRequest : Peer → RequestParameters → Except Fault ClientResponse × Peer}

variable (resolveRedirect memberAllowInsecureRedirects sendRequest) in
/-- The loop ends once the limit is reached.  What it has the peer do is a chain of exchanges, and
the caller gets the answer of the last one. -/
theorem doRequestLoop_spec (fuel redirectCount : Nat) (parameters : RequestParameters)
    (peer : Peer) (within : (redirectCount : Int) ≤ maxRedirects)
    (enough : maxRedirects < redirectCount + fuel) :
    ∃ answer sent result later,
      doRequestLoop resolveRedirect memberAllowInsecureRedirects sendRequest maxRedirects fuel
        redirectCount parameters peer = some (result, later) ∧
      Trail (Sent sendRequest) peer ((parameters, answer) :: sent) later ∧
      result = (((parameters, answer) :: sent).getLast (List.cons_ne_nil _ _)).2.mapError
        .sending ∧
      ((parameters, answer) :: sent).IsChain (Chained memberAllowInsecureRedirects) ∧
      (sent.length : Int) ≤ maxRedirects - redirectCount := by
  have none_left : (([] : List (Exchange Fault)).length : Int) ≤ maxRedirects - redirectCount := by
    rw [List.length_nil]
    omega
  induction fuel generalizing redirectCount parameters peer with
  | zero => exact absurd enough (by omega)
  | succ fuel ih =>
      rw [doRequestLoop]
      cases answered : sendRequest peer parameters with
      | mk answer between =>
          have first : Trail (Sent sendRequest) peer [(parameters, answer)] between :=
            .snoc .nil answered
          cases answer with
          | error fault => exact ⟨_, [], _, _, rfl, first, rfl, .singleton _, none_left⟩
          | ok resp =>
              dsimp only
              split
              next goes =>
                split
                next => exact ⟨_, [], _, _, rfl, first, rfl, .singleton _, none_left⟩
                next next followed =>
                  simp only [Bool.and_eq_true, decide_eq_true_eq] at goes
                  rcases ih (redirectCount + 1) next between (by omega) (by omega)
                    (by rw [List.length_nil]; omega) with
                    ⟨answer, sent, result, later, run, trail, last, chain, short⟩
                  refine ⟨.ok resp, (next, answer) :: sent, result, later, run,
                    .cons answered trail, ?_, .cons_cons ⟨resp, rfl, follows_of_redirected followed⟩
                      chain, ?_⟩
                  · rw [last, List.getLast_cons (List.cons_ne_nil _ _)]
                  · rw [List.length_cons]
                    omega
              next => exact ⟨_, [], _, _, rfl, first, rfl, .singleton _, none_left⟩

/-- A loop that ends also ends with more fuel, and does the same. -/
theorem doRequestLoop_mono {fuel more redirectCount : Nat} {parameters : RequestParameters}
    {peer : Peer} {outcome : Except (Thrown Fault) ClientResponse × Peer}
    (ends : doRequestLoop resolveRedirect memberAllowInsecureRedirects sendRequest maxRedirects
      fuel redirectCount parameters peer = some outcome) (enough : fuel ≤ more) :
    doRequestLoop resolveRedirect memberAllowInsecureRedirects sendRequest maxRedirects more
      redirectCount parameters peer = some outcome := by
  induction fuel generalizing more redirectCount parameters peer with
  | zero => cases ends
  | succ fuel ih =>
      cases more with
      | zero => cases enough
      | succ more =>
          rw [doRequestLoop] at ends ⊢
          generalize sendRequest peer parameters = answered at ends ⊢
          obtain ⟨answer, between⟩ := answered
          cases answer with
          | error fault => exact ends
          | ok resp =>
              dsimp only at ends ⊢
              split at ends
              next goes =>
                rw [if_pos goes]
                split at ends
                next stays => exact ends
                next followed => exact ih ends (Nat.le_of_succ_le_succ enough)
              next stays => rwa [if_neg stays]

/-- The chain of requests that a call sends, each with its answer. -/
structure SafeChain (allowed : Bool) (maxRedirects : Int)
    (exchanges : List (Exchange Fault)) : Prop where
  /-- There are at most `MaxRedirects + 1` of them. -/
  bounded : (exchanges.length : Int) ≤ maxRedirects + 1
  /-- No plain request comes behind an encrypted one. -/
  secure : allowed = false → ∀ before request answer after,
    exchanges = before ++ (request, answer) :: after → request.scheme = .https →
      ∀ later ∈ after, later.1.scheme ≠ .http
  /-- The request behind 307 and 308 keeps the method and the body. -/
  kept : ∀ before request resp next answer after,
    exchanges = before ++ (request, .ok resp) :: (next, answer) :: after →
      resp.status = .temporaryRedirect ∨ resp.status = .permanentRedirect →
        next.method = request.method ∧ next.body = request.body
  /-- Behind 301, 302 and 303 to a request other than GET and HEAD there are bare GETs only. -/
  changed : ∀ before request resp after,
    exchanges = before ++ (request, .ok resp) :: after →
      resp.status = .movedPermanently ∨ resp.status = .found ∨ resp.status = .seeOther →
        request.method ≠ .get → request.method ≠ .head →
          ∀ later ∈ after, later.1.method = .get ∧ later.1.body = []

variable {allowed : Bool}
variable {exchanges before after : List (Exchange Fault)}
variable {request next : RequestParameters} {answer : Except Fault ClientResponse}
variable {resp : ClientResponse}

/-- A property that every following request inherits holds behind each exchange that has it. -/
theorem inherited (property : RequestParameters → Prop)
    (inherits : ∀ {request resp next}, Follows allowed request resp next →
      property request → property next)
    (chain : exchanges.IsChain (Chained allowed))
    (split : exchanges = before ++ (request, answer) :: after) (first : property request) :
    ∀ later ∈ after, property later.1 := by
  rw [split] at chain
  apply chain.right_of_append.cons_induction fun exchange => property exchange.1
  · rintro earlier later ⟨resp, _, follows⟩ holds
    exact inherits follows holds
  · exact first

/-- A request behind an answer follows it. -/
theorem follows_of_split (chain : exchanges.IsChain (Chained allowed))
    (split : exchanges = before ++ (request, .ok resp) :: (next, answer) :: after) :
    Follows allowed request resp next := by
  rw [split, List.isChain_append_cons_cons] at chain
  rcases chain.2.1 with ⟨resp', same, follows⟩
  cases same
  exact follows

/-- A bare GET is followed by bare GETs. -/
theorem Follows.bareGet (follows : Follows allowed request resp next)
    (bare : request.method = .get ∧ request.body = []) :
    next.method = .get ∧ next.body = [] := by
  have kept := follows.kept (.inr (.inl bare.1))
  exact ⟨kept.1.trans bare.1, kept.2.trans bare.2⟩

/-- What holds between neighbours holds along the chain. -/
theorem safeChain_of_isChain (chain : exchanges.IsChain (Chained allowed))
    (bounded : (exchanges.length : Int) ≤ maxRedirects + 1) :
    SafeChain allowed maxRedirects exchanges where
  bounded := bounded
  secure := by
    intro strict before request answer after split encrypted later member
    have stays := inherited (fun request => request.scheme = .https)
      (fun follows => follows.secure strict) chain split encrypted later member
    simp [stays]
  kept := by
    intro before request resp next answer after split status
    apply (follows_of_split chain split).kept
    rcases status with status | status <;> simp [changesMethod, status]
  changed := by
    intro before request resp after split status noGet noHead
    cases after with
    | nil => simp
    | cons exchange after =>
        have changes : changesMethod resp.status = true := by
          rcases status with status | status | status <;> simp [changesMethod, status]
        have bare := (follows_of_split chain split).changed changes noGet noHead
        have later := inherited (fun request => request.method = .get ∧ request.body = [])
          Follows.bareGet chain (split.trans (List.append_cons ..)) bare
        exact List.forall_mem_cons.mpr ⟨bare, later⟩

/-- Whatever redirects resolve to and whatever the peer answers, a call with a limit that is not
negative ends. What it has the peer do is a safe chain of exchanges that starts with the request,
and the caller gets the answer of the last one. -/
theorem doRequest_safeChain (resolveRedirect : RequestParameters → Bytes → Option ParsedHttpUrl)
    (memberAllowInsecureRedirects : Bool)
    (sendRequest : Peer → RequestParameters → Except Fault ClientResponse × Peer) (peer : Peer)
    (parameters : RequestParameters) (maxRedirects : Int) (limit : 0 ≤ maxRedirects) :
    ∃ exchanges result later,
      (∀ fuel : Nat, maxRedirects < fuel →
        doRequest resolveRedirect memberAllowInsecureRedirects sendRequest fuel parameters
          maxRedirects peer = some (result, later)) ∧
      Trail (Sent sendRequest) peer exchanges later ∧
      exchanges.head?.map Prod.fst = some parameters ∧
      exchanges.getLast?.map (fun exchange => exchange.2.mapError .sending) = some result ∧
      SafeChain memberAllowInsecureRedirects maxRedirects exchanges := by
  rcases doRequestLoop_spec resolveRedirect memberAllowInsecureRedirects sendRequest
      (maxRedirects.toNat + 1) 0 parameters peer limit (by omega) with
    ⟨answer, sent, result, later, run, trail, last, chain, short⟩
  refine ⟨(parameters, answer) :: sent, result, later, fun fuel enough => ?_, trail, rfl, ?_,
    safeChain_of_isChain chain ?_⟩
  · rw [doRequest, if_neg (not_lt.mpr limit)]
    exact doRequestLoop_mono run (by omega)
  · rw [List.getLast?_eq_some_getLast (List.cons_ne_nil _ _), Option.map_some, last]
  · rw [List.length_cons]
    omega

/-- A POST over HTTPS to a peer that records the requests and answers by 307, then by 302 and then
by 200. -/
theorem doRequest_safeChain_post :
    let post : RequestParameters :=
      ⟨.post, .https, Bytes.text "a", Bytes.text "443", [], [], Bytes.text "/form", [1, 2]⟩
    let resolve : RequestParameters → Bytes → Option ParsedHttpUrl := fun parameters location =>
      some ⟨.https, parameters.host, parameters.port, [], [], location⟩
    let sendRequest : List RequestParameters → RequestParameters →
        Except Unit ClientResponse × List RequestParameters := fun requests parameters =>
      (.ok ⟨[.temporaryRedirect, .found].getD requests.length (.other 200), [],
        [(Bytes.text "Location", Bytes.text "/next")]⟩, requests ++ [parameters])
    (doRequest resolve false sendRequest 6 post 5 []).map (fun ended =>
      ended.2.map fun request => (request.method, request.body)) =
        some [(.post, [1, 2]), (.post, [1, 2]), (.get, [])] ∧
    (0 : Int) ≤ 5 ∧
    ∃ exchanges result later,
      (∀ fuel : Nat, (5 : Int) < fuel →
        doRequest resolve false sendRequest fuel post 5 [] = some (result, later)) ∧
      Trail (Sent sendRequest) [] exchanges later ∧
      exchanges.head?.map Prod.fst = some post ∧
      exchanges.getLast?.map (fun exchange => exchange.2.mapError .sending) = some result ∧
      SafeChain false 5 exchanges :=
  ⟨by decide, by decide, doRequest_safeChain _ _ _ _ _ 5 (by decide)⟩

end Run

end HttpClient

end Wan.Web
