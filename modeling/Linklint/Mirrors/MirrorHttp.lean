import Linklint.Js.Url
import Linklint.Lib.Interaction
import Linklint.Transport.Address
import Linklint.Transport.Types

/-!
# Mirror downloads

The engine that downloads a feed with the caller's credential: a bounded walk of
a redirect chain that polices every hop and leaves the credential behind at the
first change of origin.
-/

namespace Linklint

open Interaction

inductive MirrorError where
  | failure (code : TransportCauseCode) (detail : Option Text)
  | abort

/-- What the socket yields: an error, or a head and what reading the body under the budgets gives. -/
inductive Exchange where
  | failed (error : MirrorError)
  | answered (status : Nat) (fieldCount : Nat) (headers : Headers) (body : Except MirrorError Text)

structure MirrorHttpResponse where
  status : Nat
  headers : Headers
  body : Text
  hopOrigins : List Text

inductive HopOutcome where
  | final (status : Nat) (headers : Headers) (body : Text)
  | redirect (location : Text)

/-- The operations of a download. -/
inductive MirrorOp where
  /-- `isAborted(request.signal)` -/
  | aborted
  /-- the deadline has passed -/
  | timedOut
  | send (url : Url) (headers : Headers)

def MirrorAns : MirrorOp → Type
  | .aborted => Bool
  | .timedOut => Bool
  | .send _ _ => Exchange

abbrev MirrorProg (α : Type) := Prog MirrorOp MirrorAns α
abbrev MirrorEvent := Event MirrorOp MirrorAns

def callerAborted : MirrorProg Bool := Prog.perform MirrorOp.aborted
def deadlinePassed : MirrorProg Bool := Prog.perform MirrorOp.timedOut

def exchange (url : Url) (headers : Headers) : MirrorProg Exchange :=
  Prog.perform (MirrorOp.send url headers)

def MIRROR_MAX_REDIRECT_HOPS : Nat := 3

def REDIRECT_STATUSES : List Nat := [301, 302, 303, 307, 308]

def CROSS_ORIGIN_SAFE_HEADERS : List Text :=
  [text "accept", text "accept-encoding", text "user-agent"]

def MIRROR_ACCEPT : Text := text "text/csv, text/plain;q=0.9, application/zip;q=0.8, */*;q=0.5"
def MIRROR_ACCEPT_ENCODING : Text := text "gzip, deflate, br"

/-- `HEADER_NAME` of one code unit. -/
def isTokenUnit (u : CodeUnit) : Bool :=
  isDigit u || isAsciiLetter u || (text "!#$%&'*+-.^_|~").contains u || u == 0x60

/-- `FORBIDDEN_HEADER_VALUE` of one code unit. -/
def isForbiddenUnit (u : CodeUnit) : Bool := u == 0 || u == 13 || u == 10 || u == 0x7F

def requestHeader (headers : Headers) (field : Text × Text) : Except MirrorError Headers :=
  let (name, value) := field
  if name = [] ∨ !name.all isTokenUnit then
    .error (.failure .httpMalformed (some (text "invalid request header name")))
  else if value.any isForbiddenUnit then
    .error (.failure .httpMalformed (some (text "invalid value for " ++ name.map asciiLower)))
  else .ok (setHeader headers (name.map asciiLower) value)

/-- The caller's headers over the defaults. -/
def requestHeaders (caller : List (Text × Text)) : Except MirrorError Headers :=
  caller.foldlM requestHeader
    [(text "accept", MIRROR_ACCEPT), (text "accept-encoding", MIRROR_ACCEPT_ENCODING)]

/-- The header map that may cross an origin boundary. -/
def crossOriginHeaders (headers : Headers) : Headers :=
  headers.filter fun field => CROSS_ORIGIN_SAFE_HEADERS.contains field.1

structure NodeMirrorHttpClient where
  maxResponseHeaderFields : Nat
  classify : Text → TransportAddressDecision
  allowInsecureUrl : Bool

/-- The redirect decision, made before the body is read. -/
def readResponse (client : NodeMirrorHttpClient) : Exchange → Except MirrorError HopOutcome
  | .failed error => .error error
  | .answered status fieldCount headers body =>
      if client.maxResponseHeaderFields < fieldCount then
        .error (.failure .responseHeadersTooLarge none)
      else
        let location := (headers.lookup (text "location")).getD []
        if REDIRECT_STATUSES.contains status && location != [] then .ok (.redirect location)
        else body.map fun body => .final status headers body

section
variable (api : UrlApi) (client : NodeMirrorHttpClient)

/-- Parse a download URL and refuse the shapes that must never reach a socket. -/
def providerUrl (raw : Text) : Except MirrorError Url :=
  match api.parse raw with
  | none => .error (.failure .invalidUrl none)
  | some url =>
      if url.protocol ≠ text "https:"
          ∧ ¬(url.protocol = text "http:" ∧ client.allowInsecureUrl = true) then
        .error (.failure .unsupportedScheme (some url.protocol))
      else if url.username ≠ [] ∨ url.password ≠ [] then .error (.failure .urlCredentials none)
      else .ok url.withoutHash

def hopUrl (base : Url) (location : Text) : Except MirrorError Url :=
  match api.resolve location base with
  | none => .error (.failure .invalidUrl none)
  | some resolved => providerUrl api client (api.href resolved)

/-- An IP-literal host is classified here, since no lookup will see it. -/
def literalRefusal (url : Url) : Option MirrorError :=
  let host := unbracket url.hostname
  let decision := client.classify host
  if (isIP host).isSome ∧ decision.allowed = false then
    let category := (decision.category.getD .invalid).name
    some (.failure .prohibitedAddress (some (host ++ text " (" ++ category ++ text ")")))
  else none

def send (url : Url) (headers : Headers) : MirrorProg (Except MirrorError HopOutcome) :=
  match literalRefusal client url with
  | some error => return .error error
  | none => do
      let answer ← exchange url headers
      return readResponse client answer

/-- Walk the redirect chain with one origin ledger and one shrinking header map. -/
def follow (url : Url) (headers : Headers) (hopOrigins : List Text) (followed : Nat) :
    MirrorProg (Except MirrorError MirrorHttpResponse) := do
  let hopOrigins := hopOrigins ++ [url.origin]
  match ← send client url headers with
  | .error error => return .error error
  | .ok (.final status headers body) => return .ok { status, headers, body, hopOrigins }
  | .ok (.redirect location) =>
      if MIRROR_MAX_REDIRECT_HOPS ≤ followed then
        return .error (.failure .hopLimit (some (text "3")))
      else
        match hopUrl api client url location with
        | .error error => return .error error
        | .ok next =>
            let headers := if next.origin ≠ url.origin then crossOriginHeaders headers else headers
            follow next headers hopOrigins (followed + 1)
termination_by MIRROR_MAX_REDIRECT_HOPS - followed

/-- How an error leaves the download: a cancellation first, then the deadline. -/
def requestError (error : MirrorError) : MirrorProg (Except MirrorError MirrorHttpResponse) := do
  if ← callerAborted then return .error .abort
  else if ← deadlinePassed then return .error (.failure .httpTimeout none)
  else return .error error

def request (raw : Text) (caller : List (Text × Text)) :
    MirrorProg (Except MirrorError MirrorHttpResponse) := do
  if ← callerAborted then return .error .abort
  else
    match providerUrl api client raw, requestHeaders caller with
    | .error error, _ => return .error error
    | .ok _, .error error => return .error error
    | .ok url, .ok headers =>
        match ← follow api client url headers [] 0 with
        | .ok response => return .ok response
        | .error error => requestError error

end

end Linklint
