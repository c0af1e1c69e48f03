import Linklint.Js.Url
import Linklint.Platform
import Linklint.Transport.Outcome

/-!
# Policy and shape of a request

The budgets of a session, the headers a destination is sent, and the rules a
request passes before any name is resolved.
-/

namespace Linklint

structure TransportPolicy where
  maxHops : Nat
  maxResponseBytes : Nat
  maxDecompressedBytes : Nat
  maxTotalTimeMs : Nat
  minThroughputBytes : Nat
  minThroughputWindowMs : Nat
  maxResponseHeaderBytes : Nat
  maxResponseHeaderFields : Nat

def DEFAULT_TRANSPORT_POLICY : TransportPolicy where
  maxHops := 10
  maxResponseBytes := 1048576
  maxDecompressedBytes := 4194304
  maxTotalTimeMs := 10000
  minThroughputBytes := 512
  minThroughputWindowMs := 2000
  maxResponseHeaderBytes := 16384
  maxResponseHeaderFields := 128

structure SafeFetchRequest where
  url : Text
  authorization : Option DestinationFetchAuthorization
  /-- any text, as a caller outside the types may pass it -/
  method : Option Text := none
  headers : List (Text × Text) := []
  sameOriginReferer : Option Text := none

/-- What the boundary takes from its platform. -/
structure TransportApi where
  urls : UrlApi
  platform : Platform
  /-- `date.toISOString()` of an instant -/
  iso : Int → Text

/-- The port a request connects to. -/
def effectivePort (url : Url) : Nat :=
  if url.port ≠ [] then numeralValue 10 url.port
  else if url.protocol = text "https:" then 443 else 80

def FORWARDED_REQUEST_HEADERS : List Text :=
  [text "accept", text "accept-language", text "user-agent"]

def MAX_REFERER_LENGTH : Nat := 2048

/-- `/[\0\r\n]/` of one code unit. -/
def isSplittingUnit (u : CodeUnit) : Bool := u == 0 || u == 13 || u == 10

section
variable (api : TransportApi)

/-- A fresh header set; the caller's headers are never spread into it. -/
def destinationHeaders (host : Text) (input : List (Text × Text)) (referer : Option Text) :
    Headers :=
  let forwarded := input.foldl
    (fun (headers : Headers) (field : Text × Text) =>
      let normalized := api.platform.toLowerCase field.1
      if FORWARDED_REQUEST_HEADERS.contains normalized && !field.2.any isSplittingUnit then
        setHeader headers normalized field.2
      else headers)
    [(text "host", host), (text "accept-encoding", text "gzip, deflate, br")]
  match referer with
  | none => forwarded
  | some value => setHeader forwarded (text "referer") value

/-- The referrer to send, or `none` when the candidate is not of the destination's origin. -/
def sameOriginRefererValue (destination : Url) (candidate : Text) : Option Text :=
  if MAX_REFERER_LENGTH < candidate.length then none
  else
    match api.urls.parse candidate with
    | none => none
    | some referer =>
        if referer.protocol ≠ text "http:" ∧ referer.protocol ≠ text "https:" then none
        else if referer.username ≠ [] ∨ referer.password ≠ [] then none
        else if referer.origin ≠ destination.origin then none
        else
          let href := api.urls.href referer.withoutHash
          if MAX_REFERER_LENGTH < href.length ∨ href.any isSplittingUnit = true then none
          else some href

/-- A destination that passed every rule on the shape of its request. -/
structure Destination (request : SafeFetchRequest) where
  /-- without its fragment -/
  url : Url
  method : TransportMethod
  referer : Option Text
  parsed : ∃ written, api.urls.parse request.url = some written ∧ url = written.withoutHash
  scheme : url.protocol = text "http:" ∨ url.protocol = text "https:"
  noUsername : url.username = []
  noPassword : url.password = []

namespace Destination
variable {api} {request : SafeFetchRequest} (destination : Destination api request)

def href : Text := api.urls.href destination.url
def protocol : Text := destination.url.protocol
def hostname : Text := unbracket destination.url.hostname
def port : Nat := effectivePort destination.url
def isHttps : Prop := destination.protocol = text "https:"

instance : Decidable destination.isHttps := by
  unfold isHttps
  infer_instance

end Destination

def blockedCause (code : TransportCauseCode) (details : Option Value := none) : TransportCause :=
  { code, details }

/-- `request.method`, absent for GET. -/
def requestMethod (request : SafeFetchRequest) : Option TransportMethod :=
  match request.method with
  | none => some .get
  | some name =>
      if name = text "GET" then some .get else if name = text "HEAD" then some .head else none

/-- The rules on the shape of a request, in their order. -/
def requestDestination (request : SafeFetchRequest) :
    Except TransportCause (Destination api request) :=
  match parsed : api.urls.parse request.url with
  | none => .error (blockedCause .invalidUrl)
  | some url =>
      if scheme : url.protocol ≠ text "http:" ∧ url.protocol ≠ text "https:" then
        .error (blockedCause .unsupportedScheme
          (some (.obj [(text "scheme", .str url.protocol)])))
      else
        match requestMethod request with
        | none => .error (blockedCause .unsupportedMethod)
        | some method =>
            if userinfo : url.username ≠ [] ∨ url.password ≠ [] then
              .error (blockedCause .urlCredentials)
            else
              let admitted (referer : Option Text) : Destination api request :=
                { url := url.withoutHash, method, referer
                  parsed := ⟨url, parsed, rfl⟩
                  scheme := by
                    have either := not_and_or.mp scheme
                    exact either.imp not_not.mp not_not.mp
                  noUsername := not_not.mp (not_or.mp userinfo).1
                  noPassword := not_not.mp (not_or.mp userinfo).2 }
              match request.sameOriginReferer with
              | none => .ok (admitted none)
              | some candidate =>
                  match sameOriginRefererValue api url candidate with
                  | none => .error (blockedCause .refererNotSameOrigin)
                  | some value => .ok (admitted (some value))

end

end Linklint
