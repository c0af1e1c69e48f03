import Linklint.Lib.Interaction
import Linklint.Resolution.OfflineEvidence
import Linklint.Resolution.Refresh

/-!
# The redirect-chain enricher

The walk of a redirect chain over one transport session: every target is
inspected offline and authorized before it is fetched, and the report holds one
outcome per fetched hop and at most one for why the walk stopped. The MIME sniffer
and the scan for redirect parameters are parameters.
-/

namespace Linklint

namespace RedirectChain

open Interaction

def REDIRECT_CHAIN_SOURCE_ID : Text := text "redirect-chain.http"
def REDIRECT_CHAIN_SOURCE_VERSION : Text := text "1.0.0"
def DEFAULT_REDIRECT_CHAIN_MAX_HOPS : Nat := 10
def MAX_REDIRECT_CHAIN_HOPS : Nat := 32
def DEFAULT_REFRESH_MAX_BYTES : Nat := 65536
def MAX_REFRESH_BYTES : Nat := 1048576
def DEFAULT_REFRESH_MAX_DELAY_MS : Rat := 5000
def MAX_REFRESH_DELAY_MS : Rat := 60000
def MAX_ALT_SVC_PROTOCOLS : Nat := 16
def MIME_SNIFF_PREFIX_BYTES : Nat := 1445

def FRESHNESS : EnrichmentFreshness := ⟨.fresh, none⟩

def declaredProvenance : EnrichmentProvenance :=
  .declared ⟨text "@linklint/online.redirect-chain", some REDIRECT_CHAIN_SOURCE_VERSION, none⟩ none

structure SniffedMimeType where
  declaredEssence : Option Text
  computedEssence : Text
  rule : Text

structure OpenRedirectTarget where
  param : Text
  registrableDomain : Text

structure ChainWorld extends ChainApi where
  bodies : CheckBodies
  sniffMimeType : Bytes → Option Text → SniffedMimeType
  /-- `openRedirectParamTargets(query, inputDomainLower, inspectOptions.maxDecodeDepth)` -/
  openRedirectParamTargets : Option Text → Option Text → List OpenRedirectTarget

/-! ### Options -/

/-- `typeof value === "number" && Number.isSafeInteger(value) && value > 0` -/
def safePositive : Option JsNum → Option Nat
  | some value => (value.toNat?).filter fun n => 0 < n && n < 2 ^ 53
  | none => none

def boundedInteger (value : Option JsNum) (fallback maximum : Nat) : Nat :=
  match safePositive value with
  | some n => min n maximum
  | none => fallback

def boundedNumber (value : Option JsNum) (fallback maximum : Rat) : Rat :=
  match value with
  | some (.fin q) => if 0 ≤ q then min q maximum else fallback
  | _ => fallback

structure RedirectChainEnricherOptions where
  method : Option TransportMethod := none
  headers : Option (List (Text × Text)) := none
  maxHops : Option JsNum := none
  maxRefreshBytes : Option JsNum := none
  maxRefreshDelayMs : Option JsNum := none
  inspectOptions : HostVal := .empty

variable (options : RedirectChainEnricherOptions)

def RedirectChainEnricherOptions.requestMethod : TransportMethod := options.method.getD .get

def RedirectChainEnricherOptions.hopLimit : Nat :=
  boundedInteger options.maxHops DEFAULT_REDIRECT_CHAIN_MAX_HOPS MAX_REDIRECT_CHAIN_HOPS

def RedirectChainEnricherOptions.refreshPolicy : RefreshPolicy where
  maxBytes := boundedInteger options.maxRefreshBytes DEFAULT_REFRESH_MAX_BYTES MAX_REFRESH_BYTES
  maxDelayMs :=
    boundedNumber options.maxRefreshDelayMs DEFAULT_REFRESH_MAX_DELAY_MS MAX_REFRESH_DELAY_MS

/-! ### Operations -/

inductive AuthorizationReason where
  | initial
  | transition (kind : TransitionKind)
deriving DecidableEq

structure AuthorizationRequest where
  url : Text
  hop : Nat
  method : TransportMethod
  reason : AuthorizationReason
  fromUrl : Option Text
deriving DecidableEq

structure FetchRequest where
  url : Text
  authorization : DestinationFetchAuthorization
  method : TransportMethod
  headers : Option (List (Text × Text))
deriving DecidableEq

/-- The operations of the walk. -/
inductive ChainOp where
  /-- `context.signal?.aborted === true` -/
  | aborted
  /-- `observedInstant(now)` -/
  | now
  | authorize (request : AuthorizationRequest)
  | fetch (request : FetchRequest)

def ChainAns : ChainOp → Type
  | .aborted => Bool
  | .now => Text
  | .authorize _ => Except Thrown (Option DestinationFetchAuthorization)
  | .fetch _ => Except Thrown SafeFetchOutcome

abbrev ChainProg (α : Type) := Prog ChainOp ChainAns α
abbrev ChainEvent := Event ChainOp ChainAns

def callerAborted : ChainProg Bool := Prog.perform ChainOp.aborted
def observedInstant : ChainProg Text := Prog.perform ChainOp.now

def authorize (request : AuthorizationRequest) :
    ChainProg (Except Thrown (Option DestinationFetchAuthorization)) :=
  Prog.perform (ChainOp.authorize request)

def sessionFetch (request : FetchRequest) : ChainProg (Except Thrown SafeFetchOutcome) :=
  Prog.perform (ChainOp.fetch request)

/-! ### Hops and stops -/

structure ChainHop where
  url : Text
  hop : Nat
  method : TransportMethod
  observedAt : Text
  response : SafeFetchResponse
  transportEvidence : TransportEvidence
  offline : InspectResult
  transition : Option FollowTransition

def urlSubject (url : Text) : EnrichmentSubject := ⟨.url, url⟩

def evidenceOf (type : String) (url observedAt : Text) (payload : List (Text × Value)) :
    EnrichmentEvidence where
  type := text type
  subject := urlSubject url
  observedAt
  provenance := declaredProvenance
  freshness := FRESHNESS
  payload := .obj payload

def optionalField {α : Type} (name : String) (value : α → Value) (field : Option α) :
    List (Text × Value) :=
  (field.map fun a => (text name, value a)).toList

def portValue (port : Nat) : Value := .num (.ofNat port)

def transportPayload (evidence : TransportEvidence) : List (Text × Value) :=
  (text "hop", .num (.ofNat evidence.hop))
    :: (optionalField "protocol" Value.str evidence.protocol
      ++ optionalField "hostname" Value.str evidence.hostname
      ++ optionalField "port" portValue evidence.port
      ++ optionalField "resolvedAddresses" textsValue evidence.resolvedAddresses
      ++ optionalField "selectedAddress" Value.str evidence.selectedAddress)

def degradationOutcome (url observedAt : Text) (status : StopStatus) (code : Text) (retryable : Bool)
    (details : Option Value) (offline : Option InspectResult)
    (suppliedEvidence : List EnrichmentEvidence) : EnrichmentOutcome where
  sourceId := REDIRECT_CHAIN_SOURCE_ID
  layer := .resolution
  status := status.outcome
  subject := urlSubject url
  observedAt
  provenance := declaredProvenance
  freshness := FRESHNESS
  evidence := (suppliedEvidence ++ (offline.map fun offline =>
    evidenceOf "resolution.target-inspection" url observedAt
      [(text "offlineInspection", offlineInspection offline)]).toList).map some
  findings := []
  cause := some { code, retryable := some retryable, details }

def RETRYABLE_TRANSPORT_CAUSES : List TransportCauseCode :=
  [.dnsTimeout, .dnsError, .connectRefused, .connectTimeout, .connectError, .tlsHandshake,
    .httpReset, .httpTimeout, .httpError, .timeout]

def retryableTransportCause (code : TransportCauseCode) : Bool :=
  RETRYABLE_TRANSPORT_CAUSES.contains code

def transportDegradation (outcome : SafeFetchOutcome) (status : StopStatus) (cause : TransportCause)
    (offline : InspectResult) : EnrichmentOutcome :=
  degradationOutcome outcome.subject.value outcome.observedAt status cause.code.name
    (retryableTransportCause cause.code) cause.details (some offline)
    [{ evidenceOf "transport.attempt" outcome.subject.value outcome.observedAt
        (transportPayload outcome.evidence) with subject := outcome.subject }]

/-! ### The walk -/

/-- The variables of the loop. -/
structure WalkState where
  hops : List ChainHop
  seen : List Text
  currentUrl : Text
  currentOffline : InspectResult
  reason : AuthorizationReason
  fromUrl : Option Text

/-- What the loop leaves behind: the fetched hops and why it stopped. -/
structure WalkEnd where
  hops : List ChainHop
  stops : List EnrichmentOutcome

section
variable (world : ChainWorld)

def inspectTarget (url : Text) : Except Thrown InspectResult :=
  inspect world.platform world.bodies (.string url) options.inspectOptions

/-- The walk ends at the current target. -/
def stopAt (s : WalkState) (status : StopStatus) (code : String) (details : List (Text × Value)) :
    ChainProg (Except Thrown WalkEnd) := do
  let observedAt ← observedInstant
  let details := if details = [] then none else some (Value.obj details)
  return .ok { hops := s.hops, stops := [degradationOutcome s.currentUrl observedAt status (text code)
    false details (some s.currentOffline) []] }

def WalkState.nextHop (s : WalkState) : Nat := s.hops.length + 1

def WalkState.request (s : WalkState) : AuthorizationRequest where
  url := s.currentUrl
  hop := s.nextHop
  method := options.requestMethod
  reason := s.reason
  fromUrl := s.fromUrl

/-- The hop a successful fetch adds. -/
def WalkState.hop (s : WalkState) (outcome : SafeFetchOutcome) (response : SafeFetchResponse)
    (transition : Option FollowTransition) : ChainHop where
  url := s.currentUrl
  hop := s.nextHop
  method := options.requestMethod
  observedAt := outcome.observedAt
  response
  transportEvidence := outcome.evidence
  offline := s.currentOffline
  transition

/-- The walk ends at a fetch that did not succeed. -/
def WalkState.cutByTransport (s : WalkState) (outcome : SafeFetchOutcome) (status : StopStatus)
    (cause : TransportCause) : WalkEnd where
  hops := s.hops
  stops := [transportDegradation outcome status cause s.currentOffline]

/-- The walk ends at a response whose transition cannot be followed. -/
def stopTransition (hops : List ChainHop) (s : WalkState) (status : StopStatus) (code : Text)
    (details : Option Value) (targetUrl : Option Text) : ChainProg (Except Thrown WalkEnd) :=
  match targetUrl.elim (Except.ok s.currentOffline) (inspectTarget options world) with
  | .error e => return .error e
  | .ok offline => do
      let observedAt ← observedInstant
      return .ok { hops, stops := [degradationOutcome (targetUrl.getD s.currentUrl) observedAt status
        code false details (some offline) []] }

/-- The state the walk goes on with. -/
def WalkState.advance (s : WalkState) (hop : ChainHop) (transition : FollowTransition)
    (offline : InspectResult) : WalkState where
  hops := s.hops ++ [hop]
  seen := s.currentUrl :: s.seen
  currentUrl := transition.targetUrl
  currentOffline := offline
  reason := .transition transition.kind
  fromUrl := some s.currentUrl

def walk (s : WalkState) : ChainProg (Except Thrown WalkEnd) := do
  if ← callerAborted then stopAt s .skipped "caller-aborted" []
  else if s.seen.contains s.currentUrl then
    stopAt s .failure "redirect-loop" [(text "url", .str s.currentUrl)]
  else if options.hopLimit ≤ s.hops.length then
    stopAt s .failure "hop-limit" [(text "maxHops", .num (.ofNat options.hopLimit))]
  else
    match ← authorize (s.request options) with
    | .error _ => stopAt s .failure "authorization-error" []
    | .ok none => stopAt s .skipped "authorization-denied" [(text "hop", .num (.ofNat s.nextHop))]
    | .ok (some authorization) =>
        match ← sessionFetch ⟨s.currentUrl, authorization, options.requestMethod, options.headers⟩ with
        | .error e => return .error e
        | .ok outcome =>
            match outcome.result with
            | .blocked cause => return .ok (s.cutByTransport outcome .skipped cause)
            | .incomplete cause => return .ok (s.cutByTransport outcome .failure cause)
            | .success response =>
                match transitionFor world.toChainApi response s.currentUrl options.requestMethod
                    options.refreshPolicy with
                | .terminal => return .ok ⟨s.hops ++ [s.hop options outcome response none], []⟩
                | .stop status code details targetUrl =>
                    stopTransition options world (s.hops ++ [s.hop options outcome response none]) s
                      status code details targetUrl
                | .follow transition =>
                    match inspectTarget options world transition.targetUrl with
                    | .error e => return .error e
                    | .ok offline =>
                        walk (s.advance (s.hop options outcome response (some transition)) transition
                          offline)
termination_by options.hopLimit - s.hops.length
decreasing_by
  simp only [WalkState.advance, List.length_append, List.length_cons, List.length_nil]
  omega

end

end RedirectChain

end Linklint
