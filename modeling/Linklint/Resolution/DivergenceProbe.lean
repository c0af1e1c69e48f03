import Linklint.Inspect
import Linklint.Lib.Interaction
import Linklint.Resolution.MimeSniff
import Mathlib.Data.List.Dedup

/-!
# The divergence probe

One URL fetched once for each controlled variant, every fetch under an
authorization of its own and all of them over one transport session. What the
responses disagree on is evidence; the probe raises no finding.
-/

namespace Linklint

namespace DivergenceProbe

open Interaction RedirectChain

def DIVERGENCE_PROBE_SOURCE_ID : Text := text "divergence-probe.http"
def DIVERGENCE_PROBE_SOURCE_VERSION : Text := text "1.0.0"
def DEFAULT_DIVERGENCE_PROBE_MAX_BODY_BYTES : Nat := 65536
def MAX_DIVERGENCE_PROBE_BODY_BYTES : Nat := 1048576
def MAX_PROBE_URL_LENGTH : Nat := 16384

def FRESHNESS : EnrichmentFreshness := ⟨.fresh, none⟩

def declaredProvenance : EnrichmentProvenance :=
  .declared ⟨text "@linklint/online.divergence-probe", some DIVERGENCE_PROBE_SOURCE_VERSION, none⟩
    none

def ALT_USER_AGENT : Text :=
  text "Mozilla/5.0 (Windows NT 10.0; Win64; x64) AppleWebKit/537.36 "
    ++ text "(KHTML, like Gecko) Chrome/124.0 Safari/537.36"

/-! ### Variants -/

inductive DivergenceProbeRefererMode where
  | none
  | sameOriginRoot
deriving DecidableEq

structure DivergenceProbeVariant where
  label : Text
  headers : List (Text × Text)
  referer : DivergenceProbeRefererMode := .none
deriving DecidableEq

def DEFAULT_DIVERGENCE_VARIANTS : List DivergenceProbeVariant :=
  [{ label := text "baseline", headers := [] },
   { label := text "alt-user-agent", headers := [(text "user-agent", ALT_USER_AGENT)] },
   { label := text "same-origin-referer", headers := [], referer := .sameOriginRoot }]

structure DivergenceProbeEnricherOptions where
  method : Option TransportMethod := none
  variants : Option (List DivergenceProbeVariant) := none
  maxBodyBytes : Option JsNum := none
  inspectOptions : HostVal := .empty

variable (options : DivergenceProbeEnricherOptions)

def DivergenceProbeEnricherOptions.probeMethod : TransportMethod :=
  if options.method = some .head then .head else .get

def DivergenceProbeEnricherOptions.probeVariants : List DivergenceProbeVariant :=
  options.variants.getD DEFAULT_DIVERGENCE_VARIANTS

def DivergenceProbeEnricherOptions.bodyLimit : Nat :=
  boundedInteger options.maxBodyBytes DEFAULT_DIVERGENCE_PROBE_MAX_BODY_BYTES
    MAX_DIVERGENCE_PROBE_BODY_BYTES

structure ProbeWorld where
  urls : UrlApi
  platform : Platform
  bodies : CheckBodies
  /-- `new TextDecoder("utf-8", { fatal: false }).decode(prefix)` -/
  decodeUtf8 : Bytes → Text

/-! ### Summaries -/

structure DivergenceProbeVariantSummary where
  label : Text
  referer : Option Text
  status : JsNum
  statusClass : JsNum
  location : Option Text
  declaredEssence : Option Text
  computedEssence : Option Text
  challenge : Option Text
deriving DecidableEq

inductive DivergenceDimension where
  | statusClass
  | location
  | declaredEssence
  | computedEssence
deriving DecidableEq

def DivergenceDimension.name : DivergenceDimension → Text
  | .statusClass => text "statusClass"
  | .location => text "location"
  | .declaredEssence => text "declaredEssence"
  | .computedEssence => text "computedEssence"

def DIVERGENCE_DIMENSIONS : List DivergenceDimension :=
  [.statusClass, .location, .declaredEssence, .computedEssence]

/-- A value of one dimension. -/
inductive DimensionValue where
  | number (n : JsNum)
  | text (s : Option Text)
deriving DecidableEq

/-- `summary[dimension]` -/
def DivergenceProbeVariantSummary.get (summary : DivergenceProbeVariantSummary) :
    DivergenceDimension → DimensionValue
  | .statusClass => .number summary.statusClass
  | .location => .text summary.location
  | .declaredEssence => .text summary.declaredEssence
  | .computedEssence => .text summary.computedEssence

structure ChallengeMarker where
  id : Text
  needles : List Text

def CHALLENGE_MARKERS : List ChallengeMarker :=
  [⟨text "cloudflare-challenge", [text "cf-chl", text "cf-mitigated", text "just a moment...",
      text "challenge-platform"]⟩,
   ⟨text "recaptcha", [text "g-recaptcha", text "recaptcha/api.js"]⟩,
   ⟨text "hcaptcha", [text "h-captcha", text "hcaptcha.com/1/api.js"]⟩]

/-- `Math.floor(status / 100)` -/
def statusClassOf : JsNum → JsNum
  | .fin q => .fin ((q / 100).floor : Rat)
  | other => other

section
variable (world : ProbeWorld)

def detectChallenge (body : Bytes) : Option Text :=
  let text := world.platform.toLowerCase (world.decodeUtf8 body)
  (CHALLENGE_MARKERS.find? fun marker => marker.needles.any fun needle =>
    decide (needle <:+: text)).map fun marker => marker.id

def singleHeaderValue (headers : ResponseHeaders) (name : String) : Option Text :=
  match (headers.filter fun field => world.platform.toLowerCase field.1 == text name).flatMap Prod.snd with
  | [value] => if value.trim = [] then none else some value.trim
  | _ => none

/-- `inspect(value, inspectOptions).parsed?.registrableDomain ?? null` -/
def registrableDomainOf (value : Text) : Except Thrown (Option Text) :=
  (inspect world.platform world.bodies (.string value) options.inspectOptions).map fun result =>
    result.parsed.bind fun parsed => parsed.registrableDomain

def locationRegistrableDomain (response : SafeFetchResponse) (requestUrl : Text) :
    Except Thrown (Option Text) :=
  match singleHeaderValue world response.headers "location" with
  | none => .ok none
  | some location =>
      match (world.urls.parse requestUrl).bind (world.urls.resolve location) with
      | none => .ok none
      | some absolute => registrableDomainOf options world (world.urls.href absolute)

def summarize (label : Text) (referer : Option Text) (response : SafeFetchResponse)
    (requestUrl : Text) : Except Thrown DivergenceProbeVariantSummary :=
  let statusClass := statusClassOf response.status
  let declared := singleHeaderValue world response.headers "content-type"
  let body := response.body.take options.bodyLimit
  let bodyPresent := options.probeMethod ≠ .head ∧ body ≠ []
  let sniffed := MimeSniff.sniffMimeType world.platform body declared
  let location :=
    if statusClass = .ofNat 3 then locationRegistrableDomain options world response requestUrl
    else .ok none
  location.map fun location =>
    { label, referer, status := response.status, statusClass, location
      declaredEssence := (MimeSniff.sniffMimeType world.platform (if bodyPresent then body else [])
        declared).declaredEssence
      computedEssence := if bodyPresent then some sniffed.computedEssence else none
      challenge := if bodyPresent then detectChallenge world body else none }

end

/-! ### The verdict -/

section
variable (summaries : List DivergenceProbeVariantSummary)

def divergentAmong : List DivergenceDimension :=
  DIVERGENCE_DIMENSIONS.filter fun dimension =>
    1 < (summaries.map fun summary => summary.get dimension).dedup.length

/-- `summaries.length >= 2` -/
def comparable : Bool := 2 ≤ summaries.length

def divergentDimensions : List DivergenceDimension :=
  if comparable summaries then divergentAmong summaries else []

def divergent : Option Bool :=
  if comparable summaries then some (0 < (divergentDimensions summaries).length) else none

end

/-! ### Outcomes -/

def urlSubject (url : Text) : EnrichmentSubject := ⟨.url, url⟩

def evidenceOf (type : String) (url observedAt : Text) (payload : List (Text × Value)) :
    EnrichmentEvidence where
  type := text type
  subject := urlSubject url
  observedAt
  provenance := declaredProvenance
  freshness := FRESHNESS
  payload := .obj payload

def probeOutcome (status : OutcomeStatus) (url observedAt : Text)
    (evidence : List EnrichmentEvidence) (cause : Option EnrichmentCause) : EnrichmentOutcome where
  sourceId := DIVERGENCE_PROBE_SOURCE_ID
  layer := .resolution
  status
  subject := urlSubject url
  observedAt
  provenance := declaredProvenance
  freshness := FRESHNESS
  evidence := evidence.map some
  findings := []
  cause

/-- `{ ...summary }` -/
def summaryFields (summary : DivergenceProbeVariantSummary) : List (Text × Value) :=
  [(text "label", .str summary.label), (text "referer", nullable Value.str summary.referer),
    (text "status", .num summary.status), (text "statusClass", .num summary.statusClass),
    (text "location", nullable Value.str summary.location),
    (text "declaredEssence", nullable Value.str summary.declaredEssence),
    (text "computedEssence", nullable Value.str summary.computedEssence),
    (text "challenge", nullable Value.str summary.challenge)]

def variantOutcome (url observedAt : Text) (summary : DivergenceProbeVariantSummary) :
    EnrichmentOutcome :=
  probeOutcome .success url observedAt
    [evidenceOf "resolution.variant-response" url observedAt (summaryFields summary)] none

def challengeOutcome (url observedAt : Text) (summary : DivergenceProbeVariantSummary) :
    EnrichmentOutcome :=
  let marker := nullable Value.str summary.challenge
  probeOutcome .skipped url observedAt
    [evidenceOf "resolution.challenge" url observedAt
      [(text "variant", .str summary.label), (text "marker", marker),
        (text "status", .num summary.status)]]
    (some { code := text "challenge-gate", retryable := some false
            details := some (.obj [(text "variant", .str summary.label), (text "marker", marker)]) })

def divergenceOutcome (input observedAt : Text) (summaries : List DivergenceProbeVariantSummary) :
    EnrichmentOutcome :=
  probeOutcome .success input observedAt
    [evidenceOf "resolution.divergence" input observedAt
      [(text "variants", .arr (summaries.map fun summary => some (.obj (summaryFields summary)))),
        (text "divergent", nullable Value.bool (divergent summaries)),
        (text "divergentDimensions",
          textsValue ((divergentDimensions summaries).map fun dimension => dimension.name))]]
    none

def degradationOutcome (url observedAt : Text) (status : StopStatus) (code : Text)
    (retryable : Bool) (details : Option Value) (suppliedEvidence : List EnrichmentEvidence) :
    EnrichmentOutcome :=
  probeOutcome status.outcome url observedAt suppliedEvidence
    (some { code, retryable := some retryable, details })

/-- `{ ...fields, [key]: value }` -/
def setMember (fields : List (Text × Value)) (member : Text × Value) : List (Text × Value) :=
  if fields.any (fun field => field.1 == member.1) then
    fields.map fun field => if field.1 = member.1 then member else field
  else fields ++ [member]

/-- `{ ...fields, ...(details ?? {}) }` -/
def spread (fields : List (Text × Value)) : Option Value → List (Text × Value)
  | some (.obj details) => details.foldl setMember fields
  | _ => fields

def transportDegradation (outcome : SafeFetchOutcome) (status : StopStatus) (cause : TransportCause)
    (variant : Text) : EnrichmentOutcome :=
  degradationOutcome outcome.subject.value outcome.observedAt status cause.code.name
    (retryableTransportCause cause.code)
    (some (.obj (spread [(text "variant", .str variant)] cause.details)))
    [{ evidenceOf "transport.attempt" outcome.subject.value outcome.observedAt
        (transportPayload outcome.evidence) with subject := outcome.subject }]

/-! ### The probe -/

structure DivergenceProbeAuthorizationRequest where
  url : Text
  hop : Nat
  method : TransportMethod
  variant : Text
deriving DecidableEq

structure VariantFetch where
  url : Text
  authorization : DestinationFetchAuthorization
  method : TransportMethod
  headers : Option (List (Text × Text))
  sameOriginReferer : Option Text
deriving DecidableEq

/-- A session of the transport. -/
abbrev Session := Nat

/-- The operations of the probe. -/
inductive ProbeOp where
  | createSession
  /-- `observedInstant(now)` -/
  | now
  | authorize (request : DivergenceProbeAuthorizationRequest)
  | fetch (session : Session) (request : VariantFetch)

def ProbeAns : ProbeOp → Type
  | .createSession => Session
  | .now => Text
  | .authorize _ => Except Thrown (Option DestinationFetchAuthorization)
  | .fetch _ _ => Except Thrown SafeFetchOutcome

abbrev ProbeProg (α : Type) := Prog ProbeOp ProbeAns α
abbrev ProbeEvent := Event ProbeOp ProbeAns

def createSession : ProbeProg Session := Prog.perform ProbeOp.createSession
def observedInstant : ProbeProg Text := Prog.perform ProbeOp.now

def authorize (request : DivergenceProbeAuthorizationRequest) :
    ProbeProg (Except Thrown (Option DestinationFetchAuthorization)) :=
  Prog.perform (ProbeOp.authorize request)

def sessionFetch (session : Session) (request : VariantFetch) :
    ProbeProg (Except Thrown SafeFetchOutcome) :=
  Prog.perform (ProbeOp.fetch session request)

section
variable (world : ProbeWorld)

def canonicalHttpUrl (value : Text) : Option Text := do
  let url ← world.urls.parse value
  if !isHttp url.protocol ∨ MAX_PROBE_URL_LENGTH < (world.urls.href url).length then none
  else return world.urls.href url.withoutHash

def variantReferer (url : Text) (variant : DivergenceProbeVariant) : Option Text :=
  match variant.referer with
  | .none => none
  | .sameOriginRoot => (world.urls.parse url).map fun url => url.origin ++ text "/"

variable (url : Text)

def requestFor (hop : Nat) (variant : DivergenceProbeVariant) :
    DivergenceProbeAuthorizationRequest where
  url
  hop
  method := options.probeMethod
  variant := variant.label

def fetchVariant (authorization : DestinationFetchAuthorization)
    (variant : DivergenceProbeVariant) : VariantFetch where
  url
  authorization
  method := options.probeMethod
  headers := if variant.headers = [] then none else some variant.headers
  sameOriginReferer := variantReferer world url variant

/-- What the loop has gathered. -/
structure ProbeState where
  outcomes : List EnrichmentOutcome
  successfulSummaries : List DivergenceProbeVariantSummary

def ProbeState.push (s : ProbeState) (outcome : EnrichmentOutcome) : ProbeState :=
  { s with outcomes := s.outcomes ++ [outcome] }

def authorizationErrorOutcome (observedAt : Text) (variant : DivergenceProbeVariant) :
    EnrichmentOutcome :=
  degradationOutcome url observedAt .failure (text "authorization-error") false
    (some (.obj [(text "variant", .str variant.label)])) []

def authorizationDeniedOutcome (observedAt : Text) (hop : Nat) (variant : DivergenceProbeVariant) :
    EnrichmentOutcome :=
  degradationOutcome url observedAt .skipped (text "authorization-denied") false
    (some (.obj [(text "variant", .str variant.label), (text "hop", .num (.ofNat hop))])) []

/-- What a summary adds. -/
def ProbeState.summarized (s : ProbeState) (observedAt : Text)
    (summary : DivergenceProbeVariantSummary) : ProbeState :=
  if summary.challenge ≠ none then s.push (challengeOutcome url observedAt summary)
  else
    { outcomes := s.outcomes ++ [variantOutcome url observedAt summary]
      successfulSummaries := s.successfulSummaries ++ [summary] }

/-- What a fetch adds. -/
def ProbeState.arrived (s : ProbeState) (variant : DivergenceProbeVariant)
    (fetched : SafeFetchOutcome) : Except Thrown ProbeState :=
  match fetched.result with
  | .blocked cause => .ok (s.push (transportDegradation fetched .skipped cause variant.label))
  | .incomplete cause => .ok (s.push (transportDegradation fetched .failure cause variant.label))
  | .success response =>
      (summarize options world variant.label (variantReferer world url variant) response url).map
        (s.summarized url fetched.observedAt)

/-- One turn of the loop. -/
def probeVariant (session : Session) (hop : Nat) (variant : DivergenceProbeVariant)
    (s : ProbeState) : ProbeProg (Except Thrown ProbeState) := do
  match ← authorize (requestFor options url hop variant) with
  | .error _ =>
      let observedAt ← observedInstant
      return .ok (s.push (authorizationErrorOutcome url observedAt variant))
  | .ok none =>
      let observedAt ← observedInstant
      return .ok (s.push (authorizationDeniedOutcome url observedAt hop variant))
  | .ok (some authorization) =>
      match ← sessionFetch session (fetchVariant options world url authorization variant) with
      | .error e => return .error e
      | .ok fetched => return s.arrived options world url variant fetched

def probeFrom (session : Session) :
    Nat → List DivergenceProbeVariant → ProbeState → ProbeProg (Except Thrown ProbeState)
  | _, [], s => return .ok s
  | hop, variant :: rest, s => do
      match ← probeVariant options world url session hop variant s with
      | .error e => return .error e
      | .ok s => probeFrom session (hop + 1) rest s

end

def report (outcomes : List EnrichmentOutcome) : EnrichmentReport where
  outcomes := outcomes.map some

/-- The probe of a URL over a session. -/
def probeUrl (world : ProbeWorld) (base : InspectResult) (url : Text) (session : Session) :
    ProbeProg (Except Thrown EnrichmentReport) := do
  match ← probeFrom options world url session 1 options.probeVariants ⟨[], []⟩ with
  | .error e => return .error e
  | .ok s =>
      let observedAt ← observedInstant
      return .ok (report (s.outcomes ++ [divergenceOutcome base.input observedAt
        s.successfulSummaries]))

def enrich (world : ProbeWorld) (base : InspectResult) :
    ProbeProg (Except Thrown EnrichmentReport) :=
  match canonicalHttpUrl world base.input with
  | none => do
      let observedAt ← observedInstant
      return .ok (report [degradationOutcome base.input observedAt .failure (text "invalid-target")
        false none []])
  | some url => do
      let session ← createSession
      probeUrl options world base url session

end DivergenceProbe

end Linklint
