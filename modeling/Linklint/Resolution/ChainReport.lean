import Linklint.Resolution.RedirectChain

/-!
# The report of a redirect chain

One outcome per fetched hop with what was observed there, then the reason the
walk stopped. The lexical findings ride on the worst hop alone.
-/

namespace Linklint

namespace RedirectChain

open Interaction

structure HopEvidence where
  finding : Option EnricherFinding
  evidence : EnrichmentEvidence

def optionalText (value : Option Text) : Value := nullable Value.str value

/-! ### Lexical findings -/

/-- The reasons that are emitted: registered, not excluded, each code once. -/
def emittedReasons (excludedCodes emitted : List ReasonCode) : List Reason → List Reason
  | [] => []
  | reason :: rest =>
      if !isRegistered reason.code || excludedCodes.contains reason.code
          || emitted.contains reason.code then
        emittedReasons excludedCodes emitted rest
      else reason :: emittedReasons excludedCodes (reason.code :: emitted) rest

def offlineFindings (result : InspectResult) (hop : Nat) (excludedCodes : List ReasonCode) :
    List EnricherFinding :=
  (emittedReasons excludedCodes [] result.reasons).map
    (offlineFinding result (text "Resolved chain hop " ++ decimalText hop))

/-- `hop.offline.score ?? -1` -/
def hopScore (hop : ChainHop) : Rat := hop.offline.score.getD (-1)

/-- The first hop of the highest score. -/
def worstHop (hops : List ChainHop) : Option ChainHop :=
  hops.foldl (fun worst hop =>
    match worst with
    | none => some hop
    | some other => if hopScore other < hopScore hop then some hop else some other) none

/-- The codes the base result raises unsuppressed. -/
def baseCodes (base : InspectResult) : List ReasonCode :=
  (base.reasons.filter fun reason => !reason.suppressed).map fun reason => reason.code

/-! ### Observations of a hop -/

section
variable (world : ChainWorld)

def schemeOf (url : Text) : Option Text := (world.urls.parse url).map fun url => url.protocol

/-- The transition left TLS. -/
def isDowngrade (hop : ChainHop) (transition : FollowTransition) : Bool :=
  schemeOf world hop.url == some (text "https:")
    && schemeOf world transition.targetUrl == some (text "http:")

def httpsDowngradeFor (hop : ChainHop) : Option HopEvidence :=
  (hop.transition.filter fun transition => isDowngrade world hop transition).map fun transition =>
    { finding := some
        { code := .httpsDowngradeObserved
          detail := text "Hop " ++ decimalText hop.hop ++ text " was fetched over https and its "
            ++ transition.kind.name ++ text " sent the chain to the plaintext target '"
            ++ transition.targetUrl
            ++ text "' — the chain left TLS. Observed and reported, never refused: refusing buys no confidentiality (no body, cookies, or credentials are sent and the caller's Referer is stripped) while costing observation of the remaining hops. Informational (weight 0) — a downgrade is not itself deceptive" }
      evidence := evidenceOf "resolution.https-downgrade" hop.url hop.observedAt
        [(text "hop", .num (.ofNat hop.hop)), (text "targetHop", .num (.ofNat (hop.hop + 1))),
          (text "transitionKind", .str transition.kind.name), (text "fromUrl", .str hop.url),
          (text "fromScheme", .str (text "https:")), (text "toUrl", .str transition.targetUrl),
          (text "toScheme", .str (text "http:")),
          (text "transportProtocol", optionalText hop.transportEvidence.protocol)] }

def headerValues (headers : ResponseHeaders) (name : String) : List Text :=
  ((headers.filter fun field => world.platform.toLowerCase field.1 == text name).flatMap
    fun field => field.2.map Text.trim).filter (· ≠ [])

/-- `ALT_SVC_PROTOCOL_PATTERN` of one code unit. -/
def isAltSvcUnit (u : CodeUnit) : Bool :=
  isAsciiLetter u || isDigit u || (text "!#$&^_.+%-").contains u

structure AltSvcTokens where
  protocols : List Text
  cleared : Bool

def readAltSvcEntry (tokens : AltSvcTokens) (entry : Text) : AltSvcTokens :=
  let token := ((entry.split (unit '=')).headD []).trim
  if world.platform.toLowerCase token = text "clear" then { tokens with cleared := true }
  else if token = [] ∨ 32 < token.length ∨ !token.all isAltSvcUnit ∨ tokens.protocols.contains token
      ∨ MAX_ALT_SVC_PROTOCOLS ≤ tokens.protocols.length then tokens
  else { tokens with protocols := tokens.protocols ++ [token] }

def altSvcEvidenceFor (hop : ChainHop) : Option EnrichmentEvidence :=
  let advertisements := headerValues world hop.response.headers "alt-svc"
  if advertisements = [] then none
  else
    let tokens := (advertisements.flatMap (Text.split (unit ','))).foldl (readAltSvcEntry world)
      ⟨[], false⟩
    some (evidenceOf "resolution.alt-svc" hop.url hop.observedAt
      [(text "hop", .num (.ofNat hop.hop)), (text "advertisements", textsValue advertisements),
        (text "protocols", textsValue tokens.protocols), (text "cleared", .bool tokens.cleared),
        (text "followed", .bool false), (text "requestProtocol", .str (text "http/1.1"))])

def isExecutableEssence (essence : Option Text) : Bool :=
  essence == some (text "text/html") || essence == some (text "text/xml")

def mimeFinding (hop : ChainHop) (sniff : SniffedMimeType) : EnricherFinding where
  code := .contentTypeMismatch
  detail := text "Hop " ++ decimalText hop.hop ++ text " response declared '"
    ++ sniff.declaredEssence.getD (text "null") ++ text "' but its bytes sniff to '"
    ++ sniff.computedEssence
    ++ text "' with no nosniff — a content-type mismatch a sniffing consumer could execute; informational corroboration, not proof of exploitation."

def mimeEvidenceFor (hop : ChainHop) : HopEvidence :=
  let api := world.toChainApi
  let declared := singleHeaderValue api hop.response.headers "content-type"
  let noSniff := api.platform.toLowerCase
    ((singleHeaderValue api hop.response.headers "x-content-type-options").getD []).trim
      == text "nosniff"
  let evidence := evidenceOf "resolution.mime-evidence" hop.url hop.observedAt
  if hop.method = .head ∨ hop.response.body = [] then
    { finding := none
      evidence := evidence
        [(text "hop", .num (.ofNat hop.hop)), (text "declaredEssence", optionalText declared),
          (text "noSniff", .bool noSniff), (text "status", .str (text "incomplete")),
          (text "cause", .str (text "no-body"))] }
  else
    let sniff := world.sniffMimeType hop.response.body declared
    let mismatch := sniff.declaredEssence.any fun declared => declared != sniff.computedEssence
    let active := mismatch && !noSniff && isExecutableEssence (some sniff.computedEssence)
      && !isExecutableEssence sniff.declaredEssence
    { finding := if active then some (mimeFinding hop sniff) else none
      evidence := evidence
        [(text "hop", .num (.ofNat hop.hop)),
          (text "declaredEssence", optionalText sniff.declaredEssence),
          (text "computedEssence", .str sniff.computedEssence), (text "rule", .str sniff.rule),
          (text "noSniff", .bool noSniff),
          (text "sniffedBytes", .num (.ofNat (min hop.response.body.length MIME_SNIFF_PREFIX_BYTES))),
          (text "status", .str (text "classified")), (text "mismatch", .bool mismatch),
          (text "active", .bool active)] }

/-! ### Open redirects -/

structure OpenRedirectCorrelation where
  hop : ChainHop
  finding : EnricherFinding
  evidence : EnrichmentEvidence

def parsedDomain (result : InspectResult) : Option Text :=
  result.parsed.bind fun parsed => parsed.registrableDomain

/-- The parameter whose payload names the domain; the first one wins. -/
def paramOfDomain (targets : List OpenRedirectTarget) (domain : Text) : Option Text :=
  (targets.find? fun target => world.platform.toLowerCase target.registrableDomain == domain).map
    fun target => target.param

def correlation (base : InspectResult) (hop : ChainHop) (observed param : Text) :
    OpenRedirectCorrelation where
  hop
  finding :=
    { code := .openRedirectObserved
      detail := text "Observed redirect chain left '" ++ (parsedDomain base).getD (text "(none)")
        ++ text "' and landed on '" ++ observed ++ text "' at hop " ++ decimalText hop.hop
        ++ text ", matching the open_redirect_param payload in parameter '" ++ param
        ++ text "' — resolution-time corroboration of the lexical suspicion, not proof of general exploitability" }
  evidence := evidenceOf "resolution.open-redirect-observed" hop.url hop.observedAt
    [(text "param", .str param), (text "payloadRegistrableDomain", .str observed),
      (text "observedRegistrableDomain", .str observed),
      (text "inputRegistrableDomain", optionalText (parsedDomain base)),
      (text "hop", .num (.ofNat hop.hop)), (text "consistent", .bool true)]

/-- A hop that landed on a payload domain off the input's site. -/
def correlateHop (base : InspectResult) (inputDomainLower : Option Text)
    (targets : List OpenRedirectTarget) (hop : ChainHop) : Option OpenRedirectCorrelation := do
  let observed ← parsedDomain hop.offline
  let observedLower := world.platform.toLowerCase observed
  if some observedLower = inputDomainLower then none
  else return correlation base hop observed (← paramOfDomain world targets observedLower)

def correlateOpenRedirect (base : InspectResult) (hops : List ChainHop) :
    Option OpenRedirectCorrelation :=
  if !(baseCodes base).contains .openRedirectParam then none
  else
    let inputDomainLower := (parsedDomain base).map world.platform.toLowerCase
    let targets := world.openRedirectParamTargets (base.parsed.bind fun parsed => parsed.query)
      inputDomainLower
    if targets.isEmpty then none
    else hops.findSome? (correlateHop world base inputDomainLower targets)

/-! ### Outcomes -/

def transitionValue (transition : FollowTransition) : Value :=
  .obj [(text "kind", .str transition.kind.name), (text "targetUrl", .str transition.targetUrl),
    (text "delayMs", nullable (fun delay => .num (.fin delay)) transition.delayMs)]

def hopPayload (hop : ChainHop) : List (Text × Value) :=
  [(text "hop", .num (.ofNat hop.hop)), (text "requestUrl", .str hop.url),
    (text "method", .str hop.method.name), (text "responseStatus", .num hop.response.status),
    (text "encodedBytes", .num (.ofNat hop.response.encodedBytes)),
    (text "decompressedBytes", .num (.ofNat hop.response.decompressedBytes)),
    (text "transport", .obj (transportPayload hop.transportEvidence)),
    (text "transition", nullable transitionValue hop.transition),
    (text "offlineInspection", offlineInspection hop.offline)]

def hopOutcome (hop : ChainHop) (findings : List EnricherFinding)
    (correlated : Option OpenRedirectCorrelation) (mime : HopEvidence)
    (downgrade : Option HopEvidence) (altSvc : Option EnrichmentEvidence) : EnrichmentOutcome where
  sourceId := REDIRECT_CHAIN_SOURCE_ID
  layer := .resolution
  status := .success
  subject := urlSubject hop.url
  observedAt := hop.observedAt
  provenance := declaredProvenance
  freshness := FRESHNESS
  evidence := (evidenceOf "resolution.chain-hop" hop.url hop.observedAt (hopPayload hop)
    :: ((correlated.map fun correlated => correlated.evidence).toList ++ mime.evidence
      :: ((downgrade.map fun downgrade => downgrade.evidence).toList ++ altSvc.toList))).map some
  findings := (findings ++ (correlated.map fun correlated => correlated.finding).toList
    ++ mime.finding.toList ++ (downgrade.bind fun downgrade => downgrade.finding).toList).map some
  cause := none

/-- The lexical findings of a hop: those of its offline inspection on the worst hop, else none. -/
def lexicalFindings (base : InspectResult) (hops : List ChainHop) (hop : ChainHop) :
    List EnricherFinding :=
  if (worstHop hops).any fun worst => worst.hop == hop.hop then
    offlineFindings hop.offline hop.hop (baseCodes base)
  else []

def reportHop (base : InspectResult) (hops : List ChainHop) (hop : ChainHop) : EnrichmentOutcome :=
  hopOutcome hop (lexicalFindings base hops hop)
    ((correlateOpenRedirect world base hops).filter fun correlated => correlated.hop.hop == hop.hop)
    (mimeEvidenceFor world hop) (httpsDowngradeFor world hop) (altSvcEvidenceFor world hop)

def chainOutcomes (base : InspectResult) (walked : WalkEnd) : List EnrichmentOutcome :=
  walked.hops.map (reportHop world base walked.hops) ++ walked.stops

def report (outcomes : List EnrichmentOutcome) : EnrichmentReport where
  outcomes := outcomes.map some

/-! ### The enricher -/

def canonicalHttpUrl (value : Text) : Option Text := do
  let url ← world.urls.parse value
  if !isHttp url.protocol ∨ MAX_CHAIN_URL_LENGTH < (world.urls.href url).length then none
  else return world.urls.href url.withoutHash

def startWalk (initial : Text) (offline : InspectResult) : WalkState where
  hops := []
  seen := []
  currentUrl := initial
  currentOffline := offline
  reason := .initial
  fromUrl := none

/-- The walk of a chain from its first target. -/
def walkFrom (options : RedirectChainEnricherOptions) (initial : Text) :
    ChainProg (Except Thrown WalkEnd) :=
  match inspectTarget options world initial with
  | .error e => return .error e
  | .ok offline => walk options world (startWalk initial offline)

def enrich (options : RedirectChainEnricherOptions) (base : InspectResult) :
    ChainProg (Except Thrown EnrichmentReport) :=
  match canonicalHttpUrl world base.input with
  | none => do
      let observedAt ← observedInstant
      return .ok (report [degradationOutcome base.input observedAt .failure (text "invalid-target")
        false none none []])
  | some initial => do
      let walked ← walkFrom world options initial
      return walked.map fun walked => report (chainOutcomes world base walked)

end

end RedirectChain

end Linklint
