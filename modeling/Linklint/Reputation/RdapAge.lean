import Linklint.Reputation.CleartextRdap
import Linklint.Resolution.OfflineEvidence
import Linklint.Sources.Contract

/-!
# The registration-age enricher

One lookup of the registrable domain, a record of the answer, and a finding only
when the domain is young and the lexical result already carries a brand signal.
-/

namespace Linklint

open Interaction

/-! ### Normalization -/

structure RdapRegistrar where
  name : Option Text
  handle : Option Text
deriving DecidableEq

structure RdapDomainRecord where
  domain : Text
  ldhName : Option Text
  unicodeName : Option Text
  registrationDate : Option Text
  lastChangedDate : Option Text
  expirationDate : Option Text
  registrar : Option RdapRegistrar
  nameservers : List Text
  delegationSigned : Option Bool
  statuses : List Text
  redacted : List Text
  observedAt : Text
  expiresAt : Option Text
deriving DecidableEq

namespace RdapNormalize

/-- `isRecord(value) ? value : {}`: nothing but data comes out of `JSON.parse`. -/
def asRecord : Option Value → Option Value
  | some (.obj fields) => some (.obj fields)
  | _ => none

def asString : Value → Option Text
  | .str s => if s.trim = [] then none else some s
  | _ => none

def stringList : Value → List Text
  | .arr items => items.filterMap stringItem
  | _ => []

def slots : Value → List (Option Value)
  | .arr items => items
  | _ => []

section
variable (dates : DateApi)

/-- The canonical form of a date; `Date.parse` gives no instant out of range. -/
def isoInstant : Value → Option Text
  | .str s => (dates.parse s).bind fun ms => dates.toISOString ms
  | _ => none

def isEvent (action : Text) (event : Value) : Bool := (event.get (text "eventAction")).isText action

/-- The date of the first event of an action. -/
def eventDate (events : Value) (action : Text) : Option Text :=
  (((slots events).filterMap asRecord).find? (isEvent action)).bind fun event =>
    isoInstant dates (event.get (text "eventDate"))

/-- The first `fn` of a jCard. -/
def vcardFullName (vcardArray : Value) : Option Text :=
  match (slots vcardArray)[1]? with
  | some (some properties) =>
      let named := (slots properties).find? fun property =>
        match property.map slots with
        | some (some name :: _) => name.isText (text "fn")
        | _ => false
      match named with
      | some (some property) =>
          match (slots property)[3]? with
          | some (some value) => asString value
          | _ => none
      | _ => none
  | _ => none

def registrar (entities : Value) : Option RdapRegistrar :=
  let isRegistrar := fun entity : Value =>
    (stringList (entity.get (text "roles"))).contains (text "registrar")
  (((slots entities).filterMap asRecord).find? isRegistrar).map fun entity =>
    { name := vcardFullName (entity.get (text "vcardArray"))
      handle := asString (entity.get (text "handle")) }

def nameservers (value : Value) : List Text :=
  ((slots value).filterMap asRecord).filterMap fun entry =>
    (asString (entry.get (text "ldhName"))).or (asString (entry.get (text "unicodeName")))

def delegationSigned (secureDNS : Value) : Option Bool :=
  match secureDNS.get (text "delegationSigned") with
  | .bool signed => some signed
  | _ => none

def redactedNames (value : Value) : List Text :=
  ((slots value).filterMap asRecord).filterMap fun entry =>
    (asRecord (some (entry.get (text "name")))).bind fun name =>
      (asString (name.get (text "type"))).or (asString (name.get (text "description")))

/-- A record of an answer; what is absent, malformed or redacted stays unknown. -/
def normalizeRdapDomain (value : Value) (domain observedAt : Text) (expiresAt : Option Text) :
    RdapDomainRecord where
  domain
  ldhName := asString (value.get (text "ldhName"))
  unicodeName := asString (value.get (text "unicodeName"))
  registrationDate := eventDate dates (value.get (text "events")) (text "registration")
  lastChangedDate := eventDate dates (value.get (text "events")) (text "last changed")
  expirationDate := eventDate dates (value.get (text "events")) (text "expiration")
  registrar := registrar (value.get (text "entities"))
  nameservers := nameservers (value.get (text "nameservers"))
  delegationSigned := delegationSigned (value.get (text "secureDNS"))
  statuses := stringList (value.get (text "status"))
  redacted := redactedNames (value.get (text "redacted"))
  observedAt
  expiresAt

/-- The instant of the first registration event, when its date reads as one. -/
def registrationInstant (parsed : Value) : Option Int :=
  (((slots (parsed.get (text "events"))).filterMap asRecord).find?
    (isEvent (text "registration"))).bind fun event =>
      match event.get (text "eventDate") with
      | .str s => (dates.parse s).bind fun ms => timeClip ms
      | _ => none

theorem parse_isoInstant (value : Value) :
    (isoInstant dates value).bind dates.parse =
      match value with
      | .str s => (dates.parse s).bind fun ms => timeClip ms
      | _ => none := by
  unfold isoInstant
  split
  · rename_i s
    cases hparse : dates.parse s with
    | none => rfl
    | some ms =>
        rw [Option.bind_some, Option.bind_some]
        cases hwritten : dates.toISOString ms with
        | none =>
            have hclip : timeClip ms = none := Option.map_eq_none_iff.mp hwritten
            rw [hclip]
            rfl
        | some iso =>
            obtain ⟨instant, hclip, hread⟩ := dates.parse_toISOString hwritten
            rw [hclip, Option.bind_some, hread]
  · rfl

/-- The date of a record is the instant the registry gave for the registration, and no date is made
up where it gave none. -/
theorem parse_registrationDate (parsed : Value) (domain observedAt : Text) (expiresAt : Option Text) :
    (normalizeRdapDomain dates parsed domain observedAt expiresAt).registrationDate.bind dates.parse =
      registrationInstant dates parsed := by
  change (eventDate dates (parsed.get (text "events")) (text "registration")).bind dates.parse = _
  rw [eventDate, registrationInstant, Option.bind_assoc]
  exact Option.bind_congr fun event _ => parse_isoInstant dates _

end

end RdapNormalize

namespace RdapAge

def RDAP_SOURCE_ID : Text := text "rdap.registration-age"
def RDAP_SOURCE_VERSION : Text := text "1.0.0"
def DEFAULT_YOUNG_DOMAIN_THRESHOLD_DAYS : Nat := 90
def MS_PER_DAY : Int := 86400000

def RDAP_BRAND_CORROBORATION_CODES : List Text :=
  [text "brand_homoglyph", text "homograph_skeleton_collision", text "homograph_latin_skeleton"]

/-- `RDAP_SOURCE_DESCRIPTOR.freshness` -/
def FRESHNESS : FreshnessCapability := ⟨true, true⟩

def UNKNOWN_FRESHNESS : EnrichmentFreshness := ⟨.unknown, none⟩

/-- The two forms of bootstrap data. -/
inductive RdapBootstrapData where
  | snapshot (snapshot : RdapBootstrapSnapshot)
  | registry (registry : RdapBootstrapRegistry)

structure RdapAgeEnricherOptions where
  registry : Option RdapBootstrapData
  hasCache : Bool
  cacheTtlMs : Option JsNum
  youngThresholdDays : Option JsNum
  corroboratingCodes : Option (List Text)
  maxRedirects : Option JsNum

def boundedThreshold : Option JsNum → Nat
  | some (.fin q) => if 0 < q then ⌊q⌋.toNat else DEFAULT_YOUNG_DOMAIN_THRESHOLD_DAYS
  | _ => DEFAULT_YOUNG_DOMAIN_THRESHOLD_DAYS

variable (options : RdapAgeEnricherOptions)

def RdapAgeEnricherOptions.thresholdDays : Nat := boundedThreshold options.youngThresholdDays

def RdapAgeEnricherOptions.corroborating : List Text :=
  options.corroboratingCodes.getD RDAP_BRAND_CORROBORATION_CODES

/-- A brand signal the caller has not suppressed. -/
def hasCorroboratingBrandSignal (result : InspectResult) (corroborating : List Text) : Bool :=
  result.reasons.any fun reason => corroborating.contains (text reason.code.name) && !reason.suppressed

def registrableDomainOf (result : InspectResult) : Option Text :=
  result.parsed.bind fun parsed => parsed.registrableDomain

def subjectFor (result : InspectResult) : EnrichmentSubject :=
  match registrableDomainOf result with
  | some domain => ⟨.host, domain⟩
  | none =>
      match result.parsed.bind fun parsed => parsed.effectiveHost with
      | some host => if host = [] then ⟨.url, result.input⟩ else ⟨.host, host⟩
      | none => ⟨.url, result.input⟩

/-! ### The bootstrap -/

inductive BootstrapResolution where
  | usable (registry : RdapBootstrapRegistry)
  | unusable (cause : EnrichmentCause)

def bootstrapUnavailable : EnrichmentCause where
  code := text "rdap-bootstrap-unavailable"
  message := some (text "no IANA bootstrap registry is available to route the query")
  retryable := some true

def bootstrapStale (observedAt expiresAt : Text) : EnrichmentCause where
  code := text "rdap-bootstrap-stale"
  message := some (text "the stored IANA bootstrap registry expired and may misroute the query")
  retryable := some true
  details := some (.obj [(text "observedAt", .str observedAt), (text "expiresAt", .str expiresAt)])

section
variable (dates : DateApi)

/-- Whether the caller's bootstrap data may route a lookup. -/
def resolveBootstrap (now : TimeValue) : Option RdapBootstrapData → BootstrapResolution
  | none => .unusable bootstrapUnavailable
  | some (.registry registry) => .usable registry
  | some (.snapshot snapshot) =>
      match snapshot.metadata.expiresAt with
      | none => .usable snapshot.registry
      | some expiresAt =>
          if notBefore now (dates.parse expiresAt) then
            .unusable (bootstrapStale snapshot.metadata.observedAt expiresAt)
          else .usable snapshot.registry

/-! ### Outcomes -/

def provenance : EnrichmentProvenance :=
  .declared ⟨RDAP_SOURCE_ID, some RDAP_SOURCE_VERSION, none⟩
    (some ⟨text "rdap.authoritative-registry", none, none⟩)

/-- Whole days between a registration and now; a registration to come is of age 0. -/
def ageInDays (registrationDate : Option Text) (now : Int) : Option Nat :=
  (registrationDate.bind dates.parse).map fun registered =>
    if now - registered < 0 then 0 else ((now - registered) / MS_PER_DAY).toNat

def youngFinding (domain : Text) (ageDays thresholdDays : Nat) : EnricherFinding where
  code := .youngDomainBrandRisk
  detail :=
    text "registrable domain " ++ domain ++ text " was registered " ++ decimalText ageDays ++
      text "d ago (< " ++ decimalText thresholdDays ++
      text "d) and carries a lexical brand-impersonation signal"
  confidence := some (9 / 10)

def domainPayload (record : RdapDomainRecord) (ageDays : Option Nat) : Value :=
  .obj
    [(text "domain", .str record.domain),
      (text "registrationDate", nullable Value.str record.registrationDate),
      (text "lastChangedDate", nullable Value.str record.lastChangedDate),
      (text "expirationDate", nullable Value.str record.expirationDate),
      (text "ageDays", nullable (fun days => .num (JsNum.ofNat days)) ageDays),
      (text "registrar", nullable Value.str (record.registrar.bind fun registrar => registrar.name)),
      (text "registrarHandle",
        nullable Value.str (record.registrar.bind fun registrar => registrar.handle)),
      (text "nameserverCount", .num (JsNum.ofNat record.nameservers.length)),
      (text "delegationSigned", nullable Value.bool record.delegationSigned),
      (text "statuses", textsValue record.statuses),
      (text "redacted", textsValue record.redacted)]

structure FoundContext where
  observedAt : Int
  thresholdDays : Nat
  corroborated : Bool

/-- `ageDays !== null && ageDays < thresholdDays` -/
def youngAge (record : RdapDomainRecord) (ctx : FoundContext) : Option Nat :=
  (ageInDays dates record.registrationDate ctx.observedAt).filter fun days =>
    days < ctx.thresholdDays

def foundFindings (record : RdapDomainRecord) (ctx : FoundContext) : List EnricherFinding :=
  match youngAge dates record ctx with
  | some days => if ctx.corroborated then [youngFinding record.domain days ctx.thresholdDays] else []
  | none => []

/-- `none` is the RangeError of an invalid expiry. -/
def foundOutcome (subject : EnrichmentSubject) (record : RdapDomainRecord) (ctx : FoundContext) :
    Option EnrichmentOutcome :=
  let observedIso := dates.iso ctx.observedAt
  (freshnessFor dates FRESHNESS (some ctx.observedAt) (record.expiresAt.map dates.parse)).map
    fun freshness =>
      { sourceId := RDAP_SOURCE_ID, layer := .reputation, status := .success, subject
        observedAt := observedIso, provenance, freshness
        evidence :=
          [some
            { type := text "rdap.domain", subject, observedAt := observedIso, provenance, freshness
              payload :=
                domainPayload record (ageInDays dates record.registrationDate ctx.observedAt) }]
        findings := (foundFindings dates record ctx).map some
        cause := none }

/-- An outcome without evidence. -/
def emptyOutcome (status : OutcomeStatus) (subject : EnrichmentSubject) (observedAt : Int)
    (cause : Option EnrichmentCause) : EnrichmentOutcome where
  sourceId := RDAP_SOURCE_ID
  layer := .reputation
  status
  subject
  observedAt := dates.iso observedAt
  provenance
  freshness := UNKNOWN_FRESHNESS
  evidence := []
  findings := []
  cause

def noHitOutcome (subject : EnrichmentSubject) (observedAt : Int) : EnrichmentOutcome :=
  emptyOutcome dates .noHit subject observedAt none

def skippedOutcome (subject : EnrichmentSubject) (observedAt : Int) (cause : EnrichmentCause) :
    EnrichmentOutcome := emptyOutcome dates .skipped subject observedAt (some cause)

def failureOutcome (subject : EnrichmentSubject) (observedAt : Int) (cause : EnrichmentCause) :
    EnrichmentOutcome := emptyOutcome dates .failure subject observedAt (some cause)

def RdapCauseCode.name : RdapCauseCode → Text
  | .unsupportedTld => text "rdap-unsupported-tld"
  | .throttled => text "rdap-throttled"
  | .httpError => text "rdap-http-error"
  | .malformed => text "rdap-malformed"
  | .tooManyRedirects => text "rdap-too-many-redirects"
  | .invalidDomain => text "rdap-invalid-domain"
  | .networkError => text "rdap-network-error"
  | .callerAborted => text "rdap-caller-aborted"

def detailValue : CauseDetail → Value
  | .text value => nullable Value.str value
  | .number value => .num (JsNum.ofNat value)

def lookupCause (cause : FeedCause RdapCauseCode) : EnrichmentCause where
  code := RdapCauseCode.name cause.code
  message := some cause.message
  retryable := some cause.retryable
  details := cause.details.map fun details =>
    .obj (details.map fun detail => (detail.1, detailValue detail.2))

def noRegistrableDomain : EnrichmentCause where
  code := text "rdap-no-registrable-domain"
  message := some (text "input has no registrable domain to query")
  retryable := some false

def lookupOutcome (subject : EnrichmentSubject) (ctx : FoundContext) :
    RdapFetchResult RdapDomainRecord → Option EnrichmentOutcome
  | .found record _ => foundOutcome dates subject record ctx
  | .noHit _ => some (noHitOutcome dates subject ctx.observedAt)
  | .skipped cause => some (skippedOutcome dates subject ctx.observedAt (lookupCause cause))
  | .failure cause => some (failureOutcome dates subject ctx.observedAt (lookupCause cause))

/-- `none` is the RangeError of an invalid observation. -/
def report (observedAt : TimeValue) (outcome : Int → Option EnrichmentOutcome) :
    Option EnrichmentReport :=
  (observedAt.bind outcome).map fun outcome => { outcomes := [some outcome] }

/-! ### The enricher -/

def rdapRecords : RdapRecords RdapDomainRecord where
  normalize := RdapNormalize.normalizeRdapDomain dates
  expiresAt record := record.expiresAt

/-- A lookup without a signal: nothing ever aborts it. -/
def noSignal : (op : LookupOp RdapDomainRecord) → Option (LookupAns op)
  | .aborted => some false
  | _ => none

def fetchOptions (registry : RdapBootstrapRegistry) (registrableDomain : Text) :
    FetchRdapDomainOptions where
  registry
  registrableDomain
  cacheTtlMs := options.cacheTtlMs
  hasCache := options.hasCache
  maxRedirects := options.maxRedirects

section
variable (P : Platform) (api : UrlApi) (parseJson : Text → Option Value)
  (domainToASCII : Text → Text)

/-- `fetchRdapDomain` as the enricher calls it. -/
def lookUp (registry : RdapBootstrapRegistry) (registrableDomain : Text) :
    LookupProg RdapDomainRecord (Option (RdapFetchResult RdapDomainRecord)) :=
  (fetchRdapDomain P dates api parseJson domainToASCII (rdapRecords dates)
    (fetchOptions options registry registrableDomain)).answering noSignal

def foundContext (result : InspectResult) (observedAt : Int) : FoundContext where
  observedAt
  thresholdDays := options.thresholdDays
  corroborated := hasCorroboratingBrandSignal result options.corroborating

/-- The enricher after its observation. -/
def enrichAt (result : InspectResult) (now : Int) :
    LookupProg RdapDomainRecord (Option EnrichmentReport) :=
  let observedAt := timeClip now
  let subject := subjectFor result
  match registrableDomainOf result with
  | none =>
      return report observedAt fun at' => skippedOutcome dates subject at' noRegistrableDomain
  | some registrableDomain =>
      match resolveBootstrap dates observedAt options.registry with
      | .unusable cause =>
          return report observedAt fun at' => skippedOutcome dates subject at' cause
      | .usable registry => do
          match ← lookUp options dates P api parseJson domainToASCII registry registrableDomain with
          | none => return none
          | some lookup =>
              return report observedAt fun at' =>
                lookupOutcome dates subject (foundContext options result at') lookup

/-- `none` is an enricher that rejects. -/
def enrich (result : InspectResult) : LookupProg RdapDomainRecord (Option EnrichmentReport) := do
  enrichAt options dates P api parseJson domainToASCII result (← lookupNow)

end

end

end RdapAge

end Linklint
