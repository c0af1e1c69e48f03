import Linklint.Lib.KeyedIndex
import Linklint.Mirrors.ExactUrl
import Linklint.Mirrors.PhishTank
import Linklint.Sources.Contract

/-!
# Feed lookups

The two enrichers that look an input up in a snapshot. They differ in their
texts, in what their records hold and in when a record is worth a finding.
-/

namespace Linklint

/-- A lookup view over a snapshot. -/
structure FeedIndex (Metadata Record : Type) where
  metadata : Metadata
  byUrl : List (Text × Record)

/-- What an enricher knows about its feed. -/
structure FeedSource (Metadata Record : Type) where
  sourceId : Text
  sourceVersion : Text
  dataName : Text
  noSnapshot : EnrichmentCause
  uncanonicalizable : EnrichmentCause
  freshness : FreshnessCapability
  expiresAt : Metadata → Option Text
  evidenceType : Text
  payload : Record → Metadata → Value
  /-- the part of the gate that is about the record -/
  eligible : Record → Bool
  code : ReasonCode
  detail : Record → Text

/-- A text, or `null`. -/
def textOrNull (s : Option Text) : Value := s.elim .null .str

section
variable (P : Platform) (dates : DateApi) (api : UrlApi) (domainToASCII : Text → Text)
variable {Metadata Record : Type}

def createIndex (url : Record → Text) (metadata : Metadata) (records : List Record) :
    FeedIndex Metadata Record where
  metadata := metadata
  byUrl := KeyedIndex.build (fun record => canonicalizeUrl P api domainToASCII (url record)) records

def FeedIndex.lookup (index : FeedIndex Metadata Record) (url : Text) : Option Record :=
  (canonicalizeUrl P api domainToASCII url).bind fun key => index.byUrl.lookup key

namespace FeedSource

variable (source : FeedSource Metadata Record)

def provenance : EnrichmentProvenance :=
  .declared { name := source.sourceId, version := some source.sourceVersion, url := none }
    (some { name := source.dataName, version := none, url := none })

/-- An outcome of the source; none is the RangeError of an invalid clock. -/
def outcome (status : OutcomeStatus) (input : Text) (observedAt : TimeValue)
    (freshness : EnrichmentFreshness) (evidence : List EnrichmentEvidence)
    (findings : List EnricherFinding) (cause : Option EnrichmentCause) :
    Option EnrichmentOutcome :=
  observedAt.map fun instant =>
    { sourceId := source.sourceId
      layer := .reputation
      status
      subject := { kind := .url, value := input }
      observedAt := dates.iso instant
      provenance := source.provenance
      freshness
      evidence := evidence.map some
      findings := findings.map some
      cause }

def skippedOutcome (input : Text) (observedAt : TimeValue) (cause : EnrichmentCause) :
    Option EnrichmentOutcome :=
  source.outcome dates .skipped input observedAt { status := .unknown, expiresAt := none } [] []
    (some cause)

def noHitOutcome (input : Text) (observedAt : TimeValue) (freshness : EnrichmentFreshness) :
    Option EnrichmentOutcome :=
  source.outcome dates .noHit input observedAt freshness [] [] none

/-- A finding only for a record that is eligible in a snapshot that is fresh. -/
def matchOutcome (input : Text) (observedAt : TimeValue) (freshness : EnrichmentFreshness)
    (record : Record) (metadata : Metadata) : Option EnrichmentOutcome :=
  observedAt.bind fun instant =>
    let evidence : EnrichmentEvidence :=
      { type := source.evidenceType
        subject := { kind := .url, value := input }
        observedAt := dates.iso instant
        provenance := source.provenance
        freshness
        payload := source.payload record metadata }
    let finding : EnricherFinding :=
      { code := source.code, detail := source.detail record, confidence := some (19 / 20) }
    let findings := if source.eligible record ∧ freshness.status = .fresh then [finding] else []
    source.outcome dates .success input observedAt freshness [evidence] findings none

def snapshotFreshness (metadata : Metadata) (observedAt : TimeValue) :
    Option EnrichmentFreshness :=
  freshnessFor dates source.freshness observedAt ((source.expiresAt metadata).map dates.parse)

def enrich (index : Option (FeedIndex Metadata Record)) (observedAt : TimeValue) (input : Text) :
    Option EnrichmentOutcome :=
  match index with
  | none => source.skippedOutcome dates input observedAt source.noSnapshot
  | some index =>
      if canonicalizeUrl P api domainToASCII input = none then
        source.skippedOutcome dates input observedAt source.uncanonicalizable
      else
        (source.snapshotFreshness dates index.metadata observedAt).bind fun freshness =>
          match index.lookup P api domainToASCII input with
          | none => source.noHitOutcome dates input observedAt freshness
          | some record => source.matchOutcome dates input observedAt freshness record index.metadata

end FeedSource

/-! ### The two feeds -/

def URLHAUS_FRESHNESS : FreshnessCapability := { declaresExpiry := true, staleWhenExpired := true }
def PHISHTANK_FRESHNESS : FreshnessCapability := { declaresExpiry := true, staleWhenExpired := true }

def UrlhausUrlStatus.name : UrlhausUrlStatus → Text
  | .online => text "online"
  | .offline => text "offline"
  | .unknown => text "unknown"

def urlhausSource : FeedSource UrlhausSnapshotMetadata UrlhausRecord where
  sourceId := URLHAUS_SOURCE_ID
  sourceVersion := URLHAUS_SOURCE_VERSION
  dataName := text "urlhaus.abuse.ch"
  noSnapshot :=
    { code := text "urlhaus-no-snapshot", message := some (text "no URLhaus snapshot is loaded"),
      retryable := some true }
  uncanonicalizable :=
    { code := text "urlhaus-uncanonicalizable-input",
      message := some (text "input is not an absolute http(s) URL"), retryable := some false }
  freshness := URLHAUS_FRESHNESS
  expiresAt metadata := metadata.expiresAt
  evidenceType := text "urlhaus.match"
  payload record metadata := .obj
    [(text "url", .str record.url), (text "recordId", .str record.id),
     (text "status", .str record.status.name), (text "threat", textOrNull record.threat),
     (text "tags", .arr (record.tags.map fun tag => some (.str tag))),
     (text "dateAdded", textOrNull record.dateAdded), (text "lastOnline", textOrNull record.lastOnline),
     (text "reporter", textOrNull record.reporter),
     (text "snapshotObservedAt", .str metadata.observedAt)]
  eligible record := record.status == .online
  code := .malwareUrlListed
  detail record := text "exact URL match in the URLhaus snapshot: " ++ record.url
    ++ text " is listed online as " ++ record.threat.getD (text "malware") ++ text " (record "
    ++ record.id ++ text ")"

def phishTankSource : FeedSource PhishTankSnapshotMetadata PhishTankRecord where
  sourceId := PHISHTANK_SOURCE_ID
  sourceVersion := PHISHTANK_SOURCE_VERSION
  dataName := text "phishtank"
  noSnapshot :=
    { code := text "phishtank-no-snapshot", message := some (text "no PhishTank snapshot is loaded"),
      retryable := some true }
  uncanonicalizable :=
    { code := text "phishtank-uncanonicalizable-input",
      message := some (text "input is not an absolute http(s) URL"), retryable := some false }
  freshness := PHISHTANK_FRESHNESS
  expiresAt metadata := metadata.expiresAt
  evidenceType := text "phishtank.match"
  payload record metadata := .obj
    [(text "url", .str record.url), (text "phishId", .str record.phishId),
     (text "detailUrl", textOrNull record.detailUrl), (text "verified", .bool record.verified),
     (text "verificationTime", textOrNull record.verificationTime),
     (text "submissionTime", textOrNull record.submissionTime), (text "online", .bool record.online),
     (text "target", textOrNull record.target),
     (text "snapshotObservedAt", .str metadata.observedAt)]
  eligible record := record.verified && record.online
  code := .verifiedPhishListed
  detail record := text "exact URL match in the PhishTank snapshot: " ++ record.url
    ++ text " is a verified, online phish targeting "
    ++ record.target.getD (text "an unspecified brand") ++ text " (phish " ++ record.phishId
    ++ text ")"

def createUrlhausIndex (snapshot : UrlhausSnapshot) :
    FeedIndex UrlhausSnapshotMetadata UrlhausRecord :=
  createIndex P api domainToASCII UrlhausRecord.url snapshot.metadata snapshot.records

def createPhishTankIndex (snapshot : PhishTankSnapshot) :
    FeedIndex PhishTankSnapshotMetadata PhishTankRecord :=
  createIndex P api domainToASCII PhishTankRecord.url snapshot.metadata snapshot.records

end

end Linklint
