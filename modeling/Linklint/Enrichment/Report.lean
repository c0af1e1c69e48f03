import Linklint.Enrichment.Clone
import Linklint.Schema.Result
import Linklint.Schema.Options

/-!
# Reports at the runner boundary

How the runner turns what a source or a store hands over into a report, and the
outcomes it writes itself. A checked value is read into the typed report; a
`null` where an element was expected reads as `none`.
-/

namespace Linklint

/-- One source of a plan; `enrich` and the other callbacks are calls of the environment. -/
structure Enricher where
  id : Text
  layer : EnrichmentLayer
  dependsOn : Value := .undefined
  hasCacheKey : Bool := false
  cacheTtlMs : Value := .undefined
  /-- `undefined`, or whether the resolver is a function. -/
  cacheTtlMsFor : Option Bool := none
  timeoutMs : Value := .undefined

/-- `<layer>:<id>` -/
def checkToken (enricher : Enricher) : Text := namespacedToken enricher.layer.name enricher.id

/-! ### Reading a checked value -/

def readText : Value → Option Text
  | .str s => some s
  | _ => none

def readLayer (value : Value) : Option EnrichmentLayer :=
  if value.isStr "resolution" then some .resolution
  else if value.isStr "reputation" then some .reputation
  else none

def readStatus (value : Value) : Option OutcomeStatus :=
  if value.isStr "success" then some .success
  else if value.isStr "no-hit" then some .noHit
  else if value.isStr "skipped" then some .skipped
  else if value.isStr "failure" then some .failure
  else none

def readSubject (value : Value) : Option EnrichmentSubject := do
  let kind ← if (value.get (text "kind")).isStr "url" then some SubjectKind.url
    else if (value.get (text "kind")).isStr "host" then some .host else none
  let subject ← readText (value.get (text "value"))
  return { kind, value := subject }

def readProvenanceRef (value : Value) : Option EnrichmentProvenanceRef := do
  let name ← readText (value.get (text "name"))
  return { name, version := readText (value.get (text "version")),
           url := readText (value.get (text "url")) }

def readProvenance (value : Value) : Option EnrichmentProvenance :=
  if (value.get (text "kind")).isStr "declared" then
    (readProvenanceRef (value.get (text "source"))).map fun source =>
      .declared source (readProvenanceRef (value.get (text "data")))
  else if (value.get (text "kind")).isStr "legacy-incomplete" then some .legacyIncomplete
  else if (value.get (text "kind")).isStr "unavailable" then some .unavailable
  else none

def readFreshness (value : Value) : Option EnrichmentFreshness := do
  let status ← if (value.get (text "status")).isStr "fresh" then some FreshnessStatus.fresh
    else if (value.get (text "status")).isStr "stale" then some .stale
    else if (value.get (text "status")).isStr "unknown" then some .unknown else none
  return { status, expiresAt := readText (value.get (text "expiresAt")) }

def readCause (value : Value) : Option EnrichmentCause := do
  let code ← readText (value.get (text "code"))
  return { code
           message := readText (value.get (text "message"))
           retryable := match value.get (text "retryable") with
             | .bool b => some b
             | _ => none
           details := match value.get (text "details") with
             | .undefined => none
             | details => some details }

def readEvidence (value : Value) : Option EnrichmentEvidence := do
  let type ← readText (value.get (text "type"))
  let subject ← readSubject (value.get (text "subject"))
  let observedAt ← readText (value.get (text "observedAt"))
  let provenance ← readProvenance (value.get (text "provenance"))
  let freshness ← readFreshness (value.get (text "freshness"))
  return { type, subject, observedAt, provenance, freshness, payload := value.get (text "payload") }

def readComponent (value : Value) : Option ConfusableComponent :=
  if value.isStr "host" then some .host
  else if value.isStr "path" then some .path
  else if value.isStr "query" then some .query
  else none

def readNatural : Value → Option Nat
  | .num n => n.toNat?
  | _ => none

def readConfusable (value : Value) : Option Confusable := do
  let char ← readText (value.get (text "char"))
  let codepoint ← readText (value.get (text "codepoint"))
  let confusableWith ← readText (value.get (text "confusableWith"))
  let component ← readComponent (value.get (text "component"))
  let position ← readNatural (value.get (text "position"))
  return { char, codepoint, confusableWith, component, position }

/-- The elements of an array, each read on its own. -/
def readSlots {α : Type} (read : Value → Option α) (value : Value) : Option (List (Option α)) :=
  value.slots?.map fun items => items.map fun item => item.bind read

def readReasonCode (value : Value) : Option ReasonCode := (readText value).bind ReasonCode.ofText

def readFinite : Value → Option Rat
  | .num (.fin q) => some q
  | _ => none

def readFinding (value : Value) : Option EnricherFinding := do
  let code ← readReasonCode (value.get (text "code"))
  let detail ← readText (value.get (text "detail"))
  return { code, detail, confusables := readSlots readConfusable (value.get (text "confusables")),
           confidence := readFinite (value.get (text "confidence")) }

def readOutcome (value : Value) : Option EnrichmentOutcome := do
  let sourceId ← readText (value.get (text "sourceId"))
  let layer ← readLayer (value.get (text "layer"))
  let status ← readStatus (value.get (text "status"))
  let subject ← readSubject (value.get (text "subject"))
  let observedAt ← readText (value.get (text "observedAt"))
  let provenance ← readProvenance (value.get (text "provenance"))
  let freshness ← readFreshness (value.get (text "freshness"))
  let evidence ← readSlots readEvidence (value.get (text "evidence"))
  let findings ← readSlots readFinding (value.get (text "findings"))
  return { sourceId, layer, status, subject, observedAt, provenance, freshness, evidence, findings,
           cause := readCause (value.get (text "cause")) }

/-- The typed view of a checked and cloned report. -/
def readReport (value : Value) : EnrichmentReport where
  outcomes := (readSlots readOutcome (value.get (text "outcomes"))).getD []

/-! ### What the runner accepts -/

/-- `JSON.parse(JSON.stringify(report))` -/
def cloneEnrichmentReport (report : Value) : Value := report.jsonClone.getD .undefined

def SubjectKind.name : SubjectKind → Text
  | .url => text "url"
  | .host => text "host"

def subjectValue (subject : EnrichmentSubject) : Value :=
  .obj [(text "kind", .str subject.kind.name), (text "value", .str subject.value)]

/-- The subject core can state without guessing what a source queried. -/
def inspectionSubject (base : InspectResult) : EnrichmentSubject :=
  match base.parsed with
  | some { scheme := none, effectiveHost := some host, .. } => { kind := .host, value := host }
  | _ => { kind := .url, value := base.input }

def legacyProvenance : Value :=
  .obj [(text "kind", .str (text "legacy-incomplete")), (text "source", .null),
    (text "data", .null)]

def unknownFreshness : Value :=
  .obj [(text "status", .str (text "unknown")), (text "expiresAt", .null)]

/-- The outcome of the flat output; an empty array stays visibly ambiguous. -/
def legacyOutcome (enricher : Enricher) (base : InspectResult) (observedAt : Text)
    (findings : Value) : Value :=
  let subject := subjectValue (inspectionSubject base)
  let marker : Value := .obj
    [(text "type", .str (text "legacy.empty-result")), (text "subject", subject),
     (text "observedAt", .str observedAt), (text "provenance", legacyProvenance),
     (text "freshness", unknownFreshness),
     (text "payload", .obj [(text "semantics", .str (text "unknown"))])]
  .obj
    [(text "sourceId", .str enricher.id), (text "layer", .str enricher.layer.name),
     (text "status", .str (text "success")), (text "subject", subject),
     (text "observedAt", .str observedAt), (text "provenance", legacyProvenance),
     (text "freshness", unknownFreshness),
     (text "evidence", .arr (if slotCount findings = 0 then [some marker] else [])),
     (text "findings", findings)]

/-- The adapter for the flat output. -/
def legacyReport (enricher : Enricher) (base : InspectResult) (observedAt : Text)
    (findings : Value) : Value :=
  .obj [(text "schemaVersion", .str ENRICHMENT_SCHEMA_VERSION),
    (text "outcomes", .arr [some (legacyOutcome enricher base observedAt findings)])]

def identityOf (enricher : Enricher) : EnrichmentIdentity :=
  { sourceId := enricher.id, layer := enricher.layer }

def provenanceKind (value : Value) : Value :=
  (value.get (text "provenance")).get (text "kind")

/-- An outcome or an item of its evidence without declared provenance. -/
def isUndeclared (outcome : Value) : Bool :=
  !(provenanceKind outcome).isStr "declared" ||
    (outcome.get (text "evidence")).someElement
      fun evidence => !(provenanceKind evidence).isStr "declared"

/-- The structured branch of `normalizeOutput`. -/
def declaredReport (enricher : Enricher) (output : Value) : Option Value :=
  if !isEnrichmentReport (some (identityOf enricher)) output
      || (output.get (text "outcomes")).someElement isUndeclared then none
  else some (cloneEnrichmentReport output)

/-- `evidence.provenance.kind !== outcome.provenance.kind` of two strings. -/
def sameKind (a b : Value) : Bool :=
  match a, b with
  | .str s, .str t => s == t
  | _, _ => false

/-- An outcome the loop over a cached report refuses. -/
def isRefused (outcome : Value) : Bool :=
  (provenanceKind outcome).isStr "unavailable" ||
    (outcome.get (text "evidence")).someElement
      fun evidence => !sameKind (provenanceKind evidence) (provenanceKind outcome)

/-- The loop over a cached report: `for..of` visits a hole as `undefined` and reads through it. -/
def refusesCached : List (Option Value) → Except Thrown Bool
  | [] => .ok false
  | none :: _ => .error .thrown
  | some outcome :: rest => if isRefused outcome then .ok true else refusesCached rest

def normalizeCachedReport (enricher : Enricher) (output : Value) : Except Thrown (Option Value) :=
  if !isEnrichmentReport (some (identityOf enricher)) output then .ok none
  else do
    let refused ← refusesCached ((output.get (text "outcomes")).slots?.getD [])
    return if refused then none else some (cloneEnrichmentReport output)

/-! ### The runner's own outcomes -/

/-- `"skipped" | "failure"` -/
inductive DegradationStatus where
  | skipped
  | failure
deriving DecidableEq

def DegradationStatus.outcome : DegradationStatus → OutcomeStatus
  | .skipped => .skipped
  | .failure => .failure

/-- A degradation collected around one source run. -/
structure RuntimeDegradation where
  status : DegradationStatus
  code : EnrichmentFrameworkCauseCode
  retryable : Bool
  details : Option Value := none
  own : code.isRuntime = true := by rfl

/-- The single outcome of `frameworkReport`. -/
def frameworkOutcome (enricher : Enricher) (base : InspectResult) (status : DegradationStatus)
    (code : EnrichmentFrameworkCauseCode) (retryable : Bool) (details : Option Value)
    (observedAt : Text) : EnrichmentOutcome where
  sourceId := enricher.id
  layer := enricher.layer
  status := status.outcome
  subject := inspectionSubject base
  observedAt
  provenance := .unavailable
  freshness := { status := .unknown, expiresAt := none }
  evidence := []
  findings := []
  cause := some { code := code.name, retryable := some retryable, details }

/-- The outcome of a degradation. -/
def RuntimeDegradation.outcome (degradation : RuntimeDegradation) (enricher : Enricher)
    (base : InspectResult) (observedAt : Text) : EnrichmentOutcome :=
  frameworkOutcome enricher base degradation.status degradation.code degradation.retryable
    degradation.details observedAt

/-- `outcomes.some(p)`, reading a field of every element up to the first hit. -/
def outcomesSome (p : EnrichmentOutcome → Bool) :
    List (Option EnrichmentOutcome) → Except Thrown Bool
  | [] => .ok false
  | none :: _ => .error .thrown
  | some outcome :: rest => if p outcome then .ok true else outcomesSome p rest

/-- `outcomes.every(p)`, reading a field of every element up to the first miss. -/
def outcomesEvery (p : EnrichmentOutcome → Bool) :
    List (Option EnrichmentOutcome) → Except Thrown Bool
  | [] => .ok true
  | none :: _ => .error .thrown
  | some outcome :: rest => if p outcome then outcomesEvery p rest else .ok false

def isFailure (outcome : EnrichmentOutcome) : Bool := outcome.status == .failure

def isCompleted (outcome : EnrichmentOutcome) : Bool := outcome.status.isCompleted

end Linklint
