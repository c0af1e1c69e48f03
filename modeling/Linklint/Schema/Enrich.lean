import Linklint.Js.Value
import Linklint.Schema.ReasonCodes

/-!
# Enrichment reports

The versioned report an enricher returns. A list slot of `none` is a `null`
element: the JSON clone of an array hole.
-/

namespace Linklint

/-- `Extract<Layer, "resolution" | "reputation">` -/
inductive EnrichmentLayer where
  | resolution
  | reputation
deriving DecidableEq, Repr

def EnrichmentLayer.name : EnrichmentLayer → Text
  | .resolution => text "resolution"
  | .reputation => text "reputation"

def ENRICHMENT_SCHEMA_VERSION : Text := text "1.0"

inductive SubjectKind where
  | url
  | host
deriving DecidableEq

structure EnrichmentSubject where
  kind : SubjectKind
  value : Text
deriving DecidableEq

structure EnrichmentProvenanceRef where
  name : Text
  version : Option Text
  url : Option Text
deriving DecidableEq

inductive EnrichmentProvenance where
  | declared (source : EnrichmentProvenanceRef) (data : Option EnrichmentProvenanceRef)
  | legacyIncomplete
  | unavailable
deriving DecidableEq

inductive ProvenanceKind where
  | declared
  | legacyIncomplete
  | unavailable
deriving DecidableEq

def EnrichmentProvenance.kind : EnrichmentProvenance → ProvenanceKind
  | .declared _ _ => .declared
  | .legacyIncomplete => .legacyIncomplete
  | .unavailable => .unavailable

inductive FreshnessStatus where
  | fresh
  | stale
  | unknown
deriving DecidableEq

structure EnrichmentFreshness where
  status : FreshnessStatus
  expiresAt : Option Text
deriving DecidableEq

structure EnrichmentEvidence where
  type : Text
  subject : EnrichmentSubject
  observedAt : Text
  provenance : EnrichmentProvenance
  freshness : EnrichmentFreshness
  payload : Value

structure EnrichmentCause where
  code : Text
  message : Option Text := none
  retryable : Option Bool := none
  details : Option Value := none

inductive ConfusableComponent where
  | host
  | path
  | query
deriving DecidableEq

structure Confusable where
  char : Text
  codepoint : Text
  confusableWith : Text
  component : ConfusableComponent
  position : Nat
deriving DecidableEq

structure EnricherFinding where
  code : ReasonCode
  detail : Text
  confusables : Option (List (Option Confusable)) := none
  confidence : Option Rat := none

inductive OutcomeStatus where
  | success
  | noHit
  | skipped
  | failure
deriving DecidableEq

structure EnrichmentOutcome where
  sourceId : Text
  layer : EnrichmentLayer
  status : OutcomeStatus
  subject : EnrichmentSubject
  observedAt : Text
  provenance : EnrichmentProvenance
  freshness : EnrichmentFreshness
  evidence : List (Option EnrichmentEvidence)
  findings : List (Option EnricherFinding)
  cause : Option EnrichmentCause

structure EnrichmentReport where
  outcomes : List (Option EnrichmentOutcome)

/-- `outcome.status === "success" || outcome.status === "no-hit"` -/
def OutcomeStatus.isCompleted : OutcomeStatus → Bool
  | .success => true
  | .noHit => true
  | .skipped => false
  | .failure => false

/-- `outcome.status === "skipped" || outcome.status === "failure"` -/
def OutcomeStatus.isIncomplete (status : OutcomeStatus) : Bool := !status.isCompleted

/-- The codes of the runner's own outcomes. -/
inductive EnrichmentFrameworkCauseCode where
  | callerAborted
  | prerequisiteUnavailable
  | invalidPlan
  | dependencyCycle
  | rateLimited
  | backoffActive
  | governorDenied
  | governorError
  | timeout
  | sourceError
  | invalidOutput
  | invalidCachedOutput
  | cacheKeyError
  | cacheTtlError
  | cacheReadError
  | cacheWriteError
deriving DecidableEq

/-- The codes a source run reports; the others are the plan's. -/
def EnrichmentFrameworkCauseCode.isRuntime : EnrichmentFrameworkCauseCode → Bool
  | .prerequisiteUnavailable => false
  | .invalidPlan => false
  | .dependencyCycle => false
  | _ => true

def EnrichmentFrameworkCauseCode.name : EnrichmentFrameworkCauseCode → Text
  | .callerAborted => text "caller-aborted"
  | .prerequisiteUnavailable => text "prerequisite-unavailable"
  | .invalidPlan => text "invalid-plan"
  | .dependencyCycle => text "dependency-cycle"
  | .rateLimited => text "rate-limited"
  | .backoffActive => text "backoff-active"
  | .governorDenied => text "governor-denied"
  | .governorError => text "governor-error"
  | .timeout => text "timeout"
  | .sourceError => text "source-error"
  | .invalidOutput => text "invalid-output"
  | .invalidCachedOutput => text "invalid-cached-output"
  | .cacheKeyError => text "cache-key-error"
  | .cacheTtlError => text "cache-ttl-error"
  | .cacheReadError => text "cache-read-error"
  | .cacheWriteError => text "cache-write-error"

end Linklint
