import Linklint.Enrichment.Runner
import Linklint.Inspect

/-!
# Folding reports back

The last stage of the asynchronous entry point: the findings of the successful
outcomes become reasons through the registry, each evaluated against the subject
of its outcome, and the verdict is aggregated again.
-/

namespace Linklint

section
variable (P : Platform)

/-- `parse(subject.value)?.registrableDomain` under no options. -/
def parsedRegistrableDomain (input : Text) : Except Thrown (Option Text) := do
  let ctx ← parseInput P input (ReadableOptions.empty P).runtime
  return ctx.bind fun ctx => ctx.registrableDomain

def suppressionSubjectHostContext (subject : EnrichmentSubject) : Option Text :=
  let registrableDomain : Except Thrown (Option Text) :=
    match subject.kind with
    | .host => (deriveHostFacts P subject.value).map fun facts => facts.psl.registrableDomain
    | .url => parsedRegistrableDomain P subject.value
  match registrableDomain with
  | .ok domain => suppressionHostContext P domain
  | .error _ => none

/-- What a finding is worth before suppression: the registry decides, never the enricher. -/
def projectedReason (finding : EnricherFinding) : Reason where
  code := finding.code
  layer := (reasonMeta finding.code).layer
  detail := finding.detail
  weight := weightFor finding.code

structure SubjectFinding where
  finding : EnricherFinding
  subject : EnrichmentSubject

/-- `applySuppressions([projected], ...)[0]!` -/
def enrichmentReason (rules : List SuppressionRule) (item : SubjectFinding) : Reason :=
  (applySuppressions [projectedReason item.finding] rules
    (suppressionSubjectHostContext P item.subject)).headD (projectedReason item.finding)

end

/-- The findings of one outcome; a `null` finding throws where its code is read. -/
def outcomeFindings (outcome : EnrichmentOutcome) : Except Thrown (List SubjectFinding) :=
  if outcome.status = .success then
    outcome.findings.mapM fun finding =>
      match finding with
      | some finding => .ok { finding, subject := outcome.subject }
      | none => .error .thrown
  else .ok []

def isIncomplete (outcome : EnrichmentOutcome) : Bool := outcome.status.isIncomplete

/-- What one run adds to the result. -/
structure RunReading where
  completed : Bool
  incomplete : Bool
  findings : List SubjectFinding

/-- A `null` outcome throws where its status is read. -/
def readRun (run : EnricherRun) : Except Thrown RunReading := do
  let completed ← outcomesSome isCompleted run.report.outcomes
  let incomplete ← outcomesSome isIncomplete run.report.outcomes
  let findings ← run.report.outcomes.mapM fun outcome =>
    match outcome with
    | some outcome => outcomeFindings outcome
    | none => .error .thrown
  return { completed, incomplete, findings := findings.flatten }

/-- `LAYER_PLACEHOLDERS.includes(token) && configuredLayers.has(token)` -/
def isConfiguredPlaceholder (enrichers : List Enricher) (token : Text) : Bool :=
  enrichers.any fun enricher => enricher.layer.name == token

def findingConfidence (item : SubjectFinding) : Rat := item.finding.confidence.getD 1

/-- The result over the readings of the runs, in plan order. -/
def foldedResult (P : Platform) (base : InspectResult) (enrichers : List Enricher)
    (rules : List SuppressionRule) (runs : List (EnricherRun × RunReading)) : InspectResult :=
  let findings := runs.flatMap fun run => run.2.findings
  let reasons := sortReasons (base.reasons ++ findings.map (enrichmentReason P rules))
  let scored := aggregate reasons
  { base with
    reasons
    confusables := base.confusables ++ findings.flatMap fun item => item.finding.confusables.getD []
    score := if base.status = .ok then some scored.score else base.score
    severity := if base.status = .ok then some scored.severity else base.severity
    confidence := (findings.map findingConfidence).foldl min base.confidence
    checksRun := base.checksRun
      ++ (runs.filter fun run => run.2.completed).map fun run => run.1.token
    checksSkipped := base.checksSkipped.filter (fun token => !isConfiguredPlaceholder enrichers token)
      ++ (runs.filter fun run => run.2.incomplete).map fun run => run.1.token
    enrichment := some { outcomes := runs.flatMap fun run => run.1.report.outcomes } }

/-- `rules` is what the caller's `suppressReasons` normalizes to. -/
def foldRuns (P : Platform) (base : InspectResult) (enrichers : List Enricher)
    (rules : List SuppressionRule) (runs : List EnricherRun) : Except Thrown InspectResult :=
  if enrichers = [] then .ok base
  else do
    let readings ← runs.mapM readRun
    return foldedResult P base enrichers rules (runs.zip readings)

@[simp] theorem enrichmentReason_eq (P : Platform) (rules : List SuppressionRule)
    (item : SubjectFinding) : enrichmentReason P rules item
      = suppressReason rules (suppressionSubjectHostContext P item.subject)
        (projectedReason item.finding) := by
  rw [enrichmentReason, applySuppressions_eq_map]
  rfl

end Linklint
