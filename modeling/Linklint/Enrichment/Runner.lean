import Linklint.Enrichment.Report
import Linklint.Js.Json
import Linklint.Lib.Interaction
import Mathlib.Data.List.Infix

/-!
# Running one enricher

The isolation boundary of a source run: cache, governor, provider, lifecycle
callback and cache write, each guarded, with the caller's signal read between
them. Every call of foreign code and every read of the clock or of the signal is
an operation of the environment.
-/

namespace Linklint

open Interaction

/-- What a synchronous call of foreign code does. -/
inductive Called where
  | value (v : Value)
  | threw

/-- What a bounded asynchronous call settles to; `timedOut` is the deadline or the signal. -/
inductive Bounded where
  | value (v : Value)
  | threw
  | timedOut

/-- The operations of a source run. -/
inductive RunnerOp where
  /-- `ctx.signal?.aborted`; without a signal it is never true. -/
  | aborted
  /-- `new Date().toISOString()` -/
  | clock
  | cacheKey
  | cacheGet (key : Text) (timeoutMs : Option Rat)
  | admission (token : Text)
  | enrich (previousOutcomes : List (Option EnrichmentOutcome)) (timeoutMs : Option Rat)
  | recordSuccess (token : Text)
  | recordFailure (token : Text)
  | cacheTtlMsFor (report : Value)
  | cacheSet (key : Text) (report : Value) (ttlMs : Rat) (timeoutMs : Option Rat)

def RunnerAns : RunnerOp → Type
  | .aborted => Bool
  | .clock => Text
  | .cacheKey => Called
  | .cacheGet _ _ => Bounded
  | .admission _ => Called
  | .enrich _ _ => Bounded
  | .recordSuccess _ => Called
  | .recordFailure _ => Called
  | .cacheTtlMsFor _ => Called
  | .cacheSet _ _ _ _ => Bounded

abbrev RunnerProg (α : Type) := Prog RunnerOp RunnerAns α
abbrev RunnerEvent := Event RunnerOp RunnerAns

/-- What one source run is started with. -/
structure RunnerInput where
  enricher : Enricher
  base : InspectResult
  previousOutcomes : List (Option EnrichmentOutcome)
  hasCache : Bool
  hasGovernor : Bool

structure EnricherRun where
  token : Text
  report : EnrichmentReport

def aborted : RunnerProg Bool := Prog.perform RunnerOp.aborted
def clock : RunnerProg Text := Prog.perform RunnerOp.clock
def callCacheKey : RunnerProg Called := Prog.perform RunnerOp.cacheKey

def callCacheGet (key : Text) (timeoutMs : Option Rat) : RunnerProg Bounded :=
  Prog.perform (RunnerOp.cacheGet key timeoutMs)

def callAdmit (token : Text) : RunnerProg Called := Prog.perform (RunnerOp.admission token)

def callEnrich (previousOutcomes : List (Option EnrichmentOutcome)) (timeoutMs : Option Rat) :
    RunnerProg Bounded :=
  Prog.perform (RunnerOp.enrich previousOutcomes timeoutMs)

def callCacheTtlMsFor (report : Value) : RunnerProg Called :=
  Prog.perform (RunnerOp.cacheTtlMsFor report)

def callCacheSet (key : Text) (report : Value) (ttlMs : Rat)
    (timeoutMs : Option Rat) : RunnerProg Bounded :=
  Prog.perform (RunnerOp.cacheSet key report ttlMs timeoutMs)

/-- `isPositiveFinite(value)`, with the number. -/
def positiveFinite : Value → Option Rat
  | .num (.fin q) => if 0 < q then some q else none
  | _ => none

theorem positiveFinite_pos {v : Value} {q : Rat} (h : positiveFinite v = some q) :
    0 < q ∧ v = .num (.fin q) := by
  match v with
  | .num (.fin r) =>
      rw [positiveFinite] at h
      split at h
      · rename_i hr
        cases h
        exact ⟨hr, rfl⟩
      · cases h
  | .num (.infinity _) => cases h
  | .num .nan => cases h
  | .undefined => cases h
  | .null => cases h
  | .bool _ => cases h
  | .str _ => cases h
  | .arr _ => cases h
  | .obj _ => cases h
  | .other => cases h

def DEFAULT_ENRICHMENT_TIMEOUT_MS : Rat := 5000

/-- `none` is no bound at all. -/
def effectiveTimeoutMs (enricherTimeoutMs governorTimeoutMs : Value) : Option Rat :=
  if enricherTimeoutMs.isNull then none
  else
    match positiveFinite enricherTimeoutMs with
    | some ms => some ms
    | none =>
        if governorTimeoutMs.isNull then none
        else
          match positiveFinite governorTimeoutMs with
          | some ms => some ms
          | none => some DEFAULT_ENRICHMENT_TIMEOUT_MS

section
variable (input : RunnerInput)

def RunnerInput.token : Text := checkToken input.enricher

def frameworkReport (degradation : RuntimeDegradation) : RunnerProg EnrichmentReport := do
  let observedAt ← clock
  return { outcomes := [some (degradation.outcome input.enricher input.base observedAt)] }

/-- The outcomes of the degradations, each stamped on its own. -/
def degradationOutcomes : List RuntimeDegradation → RunnerProg (List (Option EnrichmentOutcome))
  | [] => return []
  | degradation :: rest => do
      let report ← frameworkReport input degradation
      let outcomes ← degradationOutcomes rest
      return report.outcomes ++ outcomes

def withDegradations (report : EnrichmentReport) (degradations : List RuntimeDegradation) :
    RunnerProg EnrichmentReport := do
  let outcomes ← degradationOutcomes input degradations
  return { outcomes := report.outcomes ++ outcomes }

/-- `return { token, report: withDegradations(...) }` -/
def settleWith (report : EnrichmentReport) (degradations : List RuntimeDegradation) :
    RunnerProg (Except Thrown EnricherRun) := do
  let report ← withDegradations input report degradations
  return .ok { token := input.token, report }

/-- A run that ends in an outcome of the runner's own. -/
def settleFramework (primary : RuntimeDegradation) (degradations : List RuntimeDegradation) :
    RunnerProg (Except Thrown EnricherRun) := do
  let report ← frameworkReport input primary
  settleWith input report degradations

def skippedAborted : RuntimeDegradation :=
  { status := .skipped, code := .callerAborted, retryable := false }

/-! ### Cache -/

structure CacheSlot where
  key : Text
  staticTtlMs : Option Rat

structure CacheSlotResolution where
  slot : Option CacheSlot
  degradation : Option RuntimeDegradation := none

def reasonDetails (reason : String) : Value := .obj [(text "reason", .str (text reason))]

/-- The resolution of a slot that ran into an error. -/
def slotError (degradation : RuntimeDegradation) : CacheSlotResolution where
  slot := none
  degradation := some degradation

def keyError (reason : String) : RuntimeDegradation :=
  { status := .failure, code := .cacheKeyError, retryable := false,
    details := some (reasonDetails reason) }

def ttlError (reason : String) : RuntimeDegradation :=
  { status := .failure, code := .cacheTtlError, retryable := false,
    details := some (reasonDetails reason) }

def ENRICHMENT_CACHE_NAMESPACE : Text := text "linklint:enrichment:" ++ ENRICHMENT_SCHEMA_VERSION

/-- The slot of a usable key: a namespaced tuple, or nothing when it would leak the full URL. -/
def namespacedSlot (staticTtlMs : Option Rat) (key : Text) : CacheSlotResolution :=
  if (inspectionSubject input.base).kind = .url ∧ input.base.input.length > 0
      ∧ input.base.input <:+: key then
    slotError (keyError "unsafe-full-url")
  else
    { slot := some { key := jsonStrings [ENRICHMENT_CACHE_NAMESPACE, input.token, key], staticTtlMs } }

/-- The slot an answer of `cacheKey` stands for. -/
def slotOfKey (staticTtlMs : Option Rat) : Called → CacheSlotResolution
  | .threw => slotError (keyError "threw")
  | .value .null => { slot := none }
  | .value .undefined => { slot := none }
  | .value (.str key) =>
      if key = [] then slotError (keyError "invalid-return")
      else namespacedSlot input staticTtlMs key
  | .value _ => slotError (keyError "invalid-return")

/-- Why `cacheKey` is not asked at all, when it is not. -/
def keylessSlot : Option CacheSlotResolution :=
  let enricher := input.enricher
  if !enricher.hasCacheKey then some { slot := none }
  else if enricher.cacheTtlMsFor = some false then
    some (slotError (ttlError "invalid-resolver"))
  else if positiveFinite enricher.cacheTtlMs = none ∧ enricher.cacheTtlMsFor = none then
    some { slot := none }
  else none

def cacheSlotFor : RunnerProg CacheSlotResolution :=
  match keylessSlot input with
  | some resolution => return resolution
  | none => do
      let key ← callCacheKey
      return slotOfKey input (positiveFinite input.enricher.cacheTtlMs) key

/-- The slot of the run and what went wrong on the way to it. -/
def resolveSlot : RunnerProg (Option CacheSlot × List RuntimeDegradation) :=
  if input.hasCache then do
    let resolved ← cacheSlotFor input
    return (resolved.slot, resolved.degradation.toList)
  else return (none, [])

inductive CacheRead where
  | aborted
  | hit (cached : Value) (degradations : List RuntimeDegradation)
  | miss (degradations : List RuntimeDegradation)

def cacheReadError (details : Option Value) : RuntimeDegradation :=
  { status := .failure, code := .cacheReadError, retryable := true, details }

/-- A read that timed out is a cancellation when the signal has fired. -/
def cacheReadTimedOut (degradations : List RuntimeDegradation) : RunnerProg CacheRead := do
  if ← aborted then return .aborted
  else return .miss (degradations ++ [cacheReadError (some (reasonDetails "timeout"))])

def readCache (slot : Option CacheSlot) (degradations : List RuntimeDegradation) :
    RunnerProg CacheRead :=
  match slot with
  | none => return .miss degradations
  | some slot => do
      if ← aborted then cacheReadTimedOut degradations
      else
        match ← callCacheGet slot.key
            (effectiveTimeoutMs input.enricher.timeoutMs .undefined) with
        | .value cached =>
            if cached.isUndefined then return .miss degradations
            else return .hit cached degradations
        | .threw => return .miss (degradations ++ [cacheReadError none])
        | .timedOut => cacheReadTimedOut degradations

/-- A hit stands in for the run; what the guards refuse is a failure, never a miss. -/
def serveCached (cached : Value) (degradations : List RuntimeDegradation) :
    RunnerProg (Except Thrown EnricherRun) :=
  match normalizeCachedReport input.enricher cached with
  | .error e => return .error e
  | .ok (some report) => settleWith input (readReport report) degradations
  | .ok none =>
      settleFramework input { status := .failure, code := .invalidCachedOutput, retryable := false }
        degradations

/-! ### Governor -/

def isGovernorDecision (value : Value) : Bool :=
  match value with
  | .obj _ =>
      match value.get (text "run") with
      | .bool false =>
          let cause := value.get (text "cause")
          cause.isUndefined || cause.isStr "rate-limited" || cause.isStr "backoff-active"
      | .bool true =>
          match value.get (text "timeoutMs") with
          | .undefined => true
          | .null => true
          | .num _ => true
          | _ => false
      | _ => false
  | _ => false

/-- `decision.run` of a valid decision. -/
def decisionRuns (decision : Value) : Bool :=
  match decision.get (text "run") with
  | .bool b => b
  | _ => false

/-- `decision.cause ?? "governor-denied"` -/
def denialCause (decision : Value) : EnrichmentFrameworkCauseCode :=
  if (decision.get (text "cause")).isStr "rate-limited" then .rateLimited
  else if (decision.get (text "cause")).isStr "backoff-active" then .backoffActive
  else .governorDenied

theorem isRuntime_denialCause (decision : Value) : (denialCause decision).isRuntime = true := by
  rw [denialCause]
  split
  · rfl
  · split <;> rfl

inductive Admission where
  | run (governorTimeoutMs : Value)
  | refused (primary : RuntimeDegradation)

def admitError (reason : Option String) : RuntimeDegradation where
  status := .failure
  code := .governorError
  retryable := true
  details := some (.obj ((text "operation", .str (text "admit")) ::
    match reason with
    | none => []
    | some reason => [(text "reason", .str (text reason))]))

def consultGovernor : RunnerProg Admission :=
  if input.hasGovernor then do
    match ← callAdmit input.token with
    | .threw => return .refused (admitError none)
    | .value decision =>
        if !isGovernorDecision decision then return .refused (admitError (some "invalid-decision"))
        else if !decisionRuns decision then
          return .refused { status := .skipped, code := denialCause decision, retryable := true,
                            own := isRuntime_denialCause decision }
        else return .run (decision.get (text "timeoutMs"))
  else return .run .undefined

inductive GovernorRecord where
  | recordSuccess | recordFailure
deriving DecidableEq

def GovernorRecord.name : GovernorRecord → Text
  | .recordSuccess => text "recordSuccess"
  | .recordFailure => text "recordFailure"

/-- The guarded call of one lifecycle callback. -/
def callRecord (operation : GovernorRecord) : RunnerProg Called :=
  match operation with
  | .recordSuccess => Prog.perform (RunnerOp.recordSuccess input.token)
  | .recordFailure => Prog.perform (RunnerOp.recordFailure input.token)

def addGovernorRecordDegradation (operation : GovernorRecord)
    (degradations : List RuntimeDegradation) : RunnerProg (List RuntimeDegradation) :=
  if input.hasGovernor then do
    match ← callRecord input operation with
    | .value _ => return degradations
    | .threw =>
        return degradations ++ [{ status := .failure, code := .governorError, retryable := true,
                                  details := some (.obj [(text "operation", .str operation.name)]) }]
  else return degradations

/-! ### Cache write -/

structure CacheTtlResolution where
  ttlMs : Option Rat
  degradation : Option RuntimeDegradation := none

/-- The resolution of a lifetime that ran into an error. -/
def ttlDegradation (reason : String) : CacheTtlResolution where
  ttlMs := none
  degradation := some (ttlError reason)

/-- The lifetime a resolver's answer stands for; `undefined` falls back to the static one. -/
def ttlOfCandidate (staticTtlMs : Option Rat) : Value → CacheTtlResolution
  | .undefined => { ttlMs := staticTtlMs }
  | .null => { ttlMs := none }
  | .num n => { ttlMs := positiveFinite (.num n) }
  | _ => ttlDegradation "invalid-return"

def cacheTtlFor (report : Value) (staticTtlMs : Option Rat) :
    RunnerProg CacheTtlResolution :=
  if input.enricher.cacheTtlMsFor = some true then do
    match ← callCacheTtlMsFor (cloneEnrichmentReport report) with
    | .threw => return ttlDegradation "threw"
    | .value candidate => return ttlOfCandidate staticTtlMs candidate
  else return { ttlMs := staticTtlMs }

def cacheWriteError (details : Option Value) : RuntimeDegradation :=
  { status := .failure, code := .cacheWriteError, retryable := true, details }

def cacheWriteTimedOut (degradations : List RuntimeDegradation) :
    RunnerProg (List RuntimeDegradation) := do
  let reason := if ← aborted then "caller-aborted" else "timeout"
  return degradations ++ [cacheWriteError (some (reasonDetails reason))]

def writeCache (slot : CacheSlot) (report : Value)
    (degradations : List RuntimeDegradation) : RunnerProg (List RuntimeDegradation) := do
  let ttl ← cacheTtlFor input report slot.staticTtlMs
  let degradations := degradations ++ ttl.degradation.toList
  match ttl.ttlMs with
  | none => return degradations
  | some ttlMs =>
      if ← aborted then cacheWriteTimedOut degradations
      else
        match ← callCacheSet slot.key (cloneEnrichmentReport report) ttlMs
            (effectiveTimeoutMs input.enricher.timeoutMs .undefined) with
        | .value _ => return degradations
        | .threw => return degradations ++ [cacheWriteError none]
        | .timedOut => cacheWriteTimedOut degradations

/-! ### Provider -/

def normalizeOutput (output : Value) : RunnerProg (Option Value) :=
  if isEnricherFindingArray output then do
    let observedAt ← clock
    return some (cloneEnrichmentReport (legacyReport input.enricher input.base observedAt output))
  else return declaredReport input.enricher output

/-- A run whose provider threw or timed out; a cancellation is told apart by the signal. -/
def settleUnfinished (primary : RuntimeDegradation) (degradations : List RuntimeDegradation) :
    RunnerProg (Except Thrown EnricherRun) := do
  let degradations ← addGovernorRecordDegradation input .recordFailure degradations
  if ← aborted then settleFramework input skippedAborted degradations
  else settleFramework input primary degradations

/-- The tail of a run with a validated report. -/
def settleReport (slot : Option CacheSlot) (report : Value)
    (degradations : List RuntimeDegradation) : RunnerProg (Except Thrown EnricherRun) :=
  match outcomesSome isFailure (readReport report).outcomes with
  | .error e => return .error e
  | .ok failed => do
      let degradations ← addGovernorRecordDegradation input
        (if failed then .recordFailure else .recordSuccess) degradations
      match slot with
      | none => settleWith input (readReport report) degradations
      | some slot =>
          match outcomesEvery isCompleted (readReport report).outcomes with
          | .error e => return .error e
          | .ok false => settleWith input (readReport report) degradations
          | .ok true => do
              let degradations ← writeCache input slot report degradations
              settleWith input (readReport report) degradations

/-- A run whose provider resolved. -/
def settleOutput (slot : Option CacheSlot) (output : Value)
    (degradations : List RuntimeDegradation) : RunnerProg (Except Thrown EnricherRun) := do
  if ← aborted then
    let degradations ← addGovernorRecordDegradation input .recordFailure degradations
    settleFramework input skippedAborted degradations
  else
    match ← normalizeOutput input output with
    | none => do
        let degradations ← addGovernorRecordDegradation input .recordFailure degradations
        settleFramework input { status := .failure, code := .invalidOutput, retryable := false }
          degradations
    | some report => settleReport input slot report degradations

def runProvider (slot : Option CacheSlot) (governorTimeoutMs : Value)
    (degradations : List RuntimeDegradation) : RunnerProg (Except Thrown EnricherRun) := do
  match ← callEnrich input.previousOutcomes
      (effectiveTimeoutMs input.enricher.timeoutMs governorTimeoutMs) with
  | .threw =>
      settleUnfinished input { status := .failure, code := .sourceError, retryable := true }
        degradations
  | .timedOut =>
      settleUnfinished input { status := .failure, code := .timeout, retryable := true }
        degradations
  | .value output => settleOutput input slot output degradations

/-- What follows a read that yielded nothing. -/
def runFresh (slot : Option CacheSlot) (degradations : List RuntimeDegradation) :
    RunnerProg (Except Thrown EnricherRun) := do
  match ← consultGovernor input with
  | .refused primary => settleFramework input primary degradations
  | .run governorTimeoutMs => runProvider input slot governorTimeoutMs degradations

def runEnricher : RunnerProg (Except Thrown EnricherRun) := do
  if ← aborted then settleFramework input skippedAborted []
  else
    let (slot, degradations) ← resolveSlot input
    match ← readCache input slot degradations with
    | .aborted => settleFramework input skippedAborted []
    | .hit cached degradations => serveCached input cached degradations
    | .miss degradations => runFresh input slot degradations

end

end Linklint
