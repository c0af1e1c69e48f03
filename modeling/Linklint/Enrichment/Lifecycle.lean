import Linklint.Enrichment.Reading
import Linklint.Enrichment.Runner

/-!
# The lifecycle of a source run

The order in which one run calls its cache, its governor and its provider, as an
automaton that every run follows. The ledger is what an observer of the calls
writes down; each phase of the automaton stands for one ledger.
-/

namespace Linklint

open Interaction

/-! ### What an observer sees -/

/-- The calls of a run so far, and what became of them. -/
structure Ledger where
  /-- cache reads that returned a value -/
  hits : Nat := 0
  admits : Nat := 0
  /-- admissions answered by a valid `run: true` decision -/
  approved : Nat := 0
  enriches : Nat := 0
  /-- what the provider has just resolved to -/
  arrived : Option Value := none
  /-- what the provider resolved to, when the signal read right after it had not fired -/
  completed : Option Value := none
  successes : Nat := 0
  failures : Nat := 0

def isApproval : Option Called → Bool
  | some (.value decision) => isGovernorDecision decision && decisionRuns decision
  | _ => false

def isHit : Option Bounded → Bool
  | some (.value v) => !v.isUndefined
  | _ => false

def arrival : Option Bounded → Option Value
  | some (.value v) => some v
  | _ => none

def Ledger.note (l : Ledger) : RunnerEvent → Ledger
  | ⟨.cacheGet _ _, answer⟩ =>
      { l with hits := l.hits + (isHit answer).toNat, arrived := none }
  | ⟨.admission _, answer⟩ =>
      { l with admits := l.admits + 1, approved := l.approved + (isApproval answer).toNat,
               arrived := none }
  | ⟨.enrich _ _, answer⟩ =>
      { l with enriches := l.enriches + 1, arrived := arrival answer }
  | ⟨.aborted, some false⟩ =>
      { l with completed := l.arrived.or l.completed, arrived := none }
  | ⟨.recordSuccess _, _⟩ => { l with successes := l.successes + 1, arrived := none }
  | ⟨.recordFailure _, _⟩ => { l with failures := l.failures + 1, arrived := none }
  | _ => { l with arrived := none }

def ledger (trace : List RunnerEvent) : Ledger := trace.foldl Ledger.note {}

theorem ledger_snoc (trace : List RunnerEvent) (e : RunnerEvent) :
    ledger (trace ++ [e]) = (ledger trace).note e := by
  simp [ledger]

/-! ### The automaton -/

inductive Phase where
  /-- before the first read of the signal -/
  | opening
  /-- settled without any call of foreign code -/
  | over
  | keying
  /-- there is a slot, and its read is next -/
  | reading
  /-- the read timed out -/
  | expired
  | hit (cached : Value)
  /-- the cache yielded nothing -/
  | clear
  | admitted
  | refused
  | delivered (output : Value)
  | completed (output : Value)
  /-- the provider was called and left nothing to report -/
  | owing
  | recorded (operation : GovernorRecord) (output : Option Value)

section
variable (input : RunnerInput)

def needsKey : Bool := input.hasCache && (keylessSlot input).isNone

def afterOpening : Option Bool → Phase
  | some true => .over
  | some false => if needsKey input then .keying else .clear
  | none => .opening

def afterKey : Option Called → Phase
  | some key =>
      if (slotOfKey input (positiveFinite input.enricher.cacheTtlMs) key).slot.isSome then .reading
      else .clear
  | none => .keying

def beforeRead : Option Bool → Phase
  | some true => .expired
  | _ => .reading

def afterRead : Option Bounded → Phase
  | some (.value v) => if v.isUndefined then .clear else .hit v
  | some .threw => .clear
  | some .timedOut => .expired
  | none => .reading

def afterExpiry : Option Bool → Phase
  | some true => .over
  | some false => .clear
  | none => .expired

def afterAdmit (answer : Option Called) : Phase := if isApproval answer then .admitted else .refused

def afterEnrich (answer : Option Bounded) : Phase :=
  match arrival answer with
  | some output => .delivered output
  | none => .owing

def afterCompletion (output : Value) : Option Bool → Phase
  | some false => .completed output
  | _ => .owing

/-- The record a completed output asks for. -/
def recordOf (enricher : Enricher) (output : Value) : GovernorRecord :=
  if isCleanOutput enricher output then .recordSuccess else .recordFailure

/-- The phases in which the clock, the signal and the cache write may be called. -/
def Phase.isQuiet : Phase → Bool
  | .over => true
  | .hit _ => true
  | .refused => true
  | .owing => true
  | .recorded _ _ => true
  | .completed output => !isSparseOutput input.enricher output
  | _ => false

def isQuietOp : RunnerOp → Bool
  | .clock => true
  | .aborted => true
  | .cacheTtlMsFor _ => true
  | .cacheSet _ _ _ _ => true
  | _ => false

def recordOp (operation : GovernorRecord) (token : Text) : RunnerOp :=
  match operation with
  | .recordSuccess => .recordSuccess token
  | .recordFailure => .recordFailure token

/-- The calls the lifecycle allows, and where they lead. -/
inductive Step : Phase → RunnerEvent → Phase → Prop
  | opening (answer : Option Bool) : Step .opening ⟨.aborted, answer⟩ (afterOpening input answer)
  | keying (answer : Option Called) : Step .keying ⟨.cacheKey, answer⟩ (afterKey input answer)
  | readable (answer : Option Bool) : Step .reading ⟨.aborted, answer⟩ (beforeRead answer)
  | reading {key : Text} {ms : Option Rat} (answer : Option Bounded) :
      Step .reading ⟨.cacheGet key ms, answer⟩ (afterRead answer)
  | expired (answer : Option Bool) : Step .expired ⟨.aborted, answer⟩ (afterExpiry answer)
  | admission (governed : input.hasGovernor = true) (answer : Option Called) :
      Step .clear ⟨.admission input.token, answer⟩ (afterAdmit answer)
  | enrich (free : input.hasGovernor = false) {ms : Option Rat} (answer : Option Bounded) :
      Step .clear ⟨.enrich input.previousOutcomes ms, answer⟩ (afterEnrich answer)
  | admitted (governed : input.hasGovernor = true) {ms : Option Rat} (answer : Option Bounded) :
      Step .admitted ⟨.enrich input.previousOutcomes ms, answer⟩ (afterEnrich answer)
  | delivered (output : Value) (answer : Option Bool) :
      Step (.delivered output) ⟨.aborted, answer⟩ (afterCompletion output answer)
  | owing (governed : input.hasGovernor = true) (answer : Option Called) :
      Step .owing ⟨.recordFailure input.token, answer⟩ (.recorded .recordFailure none)
  | completed (governed : input.hasGovernor = true) {output : Value}
      (dense : isSparseOutput input.enricher output = false) {operation : GovernorRecord}
      (hrecord : operation = recordOf input.enricher output)
      (answer : Option (RunnerAns (recordOp operation input.token))) :
      Step (.completed output) ⟨recordOp operation input.token, answer⟩
        (.recorded operation (some output))
  | quiet {phase : Phase} (still : phase.isQuiet input = true) {op : RunnerOp}
      (hop : isQuietOp op = true) (answer : Option (RunnerAns op)) : Step phase ⟨op, answer⟩ phase

end

/-! ### Phases and ledgers -/

/-- The ledger once the provider was called. -/
def calledLedger (governed : Bool) : Ledger where
  admits := governed.toNat
  approved := governed.toNat
  enriches := 1

/-- What an observer has written down when a run is in a phase. -/
def Phase.ledger (governed : Bool) : Phase → Ledger
  | .hit _ => { hits := 1 }
  | .admitted => { admits := 1, approved := 1 }
  | .refused => { admits := 1 }
  | .delivered output => { calledLedger governed with arrived := some output }
  | .completed output => { calledLedger governed with completed := some output }
  | .owing => calledLedger governed
  | .recorded .recordSuccess output =>
      { calledLedger governed with completed := output, successes := 1 }
  | .recorded .recordFailure output =>
      { calledLedger governed with completed := output, failures := 1 }
  | _ => {}

theorem note_quiet {governed : Bool} {input : RunnerInput} {phase : Phase} {op : RunnerOp}
    (still : phase.isQuiet input = true) (hop : isQuietOp op = true)
    (answer : Option (RunnerAns op)) :
    (phase.ledger governed).note ⟨op, answer⟩ = phase.ledger governed := by
  have harrived : (phase.ledger governed).arrived = none := by
    cases phase with
    | recorded operation output => cases operation <;> rfl
    | delivered => cases still
    | _ => rfl
  cases op with
  | aborted =>
      rcases answer with _ | _ | _
      · simp [Ledger.note, ← harrived]
      · simp only [Ledger.note, harrived, Option.none_or]
        rw [← harrived]
      · simp [Ledger.note, ← harrived]
  | clock => simp [Ledger.note, ← harrived]
  | cacheTtlMsFor => simp [Ledger.note, ← harrived]
  | cacheSet => simp [Ledger.note, ← harrived]
  | _ => cases hop

theorem step_ledger {input : RunnerInput} {phase phase' : Phase} {e : RunnerEvent}
    (h : Step input phase e phase') :
    (phase.ledger input.hasGovernor).note e = phase'.ledger input.hasGovernor := by
  cases h with
  | opening answer =>
      rcases answer with _ | _ | _
      · rfl
      · by_cases hkey : needsKey input = true <;> simp [afterOpening, hkey] <;> rfl
      · rfl
  | keying answer =>
      rcases answer with _ | key
      · rfl
      · simp only [afterKey]
        split <;> rfl
  | readable answer => rcases answer with _ | _ | _ <;> rfl
  | reading answer =>
      rcases answer with _ | v | _ | _
      · rfl
      · by_cases hv : v.isUndefined = true <;> simp [afterRead, hv, Ledger.note, isHit, Phase.ledger]
      · rfl
      · rfl
  | expired answer => rcases answer with _ | _ | _ <;> rfl
  | admission governed answer =>
      by_cases happroved : isApproval answer = true <;>
        simp [afterAdmit, happroved, Ledger.note, Phase.ledger]
  | enrich free answer =>
      rw [free]
      rcases answer with _ | v | _ | _ <;> rfl
  | admitted governed answer =>
      rw [governed]
      rcases answer with _ | v | _ | _ <;> rfl
  | delivered output answer => rcases answer with _ | _ | _ <;> rfl
  | owing governed answer => rfl
  | @completed governed output dense operation hrecord answer => cases operation <;> rfl
  | quiet still hop answer => exact note_quiet still hop answer

/-! ### Every run follows the lifecycle -/

/-- An outcome the runner wrote itself. -/
def IsFramework (input : RunnerInput) (outcome : EnrichmentOutcome) : Prop :=
  ∃ (degradation : RuntimeDegradation) (observedAt : Text),
    outcome = degradation.outcome input.enricher input.base observedAt

/-- What a report is made of: the outcomes of a source, then outcomes of the runner. -/
structure ReportOf (input : RunnerInput) (source : Option Value) (report : EnrichmentReport)
    (framework : List EnrichmentOutcome) : Prop where
  outcomes : report.outcomes =
    (source.elim [] fun v => (readReport v).outcomes) ++ framework.map some
  appended : ∀ outcome ∈ framework, IsFramework input outcome
  nonempty : source = none → framework ≠ []

/-- The reports a run that ends in a phase may be made of. -/
def Supplies (input : RunnerInput) (phase : Phase) (report : Value) : Prop :=
  match phase with
  | .hit cached => normalizeCachedReport input.enricher cached = .ok (some report)
  | .completed output => Normalized input.enricher input.base output report ∧
      isSparseOutput input.enricher output = false
  | .recorded _ (some output) => Normalized input.enricher input.base output report ∧
      isSparseOutput input.enricher output = false
  | _ => False

def Phase.isEnded (governed : Bool) : Phase → Bool
  | .over => true
  | .hit _ => true
  | .refused => true
  | .recorded _ _ => true
  | .owing => !governed
  | .completed _ => !governed
  | _ => false

/-- The phases in which the code after the boundary throws. -/
def Breaks (input : RunnerInput) (phase : Phase) : Prop :=
  (∃ cached, phase = .hit cached ∧ normalizeCachedReport input.enricher cached = .error .thrown) ∨
    ∃ output, phase = .completed output ∧ isSparseOutput input.enricher output = true

/-- How a run ends. -/
def Concluded (input : RunnerInput) (result : Except Thrown EnricherRun) (phase : Phase) : Prop :=
  match result with
  | .error _ => Breaks input phase
  | .ok run => run.token = input.token ∧ phase.isEnded input.hasGovernor = true ∧
      ∃ source framework, ReportOf input source run.report framework ∧
        ∀ report, source = some report → Supplies input phase report

section
variable {input : RunnerInput} {phase : Phase}

theorem wp_quiet {α : Type} {op : RunnerOp} {rest : RunnerAns op → RunnerProg α}
    {post : α → Phase → Prop} (still : phase.isQuiet input = true) (hop : isQuietOp op = true)
    (h : ∀ answer, wp (Step input) (rest answer) post phase) :
    wp (Step input) (.call op rest) post phase :=
  wp_call_of (fun _ => phase) (fun answer => .quiet still hop answer) h

theorem wp_frameworkReport (still : phase.isQuiet input = true) (degradation : RuntimeDegradation) :
    wp (Step input) (frameworkReport input degradation)
      (fun report s => s = phase ∧ ∃ outcome, report = { outcomes := [some outcome] } ∧
        IsFramework input outcome) phase := by
  simp only [frameworkReport, clock]
  exact wp_quiet still rfl fun observedAt => ⟨rfl, _, rfl, degradation, observedAt, rfl⟩

theorem wp_degradationOutcomes (still : phase.isQuiet input = true)
    (degradations : List RuntimeDegradation) :
    wp (Step input) (degradationOutcomes input degradations)
      (fun outcomes s => s = phase ∧ ∃ framework : List EnrichmentOutcome,
        outcomes = framework.map some ∧ ∀ outcome ∈ framework, IsFramework input outcome) phase := by
  induction degradations with
  | nil => exact ⟨rfl, [], rfl, fun outcome h => by cases h⟩
  | cons degradation rest ih =>
      simp only [degradationOutcomes]
      rw [wp_bind]
      refine wp_mono (wp_frameworkReport still degradation) ?_
      rintro report s ⟨rfl, outcome, rfl, houtcome⟩
      rw [wp_bind]
      refine wp_mono ih ?_
      rintro outcomes s ⟨rfl, framework, rfl, hframework⟩
      refine ⟨rfl, outcome :: framework, rfl, ?_⟩
      intro other hother
      rcases List.mem_cons.mp hother with rfl | hother
      · exact houtcome
      · exact hframework other hother

theorem wp_settleWith {source : Option Value} {report : EnrichmentReport}
    {framework : List EnrichmentOutcome} (still : phase.isQuiet input = true)
    (ended : phase.isEnded input.hasGovernor = true)
    (hreport : ReportOf input source report framework)
    (hsource : ∀ r, source = some r → Supplies input phase r)
    (degradations : List RuntimeDegradation) :
    wp (Step input) (settleWith input report degradations) (Concluded input) phase := by
  simp only [settleWith, withDegradations]
  rw [wp_bind, wp_bind]
  refine wp_mono (wp_degradationOutcomes still degradations) ?_
  rintro outcomes s ⟨rfl, added, rfl, hadded⟩
  refine ⟨rfl, ended, source, framework ++ added, ⟨?_, ?_, ?_⟩, hsource⟩
  · simp [hreport.outcomes]
  · intro outcome houtcome
    rcases List.mem_append.mp houtcome with houtcome | houtcome
    · exact hreport.appended outcome houtcome
    · exact hadded outcome houtcome
  · intro hnone hnil
    exact hreport.nonempty hnone (List.append_eq_nil_iff.mp hnil).1

theorem wp_settleFramework (still : phase.isQuiet input = true)
    (ended : phase.isEnded input.hasGovernor = true) (primary : RuntimeDegradation)
    (degradations : List RuntimeDegradation) :
    wp (Step input) (settleFramework input primary degradations) (Concluded input) phase := by
  simp only [settleFramework]
  rw [wp_bind]
  refine wp_mono (wp_frameworkReport still primary) ?_
  rintro report s ⟨rfl, outcome, rfl, houtcome⟩
  have hreport : ReportOf input none { outcomes := [some outcome] } [outcome] :=
    ⟨rfl, fun other hother => List.mem_singleton.mp hother ▸ houtcome, fun _ => by simp⟩
  exact wp_settleWith still ended hreport (fun r hr => by cases hr) degradations

/-- One lifecycle callback, if there is a governor. -/
theorem wp_record {phase' : Phase} {operation : GovernorRecord}
    (hstep : input.hasGovernor = true → ∀ answer,
      Step input phase ⟨recordOp operation input.token, answer⟩ phase')
    (degradations : List RuntimeDegradation) :
    wp (Step input) (addGovernorRecordDegradation input operation degradations)
      (fun _ s => s = if input.hasGovernor then phase' else phase) phase := by
  rw [addGovernorRecordDegradation]
  by_cases hgov : input.hasGovernor = true
  · rw [if_pos hgov, if_pos hgov]
    cases operation with
    | recordSuccess =>
        refine wp_call_of (fun _ => phase') (hstep hgov) fun answer => ?_
        cases answer <;> rfl
    | recordFailure =>
        refine wp_call_of (fun _ => phase') (hstep hgov) fun answer => ?_
        cases answer <;> rfl
  · rw [if_neg hgov, if_neg hgov]
    rfl

/-! ### Cache -/

theorem slot_of_keyless {resolution : CacheSlotResolution}
    (h : keylessSlot input = some resolution) : resolution.slot = none := by
  simp only [keylessSlot] at h
  split at h
  · cases h
    rfl
  · split at h
    · cases h
      rfl
    · split at h
      · cases h
        rfl
      · cases h

theorem wp_cacheSlotFor {post : CacheSlotResolution → Phase → Prop}
    (hcache : input.hasCache = true)
    (h : ∀ resolution, post resolution (if resolution.slot.isSome then .reading else .clear)) :
    wp (Step input) (cacheSlotFor input) post (afterOpening input (some false)) := by
  rw [cacheSlotFor, afterOpening, needsKey, hcache]
  cases hkeyless : keylessSlot input with
  | some resolution =>
      have hslot := slot_of_keyless hkeyless
      have hpost := h resolution
      rw [hslot] at hpost
      exact hpost
  | none =>
      exact wp_call_of (afterKey input) (fun answer => .keying answer) fun key => h _

theorem wp_resolveSlot {post : Option CacheSlot × List RuntimeDegradation → Phase → Prop}
    (h : ∀ slot degradations,
      post (slot, degradations) (if slot.isSome then .reading else .clear)) :
    wp (Step input) (resolveSlot input) post (afterOpening input (some false)) := by
  rw [resolveSlot]
  by_cases hcache : input.hasCache = true
  · rw [if_pos hcache, wp_bind]
    exact wp_cacheSlotFor hcache fun resolution => h _ _
  · rw [if_neg hcache, afterOpening, needsKey, Bool.eq_false_of_not_eq_true hcache]
    exact h none []

/-- What a cache read leaves behind. -/
def ReadEnded : CacheRead → Phase → Prop
  | .aborted, phase => phase = .over
  | .hit cached _, phase => phase = .hit cached
  | .miss _, phase => phase = .clear

theorem wp_cacheReadTimedOut (degradations : List RuntimeDegradation) :
    wp (Step input) (cacheReadTimedOut degradations) ReadEnded .expired := by
  refine wp_call_of afterExpiry (fun answer => .expired answer) fun fired => ?_
  cases fired <;> rfl

theorem wp_readCache (slot : Option CacheSlot) (degradations : List RuntimeDegradation) :
    wp (Step input) (readCache input slot degradations) ReadEnded
      (if slot.isSome then .reading else .clear) := by
  cases slot with
  | none => rfl
  | some slot =>
      refine wp_call_of beforeRead (fun answer => .readable answer) fun fired => ?_
      cases fired with
      | true => exact wp_cacheReadTimedOut degradations
      | false =>
          refine wp_call_of afterRead (fun answer => .reading answer) fun answer => ?_
          cases answer with
          | value cached =>
              change wp (Step input)
                (if cached.isUndefined then .ret (.miss degradations)
                  else .ret (.hit cached degradations)) ReadEnded
                (if cached.isUndefined then .clear else .hit cached)
              by_cases hcached : cached.isUndefined = true
              · rw [if_pos hcached, if_pos hcached]
                rfl
              · rw [if_neg hcached, if_neg hcached]
                rfl
          | threw => rfl
          | timedOut => exact wp_cacheReadTimedOut degradations

theorem wp_serveCached (cached : Value) (degradations : List RuntimeDegradation) :
    wp (Step input) (serveCached input cached degradations) (Concluded input) (.hit cached) := by
  rw [serveCached]
  cases hcached : normalizeCachedReport input.enricher cached with
  | error e => exact Or.inl ⟨cached, rfl, hcached⟩
  | ok report =>
      cases report with
      | none => exact wp_settleFramework rfl rfl _ degradations
      | some report =>
          have hreport : ReportOf input (some report) (readReport report) [] :=
            ⟨by simp, fun outcome h => (by cases h), fun h => by cases h⟩
          refine wp_settleWith rfl rfl hreport ?_ degradations
          rintro r ⟨rfl⟩
          exact hcached

theorem wp_cacheTtlFor (still : phase.isQuiet input = true) (report : Value)
    (staticTtlMs : Option Rat) :
    wp (Step input) (cacheTtlFor input report staticTtlMs) (fun _ s => s = phase) phase := by
  rw [cacheTtlFor]
  by_cases hresolver : input.enricher.cacheTtlMsFor = some true
  · rw [if_pos hresolver]
    refine wp_quiet still rfl fun answer => ?_
    cases answer <;> rfl
  · rw [if_neg hresolver]
    rfl

theorem wp_cacheWriteTimedOut (still : phase.isQuiet input = true)
    (degradations : List RuntimeDegradation) :
    wp (Step input) (cacheWriteTimedOut degradations) (fun _ s => s = phase) phase :=
  wp_quiet still rfl fun _ => rfl

theorem wp_writeCache (still : phase.isQuiet input = true) (slot : CacheSlot)
    (report : Value) (degradations : List RuntimeDegradation) :
    wp (Step input) (writeCache input slot report degradations) (fun _ s => s = phase) phase := by
  rw [writeCache, wp_bind]
  refine wp_mono (wp_cacheTtlFor still report slot.staticTtlMs) ?_
  rintro ttl s rfl
  cases hms : ttl.ttlMs with
  | none => rfl
  | some ttlMs =>
      refine wp_quiet still rfl fun fired => ?_
      cases fired with
      | true => exact wp_cacheWriteTimedOut still _
      | false =>
          refine wp_quiet still rfl fun answer => ?_
          cases answer with
          | value v => rfl
          | threw => rfl
          | timedOut => exact wp_cacheWriteTimedOut still _

/-! ### Provider -/

theorem wp_normalizeOutput (output : Value) :
    wp (Step input) (normalizeOutput input output)
      (fun report s => s = .completed output ∧
        match report with
        | none => isCleanOutput input.enricher output = false ∧
            isSparseOutput input.enricher output = false
        | some report => Normalized input.enricher input.base output report)
      (.completed output) := by
  rw [normalizeOutput]
  by_cases hflat : isEnricherFindingArray output = true
  · rw [if_pos hflat]
    have still : Phase.isQuiet input (.completed output) = true := by
      simp [Phase.isQuiet, isSparseOutput, hflat]
    exact wp_quiet still rfl fun observedAt => ⟨rfl, .legacy observedAt hflat⟩
  · rw [if_neg hflat]
    have hflat := Bool.eq_false_of_not_eq_true hflat
    refine ⟨rfl, ?_⟩
    cases hdeclared : declaredReport input.enricher output with
    | none => simp [isCleanOutput, isSparseOutput, hflat, hdeclared]
    | some report => exact .declared hflat hdeclared

/-- Once the search for a failure has returned, no later search of the outcomes throws. -/
theorem outcomesEvery_of_some {outcomes : List (Option EnrichmentOutcome)} {failed : Bool}
    (h : outcomesSome isFailure outcomes = .ok failed) :
    ∃ completed, outcomesEvery isCompleted outcomes = .ok completed := by
  induction outcomes with
  | nil => exact ⟨true, rfl⟩
  | cons slot rest ih =>
      cases slot with
      | none => cases h
      | some outcome =>
          rw [outcomesEvery]
          by_cases hcompleted : isCompleted outcome = true
          · rw [if_pos hcompleted]
            have hfailure : isFailure outcome = false := by
              rw [isCompleted] at hcompleted
              cases hstatus : outcome.status <;> simp_all [isFailure, OutcomeStatus.isCompleted]
            rw [outcomesSome, hfailure] at h
            exact ih h
          · rw [if_neg hcompleted]
            exact ⟨false, rfl⟩

/-- The phase once the lifecycle callback has been made, where there is one. -/
def afterRecord (input : RunnerInput) (output : Value) : Phase :=
  if input.hasGovernor then .recorded (recordOf input.enricher output) (some output)
  else .completed output

def afterFailure (input : RunnerInput) : Phase :=
  if input.hasGovernor then .recorded .recordFailure none else .owing

theorem isQuiet_afterFailure : (afterFailure input).isQuiet input = true := by
  rw [afterFailure]
  split <;> rfl

theorem isEnded_afterFailure : (afterFailure input).isEnded input.hasGovernor = true := by
  rw [afterFailure]
  by_cases hgov : input.hasGovernor = true
  · rw [if_pos hgov]
    rfl
  · rw [if_neg hgov, Bool.eq_false_of_not_eq_true hgov]
    rfl

theorem wp_recordFailure (degradations : List RuntimeDegradation) :
    wp (Step input) (addGovernorRecordDegradation input .recordFailure degradations)
      (fun _ s => s = afterFailure input) .owing := by
  have hstep (hgov : input.hasGovernor = true) (answer : Option Called) :
      Step input .owing ⟨.recordFailure input.token, answer⟩ (.recorded .recordFailure none) :=
    .owing hgov answer
  exact wp_record hstep degradations

theorem isQuiet_afterRecord {output : Value}
    (dense : isSparseOutput input.enricher output = false) :
    (afterRecord input output).isQuiet input = true := by
  rw [afterRecord]
  split
  · rfl
  · simp [Phase.isQuiet, dense]

theorem isEnded_afterRecord {output : Value} :
    (afterRecord input output).isEnded input.hasGovernor = true := by
  rw [afterRecord]
  by_cases hgov : input.hasGovernor = true
  · simp [hgov, Phase.isEnded]
  · simp [hgov, Phase.isEnded]

theorem wp_recordCompleted {output : Value} (dense : isSparseOutput input.enricher output = false)
    (degradations : List RuntimeDegradation) :
    wp (Step input)
      (addGovernorRecordDegradation input (recordOf input.enricher output) degradations)
      (fun _ s => s = afterRecord input output) (.completed output) :=
  wp_record (fun hgov answer => .completed hgov dense rfl answer) degradations

theorem wp_settleReport (slot : Option CacheSlot) {output report : Value}
    (h : Normalized input.enricher input.base output report)
    (degradations : List RuntimeDegradation) :
    wp (Step input) (settleReport input slot report degradations) (Concluded input)
      (.completed output) := by
  rw [settleReport]
  have hsearch := outcomesSome_of_normalized h
  by_cases hsparse : isSparseOutput input.enricher output = true
  · rw [if_pos hsparse] at hsearch
    rw [hsearch]
    exact Or.inr ⟨output, rfl, hsparse⟩
  · rw [if_neg hsparse] at hsearch
    obtain ⟨completed, hevery⟩ := outcomesEvery_of_some hsearch
    have dense := Bool.eq_false_of_not_eq_true hsparse
    have still := isQuiet_afterRecord dense
    have ended := @isEnded_afterRecord input output
    have hsource : ∀ r, some report = some r → Supplies input (afterRecord input output) r := by
      rintro r ⟨rfl⟩
      rw [afterRecord]
      split <;> exact ⟨h, dense⟩
    have hreport : ReportOf input (some report) (readReport report) [] :=
      ⟨by simp, fun outcome h => (by cases h), fun h => by cases h⟩
    rw [hsearch]
    have hoperation : (if (!isCleanOutput input.enricher output) = true then .recordFailure
        else .recordSuccess) = recordOf input.enricher output := by
      rw [recordOf]
      cases isCleanOutput input.enricher output <;> rfl
    simp only [hoperation]
    rw [wp_bind]
    refine wp_mono (wp_recordCompleted dense degradations) ?_
    rintro degradations s rfl
    cases slot with
    | none => exact wp_settleWith still ended hreport hsource degradations
    | some slot =>
        simp only [hevery]
        cases completed with
        | false => exact wp_settleWith still ended hreport hsource degradations
        | true =>
            simp only []
            rw [wp_bind]
            refine wp_mono (wp_writeCache still slot _ degradations) ?_
            rintro degradations s rfl
            exact wp_settleWith still ended hreport hsource degradations

theorem wp_settleOutput (slot : Option CacheSlot) (output : Value)
    (degradations : List RuntimeDegradation) :
    wp (Step input) (settleOutput input slot output degradations) (Concluded input)
      (.delivered output) := by
  rw [settleOutput]
  refine wp_call_of (afterCompletion output) (fun answer => .delivered output answer) fun fired => ?_
  cases fired with
  | true =>
      change wp (Step input) (addGovernorRecordDegradation input .recordFailure degradations >>= _)
        (Concluded input) .owing
      rw [wp_bind]
      refine wp_mono (wp_recordFailure degradations) ?_
      rintro degradations s rfl
      exact wp_settleFramework isQuiet_afterFailure isEnded_afterFailure _ degradations
  | false =>
      change wp (Step input) (normalizeOutput input output >>= _) (Concluded input)
        (.completed output)
      rw [wp_bind]
      refine wp_mono (wp_normalizeOutput output) ?_
      rintro (_ | report) s ⟨rfl, hreport⟩
      · obtain ⟨hclean, dense⟩ := hreport
        have hrecord : GovernorRecord.recordFailure = recordOf input.enricher output := by
          rw [recordOf, hclean]
          rfl
        simp only [hrecord]
        rw [wp_bind]
        refine wp_mono (wp_recordCompleted dense degradations) ?_
        rintro degradations s rfl
        exact wp_settleFramework (isQuiet_afterRecord dense) isEnded_afterRecord _ degradations
      · exact wp_settleReport slot hreport degradations

theorem wp_settleUnfinished (primary : RuntimeDegradation)
    (degradations : List RuntimeDegradation) :
    wp (Step input) (settleUnfinished input primary degradations) (Concluded input) .owing := by
  rw [settleUnfinished, wp_bind]
  refine wp_mono (wp_recordFailure degradations) ?_
  rintro degradations s rfl
  refine wp_quiet isQuiet_afterFailure rfl fun fired => ?_
  cases fired with
  | true => exact wp_settleFramework isQuiet_afterFailure isEnded_afterFailure _ degradations
  | false => exact wp_settleFramework isQuiet_afterFailure isEnded_afterFailure _ degradations

/-- The phases in which the provider may be called. -/
def MayEnrich (input : RunnerInput) (phase : Phase) : Prop :=
  (input.hasGovernor = false ∧ phase = .clear) ∨ (input.hasGovernor = true ∧ phase = .admitted)

theorem wp_runProvider (h : MayEnrich input phase) (slot : Option CacheSlot)
    (governorTimeoutMs : Value) (degradations : List RuntimeDegradation) :
    wp (Step input) (runProvider input slot governorTimeoutMs degradations) (Concluded input)
      phase := by
  have hstep (ms : Option Rat) (answer : Option Bounded) :
      Step input phase ⟨.enrich input.previousOutcomes ms, answer⟩ (afterEnrich answer) := by
    rcases h with ⟨hgov, rfl⟩ | ⟨hgov, rfl⟩
    · exact .enrich hgov answer
    · exact .admitted hgov answer
  refine wp_call_of afterEnrich (hstep _) fun answer => ?_
  cases answer with
  | value output => exact wp_settleOutput slot output degradations
  | threw => exact wp_settleUnfinished _ degradations
  | timedOut => exact wp_settleUnfinished _ degradations

/-- What the governor leaves behind. -/
def Consulted (input : RunnerInput) : Admission → Phase → Prop
  | .run _, phase => MayEnrich input phase
  | .refused _, phase => phase = .refused

theorem wp_consultGovernor :
    wp (Step input) (consultGovernor input) (Consulted input) .clear := by
  rw [consultGovernor]
  by_cases hgov : input.hasGovernor = true
  · rw [if_pos hgov]
    refine wp_call_of afterAdmit (fun answer => .admission hgov answer) fun answer => ?_
    cases answer with
    | threw => rfl
    | value decision =>
        change wp (Step input)
          (if (!isGovernorDecision decision) = true then
            .ret (.refused (admitError (some "invalid-decision")))
          else if (!decisionRuns decision) = true then
            .ret (.refused { status := .skipped, code := denialCause decision, retryable := true,
                             own := isRuntime_denialCause decision })
          else .ret (.run (decision.get (text "timeoutMs")))) (Consulted input)
          (if (isGovernorDecision decision && decisionRuns decision) = true then .admitted
            else .refused)
        cases isGovernorDecision decision with
        | false => rfl
        | true =>
            cases decisionRuns decision with
            | false => rfl
            | true => exact Or.inr ⟨hgov, rfl⟩
  · rw [if_neg hgov]
    exact Or.inl ⟨Bool.eq_false_of_not_eq_true hgov, rfl⟩

theorem wp_runFresh (slot : Option CacheSlot) (degradations : List RuntimeDegradation) :
    wp (Step input) (runFresh input slot degradations) (Concluded input) .clear := by
  rw [runFresh, wp_bind]
  refine wp_mono wp_consultGovernor ?_
  rintro (governorTimeoutMs | primary) s hs
  · exact wp_runProvider hs slot governorTimeoutMs degradations
  · cases hs
    exact wp_settleFramework rfl rfl primary degradations

/-- Every run of one source follows the lifecycle. -/
theorem wp_runEnricher : wp (Step input) (runEnricher input) (Concluded input) .opening := by
  refine wp_call_of (afterOpening input) (fun answer => .opening answer) fun fired => ?_
  cases fired with
  | true => exact wp_settleFramework rfl rfl skippedAborted []
  | false =>
      change wp (Step input) (resolveSlot input >>= _) (Concluded input) _
      rw [wp_bind]
      refine wp_resolveSlot fun slot degradations => ?_
      rw [wp_bind]
      refine wp_mono (wp_readCache slot degradations) ?_
      rintro (_ | ⟨cached, degradations⟩ | degradations) s hs
      · cases hs
        exact wp_settleFramework rfl rfl skippedAborted []
      · cases hs
        exact wp_serveCached cached degradations
      · cases hs
        exact wp_runFresh slot degradations

end

end Linklint
