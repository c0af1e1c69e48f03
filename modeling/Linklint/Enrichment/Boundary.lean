import Linklint.Enrichment.Fold
import Linklint.Enrichment.Protocol

/-!
# The enrichment boundary

What the runner accepts is a report again after the clone exactly when no list
the guards look into has a hole. A source run that accepted no such value settles
to outcomes that the fold can read to the end.
-/

namespace Linklint

open Interaction Value

/-! ### The clone of what is accepted -/

/-- The report the runner clones for an output, before the clone. -/
inductive Accepted (enricher : Enricher) (base : InspectResult) (output : Value) : Value → Prop
  | legacy (observedAt : Text) (hflat : isEnricherFindingArray output = true) :
      Accepted enricher base output (legacyReport enricher base observedAt output)
  | declared (hflat : isEnricherFindingArray output = false)
      (h : (declaredReport enricher output).isSome = true) :
      Accepted enricher base output output

/-- An accepted output with a hole in a list that the guards look into. -/
def outputHoles (enricher : Enricher) (output : Value) : Bool :=
  if isEnricherFindingArray output then output.hasHole || output.someElement findingHoles
  else (declaredReport enricher output).isSome && reportHoles output

/-- The loop over a cached report refuses it before it meets a hole. -/
def isRefusedReport (cached : Value) : Bool :=
  match refusesCached (outcomeSlots cached) with
  | .ok refused => refused
  | .error _ => false

/-- An accepted cached report with a hole in a list that the guards look into. -/
def cachedHoles (enricher : Enricher) (cached : Value) : Bool :=
  isEnrichmentReport (some (identityOf enricher)) cached && !isRefusedReport cached
    && reportHoles cached

section
variable {enricher : Enricher} {base : InspectResult} {output report cached : Value}

theorem isEnrichmentReport_clone (expected : Option EnrichmentIdentity) {v : Value}
    (h : v.isJsonValue = true) : isEnrichmentReport expected (cloneEnrichmentReport v) =
      (isEnrichmentReport expected v && !reportHoles v) := by
  rw [cloneEnrichmentReport_of_json h, isEnrichmentReport_fill]

theorem reportHoles_legacy (observedAt : Text) (v : Value) :
    reportHoles (legacyReport enricher base observedAt v) =
      (v.hasHole || v.someElement findingHoles) := by
  have houtcome : outcomeHoles (legacyOutcome enricher base observedAt v) =
      (v.hasHole || v.someElement findingHoles) := by
    have hevidence : ((legacyOutcome enricher base observedAt v).get (text "evidence")).hasHole =
        false := by
      change (Value.arr (if slotCount v = 0 then _ else [])).hasHole = false
      split <;> rfl
    have hfindings : (legacyOutcome enricher base observedAt v).get (text "findings") = v := rfl
    rw [outcomeHoles, hevidence, hfindings, Bool.false_or]
  have houtcomes : (legacyReport enricher base observedAt v).get (text "outcomes") =
      .arr [some (legacyOutcome enricher base observedAt v)] := rfl
  rw [reportHoles, houtcomes, ← houtcome]
  simp [hasHole, someElement, someSlot, slots?]

theorem isJsonValue_of_accepted (h : Accepted enricher base output report) :
    report.isJsonValue = true := by
  cases h with
  | legacy observedAt hflat =>
      simp only [isEnricherFindingArray, Bool.and_eq_true] at hflat
      exact isJsonValue_legacyReport hflat.1.2
  | declared hflat h =>
      obtain ⟨cloned, hcloned⟩ := Option.isSome_iff_exists.mp h
      exact isJsonValue_of_report (declaredReport_eq_some hcloned).1

/-- The evidence of a flat output is the marker of an empty array, or none. -/
theorem legacy_evidence (observedAt : Text) : ∃ marker, isEvidence marker = isIsoText observedAt ∧
    (legacyOutcome enricher base observedAt output).get (text "evidence") =
      .arr (if slotCount output = 0 then [some marker] else []) := by
  refine ⟨_, ?_, rfl⟩
  change (true && true && isSubject (subjectValue (inspectionSubject base)) && isIsoText observedAt
    && true && true && true) = isIsoText observedAt
  rw [isSubject_subjectValue]
  simp

theorem isStatusConsistent_legacy (observedAt : Text) :
    isStatusConsistent (legacyOutcome enricher base observedAt output) = true := by
  obtain ⟨marker, _, hevidence⟩ := @legacy_evidence enricher base output observedAt
  set o := legacyOutcome enricher base observedAt output
  have hstatus : o.get (text "status") = .str (text "success") := rfl
  have hsuccess : (Value.str (text "success")).isStr "success" = true := rfl
  have hcause : (o.get (text "cause")).isUndefined = true := rfl
  have hfound : o.get (text "findings") = output := rfl
  rw [isStatusConsistent, hstatus, if_pos hsuccess, hcause, hfound, hevidence]
  by_cases hcount : slotCount output = 0
  · rw [if_pos hcount]
    simp [slotCount, slots?]
  · simp [Nat.pos_of_ne_zero hcount]

/-- The outcome of a flat output is one exactly where the source has a name and the clock a date. -/
theorem isEnrichmentOutcome_legacy (observedAt : Text)
    (hfindings : isArrayOf isFinding output = true) :
    isEnrichmentOutcome (some (identityOf enricher))
        (legacyOutcome enricher base observedAt output) =
      ((Value.str enricher.id).isNonEmptyString && isIsoText observedAt) := by
  obtain ⟨marker, hmarker, hevidence⟩ := @legacy_evidence enricher base output observedAt
  have hconsistent := @isStatusConsistent_legacy enricher base output observedAt
  set o := legacyOutcome enricher base observedAt output
  have hrecord : o.isRecord = true := rfl
  have hid : o.get (text "sourceId") = .str enricher.id := rfl
  have hlayer : o.get (text "layer") = .str enricher.layer.name := rfl
  have hsubject : o.get (text "subject") = subjectValue (inspectionSubject base) := rfl
  have hobserved : isIsoInstant (o.get (text "observedAt")) = isIsoText observedAt := rfl
  have hprovenance : isProvenance (o.get (text "provenance")) = true := by rfl
  have hfreshness : isFreshness (o.get (text "freshness")) = true := by rfl
  have hfound : o.get (text "findings") = output := rfl
  have hlayers : isEnrichmentLayer (.str enricher.layer.name) = true := by
    cases enricher.layer <;> rfl
  have hidentity : matchesIdentity o (some (identityOf enricher)) = true := by
    simp [matchesIdentity, hid, hlayer, identityOf]
  have hitems : isArrayOf isEvidence (o.get (text "evidence")) =
      (slotCount output != 0 || isIsoText observedAt) := by
    rw [hevidence, ← hmarker]
    by_cases hcount : slotCount output = 0 <;> simp [hcount, isArrayOf, slots?, everySlot]
  rw [isEnrichmentOutcome, hrecord, hid, hlayer, hlayers, hidentity, hsubject,
    isSubject_subjectValue, hobserved, hprovenance, hfreshness, hitems, hfound, hfindings,
    hconsistent]
  cases isIsoText observedAt <;> simp

/-- The same of the report the adapter makes of it. -/
theorem isEnrichmentReport_legacy (observedAt : Text) (hflat : isEnricherFindingArray output = true) :
    isEnrichmentReport (some (identityOf enricher)) (legacyReport enricher base observedAt output) =
      ((Value.str enricher.id).isNonEmptyString && isIsoText observedAt) := by
  simp only [isEnricherFindingArray, Bool.and_eq_true] at hflat
  obtain ⟨⟨_, hjson⟩, hfindings⟩ := hflat
  have hrecord : (legacyReport enricher base observedAt output).isRecord = true := rfl
  have hversion : ((legacyReport enricher base observedAt output).get
      (text "schemaVersion")).isStr "1.0" = true := rfl
  have houtcomes : (legacyReport enricher base observedAt output).get (text "outcomes") =
      .arr [some (legacyOutcome enricher base observedAt output)] := rfl
  have houtcome := @isEnrichmentOutcome_legacy enricher base output observedAt hfindings
  rw [isEnrichmentReport, hrecord, isJsonValue_legacyReport hjson, hversion, houtcomes]
  simp [slotCount, isArrayOf, slots?, everySlot, houtcome]

/-- A report stays one through the clone exactly when its lists have no hole. -/
theorem accepted_clone (h : Accepted enricher base output report) :
    isEnrichmentReport (some (identityOf enricher)) (cloneEnrichmentReport report) =
      (isEnrichmentReport (some (identityOf enricher)) report && !outputHoles enricher output) := by
  rw [isEnrichmentReport_clone _ (isJsonValue_of_accepted h)]
  cases h with
  | legacy observedAt hflat => rw [reportHoles_legacy, outputHoles, if_pos hflat]
  | declared hflat h => rw [outputHoles, hflat, if_neg Bool.false_ne_true, h, Bool.true_and]

theorem cached_clone (h : normalizeCachedReport enricher cached = .ok (some report)) :
    isEnrichmentReport (some (identityOf enricher)) report = !cachedHoles enricher cached := by
  obtain ⟨haccepted, hrefused, rfl⟩ := cached_eq_some h
  rw [isEnrichmentReport_fill, cachedHoles, isRefusedReport, hrefused, haccepted]
  rfl

/-! ### Outcomes that can be read -/

/-- An outcome the fold reads without meeting a `null`; only a success has its findings read. -/
def Readable (outcome : Option EnrichmentOutcome) : Prop :=
  ∃ o, outcome = some o ∧ (o.status = .success → none ∉ o.findings)

theorem slots_of_noHoles {v : Value} (h : reportHoles v = false) :
    ∀ slot ∈ outcomeSlots v, ∃ o, slot = some o ∧ outcomeHoles o = false := by
  rw [reportHoles, Bool.or_eq_false_iff, hasHole, someElement] at h
  intro slot hslot
  rw [outcomeSlots] at hslot
  cases hslots : (v.get (text "outcomes")).slots? with
  | none =>
      rw [hslots] at hslot
      cases hslot
  | some slots =>
      rw [hslots] at h hslot
      obtain ⟨hholes, helements⟩ := h
      have hsome := List.any_eq_false.mp hholes slot hslot
      have helement := List.any_eq_false.mp helements slot hslot
      cases slot with
      | none => exact absurd rfl hsome
      | some o => exact ⟨o, rfl, by simpa using helement⟩

theorem readable_of_noHoles {expected : Option EnrichmentIdentity} {v : Value}
    (haccepted : isEnrichmentReport expected v = true) (hholes : reportHoles v = false) :
    ∀ outcome ∈ (readReport v.fill).outcomes, Readable outcome := by
  have hslots := slots_of_noHoles hholes
  have hreads := (readReport_of_accepted haccepted).2
  generalize outcomeSlots v = slots at hslots hreads
  generalize (readReport v.fill).outcomes = reads at hreads
  induction hreads with
  | nil => exact fun outcome houtcome => by cases houtcome
  | @cons slot read slots reads hslot _ ih =>
      obtain ⟨⟨o, ho, hnone⟩, hlater⟩ := List.forall_mem_cons.mp hslots
      refine List.forall_mem_cons.mpr ⟨?_, ih hlater⟩
      rcases hslot with ⟨hempty, _⟩ | ⟨o', outcome, ho', hread, hreads⟩
      · rw [ho] at hempty
        cases hempty
      · rw [ho] at ho'
        cases ho'
        refine ⟨outcome, hread, fun _ hnull => ?_⟩
        rw [hreads.holes] at hnull
        simp [outcomeHoles, hnull] at hnone

theorem readable_of_normalized (h : Normalized enricher base output report)
    (dense : outputHoles enricher output = false) :
    ∀ outcome ∈ (readReport report).outcomes, Readable outcome := by
  cases h with
  | legacy observedAt hflat =>
      rw [outputHoles, if_pos hflat, Bool.or_eq_false_iff] at dense
      obtain ⟨outcome, houtcomes, _, _, hholes⟩ := @readReport_legacy enricher base observedAt _ hflat
      rw [houtcomes]
      intro read hread
      refine ⟨outcome, List.mem_singleton.mp hread, fun _ hnull => ?_⟩
      rw [hholes, dense.1] at hnull
      cases hnull
  | declared hflat h =>
      rw [outputHoles, hflat, if_neg Bool.false_ne_true, h, Option.isSome_some, Bool.true_and]
        at dense
      obtain ⟨haccepted, _, rfl⟩ := declaredReport_eq_some h
      exact readable_of_noHoles haccepted dense

theorem readable_of_cached (h : normalizeCachedReport enricher cached = .ok (some report))
    (dense : cachedHoles enricher cached = false) :
    ∀ outcome ∈ (readReport report).outcomes, Readable outcome := by
  obtain ⟨haccepted, hrefused, rfl⟩ := cached_eq_some h
  refine readable_of_noHoles haccepted ?_
  rw [cachedHoles, isRefusedReport, hrefused, haccepted] at dense
  simpa using dense

/-! ### Dense runs -/

/-- No completed output and no cached value of a source run was accepted with a hole. -/
structure DenseTrace (enricher : Enricher) (trace : List RunnerEvent) : Prop where
  completed : ∀ output, (ledger trace).completed = some output →
    outputHoles enricher output = false
  served : ∀ key ms cached, ⟨.cacheGet key ms, some (Bounded.value cached)⟩ ∈ trace →
    cachedHoles enricher cached = false

theorem hasHole_of_beforeFailure {slots : List (Option Value)}
    (h : holeBeforeFailure slots = true) : slots.any Option.isNone = true := by
  induction slots with
  | nil => cases h
  | cons slot rest ih =>
      cases slot with
      | none => rfl
      | some o =>
          rw [holeBeforeFailure] at h
          split at h
          · cases h
          · simpa using ih h

/-- A sparse output has a hole. -/
theorem holes_of_sparse (h : isSparseOutput enricher output = true) :
    outputHoles enricher output = true := by
  simp only [isSparseOutput, Bool.and_eq_true, Bool.not_eq_true'] at h
  obtain ⟨⟨hflat, haccepted⟩, hsparse⟩ := h
  have hholes := hasHole_of_beforeFailure hsparse
  rw [outputHoles, hflat, if_neg Bool.false_ne_true, haccepted, reportHoles, hasHole]
  cases hslots : (output.get (text "outcomes")).slots? with
  | none =>
      rw [outcomeSlots, hslots] at hholes
      cases hholes
  | some slots =>
      rw [outcomeSlots, hslots] at hholes
      rw [Option.elim_some, show slots.any Option.isNone = true from hholes]
      rfl

theorem refused_of_error {slots : List (Option Value)} {e : Thrown}
    (h : refusesCached slots = .error e) : slots.any Option.isNone = true := by
  induction slots with
  | nil => cases h
  | cons slot rest ih =>
      cases slot with
      | none => rfl
      | some o =>
          rw [refusesCached] at h
          split at h
          · cases h
          · simpa using ih h

/-- Without a hole the check of a cached value does not throw. -/
theorem normalizeCachedReport_returns (dense : cachedHoles enricher cached = false) :
    ∃ normalized, normalizeCachedReport enricher cached = .ok normalized := by
  rw [normalizeCachedReport]
  split
  · exact ⟨none, rfl⟩
  · rename_i haccepted
    simp only [Bool.not_eq_true, Bool.not_eq_false'] at haccepted
    rw [← outcomeSlots]
    cases hrefused : refusesCached (outcomeSlots cached) with
    | ok refused => exact ⟨_, rfl⟩
    | error e =>
        have hholes := refused_of_error hrefused
        rw [cachedHoles, isRefusedReport, hrefused, haccepted, reportHoles, hasHole] at dense
        cases hslots : (cached.get (text "outcomes")).slots? with
        | none =>
            rw [outcomeSlots, hslots] at hholes
            cases hholes
        | some slots =>
            rw [outcomeSlots, hslots] at hholes
            rw [hslots, Option.elim_some, show slots.any Option.isNone = true from hholes] at dense
            cases dense

end

/-- A source run whose accepted values have no hole settles to outcomes that can be read. -/
theorem readable_of_dense {input : RunnerInput} {trace : List RunnerEvent} {run : EnricherRun}
    (h : Runs (runEnricher input) trace (some (.ok run)))
    (dense : DenseTrace input.enricher trace) :
    ∀ outcome ∈ run.report.outcomes, Readable outcome := by
  obtain ⟨phase, hfollows, hconcluded⟩ := phase_of_run h
  have hpast := pastOf_follows hfollows
  obtain ⟨_, _, source, framework, hreport, hsupplies⟩ := hconcluded _ rfl
  have hframework : ∀ outcome ∈ framework.map some, Readable outcome := by
    intro outcome houtcome
    obtain ⟨o, ho, rfl⟩ := List.mem_map.mp houtcome
    obtain ⟨degradation, observedAt, rfl⟩ := hreport.appended o ho
    exact ⟨_, rfl, fun _ => List.not_mem_nil⟩
  rw [hreport.outcomes]
  cases source with
  | none => exact hframework
  | some report =>
      have hsource : ∀ outcome ∈ (readReport report).outcomes, Readable outcome := by
        have hs := hsupplies report rfl
        match phase with
        | .hit cached =>
            obtain ⟨key, ms, hmem⟩ := hpast.served cached rfl
            exact readable_of_cached hs (dense.served key ms cached hmem)
        | .completed output =>
            refine readable_of_normalized hs.1 (dense.completed output ?_)
            rw [hpast.ledger]
            rfl
        | .recorded operation (some output) =>
            refine readable_of_normalized hs.1 (dense.completed output ?_)
            rw [hpast.ledger]
            cases operation <;> rfl
      intro outcome houtcome
      rcases List.mem_append.mp houtcome with houtcome | houtcome
      · exact hsource outcome houtcome
      · exact hframework outcome houtcome

/-! ### The fold returns -/

theorem outcomesSome_returns (p : EnrichmentOutcome → Bool)
    {outcomes : List (Option EnrichmentOutcome)} (h : ∀ outcome ∈ outcomes, Readable outcome) :
    ∃ b, outcomesSome p outcomes = .ok b := by
  induction outcomes with
  | nil => exact ⟨false, rfl⟩
  | cons outcome rest ih =>
      obtain ⟨⟨o, rfl, _⟩, hrest⟩ := List.forall_mem_cons.mp h
      obtain ⟨b, hb⟩ := ih hrest
      rw [outcomesSome, hb]
      exact ⟨_, (apply_ite Except.ok (p o = true) true b).symm⟩

theorem outcomeFindings_returns_iff {o : EnrichmentOutcome} :
    (∃ findings, outcomeFindings o = .ok findings) ↔ (o.status = .success → none ∉ o.findings) := by
  rw [outcomeFindings]
  split
  · rename_i hsuccess
    rw [mapM_returns_iff]
    constructor
    · intro h _ hnull
      obtain ⟨finding, hfinding⟩ := h none hnull
      cases hfinding
    · intro h finding hfinding
      cases finding with
      | none => exact absurd hfinding (h hsuccess)
      | some finding => exact ⟨_, rfl⟩
  · rename_i hother
    exact ⟨fun _ hsuccess => absurd hsuccess hother, fun _ => ⟨[], rfl⟩⟩

theorem slotFindings_returns_iff {outcome : Option EnrichmentOutcome} :
    (∃ findings : List SubjectFinding, (match outcome with
      | some outcome => outcomeFindings outcome
      | none => .error .thrown) = .ok findings) ↔ Readable outcome := by
  cases outcome with
  | none =>
      constructor
      · rintro ⟨findings, hfindings⟩
        cases hfindings
      · rintro ⟨o, ho, _⟩
        cases ho
  | some o =>
      rw [outcomeFindings_returns_iff]
      constructor
      · intro h
        exact ⟨o, rfl, h⟩
      · rintro ⟨_, ho, h⟩
        cases ho
        exact h

theorem readRun_returns_iff {run : EnricherRun} :
    (∃ reading, readRun run = .ok reading) ↔
      ∀ outcome ∈ run.report.outcomes, Readable outcome := by
  constructor
  · rintro ⟨reading, hreading⟩ outcome houtcome
    obtain ⟨_, _, hreading⟩ := bind_eq_ok.mp hreading
    obtain ⟨_, _, hreading⟩ := bind_eq_ok.mp hreading
    obtain ⟨findings, hfindings, _⟩ := bind_eq_ok.mp hreading
    exact slotFindings_returns_iff.mp (mapM_returns_iff.mp ⟨findings, hfindings⟩ outcome houtcome)
  · intro h
    obtain ⟨completed, hcompleted⟩ := outcomesSome_returns isCompleted h
    obtain ⟨incomplete, hincomplete⟩ := outcomesSome_returns isIncomplete h
    obtain ⟨findings, hfindings⟩ : ∃ findings, (run.report.outcomes.mapM fun outcome =>
        match outcome with
        | some outcome => outcomeFindings outcome
        | none => .error .thrown) = .ok findings :=
      mapM_returns_iff.mpr fun outcome houtcome => slotFindings_returns_iff.mpr (h outcome houtcome)
    refine ⟨{ completed, incomplete, findings := findings.flatten }, ?_⟩
    rw [readRun, hcompleted, hincomplete]
    simp only [bind, Except.bind]
    exact congrArg (Except.map fun findings : List (List SubjectFinding) =>
      (⟨completed, incomplete, findings.flatten⟩ : RunReading)) hfindings

/-- The reports of a plan are folded back exactly when every outcome can be read. -/
theorem foldRuns_returns_iff (P : Platform) (base : InspectResult) {enrichers : List Enricher}
    (rules : List SuppressionRule) {runs : List EnricherRun} (hconfigured : enrichers ≠ []) :
    (∃ result, foldRuns P base enrichers rules runs = .ok result) ↔
      ∀ run ∈ runs, ∀ outcome ∈ run.report.outcomes, Readable outcome := by
  rw [foldRuns, if_neg hconfigured]
  constructor
  · rintro ⟨result, hresult⟩ run hrun
    obtain ⟨readings, hreadings, _⟩ := bind_eq_ok.mp hresult
    exact readRun_returns_iff.mp (mapM_returns_iff.mp ⟨readings, hreadings⟩ run hrun)
  · intro h
    obtain ⟨readings, hreadings⟩ :=
      mapM_returns_iff.mpr fun run hrun => readRun_returns_iff.mpr (h run hrun)
    rw [hreadings]
    exact ⟨_, rfl⟩

end Linklint
