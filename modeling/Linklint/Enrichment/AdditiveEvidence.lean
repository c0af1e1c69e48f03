import Linklint.Enrichment.Boundary
import Linklint.Enrichment.PlanSchedule
import Linklint.Enrichment.SuppressionAlgebra
import Linklint.Inspect.Isolation
import Linklint.Inspect.Reasons
import Mathlib.Data.List.NodupEquivFin
import Mathlib.Order.Bounds.Basic

/-!
# Evidence is only added

The fold over the reports of a plan keeps what the synchronous entry point found:
its reasons stay, its score does not fall, and every configured source is named
among the checks that ran or were skipped.
-/

namespace Linklint

/-! ### The synchronous result -/

/-- A token the synchronous entry point writes: a bare one, or one of its own namespaces. -/
def IsOfflineToken (token : Text) : Prop :=
  unit ':' ∉ token ∨ ∃ space id, token = namespacedToken space id ∧
    (space = LEXICAL ∨ space = POLICY ∨ space = OPTION_KEY_TOKEN_PREFIX)

theorem colon_not_mem_layer (layer : EnrichmentLayer) : unit ':' ∉ layer.name := by
  cases layer <;> decide

theorem checkToken_not_offline (enricher : Enricher) : ¬ IsOfflineToken (checkToken enricher) := by
  rintro (hbare | ⟨space, id, htoken, hspace⟩)
  · exact hbare (colon_mem_namespacedToken _ _)
  · have hcolon : unit ':' ∉ space := by
      rcases hspace with rfl | rfl | rfl <;> decide
    obtain ⟨hname, -⟩ := (namespacedToken_inj (colon_not_mem_layer _) hcolon).mp htoken
    cases hlayer : enricher.layer <;> rw [hlayer] at hname <;>
      rcases hspace with rfl | rfl | rfl <;> exact absurd hname (by decide)

/-- What the fold relies on in the synchronous result. -/
structure Offline (base : InspectResult) : Prop where
  ran : ∀ token ∈ base.checksRun, IsOfflineToken token
  skipped : ∀ token ∈ base.checksSkipped, IsOfflineToken token
  placeholders : ∀ layer : EnrichmentLayer, layer.name ∈ base.checksSkipped
  sorted : base.reasons.Pairwise ReasonLe
  bounded : WeightsBounded base.reasons
  scored : base.status = .ok → base.score = some (aggregate base.reasons).score ∧
    base.severity = some (aggregate base.reasons).severity
  unscored : base.status = .invalid → base.score = none ∧ base.severity = none

section
variable {P : Platform} {bodies : CheckBodies} {rawOptions : HostVal}

theorem intake_offline {token : Text} (h : token ∈ intakeTokens rawOptions) :
    IsOfflineToken token := by
  rcases mem_intake_skipped h with rfl | ⟨id, rfl⟩
  · exact Or.inl (by decide)
  · exact Or.inr ⟨_, id, rfl, Or.inr (Or.inr rfl)⟩

theorem bare_offline {token : Text} (h : token ∈ [LEXICAL, RESOLUTION, REPUTATION]) :
    IsOfflineToken token := by
  simp only [List.mem_cons, List.not_mem_nil, or_false] at h
  rcases h with rfl | rfl | rfl <;> exact Or.inl (by decide)

theorem layer_mem_placeholders (layer : EnrichmentLayer) : layer.name ∈ [RESOLUTION, REPUTATION] := by
  cases layer
  · exact List.mem_cons_self ..
  · exact List.mem_cons_of_mem _ (List.mem_cons_self ..)

/-- The reasons of an invalid result: what the scans found, or the parse error alone. -/
theorem invalid_reasons (input : Text) (findings : List CollectedFinding) (detail : Option Text) :
    (buildInvalidResult P input findings detail (intakeTokens rawOptions)).reasons.Pairwise ReasonLe ∧
      WeightsBounded (buildInvalidResult P input findings detail (intakeTokens rawOptions)).reasons := by
  rw [buildInvalidResult]
  by_cases hfindings : findings = []
  · rw [if_neg (by simpa using hfindings)]
    refine ⟨List.pairwise_singleton .., fun reason hreason => ?_⟩
    cases List.mem_singleton.mp hreason
    exact ⟨le_refl _, zero_le_one⟩
  · rw [if_pos (by simpa using hfindings)]
    refine ⟨sortReasons_sorted _, fun reason hreason => ?_⟩
    obtain ⟨finding, -, rfl⟩ := List.mem_map.mp (mem_sortReasons.mp hreason)
    exact toReason_weight_bounds finding

theorem offline_invalid (input : Text) (findings : List CollectedFinding) (detail : Option Text) :
    Offline (buildInvalidResult P input findings detail (intakeTokens rawOptions)) where
  ran token htoken := by
    simp only [buildInvalidResult] at htoken
    split at htoken
    · rw [List.mem_singleton.mp htoken]
      exact bare_offline (List.mem_cons_self ..)
    · cases htoken
  skipped token htoken := by
    rcases List.mem_append.mp htoken with hintake | htoken
    · exact intake_offline hintake
    · split at htoken
      · exact bare_offline (List.mem_cons_of_mem _ htoken)
      · exact bare_offline htoken
  placeholders layer := by
    refine List.mem_append_right _ ?_
    split
    · exact layer_mem_placeholders layer
    · exact List.mem_cons_of_mem _ (layer_mem_placeholders layer)
  sorted := (invalid_reasons input findings detail).1
  bounded := (invalid_reasons input findings detail).2
  scored hok := by cases hok
  unscored _ := ⟨rfl, rfl⟩

theorem offline_parsed (input : Text) (ctx : InspectionContext) (late : LateOptions) :
    Offline (inspectParsed P bodies ctx (runScans bodies input ctx.runtime)
      (intakeTokens rawOptions) late) where
  ran token htoken := by
    rcases mem_channelTokens htoken with rfl | ⟨rfl, -⟩ | rfl | rfl <;> exact Or.inl (by decide)
  skipped token htoken := by
    rw [inspectParsed_checksSkipped, List.mem_append, List.mem_append] at htoken
    rcases htoken with (hintake | hfailed) | hlayer
    · exact intake_offline hintake
    · obtain ⟨space, id, rfl, hspace⟩ := mem_failureTokens bodies hfailed
      exact Or.inr ⟨space, id, rfl, hspace.imp_right Or.inl⟩
    · exact bare_offline (List.mem_cons_of_mem _ hlayer)
  placeholders layer := by
    rw [inspectParsed_checksSkipped]
    exact List.mem_append_right _ (layer_mem_placeholders layer)
  sorted := sortReasons_sorted _
  bounded reason hreason := builtReasons_bounded P ctx _ _ reason (mem_sortReasons.mp hreason)
  scored _ := ⟨rfl, rfl⟩
  unscored hinvalid := by cases hinvalid

theorem offline_of_inspect {input : InputVal} {base : InspectResult}
    (h : inspect P bodies input rawOptions = .ok base) : Offline base := by
  cases built_of_inspect h with
  | invalid hfindings hresult =>
      rw [hresult]
      exact offline_invalid _ _ _
  | parsed hresult =>
      rw [hresult]
      exact offline_parsed _ _ _

end

/-! ### What a run is read as -/

/-- Some outcome of the run has such a status. -/
def HasStatus (q : OutcomeStatus → Bool) (run : EnricherRun) : Prop :=
  ∃ outcome, some outcome ∈ run.report.outcomes ∧ q outcome.status = true

theorem outcomesSome_eq_ok {q : OutcomeStatus → Bool} {outcomes : List (Option EnrichmentOutcome)}
    {b : Bool} (h : outcomesSome (fun outcome => q outcome.status) outcomes = .ok b) :
    b = true ↔ ∃ outcome, some outcome ∈ outcomes ∧ q outcome.status = true := by
  induction outcomes with
  | nil =>
      cases h
      simp
  | cons first rest ih =>
      cases first with
      | none => cases h
      | some first =>
          rw [outcomesSome] at h
          by_cases hfirst : q first.status = true
          · rw [if_pos hfirst] at h
            cases h
            exact ⟨fun _ => ⟨first, List.mem_cons_self .., hfirst⟩, fun _ => rfl⟩
          · rw [if_neg hfirst] at h
            rw [ih h]
            constructor
            · rintro ⟨outcome, hmem, hstatus⟩
              exact ⟨outcome, List.mem_cons_of_mem _ hmem, hstatus⟩
            · rintro ⟨outcome, hmem, hstatus⟩
              rcases List.mem_cons.mp hmem with heq | hmem
              · cases heq
                exact absurd hstatus hfirst
              · exact ⟨outcome, hmem, hstatus⟩

theorem readRun_flags {run : EnricherRun} {reading : RunReading}
    (h : readRun run = .ok reading) :
    (reading.completed = true ↔ HasStatus OutcomeStatus.isCompleted run) ∧
      (reading.incomplete = true ↔ HasStatus OutcomeStatus.isIncomplete run) := by
  simp only [readRun, bind_eq_ok] at h
  obtain ⟨completed, hcompleted, incomplete, hincomplete, findings, -, hreading⟩ := h
  cases hreading
  exact ⟨outcomesSome_eq_ok hcompleted, outcomesSome_eq_ok hincomplete⟩

/-- The tokens a flag of the readings selects are those of the runs it holds of. -/
theorem mem_flaggedTokens {runs : List EnricherRun} {readings : List RunReading}
    {flag : RunReading → Bool} {q : OutcomeStatus → Bool} {token : Text}
    (h : List.Forall₂ (fun run reading => flag reading = true ↔ HasStatus q run) runs readings) :
    token ∈ ((runs.zip readings).filter fun run => flag run.2).map (fun run => run.1.token) ↔
      ∃ run ∈ runs, HasStatus q run ∧ run.token = token := by
  induction h with
  | nil => simp
  | @cons run reading runs readings hflag _ ih =>
      rw [List.zip_cons_cons, List.filter_cons]
      by_cases hstatus : HasStatus q run
      · rw [if_pos (hflag.mpr hstatus), List.map_cons, List.mem_cons, ih]
        simp [hstatus, eq_comm]
      · rw [if_neg fun hread => hstatus (hflag.mp hread), ih]
        simp [hstatus]

theorem isLeast_foldl_min (q : Rat) (l : List Rat) :
    IsLeast {x | x = q ∨ x ∈ l} (l.foldl min q) := by
  induction l generalizing q with
  | nil => simp [IsLeast, lowerBounds]
  | cons first rest ih =>
      obtain ⟨hmem, hlower⟩ := ih (min q first)
      refine ⟨?_, fun x hx => ?_⟩
      · rcases hmem with hmin | hrest
        · rcases min_choice q first with heq | heq
          · exact Or.inl (hmin.trans heq)
          · exact Or.inr (List.mem_cons.mpr (Or.inl (hmin.trans heq)))
        · exact Or.inr (List.mem_cons_of_mem _ hrest)
      · have hhead : rest.foldl min (min q first) ≤ min q first := hlower (Or.inl rfl)
        rcases hx with rfl | hx
        · exact hhead.trans (min_le_left ..)
        · rcases List.mem_cons.mp hx with rfl | hx
          · exact hhead.trans (min_le_right ..)
          · exact hlower (Or.inr hx)

/-! ### One token for each entry -/

section
variable {plan : PlanInput} {runs : List EnricherRun}

theorem one_lt_countP {α : Type} {p : α → Bool} {l : List α} {i j : Nat} {a b : α} (hij : i < j)
    (ha : l[i]? = some a) (hb : l[j]? = some b) (hpa : p a = true) (hpb : p b = true) :
    1 < l.countP p := by
  have hsplit := List.take_append_drop (i + 1) l
  have hfront : a ∈ l.take (i + 1) := by
    apply List.mem_of_getElem?
    rw [List.getElem?_take_of_lt (Nat.lt_succ_self i)]
    exact ha
  have hback : b ∈ l.drop (i + 1) := by
    apply List.mem_of_getElem? (i := j - (i + 1))
    rw [List.getElem?_drop, Nat.add_sub_cancel' hij]
    exact hb
  have hpos : 0 < (l.take (i + 1)).countP p := List.countP_pos_iff.mpr ⟨a, hfront, hpa⟩
  have hpos' : 0 < (l.drop (i + 1)).countP p := List.countP_pos_iff.mpr ⟨b, hback, hpb⟩
  rw [← hsplit, List.countP_append]
  omega

/-- Two entries of one token are both refused. -/
theorem refused_of_token {i j : Nat} {step step' : PlannedEnricher}
    (hstep : plan.steps[i]? = some step) (hstep' : plan.steps[j]? = some step') (hne : i ≠ j)
    (htoken : step'.token = step.token) : preflightDetails plan step ≠ none := by
  have hcount : 1 < tokenCount plan step.token := by
    rw [tokenCount]
    rcases Nat.lt_or_gt_of_ne hne with hlt | hgt
    · exact one_lt_countP hlt hstep hstep' (by simp) (by simp [htoken])
    · exact one_lt_countP hgt hstep' hstep (by simp [htoken]) (by simp)
  rw [preflightDetails, if_pos hcount]
  exact Option.some_ne_none _

theorem hasStatus_skipped {q : OutcomeStatus → Bool} {step : PlannedEnricher}
    {code : EnrichmentFrameworkCauseCode} {details : Option Value} {observedAt : Text} :
    HasStatus q (skippedRun plan step code details observedAt) ↔ q .skipped = true := by
  constructor
  · rintro ⟨outcome, hmem, hstatus⟩
    cases List.mem_singleton.mp hmem
    exact hstatus
  · intro h
    exact ⟨_, List.mem_singleton_self _, h⟩

theorem entry_of_run (reports : Reports plan runs) {i : Nat} {run : EnricherRun}
    (hrun : runs[i]? = some run) : ∃ step, plan.steps[i]? = some step ∧ run.token = step.token ∧
      run.report.outcomes ≠ [] ∧ Origin plan i run := by
  have hlt : i < plan.steps.length := by
    rw [PlanInput.steps, List.length_mapIdx, ← reports.1]
    exact (List.getElem?_eq_some_iff.mp hrun).1
  have hstep := List.getElem?_eq_getElem hlt
  obtain ⟨run', hrun', htoken, hne, horigin⟩ := reports.2 i _ hstep
  rw [hrun] at hrun'
  cases hrun'
  exact ⟨_, hstep, htoken, hne, horigin⟩

theorem hasStatus_of_shared (reports : Reports plan runs) {q : OutcomeStatus → Bool} {i j : Nat}
    {run run' : EnricherRun} (hrun : runs[i]? = some run) (hrun' : runs[j]? = some run')
    (hne : i ≠ j) (htoken : run'.token = run.token) : HasStatus q run ↔ q .skipped = true := by
  obtain ⟨step, hstep, hown, -, horigin⟩ := entry_of_run reports hrun
  obtain ⟨step', hstep', hown', -, -⟩ := entry_of_run reports hrun'
  have hrefused : preflightDetails plan step ≠ none :=
    refused_of_token hstep hstep' hne (hown'.symm.trans (htoken.trans hown))
  cases horigin with
  | skipped hstep _ hskipped =>
      rw [hskipped]
      exact hasStatus_skipped
  | ran _ hvalid _ =>
      obtain ⟨_, hentry, hnone⟩ := hvalid
      rw [hstep] at hentry
      cases hentry
      exact absurd hnone hrefused

/-- Which entry of a token is asked about its outcomes makes no difference. -/
theorem hasStatus_of_token (reports : Reports plan runs) {q : OutcomeStatus → Bool} {i j : Nat}
    {run run' : EnricherRun} (hrun : runs[i]? = some run) (hrun' : runs[j]? = some run')
    (htoken : run'.token = run.token) : HasStatus q run' ↔ HasStatus q run := by
  by_cases hij : i = j
  · subst hij
    rw [hrun] at hrun'
    cases hrun'
    rfl
  · rw [hasStatus_of_shared reports hrun hrun' hij htoken,
      hasStatus_of_shared reports hrun' hrun (Ne.symm hij) htoken.symm]

/-! ### What the fold adds -/

/-- The result keeps what the base found and names every source. -/
structure Additive (plan : PlanInput) (runs : List EnricherRun) (result : InspectResult) : Prop where
  status : result.status = plan.base.status
  input : result.input = plan.base.input
  parsed : result.parsed = plan.base.parsed
  dataVersions : result.dataVersions = plan.base.dataVersions
  reasons : plan.base.reasons.Subperm result.reasons
  sorted : result.reasons.Pairwise ReasonLe
  scored : result.status = .ok → result.score = some (aggregate result.reasons).score ∧
    result.severity = some (aggregate result.reasons).severity
  raised : result.status = .ok → ∃ low high, plan.base.score = some low ∧
    result.score = some high ∧ low ≤ high ∧ high ≤ 1
  unscored : result.status = .invalid → result.score = none ∧ result.severity = none
  confidence : IsLeast {q | q = plan.base.confidence ∨
    ∃ run ∈ runs, ∃ outcome, some outcome ∈ run.report.outcomes ∧ outcome.status = .success ∧
      ∃ finding, some finding ∈ outcome.findings ∧ q = finding.confidence.getD 1} result.confidence
  named : ∀ (i : Nat) (enricher : Enricher), plan.enrichers[i]? = some enricher →
    ∃ run, runs[i]? = some run ∧
      (checkToken enricher ∈ result.checksRun ↔ HasStatus OutcomeStatus.isCompleted run) ∧
      (checkToken enricher ∈ result.checksSkipped ↔ HasStatus OutcomeStatus.isIncomplete run)
  visible : ∀ enricher ∈ plan.enrichers,
    checkToken enricher ∈ result.checksRun ∨ checkToken enricher ∈ result.checksSkipped
  placeholders : ∀ layer : EnrichmentLayer, layer.name ∈ result.checksSkipped ↔
    ∀ enricher ∈ plan.enrichers, enricher.layer ≠ layer
  unconfigured : plan.enrichers = [] → result = plan.base

theorem runs_of_unconfigured (reports : Reports plan runs) (hnone : plan.enrichers = []) :
    runs = [] := by
  apply List.eq_nil_of_length_eq_zero
  rw [reports.1, hnone, List.length_nil]

theorem additive_unconfigured (hbase : Offline plan.base) (reports : Reports plan runs)
    (hnone : plan.enrichers = []) : Additive plan runs plan.base where
  status := rfl
  input := rfl
  parsed := rfl
  dataVersions := rfl
  reasons := .refl _
  sorted := hbase.sorted
  scored := hbase.scored
  raised hok := by
    obtain ⟨hscore, -⟩ := hbase.scored hok
    exact ⟨_, _, hscore, hscore, le_refl _, (aggregate_score_bounds hbase.bounded).2⟩
  unscored := hbase.unscored
  confidence := by
    rw [runs_of_unconfigured reports hnone]
    simp [IsLeast, lowerBounds]
  named i enricher h := by
    rw [hnone] at h
    cases h
  visible enricher h := by
    rw [hnone] at h
    cases h
  placeholders layer := by
    refine ⟨fun _ enricher henricher => ?_, fun _ => hbase.placeholders layer⟩
    rw [hnone] at henricher
    cases henricher
  unconfigured _ := rfl

theorem enrichmentReasons_bounded (P : Platform) (rules : List SuppressionRule)
    (items : List SubjectFinding) : WeightsBounded (items.map (enrichmentReason P rules)) := by
  intro reason hreason
  obtain ⟨item, -, rfl⟩ := List.mem_map.mp hreason
  rw [enrichmentReason_eq]
  exact suppressReason_weight_bounds _ _ ⟨weightFor_nonneg _, weightFor_le_one _⟩

/-- More evidence never lowers the score, and never lifts it past one. -/
theorem score_raised (P : Platform) (rules : List SuppressionRule) {reasons : List Reason}
    (hbounded : WeightsBounded reasons) (items : List SubjectFinding) :
    (aggregate reasons).score ≤
        (aggregate (sortReasons (reasons ++ items.map (enrichmentReason P rules)))).score ∧
      (aggregate (sortReasons (reasons ++ items.map (enrichmentReason P rules)))).score ≤ 1 := by
  have hitems := enrichmentReasons_bounded P rules items
  rw [aggregate_perm (sortReasons_perm _)]
  refine ⟨aggregate_score_append_le hbounded hitems, (aggregate_score_bounds ?_).2⟩
  intro reason hreason
  rcases List.mem_append.mp hreason with hreason | hreason
  · exact hbounded reason hreason
  · exact hitems reason hreason

/-- One run answers for the token of its entry. -/
theorem hasStatus_of_entry (reports : Reports plan runs) {q : OutcomeStatus → Bool} {i : Nat}
    {enricher : Enricher} (h : plan.enrichers[i]? = some enricher) :
    ∃ run, runs[i]? = some run ∧ ((∃ other ∈ runs, HasStatus q other ∧
      other.token = checkToken enricher) ↔ HasStatus q run) := by
  have hstep : plan.steps[i]? = some (plannedEnricher i enricher) := by
    rw [steps_getElem?, h, Option.map_some]
  obtain ⟨run, hrun, htoken, -, -⟩ := reports.2 i _ hstep
  refine ⟨run, hrun, ?_⟩
  constructor
  · rintro ⟨other, hother, hstatus, hsame⟩
    obtain ⟨j, hj⟩ := List.mem_iff_getElem?.mp hother
    exact (hasStatus_of_token reports hrun hj (hsame.trans htoken.symm)).mp hstatus
  · intro hstatus
    exact ⟨run, List.mem_of_getElem? hrun, hstatus, htoken⟩

theorem layer_name_injective : Function.Injective EnrichmentLayer.name := by
  intro a b h
  cases a <;> cases b <;> first | rfl | exact absurd h (by decide)

theorem isConfiguredPlaceholder_layer {enrichers : List Enricher} (layer : EnrichmentLayer) :
    isConfiguredPlaceholder enrichers layer.name = true ↔
      ∃ enricher ∈ enrichers, enricher.layer = layer := by
  simp only [isConfiguredPlaceholder, List.any_eq_true, beq_iff_eq]
  refine exists_congr fun enricher => and_congr_right fun _ => ?_
  exact ⟨fun h => layer_name_injective h, fun h => congrArg _ h⟩

section
variable {P : Platform} {rules : List SuppressionRule} {readings : List RunReading}

theorem checkToken_mem_ran (hbase : Offline plan.base)
    (hreadings : List.Forall₂ (fun run reading => readRun run = .ok reading) runs readings)
    (enricher : Enricher) : checkToken enricher ∈
        (foldedResult P plan.base plan.enrichers rules (runs.zip readings)).checksRun ↔
      ∃ run ∈ runs, HasStatus OutcomeStatus.isCompleted run ∧ run.token = checkToken enricher := by
  have hforeign : checkToken enricher ∉ plan.base.checksRun :=
    fun h => checkToken_not_offline enricher (hbase.ran _ h)
  have hflags := hreadings.imp fun run reading h => (readRun_flags h).1
  rw [← @mem_flaggedTokens _ _ RunReading.completed _ _ hflags]
  simp only [foldedResult, List.mem_append, hforeign, false_or]

theorem checkToken_mem_skipped (hbase : Offline plan.base)
    (hreadings : List.Forall₂ (fun run reading => readRun run = .ok reading) runs readings)
    (enricher : Enricher) : checkToken enricher ∈
        (foldedResult P plan.base plan.enrichers rules (runs.zip readings)).checksSkipped ↔
      ∃ run ∈ runs, HasStatus OutcomeStatus.isIncomplete run ∧ run.token = checkToken enricher := by
  have hforeign : checkToken enricher ∉ plan.base.checksSkipped.filter
      (fun token => !isConfiguredPlaceholder plan.enrichers token) :=
    fun h => checkToken_not_offline enricher (hbase.skipped _ (List.mem_of_mem_filter h))
  have hflags := hreadings.imp fun run reading h => (readRun_flags h).2
  rw [← @mem_flaggedTokens _ _ RunReading.incomplete _ _ hflags]
  simp only [foldedResult, List.mem_append, hforeign, false_or]

theorem placeholder_mem_skipped (hbase : Offline plan.base) (reports : Reports plan runs)
    (hreadings : List.Forall₂ (fun run reading => readRun run = .ok reading) runs readings)
    (layer : EnrichmentLayer) : layer.name ∈
        (foldedResult P plan.base plan.enrichers rules (runs.zip readings)).checksSkipped ↔
      ∀ enricher ∈ plan.enrichers, enricher.layer ≠ layer := by
  have hflags := hreadings.imp fun run reading h => (readRun_flags h).2
  have hforeign : layer.name ∉ ((runs.zip readings).filter fun run => run.2.incomplete).map
      (fun run => run.1.token) := by
    rw [@mem_flaggedTokens _ _ RunReading.incomplete _ _ hflags]
    rintro ⟨run, hrun, -, htoken⟩
    obtain ⟨i, hi⟩ := List.mem_iff_getElem?.mp hrun
    obtain ⟨step, hstep, hown, -, -⟩ := entry_of_run reports hi
    rw [steps_getElem?] at hstep
    obtain ⟨enricher, -, rfl⟩ := Option.map_eq_some_iff.mp hstep
    apply colon_not_mem_layer layer
    rw [← htoken, hown]
    exact colon_mem_namespacedToken _ _
  simp only [foldedResult, List.mem_append, hforeign, or_false, List.mem_filter,
    hbase.placeholders layer, true_and, Bool.not_eq_true', ← Bool.not_eq_true,
    isConfiguredPlaceholder_layer, not_exists, not_and]

/-- No run is without an outcome, and every outcome counts on one side. -/
theorem hasStatus_of_read {run : EnricherRun} {reading : RunReading}
    (hreading : readRun run = .ok reading) (hne : run.report.outcomes ≠ []) :
    HasStatus OutcomeStatus.isCompleted run ∨ HasStatus OutcomeStatus.isIncomplete run := by
  obtain ⟨first, hfirst⟩ := List.exists_mem_of_ne_nil _ hne
  obtain ⟨outcome, rfl, -⟩ := readRun_returns_iff.mp ⟨reading, hreading⟩ first hfirst
  cases hstatus : outcome.status.isCompleted with
  | true => exact Or.inl ⟨outcome, hfirst, hstatus⟩
  | false => exact Or.inr ⟨outcome, hfirst, by rw [OutcomeStatus.isIncomplete, hstatus]; rfl⟩

theorem mem_reportedFindings {run : EnricherRun} {item : SubjectFinding} :
    item ∈ reportedFindings run ↔ ∃ outcome, some outcome ∈ run.report.outcomes ∧
      outcome.status = .success ∧ ∃ finding, some finding ∈ outcome.findings ∧
        item = { finding, subject := outcome.subject } := by
  simp only [reportedFindings, List.mem_flatMap, List.reduceOption_mem_iff]
  refine exists_congr fun outcome => and_congr_right fun _ => ?_
  by_cases hsuccess : outcome.status = .success
  · simp [hsuccess, List.reduceOption_mem_iff, eq_comm]
  · simp [hsuccess]

theorem confidence_least
    (hreadings : List.Forall₂ (fun run reading => readRun run = .ok reading) runs readings) :
    IsLeast {q | q = plan.base.confidence ∨
      ∃ run ∈ runs, ∃ outcome, some outcome ∈ run.report.outcomes ∧ outcome.status = .success ∧
        ∃ finding, some finding ∈ outcome.findings ∧ q = finding.confidence.getD 1}
      (foldedResult P plan.base plan.enrichers rules (runs.zip readings)).confidence := by
  have hfolded : (foldedResult P plan.base plan.enrichers rules (runs.zip readings)).confidence =
      ((runs.flatMap reportedFindings).map findingConfidence).foldl min plan.base.confidence := by
    rw [← readings_findings hreadings]
    rfl
  have hreported : ∀ q, q ∈ (runs.flatMap reportedFindings).map findingConfidence ↔
      ∃ run ∈ runs, ∃ outcome, some outcome ∈ run.report.outcomes ∧ outcome.status = .success ∧
        ∃ finding, some finding ∈ outcome.findings ∧ q = finding.confidence.getD 1 := by
    intro q
    simp only [List.mem_map, List.mem_flatMap, mem_reportedFindings]
    constructor
    · rintro ⟨_, ⟨run, hrun, outcome, houtcome, hsuccess, finding, hfinding, rfl⟩, hq⟩
      exact ⟨run, hrun, outcome, houtcome, hsuccess, finding, hfinding, hq.symm⟩
    · rintro ⟨run, hrun, outcome, houtcome, hsuccess, finding, hfinding, hq⟩
      exact ⟨_, ⟨run, hrun, outcome, houtcome, hsuccess, finding, hfinding, rfl⟩, hq.symm⟩
  rw [hfolded]
  simpa only [hreported] using isLeast_foldl_min plan.base.confidence
    ((runs.flatMap reportedFindings).map findingConfidence)

end

/-- The fold adds to the base whatever the runs reported. -/
theorem additive_folded {P : Platform} {rules : List SuppressionRule} {result : InspectResult}
    (hbase : Offline plan.base) (reports : Reports plan runs) (hsome : plan.enrichers ≠ [])
    (h : foldRuns P plan.base plan.enrichers rules runs = .ok result) : Additive plan runs result := by
  obtain ⟨hreasons, hscored⟩ := foldRuns_reasons hsome h
  rw [foldRuns, if_neg hsome, bind_eq_ok] at h
  obtain ⟨readings, hmapped, hresult⟩ := h
  have hreadings := mapM_eq_ok_iff.mp hmapped
  cases hresult
  have hnamed : ∀ (i : Nat) (enricher : Enricher), plan.enrichers[i]? = some enricher →
      ∃ run, runs[i]? = some run ∧
        (checkToken enricher ∈ (foldedResult P plan.base plan.enrichers rules
          (runs.zip readings)).checksRun ↔ HasStatus OutcomeStatus.isCompleted run) ∧
        (checkToken enricher ∈ (foldedResult P plan.base plan.enrichers rules
          (runs.zip readings)).checksSkipped ↔ HasStatus OutcomeStatus.isIncomplete run) := by
    intro i enricher henricher
    obtain ⟨run, hrun, hcompleted⟩ := hasStatus_of_entry reports henricher
    obtain ⟨run', hrun', hincomplete⟩ := hasStatus_of_entry reports henricher
    rw [hrun] at hrun'
    cases hrun'
    exact ⟨run, hrun, (checkToken_mem_ran hbase hreadings enricher).trans hcompleted,
      (checkToken_mem_skipped hbase hreadings enricher).trans hincomplete⟩
  exact {
    status := rfl
    input := rfl
    parsed := rfl
    dataVersions := rfl
    reasons := by
      rw [hreasons]
      exact (List.sublist_append_left ..).subperm.trans (sortReasons_perm _).symm.subperm
    sorted := sortReasons_sorted _
    scored := hscored
    raised := fun hok => by
      obtain ⟨hlow, -⟩ := hbase.scored hok
      obtain ⟨hhigh, -⟩ := hscored hok
      rw [hreasons] at hhigh
      exact ⟨_, _, hlow, hhigh, score_raised P rules hbase.bounded _⟩
    unscored := fun hinvalid => by
      have hinvalid : plan.base.status = .invalid := hinvalid
      have hnot : plan.base.status ≠ .ok := by
        rw [hinvalid]
        exact Status.noConfusion
      obtain ⟨hscore, hseverity⟩ := hbase.unscored hinvalid
      exact ⟨(if_neg hnot).trans hscore, (if_neg hnot).trans hseverity⟩
    confidence := confidence_least hreadings
    named := hnamed
    visible := fun enricher henricher => by
      obtain ⟨i, hi⟩ := List.mem_iff_getElem?.mp henricher
      obtain ⟨run, hrun, hcompleted, hincomplete⟩ := hnamed i enricher hi
      obtain ⟨_, _, _, hne, _⟩ := entry_of_run reports hrun
      obtain ⟨reading, hreading⟩ := mapM_returns_iff.mp ⟨readings, hmapped⟩ run
        (List.mem_of_getElem? hrun)
      exact (hasStatus_of_read hreading hne).imp hcompleted.mpr hincomplete.mpr
    placeholders := placeholder_mem_skipped hbase reports hreadings
    unconfigured := fun hnone => absurd hnone hsome }

/-- Whatever the reports of a plan over a synchronous result are, the fold over them only adds
evidence, or it meets a `null` in one of them and throws. -/
theorem evidence_additive (P : Platform) (bodies : CheckBodies) {input : InputVal}
    {rawOptions : HostVal} (rules : List SuppressionRule) {log : List PlanLabel}
    (hbase : inspect P bodies input rawOptions = .ok plan.base)
    (run : PlanRun plan log (.settled runs)) :
    match foldRuns P plan.base plan.enrichers rules runs with
    | .ok result => Additive plan runs result
    | .error _ => ∃ run ∈ runs, ∃ outcome ∈ run.report.outcomes, ¬ Readable outcome := by
  have hoffline := offline_of_inspect hbase
  obtain ⟨board, inv, hpending, hruns⟩ := controlInv_run run
  have reports := reports_of_settled inv hpending hruns
  by_cases hsome : plan.enrichers = []
  · rw [foldRuns, if_pos hsome]
    exact additive_unconfigured hoffline reports hsome
  · cases hfold : foldRuns P plan.base plan.enrichers rules runs with
    | ok result => exact additive_folded hoffline reports hsome hfold
    | error e =>
        by_contra hreadable
        push Not at hreadable
        obtain ⟨result, hresult⟩ := (foldRuns_returns_iff P plan.base rules hsome).mpr hreadable
        rw [hfold] at hresult
        cases hresult

end

/-- A plan over an inspected page whose only entry names its prerequisites wrongly. -/
def misnamedPlan : PlanInput where
  enrichers := [{ id := text "dns", layer := .resolution, dependsOn := .str (text "tls") }]
  base := inspectedResult .ascii .silent (text "http://a.example/") (intakeTokens .undefined)
    (ReadableOptions.empty .ascii).runtime (ReadableOptions.empty .ascii).late
  hasCache := false
  hasGovernor := false

theorem misnamedPlan_settles : ∃ run, PlanRun misnamedPlan [.plan] (.settled [run]) ∧
    ∀ outcome ∈ run.report.outcomes, Readable outcome := by
  have settled : PlanRun misnamedPlan [.plan] (.settled _) :=
    .step (.start fun _ => []) (.finish (fun _ => []) rfl)
  refine ⟨_, settled, fun outcome houtcome => ?_⟩
  exact ⟨_, List.mem_singleton.mp houtcome, fun _ => List.not_mem_nil⟩

theorem misnamed_plan_additive : ∃ runs result,
    foldRuns .ascii misnamedPlan.base misnamedPlan.enrichers [] runs = .ok result ∧
      Additive misnamedPlan runs result := by
  obtain ⟨run, settled, hreadable⟩ := misnamedPlan_settles
  have hbase : inspect .ascii .silent (.string (text "http://a.example/")) .undefined =
      .ok misnamedPlan.base := inspect_of_readable .ascii .silent _ (ReadableOptions.empty .ascii)
  obtain ⟨result, hresult⟩ :=
    (foldRuns_returns_iff .ascii misnamedPlan.base [] (List.cons_ne_nil _ _)).mpr fun other hother =>
      List.mem_singleton.mp hother ▸ hreadable
  have hadditive := evidence_additive .ascii .silent [] hbase settled
  refine ⟨[run], result, hresult, ?_⟩
  rw [show foldRuns .ascii misnamedPlan.base misnamedPlan.enrichers [] [run] = .ok result
    from hresult] at hadditive
  exact hadditive

end Linklint
