import Linklint.Enrichment.Fold
import Mathlib.Data.List.ReduceOption

/-!
# The algebra of suppression

A rule silences the reasons of its code, everywhere or under one canonical host. The
verdict is that of the other reasons, on the synchronous path and after the fold, and
a finding is judged by the subject of its own outcome.
-/

namespace Linklint

/-! ### One rule list -/

/-- Some rule has the code of the reason and is global or scoped to this host. -/
def Matched (rules : List SuppressionRule) (context : Option Text) (reason : Reason) : Prop :=
  ∃ rule ∈ rules, rule.code = text reason.code.name
    ∧ (rule.host = none ∨ ∃ host, rule.host = some host ∧ context = some host)

theorem any_ruleMatches_iff {rules : List SuppressionRule} {context : Option Text}
    {reason : Reason} :
    rules.any (ruleMatches · reason context) = true ↔ Matched rules context reason := by
  simp only [List.any_eq_true, ruleMatches, Bool.and_eq_true, Bool.or_eq_true, beq_iff_eq, Matched]
  refine exists_congr fun rule => and_congr_right fun _ => and_congr_right fun _ => ?_
  constructor
  · rintro (hglobal | hhost)
    · exact Or.inl hglobal
    · cases h : rule.host with
      | none => exact Or.inl rfl
      | some host => exact Or.inr ⟨host, rfl, by rw [← hhost, h]⟩
  · rintro (hglobal | ⟨host, hrule, hcontext⟩)
    · exact Or.inl hglobal
    · exact Or.inr (by rw [hrule, hcontext])

instance (rules : List SuppressionRule) (context : Option Text) (reason : Reason) :
    Decidable (Matched rules context reason) :=
  decidable_of_iff _ any_ruleMatches_iff

/-- A reason that stays listed and no longer counts. -/
def silenced (reason : Reason) : Reason := { reason with weight := 0, suppressed := true }

theorem suppressReason_eq (rules : List SuppressionRule) (context : Option Text)
    (reason : Reason) : suppressReason rules context reason
      = if Matched rules context reason then silenced reason else reason := by
  rw [suppressReason]
  by_cases h : Matched rules context reason
  · rw [if_pos h, if_pos (any_ruleMatches_iff.mpr h)]
    rfl
  · rw [if_neg h, if_neg (any_ruleMatches_iff.not.mpr h)]

@[simp] theorem matched_silenced {rules : List SuppressionRule} {context : Option Text}
    {reason : Reason} :
    Matched rules context (silenced reason) ↔ Matched rules context reason :=
  Iff.rfl

theorem Matched.mono {rules more : List SuppressionRule} {context : Option Text} {reason : Reason}
    (hmore : ∀ rule ∈ rules, rule ∈ more) (h : Matched rules context reason) :
    Matched more context reason := by
  obtain ⟨rule, hrule, hscope⟩ := h
  exact ⟨rule, hmore rule hrule, hscope⟩

theorem suppressReason_idempotent (rules : List SuppressionRule) (context : Option Text)
    (reason : Reason) :
    suppressReason rules context (suppressReason rules context reason)
      = suppressReason rules context reason := by
  rw [suppressReason_eq rules context reason]
  by_cases h : Matched rules context reason
  · rw [if_pos h, suppressReason_eq, if_pos (matched_silenced.mpr h)]
    rfl
  · rw [if_neg h, suppressReason_eq, if_neg h]

theorem applySuppressions_idempotent (reasons : List Reason) (rules : List SuppressionRule)
    (context : Option Text) :
    applySuppressions (applySuppressions reasons rules context) rules context
      = applySuppressions reasons rules context := by
  rw [applySuppressions_eq_map, applySuppressions_eq_map, List.map_map]
  refine List.map_congr_left fun reason _ => ?_
  exact suppressReason_idempotent rules context reason

theorem applySuppressions_getElem? (reasons : List Reason) (rules : List SuppressionRule)
    (context : Option Text) (i : Nat) :
    (applySuppressions reasons rules context)[i]? = reasons[i]?.map fun reason =>
      if Matched rules context reason then silenced reason else reason := by
  rw [applySuppressions_eq_map, List.getElem?_map]
  congr 1
  funext reason
  exact suppressReason_eq rules context reason

/-! ### The product of the weights -/

/-- Each reason is suppressed under its own context; `unmatched` are the reasons left alone. -/
theorem inverseProduct_suppress {α : Type} (rules : List SuppressionRule)
    (context : α → Option Text) (reason : α → Reason) (items : List α) :
    inverseProduct (items.map fun item => suppressReason rules (context item) (reason item))
      = inverseProduct ((items.filter fun item =>
          ¬ Matched rules (context item) (reason item)).map reason) := by
  induction items with
  | nil => rfl
  | cons item rest ih =>
      rw [List.map_cons, inverseProduct_cons, ih, suppressReason_eq]
      by_cases h : Matched rules (context item) (reason item)
      · rw [if_pos h, List.filter_cons_of_neg (by simpa using h)]
        simp [silenced]
      · rw [if_neg h, List.filter_cons_of_pos (by simpa using h), List.map_cons,
          inverseProduct_cons]

/-- More rules leave a larger product, so a smaller score. -/
theorem inverseProduct_more_rules {α : Type} {rules more : List SuppressionRule}
    (hmore : ∀ rule ∈ rules, rule ∈ more) (context : α → Option Text) (reason : α → Reason)
    {items : List α}
    (hweights : ∀ item ∈ items, 0 ≤ (reason item).weight ∧ (reason item).weight ≤ 1) :
    inverseProduct (items.map fun item => suppressReason rules (context item) (reason item))
      ≤ inverseProduct (items.map fun item => suppressReason more (context item) (reason item)) := by
  induction items with
  | nil => exact le_refl _
  | cons item rest ih =>
      have hrest : ∀ item ∈ rest, 0 ≤ (reason item).weight ∧ (reason item).weight ≤ 1 :=
        fun other hother => hweights other (List.mem_cons_of_mem _ hother)
      have hbounded (rs : List SuppressionRule) : WeightsBounded (rest.map fun item =>
          suppressReason rs (context item) (reason item)) := by
        intro r hr
        obtain ⟨other, hother, rfl⟩ := List.mem_map.mp hr
        exact suppressReason_weight_bounds _ _ (hrest other hother)
      obtain ⟨hlow, -⟩ := inverseProduct_bounds (hbounded rules)
      obtain ⟨hlow', -⟩ := inverseProduct_bounds (hbounded more)
      obtain ⟨hpos, hle⟩ := hweights item (List.mem_cons_self ..)
      rw [List.map_cons, List.map_cons, inverseProduct_cons, inverseProduct_cons]
      refine mul_le_mul ?_ (ih hrest) hlow ?_
      · rw [suppressReason_eq, suppressReason_eq]
        by_cases h : Matched rules (context item) (reason item)
        · rw [if_pos h, if_pos (h.mono hmore)]
        · rw [if_neg h]
          by_cases h' : Matched more (context item) (reason item)
          · rw [if_pos h']
            simp only [silenced, le_refl, if_true]
            split
            · exact le_refl _
            · linarith
          · rw [if_neg h']
      · obtain ⟨-, hsmall⟩ := suppressReason_weight_bounds more (context item) ⟨hpos, hle⟩
        split
        · exact zero_le_one
        · linarith

theorem aggregate_le_of_inverseProduct {as bs : List Reason}
    (h : inverseProduct bs ≤ inverseProduct as) : (aggregate as).score ≤ (aggregate bs).score := by
  apply toFixed10_mono
  linarith

theorem aggregate_of_inverseProduct {as bs : List Reason}
    (h : inverseProduct as = inverseProduct bs) : aggregate as = aggregate bs := by
  rw [aggregate, aggregate, h]

theorem aggregate_applySuppressions (reasons : List Reason) (rules : List SuppressionRule)
    (context : Option Text) : aggregate (applySuppressions reasons rules context)
      = aggregate (reasons.filter fun reason => ¬ Matched rules context reason) := by
  apply aggregate_of_inverseProduct
  have h := inverseProduct_suppress rules (fun _ => context) id reasons
  rw [List.map_id] at h
  rw [applySuppressions_eq_map]
  exact h

theorem applySuppressions_more_rules {reasons : List Reason} {rules more : List SuppressionRule}
    (context : Option Text) (hweights : WeightsBounded reasons)
    (hmore : ∀ rule ∈ rules, rule ∈ more) :
    (aggregate (applySuppressions reasons more context)).score
      ≤ (aggregate (applySuppressions reasons rules context)).score := by
  apply aggregate_le_of_inverseProduct
  rw [applySuppressions_eq_map, applySuppressions_eq_map]
  exact inverseProduct_more_rules hmore (fun _ => context) id hweights

/-! ### The subject of a finding -/

section
variable (P : Platform)

/-- The form in which a registrable domain and the host of a rule are compared. -/
def canonicalDomain (domain : Text) : Text := P.toLowerCase (P.toUnicode domain)

/-- The subject decomposes to this registrable domain: a host directly, a URL by the parser
of `inspect` under no options. -/
inductive RegisteredUnder : EnrichmentSubject → Text → Prop
  | host {value domain : Text} {facts : HostFacts} (hfacts : deriveHostFacts P value = .ok facts)
      (hdomain : facts.psl.registrableDomain = some domain) (hblank : domain ≠ []) :
      RegisteredUnder { kind := .host, value } domain
  | url {value domain : Text} {ctx : InspectionContext}
      (hparse : parseInput P value (ReadableOptions.empty P).runtime = .ok (some ctx))
      (hdomain : ctx.registrableDomain = some domain) (hblank : domain ≠ []) :
      RegisteredUnder { kind := .url, value } domain

variable {P}

theorem suppressionHostContext_eq_some {registrableDomain : Option Text} {host : Text} :
    suppressionHostContext P registrableDomain = some host ↔
      ∃ domain, registrableDomain = some domain ∧ domain ≠ [] ∧ canonicalDomain P domain = host := by
  cases registrableDomain with
  | none => simp [suppressionHostContext]
  | some domain =>
      by_cases hblank : domain = []
      · simp [suppressionHostContext, hblank]
      · simp [suppressionHostContext, hblank, canonicalDomain]

theorem suppressionSubjectHostContext_eq_some {subject : EnrichmentSubject} {host : Text} :
    suppressionSubjectHostContext P subject = some host ↔
      ∃ domain, RegisteredUnder P subject domain ∧ canonicalDomain P domain = host := by
  obtain ⟨kind, value⟩ := subject
  cases kind with
  | host =>
      cases hfacts : deriveHostFacts P value with
      | error e =>
          simp only [suppressionSubjectHostContext, hfacts, Except.map]
          constructor
          · intro h
            cases h
          · rintro ⟨_, ⟨hother, _, _⟩, _⟩
            rw [hfacts] at hother
            cases hother
      | ok facts =>
          simp only [suppressionSubjectHostContext, hfacts, Except.map]
          rw [suppressionHostContext_eq_some]
          constructor
          · rintro ⟨domain, hdomain, hblank, hhost⟩
            exact ⟨domain, .host hfacts hdomain hblank, hhost⟩
          · rintro ⟨domain, ⟨hother, hdomain, hblank⟩, hhost⟩
            cases hfacts.symm.trans hother
            exact ⟨domain, hdomain, hblank, hhost⟩
  | url =>
      cases hparse : parseInput P value (ReadableOptions.empty P).runtime with
      | error e =>
          simp only [suppressionSubjectHostContext, parsedRegistrableDomain, hparse]
          constructor
          · intro h
            cases h
          · rintro ⟨_, _ | ⟨hother, _, _⟩, _⟩
            rw [hparse] at hother
            cases hother
      | ok parsed =>
          have hread : parsedRegistrableDomain P value
              = .ok (parsed.bind fun ctx => ctx.registrableDomain) := by
            rw [parsedRegistrableDomain, hparse]
            rfl
          simp only [suppressionSubjectHostContext, hread]
          rw [suppressionHostContext_eq_some]
          constructor
          · rintro ⟨domain, hdomain, hblank, hhost⟩
            obtain ⟨ctx, rfl, hctx⟩ := Option.bind_eq_some_iff.mp hdomain
            exact ⟨domain, .url hparse hctx hblank, hhost⟩
          · rintro ⟨domain, _ | ⟨hother, hdomain, hblank⟩, hhost⟩
            cases hparse.symm.trans hother
            exact ⟨domain, hdomain, hblank, hhost⟩

variable (P)

/-- The code of the finding, everywhere or under the canonical registrable domain of the subject
of the finding's own outcome. -/
def Silences (rule : SuppressionRule) (item : SubjectFinding) : Prop :=
  rule.code = text item.finding.code.name ∧ (rule.host = none
    ∨ ∃ domain, RegisteredUnder P item.subject domain ∧ rule.host = some (canonicalDomain P domain))

variable {P}

theorem matched_subject_iff {rules : List SuppressionRule} {item : SubjectFinding} :
    Matched rules (suppressionSubjectHostContext P item.subject) (projectedReason item.finding)
      ↔ ∃ rule ∈ rules, Silences P rule item := by
  refine exists_congr fun rule => and_congr_right fun _ => and_congr_right fun _ => or_congr_right ?_
  constructor
  · rintro ⟨host, hrule, hcontext⟩
    obtain ⟨domain, hdomain, rfl⟩ := suppressionSubjectHostContext_eq_some.mp hcontext
    exact ⟨domain, hdomain, hrule⟩
  · rintro ⟨domain, hdomain, hrule⟩
    exact ⟨_, hrule, suppressionSubjectHostContext_eq_some.mpr ⟨domain, hdomain, rfl⟩⟩

/-! ### The fold -/

/-- The findings of the successful outcomes of a run, each with the subject of its outcome. -/
def reportedFindings (run : EnricherRun) : List SubjectFinding :=
  run.report.outcomes.reduceOption.flatMap fun outcome =>
    if outcome.status = .success then
      outcome.findings.reduceOption.map fun finding => { finding, subject := outcome.subject }
    else []

theorem outcomeFindings_eq {outcome : EnrichmentOutcome} {items : List SubjectFinding}
    (h : outcomeFindings outcome = .ok items) :
    items = if outcome.status = .success then
      outcome.findings.reduceOption.map fun finding => { finding, subject := outcome.subject }
    else [] := by
  rw [outcomeFindings] at h
  by_cases hsuccess : outcome.status = .success
  · rw [if_pos hsuccess] at h
    rw [if_pos hsuccess]
    have hitems := mapM_eq_ok_iff.mp h
    clear h
    generalize outcome.findings = findings at hitems
    induction hitems with
    | nil => rfl
    | @cons finding item rest items hitem _ ih =>
        cases finding with
        | none => cases hitem
        | some finding =>
            cases hitem
            rw [ih, List.reduceOption_cons_of_some, List.map_cons]
  · rw [if_neg hsuccess] at h
    rw [if_neg hsuccess]
    cases h
    rfl

theorem readRun_findings {run : EnricherRun} {reading : RunReading}
    (h : readRun run = .ok reading) : reading.findings = reportedFindings run := by
  simp only [readRun, bind_eq_ok] at h
  obtain ⟨completed, -, incomplete, -, findings, hfindings, hreading⟩ := h
  cases hreading
  have hlists := mapM_eq_ok_iff.mp hfindings
  clear hfindings
  change findings.flatten = _
  rw [reportedFindings]
  generalize run.report.outcomes = outcomes at hlists
  induction hlists with
  | nil => rfl
  | @cons outcome items rest lists hitems _ ih =>
      cases outcome with
      | none => cases hitems
      | some outcome =>
          rw [List.flatten_cons, ih, List.reduceOption_cons_of_some, List.flatMap_cons,
            outcomeFindings_eq hitems]

theorem readings_findings {runs : List EnricherRun} {readings : List RunReading}
    (h : List.Forall₂ (fun run reading => readRun run = .ok reading) runs readings) :
    (runs.zip readings).flatMap (fun run => run.2.findings) = runs.flatMap reportedFindings := by
  induction h with
  | nil => rfl
  | cons hreading _ ih =>
      rw [List.zip_cons_cons, List.flatMap_cons, List.flatMap_cons, ih, readRun_findings hreading]

/-- What the fold returns, by the findings the runs reported. -/
theorem foldRuns_reasons {base result : InspectResult} {enrichers : List Enricher}
    {rules : List SuppressionRule} {runs : List EnricherRun} (hsome : enrichers ≠ [])
    (h : foldRuns P base enrichers rules runs = .ok result) :
    result.reasons = sortReasons (base.reasons
        ++ (runs.flatMap reportedFindings).map (enrichmentReason P rules))
      ∧ (base.status = .ok → result.score = some (aggregate result.reasons).score
        ∧ result.severity = some (aggregate result.reasons).severity) := by
  rw [foldRuns, if_neg hsome, bind_eq_ok] at h
  obtain ⟨readings, hreadings, hresult⟩ := h
  cases hresult
  refine ⟨?_, fun hok => ⟨if_pos hok, if_pos hok⟩⟩
  simp only [foldedResult, readings_findings (mapM_eq_ok_iff.mp hreadings)]

theorem aggregate_fold (base : List Reason) (rules : List SuppressionRule)
    (items : List SubjectFinding) :
    aggregate (sortReasons (base ++ items.map (enrichmentReason P rules)))
      = aggregate (base ++ (items.filter fun item =>
          ¬ Matched rules (suppressionSubjectHostContext P item.subject)
            (projectedReason item.finding)).map fun item => projectedReason item.finding) := by
  rw [aggregate_perm (sortReasons_perm _)]
  apply aggregate_of_inverseProduct
  have h := inverseProduct_suppress rules
    (fun item : SubjectFinding => suppressionSubjectHostContext P item.subject)
    (fun item => projectedReason item.finding) items
  simp only [← enrichmentReason_eq] at h
  rw [inverseProduct_append, inverseProduct_append, h]

/-- What the fold makes of a finding: silenced by a rule for its own subject, or left alone. -/
inductive Judged (P : Platform) (rules : List SuppressionRule) : SubjectFinding → Reason → Prop
  | marked {item : SubjectFinding} {rule : SuppressionRule} (hrule : rule ∈ rules)
      (h : Silences P rule item) : Judged P rules item (silenced (projectedReason item.finding))
  | kept {item : SubjectFinding} (h : ∀ rule ∈ rules, ¬ Silences P rule item) :
      Judged P rules item (projectedReason item.finding)

theorem judged_enrichmentReason (rules : List SuppressionRule) (item : SubjectFinding) :
    Judged P rules item (enrichmentReason P rules item) := by
  rw [enrichmentReason_eq, suppressReason_eq]
  by_cases h : Matched rules (suppressionSubjectHostContext P item.subject)
      (projectedReason item.finding)
  · rw [if_pos h]
    obtain ⟨rule, hrule, hsilences⟩ := matched_subject_iff.mp h
    exact .marked hrule hsilences
  · rw [if_neg h]
    exact .kept fun rule hrule hsilences => h (matched_subject_iff.mpr ⟨rule, hrule, hsilences⟩)

/-- A rule of another host changes no judgement, wherever it stands in the list. -/
theorem enrichmentReason_foreign {before after : List SuppressionRule} {rule : SuppressionRule}
    {item : SubjectFinding} (hscoped : rule.host ≠ none)
    (hforeign : suppressionSubjectHostContext P item.subject ≠ rule.host) :
    enrichmentReason P (before ++ rule :: after) item = enrichmentReason P (before ++ after) item := by
  have hsame : Matched (before ++ rule :: after) (suppressionSubjectHostContext P item.subject)
      (projectedReason item.finding) ↔ Matched (before ++ after)
      (suppressionSubjectHostContext P item.subject) (projectedReason item.finding) := by
    constructor
    · rintro ⟨other, hother, hcode, hscope⟩
      rcases List.mem_append.mp hother with hbefore | hrest
      · exact ⟨other, List.mem_append_left _ hbefore, hcode, hscope⟩
      · rcases List.mem_cons.mp hrest with rfl | hafter
        · rcases hscope with hglobal | ⟨host, hrule, hcontext⟩
          · exact absurd hglobal hscoped
          · exact absurd (hcontext.trans hrule.symm) hforeign
        · exact ⟨other, List.mem_append_right _ hafter, hcode, hscope⟩
    · apply Matched.mono
      intro other hother
      rw [List.mem_append] at hother ⊢
      exact hother.imp_right (List.mem_cons_of_mem _)
  rw [enrichmentReason_eq, enrichmentReason_eq, suppressReason_eq, suppressReason_eq]
  simp only [hsame]

end

/-! ### Rules of the caller -/

/-- A blank or absent host is global; any other stays scoped, even when it canonicalizes to the
empty text. -/
theorem normalizeSuppressRule_host {P : Platform} {rule : HostVal} {kept : SuppressionRule}
    (h : normalizeSuppressRule P rule = .ok (some kept)) :
    ∃ host, rule.read .normalize (text "host") = .ok host
      ∧ (kept.host = none ↔ ∀ s, host = .str s → s.trim = [])
      ∧ ∀ s, host = .str s → s.trim ≠ [] → kept.host = some (normalizeIdnDomain P s.trim) := by
  rw [normalizeSuppressRule] at h
  split at h
  · simp only [bind_eq_ok] at h
    obtain ⟨code, -, host, hhost, hkept⟩ := h
    refine ⟨host, hhost, ?_⟩
    cases code with
    | str s =>
        simp only [] at hkept
        split at hkept
        · cases hkept
        · cases hkept
          cases host with
          | str t =>
              by_cases hblank : t.trim = []
              · simp [hblank]
              · simp [hblank]
          | _ => simp
    | _ => cases hkept
  · cases h

/-- The context of an input inspected under these rules. -/
def InspectionContext.withRules (ctx : InspectionContext) (rules : List SuppressionRule) :
    InspectionContext :=
  { ctx with runtime := { ctx.runtime with suppressReasons := rules } }

/-- The score of a run: the reasons of the input, then those of the findings. -/
def scoreUnder (P : Platform) (ctx : InspectionContext) (findings policyFindings : List CollectedFinding)
    (items : List SubjectFinding) (rules : List SuppressionRule) : Rat :=
  (aggregate (sortReasons (sortReasons (builtReasons P (ctx.withRules rules) findings policyFindings)
    ++ items.map (enrichmentReason P rules)))).score

theorem scoreUnder_more_rules (P : Platform) (ctx : InspectionContext)
    (findings policyFindings : List CollectedFinding) (items : List SubjectFinding)
    {rules more : List SuppressionRule} (hmore : ∀ rule ∈ rules, rule ∈ more) :
    scoreUnder P ctx findings policyFindings items more
      ≤ scoreUnder P ctx findings policyFindings items rules := by
  have hbase : inverseProduct (builtReasons P (ctx.withRules rules) findings policyFindings)
      ≤ inverseProduct (builtReasons P (ctx.withRules more) findings policyFindings) := by
    rw [builtReasons, builtReasons, applySuppressions_eq_map, applySuppressions_eq_map]
    refine inverseProduct_more_rules hmore (fun _ => _) id fun reason hreason => ?_
    obtain ⟨finding, -, rfl⟩ := List.mem_map.mp hreason
    exact toReason_weight_bounds finding
  have hitems : inverseProduct (items.map (enrichmentReason P rules))
      ≤ inverseProduct (items.map (enrichmentReason P more)) := by
    rw [funext (enrichmentReason_eq P rules), funext (enrichmentReason_eq P more)]
    refine inverseProduct_more_rules hmore
      (fun item : SubjectFinding => suppressionSubjectHostContext P item.subject)
      (fun item => projectedReason item.finding) fun item _ => ?_
    exact ⟨weightFor_nonneg _, weightFor_le_one _⟩
  have hbounded : WeightsBounded (items.map (enrichmentReason P rules)) := by
    intro reason hreason
    obtain ⟨item, -, rfl⟩ := List.mem_map.mp hreason
    rw [enrichmentReason_eq]
    exact suppressReason_weight_bounds _ _ ⟨weightFor_nonneg _, weightFor_le_one _⟩
  rw [scoreUnder, scoreUnder, aggregate_perm (sortReasons_perm _),
    aggregate_perm (sortReasons_perm (_ ++ items.map (enrichmentReason P rules)))]
  apply aggregate_le_of_inverseProduct
  rw [inverseProduct_append, inverseProduct_append, inverseProduct_perm (sortReasons_perm _),
    inverseProduct_perm (sortReasons_perm (builtReasons P (ctx.withRules more) _ _))]
  exact mul_le_mul hbase hitems (inverseProduct_bounds hbounded).1
    (inverseProduct_bounds (builtReasons_bounded P _ _ _)).1

/-! ### The laws -/

structure SuppressionAlgebra (P : Platform) : Prop where
  /-- The verdict is that of the reasons no rule matches. -/
  verdict : ∀ reasons rules context, aggregate (applySuppressions reasons rules context)
    = aggregate (reasons.filter fun reason => ¬ Matched rules context reason)
  /-- Every place keeps its reason, and only the matched ones are marked. -/
  places : ∀ reasons rules context (i : Nat),
    (applySuppressions reasons rules context)[i]? = reasons[i]?.map fun reason =>
      if Matched rules context reason then silenced reason else reason
  idempotent : ∀ reasons rules context,
    applySuppressions (applySuppressions reasons rules context) rules context
      = applySuppressions reasons rules context
  monotone : ∀ reasons rules more context, WeightsBounded reasons → (∀ rule ∈ rules, rule ∈ more) →
    (aggregate (applySuppressions reasons more context)).score
      ≤ (aggregate (applySuppressions reasons rules context)).score
  /-- On both paths the weights are those of the registry, so no bound is assumed. -/
  monotoneRun : ∀ ctx findings policyFindings items rules more, (∀ rule ∈ rules, rule ∈ more) →
    scoreUnder P ctx findings policyFindings items more
      ≤ scoreUnder P ctx findings policyFindings items rules
  normalized : ∀ rule kept, normalizeSuppressRule P rule = .ok (some kept) →
    ∃ host, rule.read .normalize (text "host") = .ok host
      ∧ (kept.host = none ↔ ∀ s, host = .str s → s.trim = [])
      ∧ ∀ s, host = .str s → s.trim ≠ [] → kept.host = some (normalizeIdnDomain P s.trim)
  /-- The input's own reasons are judged by the input, before they are sorted and scored. -/
  inspected : ∀ ctx findings skipped policyFindings policyRan agentRan suppressRan,
    let result := buildOkResult P ctx findings skipped policyFindings policyRan agentRan suppressRan
    let scored := aggregate (((findings ++ policyFindings).map toReason).filter fun reason =>
      ¬ Matched ctx.runtime.suppressReasons (suppressionHostContext P ctx.registrableDomain) reason)
    result.score = some scored.score ∧ result.severity = some scored.severity
  /-- Every finding is judged by the subject of its own outcome, next to the reasons of the base. -/
  folded : ∀ base enrichers rules runs result, enrichers ≠ [] →
    foldRuns P base enrichers rules runs = .ok result →
    ∃ marked, List.Forall₂ (Judged P rules) (runs.flatMap reportedFindings) marked
      ∧ result.reasons = sortReasons (base.reasons ++ marked)
      ∧ (base.status = .ok →
        let scored := aggregate (base.reasons ++ ((runs.flatMap reportedFindings).filter fun item =>
          ¬ Matched rules (suppressionSubjectHostContext P item.subject)
            (projectedReason item.finding)).map fun item => projectedReason item.finding)
        result.score = some scored.score ∧ result.severity = some scored.severity)
  /-- A rule scoped to the host of the input does not reach the finding of another subject. -/
  foreign : ∀ (input : InspectionContext) before rule after item, rule.host ≠ none →
    rule.host = suppressionHostContext P input.registrableDomain →
    suppressionSubjectHostContext P item.subject ≠ suppressionHostContext P input.registrableDomain →
    enrichmentReason P (before ++ rule :: after) item = enrichmentReason P (before ++ after) item

theorem suppression_algebra (P : Platform) : SuppressionAlgebra P where
  verdict := aggregate_applySuppressions
  places := applySuppressions_getElem?
  idempotent := applySuppressions_idempotent
  monotone := fun _ _ _ context hweights hmore =>
    applySuppressions_more_rules context hweights hmore
  monotoneRun := fun ctx findings policyFindings items _ _ hmore =>
    scoreUnder_more_rules P ctx findings policyFindings items hmore
  normalized := fun _ _ h => normalizeSuppressRule_host h
  inspected := by
    intro ctx findings skipped policyFindings policyRan agentRan suppressRan
    simp only [buildOkResult]
    rw [aggregate_perm (sortReasons_perm _), builtReasons, aggregate_applySuppressions]
    exact ⟨rfl, rfl⟩
  folded := by
    intro base enrichers rules runs result hsome h
    obtain ⟨hreasons, hscored⟩ := foldRuns_reasons hsome h
    refine ⟨_, ?_, hreasons, fun hok => ?_⟩
    · induction runs.flatMap reportedFindings with
      | nil => exact .nil
      | cons item rest ih => exact .cons (judged_enrichmentReason rules item) ih
    · obtain ⟨hscore, hseverity⟩ := hscored hok
      rw [hreasons, aggregate_fold] at hscore hseverity
      exact ⟨hscore, hseverity⟩
  foreign := by
    intro input before rule after item hscoped hinput hsubject
    apply enrichmentReason_foreign hscoped
    rw [hinput]
    exact hsubject

end Linklint
