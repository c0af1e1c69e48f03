import Linklint.Enrichment.Lifecycle

/-!
# How a run uses its cache

Every cache operation of a run goes to the slot of its own `cacheKey` answer, and
what a run writes is what its provider has just delivered. A slot that could not
be resolved stays visible in the report.
-/

namespace Linklint

open Interaction

section
variable (input : RunnerInput)

def staticTtl : Option Rat := positiveFinite input.enricher.cacheTtlMs

/-- The store key of a slot. -/
def slotKey (key : Text) : Text :=
  jsonStrings [ENRICHMENT_CACHE_NAMESPACE, input.token, key]

/-- The run asked for its key first thing, and this is what came of it. -/
def KeyAnswered (past : List RunnerEvent) (resolution : CacheSlotResolution) : Prop :=
  ∃ (answer : Called) (rest : List RunnerEvent),
    past = ⟨.aborted, some false⟩ :: ⟨.cacheKey, some answer⟩ :: rest ∧
      resolution = slotOfKey input (staticTtl input) answer

/-- The lifetime of an entry: the resolver's, unless it left it to the static one. -/
def TtlOf (past : List RunnerEvent) (report : Value) (slot : CacheSlot) (ttlMs : Rat) : Prop :=
  if input.enricher.cacheTtlMsFor = some true then
    ∃ candidate : Value,
      ⟨.cacheTtlMsFor (cloneEnrichmentReport report), some (Called.value candidate)⟩ ∈ past ∧
        (ttlOfCandidate slot.staticTtlMs candidate).ttlMs = some ttlMs
  else slot.staticTtlMs = some ttlMs

/-- A report the provider of this run has delivered, wholly completed, before any cancellation. -/
structure Written (past : List RunnerEvent) (slot : CacheSlot) (output report : Value)
    (ttlMs : Rat) : Prop where
  delivered : ∃ (previousOutcomes : List (Option EnrichmentOutcome)) (ms : Option Rat),
    ⟨.enrich previousOutcomes ms, some (Bounded.value output)⟩ ∈ past
  normalized : Normalized input.enricher input.base output report
  completed : ∀ item ∈ (readReport report).outcomes,
    ∃ outcome, item = some outcome ∧ isCompleted outcome = true
  unaborted : ∃ before, past = before ++ [⟨.aborted, some false⟩]
  ttl : TtlOf input past report slot ttlMs

/-- The uses of the cache a run makes. -/
def UseAllowed (past : List RunnerEvent) (e : RunnerEvent) : Prop :=
  match e.op with
  | .cacheKey => past = [⟨.aborted, some false⟩] ∧ needsKey input = true
  | .cacheGet key _ => ∃ resolution slot, KeyAnswered input past resolution ∧
      resolution.slot = some slot ∧ slot.key = key
  | .cacheSet key stored ttlMs _ => ∃ resolution slot output report, KeyAnswered input past resolution ∧
      resolution.slot = some slot ∧ slot.key = key ∧
      stored = cloneEnrichmentReport report ∧ Written input past slot output report ttlMs
  | _ => True

def Uses : List RunnerEvent → RunnerEvent → List RunnerEvent → Prop := Records (UseAllowed input)

/-- The report shows a degradation. -/
def Carries (run : EnricherRun) (degradation : RuntimeDegradation) : Prop :=
  ∃ observedAt, some (degradation.outcome input.enricher input.base observedAt) ∈ run.report.outcomes

/-- A settled run shows what went wrong with its slot. -/
def ShowsSlotError (result : Except Thrown EnricherRun) (past : List RunnerEvent) : Prop :=
  ∀ run, result = .ok run → ∀ resolution degradation, KeyAnswered input past resolution →
    resolution.degradation = some degradation → Carries input run degradation

/-- What is known of the slot once it has been resolved. -/
structure Slotted (slot : Option CacheSlot) (degradations : List RuntimeDegradation)
    (past : List RunnerEvent) : Prop where
  answered : ∀ s, slot = some s →
    ∃ resolution, KeyAnswered input past resolution ∧ resolution.slot = some s
  failed : ∀ resolution degradation, KeyAnswered input past resolution →
    resolution.degradation = some degradation → degradation ∈ degradations

end

def isCalm : RunnerOp → Bool
  | .cacheKey => false
  | .cacheGet _ _ => false
  | .cacheSet _ _ _ _ => false
  | _ => true

section
variable {input : RunnerInput} {slot : Option CacheSlot} {degradations : List RuntimeDegradation}
  {past : List RunnerEvent}

theorem keyAnswered_of_snoc {e : RunnerEvent} {resolution : CacheSlotResolution}
    (he : e.op ≠ .cacheKey) (h : KeyAnswered input (past ++ [e]) resolution) :
    KeyAnswered input past resolution := by
  obtain ⟨answer, rest, hpast, hresolution⟩ := h
  match past, hpast with
  | [], hpast => cases hpast
  | [first], hpast =>
      cases hpast
      exact absurd rfl he
  | first :: second :: past, hpast =>
      simp only [List.cons_append, List.cons.injEq] at hpast
      obtain ⟨rfl, rfl, _⟩ := hpast
      exact ⟨answer, past, rfl, hresolution⟩

theorem keyAnswered_snoc {resolution : CacheSlotResolution} (h : KeyAnswered input past resolution)
    (e : RunnerEvent) : KeyAnswered input (past ++ [e]) resolution := by
  obtain ⟨answer, rest, rfl, hresolution⟩ := h
  exact ⟨answer, rest ++ [e], rfl, hresolution⟩

theorem Slotted.snoc (h : Slotted input slot degradations past) {e : RunnerEvent}
    (he : e.op ≠ .cacheKey) : Slotted input slot degradations (past ++ [e]) where
  answered := fun s hs => by
    obtain ⟨resolution, hkey, hslot⟩ := h.answered s hs
    exact ⟨resolution, keyAnswered_snoc hkey e, hslot⟩
  failed := fun resolution degradation hkey => h.failed resolution degradation
    (keyAnswered_of_snoc he hkey)

theorem Slotted.append (h : Slotted input slot degradations past)
    (more : List RuntimeDegradation) : Slotted input slot (degradations ++ more) past where
  answered := h.answered
  failed := fun resolution degradation hkey hd =>
    List.mem_append_left _ (h.failed resolution degradation hkey hd)

/-- A call that is no cache operation. -/
theorem wp_calm {α : Type} {op : RunnerOp} {rest : RunnerAns op → RunnerProg α}
    {post : α → List RunnerEvent → Prop} (hop : isCalm op = true)
    (h : ∀ answer, wp (Uses input) (rest answer) post (past ++ [⟨op, some answer⟩])) :
    wp (Uses input) (.call op rest) post past := by
  refine wp_recorded (fun answer => ?_) h
  cases op with
  | cacheKey => cases hop
  | cacheGet => cases hop
  | cacheSet => cases hop
  | _ => trivial

theorem Slotted.calm (h : Slotted input slot degradations past) {op : RunnerOp}
    (hop : isCalm op = true) (answer : Option (RunnerAns op)) :
    Slotted input slot degradations (past ++ [⟨op, answer⟩]) := by
  refine h.snoc ?_
  rintro rfl
  cases hop

/-! ### Settling -/

/-- The framework outcomes of a list of degradations show each of them. -/
theorem wp_degradationOutcomes_shown (h : Slotted input slot degradations past)
    (shown : List RuntimeDegradation) :
    wp (Uses input) (degradationOutcomes input shown) (fun outcomes past' =>
      Slotted input slot degradations past' ∧ ∀ degradation ∈ shown, ∃ observedAt,
        some (degradation.outcome input.enricher input.base observedAt) ∈ outcomes) past := by
  induction shown generalizing past with
  | nil => exact ⟨h, fun degradation hmem => by cases hmem⟩
  | cons degradation rest ih =>
      refine wp_calm rfl fun observedAt => ?_
      change wp (Uses input) (degradationOutcomes input rest >>= _) _ _
      rw [wp_bind]
      refine wp_mono (ih (h.calm rfl _)) ?_
      rintro outcomes past' ⟨hslotted, hshown⟩
      refine ⟨hslotted, fun other hother => ?_⟩
      rcases List.mem_cons.mp hother with rfl | hother
      · exact ⟨observedAt, List.mem_append_left _ (List.mem_singleton_self _)⟩
      · obtain ⟨observedAt', hmem⟩ := hshown other hother
        exact ⟨observedAt', List.mem_append_right _ hmem⟩

theorem wp_settleWith_shown (h : Slotted input slot degradations past) (report : EnrichmentReport) :
    wp (Uses input) (settleWith input report degradations) (ShowsSlotError input) past := by
  simp only [settleWith, withDegradations]
  rw [wp_bind, wp_bind]
  refine wp_mono (wp_degradationOutcomes_shown h degradations) ?_
  rintro outcomes past' ⟨hslotted, hshown⟩ run ⟨rfl⟩ resolution degradation hkey hd
  obtain ⟨observedAt, hmem⟩ := hshown degradation (hslotted.failed resolution degradation hkey hd)
  exact ⟨observedAt, List.mem_append_right _ hmem⟩

theorem wp_settleFramework_shown (h : Slotted input slot degradations past)
    (primary : RuntimeDegradation) :
    wp (Uses input) (settleFramework input primary degradations) (ShowsSlotError input) past := by
  refine wp_calm rfl fun observedAt => ?_
  exact wp_settleWith_shown (h.calm rfl _) _

theorem wp_record_shown (h : Slotted input slot degradations past) (operation : GovernorRecord) :
    wp (Uses input) (addGovernorRecordDegradation input operation degradations)
      (fun degradations' past' => Slotted input slot degradations' past' ∧
        ∀ e ∈ past, e ∈ past') past := by
  rw [addGovernorRecordDegradation]
  by_cases hgov : input.hasGovernor = true
  · rw [if_pos hgov]
    have hnext (last : RunnerEvent) : ∀ e ∈ past, e ∈ past ++ [last] :=
      fun e he => List.mem_append_left _ he
    cases operation with
    | recordSuccess =>
        refine wp_calm rfl fun answer => ?_
        cases answer with
        | value v => exact ⟨h.calm rfl _, hnext _⟩
        | threw => exact ⟨(h.calm rfl _).append _, hnext _⟩
    | recordFailure =>
        refine wp_calm rfl fun answer => ?_
        cases answer with
        | value v => exact ⟨h.calm rfl _, hnext _⟩
        | threw => exact ⟨(h.calm rfl _).append _, hnext _⟩
  · rw [if_neg hgov]
    exact ⟨h, fun e he => he⟩

/-! ### Writing -/

theorem of_outcomesEvery {p : EnrichmentOutcome → Bool} {outcomes : List (Option EnrichmentOutcome)}
    (h : outcomesEvery p outcomes = .ok true) :
    ∀ item ∈ outcomes, ∃ outcome, item = some outcome ∧ p outcome = true := by
  induction outcomes with
  | nil => exact fun item hitem => by cases hitem
  | cons item rest ih =>
      cases item with
      | none => cases h
      | some outcome =>
          rw [outcomesEvery] at h
          by_cases hp : p outcome = true
          · rw [if_pos hp] at h
            intro other hother
            rcases List.mem_cons.mp hother with rfl | hother
            · exact ⟨outcome, rfl, hp⟩
            · exact ih h other hother
          · rw [if_neg hp] at h
            cases h

/-- The provider of the run has delivered the report. -/
def Delivered (input : RunnerInput) (past : List RunnerEvent) (output report : Value) : Prop :=
  (∃ (previousOutcomes : List (Option EnrichmentOutcome)) (ms : Option Rat),
    ⟨.enrich previousOutcomes ms, some (Bounded.value output)⟩ ∈ past) ∧
    Normalized input.enricher input.base output report

theorem Delivered.grow {past past' : List RunnerEvent} {output report : Value}
    (h : Delivered input past output report) (hgrow : ∀ e ∈ past, e ∈ past') :
    Delivered input past' output report := by
  obtain ⟨⟨previousOutcomes, ms, hmem⟩, hnormalized⟩ := h
  exact ⟨⟨previousOutcomes, ms, hgrow _ hmem⟩, hnormalized⟩

theorem wp_cacheTtlFor_used {s : CacheSlot} {output report : Value}
    (h : Slotted input (some s) degradations past) (hdelivered : Delivered input past output report) :
    wp (Uses input) (cacheTtlFor input report s.staticTtlMs) (fun ttl past' =>
      Slotted input (some s) degradations past' ∧ Delivered input past' output report ∧
        ∀ ttlMs, ttl.ttlMs = some ttlMs → TtlOf input past' report s ttlMs) past := by
  rw [cacheTtlFor]
  by_cases hresolver : input.enricher.cacheTtlMsFor = some true
  · rw [if_pos hresolver]
    refine wp_calm rfl fun answer => ?_
    have hgrow : Delivered input (past ++ [⟨.cacheTtlMsFor (cloneEnrichmentReport report),
        some answer⟩]) output report :=
      hdelivered.grow fun e he => List.mem_append_left _ he
    cases answer with
    | threw => exact ⟨h.calm rfl _, hgrow, fun ttlMs httl => by cases httl⟩
    | value candidate =>
        refine ⟨h.calm rfl _, hgrow, fun ttlMs httl => ?_⟩
        rw [TtlOf, if_pos hresolver]
        exact ⟨candidate, List.mem_append_right _ (List.mem_singleton_self _), httl⟩
  · rw [if_neg hresolver]
    refine ⟨h, hdelivered, fun ttlMs httl => ?_⟩
    rw [TtlOf, if_neg hresolver]
    exact httl

theorem wp_cacheWriteTimedOut_used (h : Slotted input slot degradations past) :
    wp (Uses input) (cacheWriteTimedOut degradations)
      (fun degradations' past' => Slotted input slot degradations' past') past := by
  refine wp_calm rfl fun fired => ?_
  exact (h.calm rfl _).append _

theorem wp_writeCache_used {s : CacheSlot} {output report : Value}
    (h : Slotted input (some s) degradations past) (hdelivered : Delivered input past output report)
    (hcompleted : ∀ item ∈ (readReport report).outcomes,
      ∃ outcome, item = some outcome ∧ isCompleted outcome = true) :
    wp (Uses input) (writeCache input s report degradations)
      (fun degradations' past' => Slotted input (some s) degradations' past') past := by
  rw [writeCache, wp_bind]
  refine wp_mono (wp_cacheTtlFor_used h hdelivered) ?_
  rintro ttl past ⟨h, hdelivered, httl⟩
  have h := h.append ttl.degradation.toList
  cases hms : ttl.ttlMs with
  | none => exact h
  | some ttlMs =>
      refine wp_calm rfl fun fired => ?_
      cases fired with
      | true => exact wp_cacheWriteTimedOut_used (h.calm rfl _)
      | false =>
          have h : Slotted input (some s) (degradations ++ ttl.degradation.toList)
              (past ++ [⟨.aborted, some false⟩]) := h.calm rfl _
          obtain ⟨resolution, hkey, hslot⟩ := h.answered s rfl
          have hgrow : ∀ e ∈ past, e ∈ past ++ [⟨.aborted, some false⟩] :=
            fun e he => List.mem_append_left _ he
          have hwritten : Written input (past ++ [⟨.aborted, some false⟩]) s output report ttlMs :=
            { delivered := (hdelivered.grow hgrow).1
              normalized := hdelivered.2
              completed := hcompleted
              unaborted := ⟨past, rfl⟩
              ttl := by
                have httl := httl ttlMs hms
                rw [TtlOf] at httl ⊢
                split at httl
                · obtain ⟨candidate, hmem, hcandidate⟩ := httl
                  rw [if_pos ‹_›]
                  exact ⟨candidate, hgrow _ hmem, hcandidate⟩
                · rw [if_neg ‹_›]
                  exact httl }
          refine wp_recorded (fun _ => ⟨resolution, s, output, report, hkey, hslot, rfl, rfl, hwritten⟩)
            fun answer => ?_
          have h := h.snoc (e := ⟨.cacheSet s.key (cloneEnrichmentReport report) ttlMs
            (effectiveTimeoutMs input.enricher.timeoutMs .undefined), some answer⟩) (by simp)
          cases answer with
          | value v => exact h
          | threw => exact h.append _
          | timedOut => exact wp_cacheWriteTimedOut_used h

/-! ### Provider -/

theorem wp_settleReport_used {output report : Value} (h : Slotted input slot degradations past)
    (hdelivered : Delivered input past output report) :
    wp (Uses input) (settleReport input slot report degradations) (ShowsSlotError input) past := by
  rw [settleReport]
  cases outcomesSome isFailure (readReport report).outcomes with
  | error e => exact fun run hrun => by cases hrun
  | ok failed =>
      simp only []
      rw [wp_bind]
      refine wp_mono (wp_record_shown h _) ?_
      rintro degradations past' ⟨h, hgrow⟩
      cases slot with
      | none => exact wp_settleWith_shown h _
      | some s =>
          cases hevery : outcomesEvery isCompleted (readReport report).outcomes with
          | error e => exact fun run hrun => by cases hrun
          | ok completed =>
              cases completed with
              | false => exact wp_settleWith_shown h _
              | true =>
                  simp only []
                  rw [wp_bind]
                  refine wp_mono (wp_writeCache_used h (hdelivered.grow hgrow)
                    (of_outcomesEvery hevery)) ?_
                  intro degradations past h
                  exact wp_settleWith_shown h _

theorem wp_normalizeOutput_used (h : Slotted input slot degradations past) {output : Value}
    (hdelivered : ∃ (previousOutcomes : List (Option EnrichmentOutcome)) (ms : Option Rat),
      ⟨.enrich previousOutcomes ms, some (Bounded.value output)⟩ ∈ past) :
    wp (Uses input) (normalizeOutput input output) (fun report past' =>
      Slotted input slot degradations past' ∧
        ∀ r, report = some r → Delivered input past' output r) past := by
  rw [normalizeOutput]
  by_cases hflat : isEnricherFindingArray output = true
  · rw [if_pos hflat]
    refine wp_calm rfl fun observedAt => ⟨h.calm rfl _, ?_⟩
    rintro r ⟨rfl⟩
    obtain ⟨previousOutcomes, ms, hmem⟩ := hdelivered
    exact ⟨⟨previousOutcomes, ms, List.mem_append_left _ hmem⟩, .legacy observedAt hflat⟩
  · rw [if_neg hflat]
    refine ⟨h, fun r hr => ⟨hdelivered, ?_⟩⟩
    exact .declared (Bool.eq_false_of_not_eq_true hflat) hr

theorem wp_settleOutput_used (h : Slotted input slot degradations past) {output : Value}
    (hdelivered : ∃ (previousOutcomes : List (Option EnrichmentOutcome)) (ms : Option Rat),
      ⟨.enrich previousOutcomes ms, some (Bounded.value output)⟩ ∈ past) :
    wp (Uses input) (settleOutput input slot output degradations) (ShowsSlotError input) past := by
  rw [settleOutput]
  refine wp_calm rfl fun fired => ?_
  have h : Slotted input slot degradations (past ++ [⟨.aborted, some fired⟩]) := h.calm rfl _
  cases fired with
  | true =>
      change wp (Uses input) (addGovernorRecordDegradation input .recordFailure degradations >>= _)
        (ShowsSlotError input) _
      rw [wp_bind]
      refine wp_mono (wp_record_shown h _) ?_
      rintro degradations past' ⟨h, _⟩
      exact wp_settleFramework_shown h _
  | false =>
      change wp (Uses input) (normalizeOutput input output >>= _) (ShowsSlotError input) _
      rw [wp_bind]
      obtain ⟨previousOutcomes, ms, hmem⟩ := hdelivered
      refine wp_mono (wp_normalizeOutput_used h ⟨previousOutcomes, ms,
        List.mem_append_left _ hmem⟩) ?_
      rintro (_ | report) past' ⟨h, hdelivered⟩
      · change wp (Uses input) (addGovernorRecordDegradation input .recordFailure degradations >>= _)
          (ShowsSlotError input) _
        rw [wp_bind]
        refine wp_mono (wp_record_shown h _) ?_
        rintro degradations past' ⟨h, _⟩
        exact wp_settleFramework_shown h _
      · exact wp_settleReport_used h (hdelivered report rfl)

theorem wp_settleUnfinished_shown (h : Slotted input slot degradations past)
    (primary : RuntimeDegradation) :
    wp (Uses input) (settleUnfinished input primary degradations) (ShowsSlotError input) past := by
  rw [settleUnfinished, wp_bind]
  refine wp_mono (wp_record_shown h _) ?_
  rintro degradations past' ⟨h, _⟩
  refine wp_calm rfl fun fired => ?_
  cases fired with
  | true => exact wp_settleFramework_shown (h.calm rfl _) _
  | false => exact wp_settleFramework_shown (h.calm rfl _) _

theorem wp_runProvider_used (h : Slotted input slot degradations past) (governorTimeoutMs : Value) :
    wp (Uses input) (runProvider input slot governorTimeoutMs degradations) (ShowsSlotError input)
      past := by
  refine wp_calm rfl fun answer => ?_
  have h : Slotted input slot degradations (past ++ [⟨.enrich input.previousOutcomes
      (effectiveTimeoutMs input.enricher.timeoutMs governorTimeoutMs), some answer⟩]) :=
    h.calm rfl _
  cases answer with
  | value output =>
      exact wp_settleOutput_used h
        ⟨_, _, List.mem_append_right _ (List.mem_singleton_self _)⟩
  | threw => exact wp_settleUnfinished_shown h _
  | timedOut => exact wp_settleUnfinished_shown h _

theorem wp_consultGovernor_shown (h : Slotted input slot degradations past) :
    wp (Uses input) (consultGovernor input)
      (fun _ past' => Slotted input slot degradations past') past := by
  rw [consultGovernor]
  by_cases hgov : input.hasGovernor = true
  · rw [if_pos hgov]
    refine wp_calm rfl fun answer => ?_
    cases answer with
    | threw => exact h.calm rfl _
    | value decision =>
        have h : Slotted input slot degradations
            (past ++ [⟨.admission input.token, some (Called.value decision)⟩]) := h.calm rfl _
        change wp (Uses input)
          (if (!isGovernorDecision decision) = true then
            .ret (Admission.refused (admitError (some "invalid-decision")))
          else if (!decisionRuns decision) = true then
            .ret (Admission.refused { status := .skipped, code := denialCause decision,
                                      retryable := true, own := isRuntime_denialCause decision })
          else .ret (Admission.run (decision.get (text "timeoutMs")))) _ _
        split
        · exact h
        · split
          · exact h
          · exact h
  · rw [if_neg hgov]
    exact h

theorem wp_runFresh_used (h : Slotted input slot degradations past) :
    wp (Uses input) (runFresh input slot degradations) (ShowsSlotError input) past := by
  rw [runFresh, wp_bind]
  refine wp_mono (wp_consultGovernor_shown h) ?_
  rintro (governorTimeoutMs | primary) past' h
  · exact wp_runProvider_used h governorTimeoutMs
  · exact wp_settleFramework_shown h primary

/-! ### Reading -/

theorem keyAnswered_unique {resolution resolution' : CacheSlotResolution}
    (h : KeyAnswered input past resolution) (h' : KeyAnswered input past resolution') :
    resolution = resolution' := by
  obtain ⟨answer, rest, rfl, rfl⟩ := h
  obtain ⟨answer', rest', hpast, rfl⟩ := h'
  simp only [List.cons.injEq, Event.mk.injEq, heq_eq_eq, true_and] at hpast
  rw [Option.some.inj hpast.1]

/-- A slot is that of a string key, and leaves nothing to report. -/
theorem slot_of_key {staticTtlMs : Option Rat} {answer : Called} {s : CacheSlot}
    (h : (slotOfKey input staticTtlMs answer).slot = some s) :
    (∃ key, answer = .value (.str key) ∧ s = { key := slotKey input key, staticTtlMs }) ∧
      (slotOfKey input staticTtlMs answer).degradation = none := by
  match answer with
  | .threw => cases h
  | .value .null => cases h
  | .value .undefined => cases h
  | .value (.str key) =>
      by_cases hempty : key = []
      · rw [slotOfKey, if_pos hempty] at h
        cases h
      · rw [slotOfKey, if_neg hempty, namespacedSlot] at h ⊢
        split at h
        · cases h
        · rw [if_neg ‹_›]
          exact ⟨⟨key, rfl, (Option.some.inj h).symm⟩, rfl⟩
  | .value (.bool b) => cases h
  | .value (.num n) => cases h
  | .value (.arr items) => cases h
  | .value (.obj fields) => cases h
  | .value .other => cases h

/-- With a slot there was nothing to report about the key. -/
theorem Slotted.clean {s : CacheSlot} (h : Slotted input (some s) degradations past) :
    Slotted input (some s) [] past where
  answered := h.answered
  failed := fun resolution degradation hkey hd => by
    obtain ⟨resolution', hkey', hslot⟩ := h.answered s rfl
    rw [← keyAnswered_unique hkey hkey'] at hslot
    obtain ⟨answer, rest, _, rfl⟩ := hkey
    rw [(slot_of_key hslot).2] at hd
    cases hd

/-- Before the key is asked for nothing is known, and nothing has failed. -/
theorem slotted_unasked (fired : Bool) (degradations : List RuntimeDegradation) :
    Slotted input none degradations [⟨.aborted, some fired⟩] where
  answered := fun s hs => by cases hs
  failed := fun resolution degradation hkey => by
    obtain ⟨answer, rest, hpast, _⟩ := hkey
    cases hpast

theorem wp_resolveSlot_used :
    wp (Uses input) (resolveSlot input)
      (fun resolved past' => Slotted input resolved.1 resolved.2 past')
      [⟨.aborted, some false⟩] := by
  rw [resolveSlot]
  by_cases hcache : input.hasCache = true
  · rw [if_pos hcache, cacheSlotFor]
    cases hkeyless : keylessSlot input with
    | some resolution =>
        have hslot := slot_of_keyless hkeyless
        change Slotted input resolution.slot resolution.degradation.toList _
        rw [hslot]
        exact slotted_unasked false _
    | none =>
        have hneeds : needsKey input = true := by simp [needsKey, hcache, hkeyless]
        refine wp_recorded (fun _ => ⟨rfl, hneeds⟩) fun answer => ?_
        have hkey : KeyAnswered input [⟨.aborted, some false⟩, ⟨.cacheKey, some answer⟩]
            (slotOfKey input (staticTtl input) answer) := ⟨answer, [], rfl, rfl⟩
        refine ⟨fun s hs => ⟨_, hkey, hs⟩, fun resolution degradation hkey' hd => ?_⟩
        rw [keyAnswered_unique hkey' hkey, staticTtl] at hd
        simp [hd]
  · rw [if_neg hcache]
    exact slotted_unasked false []

/-- What a cache read leaves behind. -/
def ReadUsed (input : RunnerInput) (slot : Option CacheSlot) (read : CacheRead)
    (past : List RunnerEvent) : Prop :=
  match read with
  | .aborted => Slotted input slot [] past
  | .hit _ degradations => Slotted input slot degradations past
  | .miss degradations => Slotted input slot degradations past

theorem wp_cacheReadTimedOut_used {s : CacheSlot}
    (h : Slotted input (some s) degradations past) :
    wp (Uses input) (cacheReadTimedOut degradations) (ReadUsed input (some s)) past := by
  refine wp_calm rfl fun fired => ?_
  have h : Slotted input (some s) degradations (past ++ [⟨.aborted, some fired⟩]) := h.calm rfl _
  cases fired with
  | true => exact h.clean
  | false => exact h.append _

theorem wp_readCache_used (h : Slotted input slot degradations past) :
    wp (Uses input) (readCache input slot degradations) (ReadUsed input slot) past := by
  cases slot with
  | none => exact h
  | some s =>
      refine wp_calm rfl fun fired => ?_
      have h : Slotted input (some s) degradations (past ++ [⟨.aborted, some fired⟩]) :=
        h.calm rfl _
      cases fired with
      | true => exact wp_cacheReadTimedOut_used h
      | false =>
          obtain ⟨resolution, hkey, hslot⟩ := h.answered s rfl
          refine wp_recorded (fun _ => ⟨resolution, s, hkey, hslot, rfl⟩) fun answer => ?_
          have h := h.snoc (e := ⟨.cacheGet s.key
            (effectiveTimeoutMs input.enricher.timeoutMs .undefined), some answer⟩) (by simp)
          cases answer with
          | value cached =>
              change wp (Uses input)
                (if cached.isUndefined then .ret (.miss degradations)
                  else .ret (.hit cached degradations)) (ReadUsed input (some s)) _
              split
              · exact h
              · exact h
          | threw => exact h.append _
          | timedOut => exact wp_cacheReadTimedOut_used h

theorem wp_serveCached_shown (h : Slotted input slot degradations past) (cached : Value) :
    wp (Uses input) (serveCached input cached degradations) (ShowsSlotError input) past := by
  rw [serveCached]
  cases normalizeCachedReport input.enricher cached with
  | error e => exact fun run hrun => by cases hrun
  | ok report =>
      cases report with
      | none => exact wp_settleFramework_shown h _
      | some report => exact wp_settleWith_shown h _

/-- Every run uses its cache as allowed and shows what went wrong with its slot. -/
theorem wp_runEnricher_used :
    wp (Uses input) (runEnricher input) (ShowsSlotError input) [] := by
  refine wp_calm rfl fun fired => ?_
  cases fired with
  | true =>
      exact wp_settleFramework_shown (slotted_unasked true []) skippedAborted
  | false =>
      change wp (Uses input) (resolveSlot input >>= _) (ShowsSlotError input) [⟨.aborted, some false⟩]
      rw [wp_bind]
      refine wp_mono wp_resolveSlot_used ?_
      rintro ⟨slot, degradations⟩ past h
      simp only []
      rw [wp_bind]
      refine wp_mono (wp_readCache_used h) ?_
      rintro (_ | ⟨cached, degradations⟩ | degradations) past h
      · exact wp_settleFramework_shown h _
      · exact wp_serveCached_shown h cached
      · exact wp_runFresh_used h

/-- The cache operations of a run, each with the past that allows it. -/
theorem uses_of_run {trace : List RunnerEvent} {result : Option (Except Thrown EnricherRun)}
    (run : Runs (runEnricher input) trace result) :
    (∀ before e after, trace = before ++ e :: after → UseAllowed input before e) ∧
      ∀ r, result = some r → ShowsSlotError input r trace := by
  obtain ⟨past', hfollows, hpost⟩ := run.follows wp_runEnricher_used
  obtain ⟨hpast, hallowed⟩ := hfollows.recorded
  rw [List.nil_append] at hpast
  exact ⟨by simpa using hallowed, hpast ▸ hpost⟩

end

end Linklint
