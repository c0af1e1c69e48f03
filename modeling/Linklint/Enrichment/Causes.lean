import Linklint.Enrichment.CacheUse

/-!
# The causes a run reports

Every outcome of the runner's own in a settled report is the outcome of a
degradation, and a degradation that says a bounded call timed out is preceded by
that call timing out. The bound of such a call is the one its source asks for.
-/

namespace Linklint

open Interaction

/-- The calls of a run that are raced against a deadline. -/
inductive BoundedCall where
  | provider
  | cacheRead
  | cacheWrite
deriving DecidableEq

def BoundedCall.of : RunnerOp → Option BoundedCall
  | .enrich _ _ => some .provider
  | .cacheGet _ _ => some .cacheRead
  | .cacheSet _ _ _ _ => some .cacheWrite
  | _ => none

/-- The code a call that timed out is reported with. -/
def BoundedCall.code : BoundedCall → EnrichmentFrameworkCauseCode
  | .provider => .timeout
  | .cacheRead => .cacheReadError
  | .cacheWrite => .cacheWriteError

def BoundedCall.details : BoundedCall → Option Value
  | .provider => none
  | .cacheRead => some (reasonDetails "timeout")
  | .cacheWrite => some (reasonDetails "timeout")

/-- The call a deadline or a signal has cut off. -/
def timedOutCall : RunnerEvent → Option BoundedCall
  | ⟨.enrich _ _, some .timedOut⟩ => some .provider
  | ⟨.cacheGet _ _, some .timedOut⟩ => some .cacheRead
  | ⟨.cacheSet _ _ _ _, some .timedOut⟩ => some .cacheWrite
  | _ => none

/-- The degradation says that the call timed out. -/
def RuntimeDegradation.Blames (degradation : RuntimeDegradation) (call : BoundedCall) : Prop :=
  degradation.code = call.code ∧ degradation.details = call.details

/-- What a degradation blames has happened. -/
def ExplainedBy (past : List RunnerEvent) (degradation : RuntimeDegradation) : Prop :=
  ∀ call, degradation.Blames call →
    (∃ e ∈ past, timedOutCall e = some call) ∨ ⟨.aborted, some true⟩ ∈ past

def Explained (past : List RunnerEvent) (degradations : List RuntimeDegradation) : Prop :=
  ∀ degradation ∈ degradations, ExplainedBy past degradation

/-- The bound of every bounded call is the one in effect. -/
def BoundInEffect (timeoutMs : Value) (e : RunnerEvent) : Prop :=
  match e.op with
  | .enrich _ ms => ∃ governorTimeoutMs, ms = effectiveTimeoutMs timeoutMs governorTimeoutMs
  | .cacheGet _ ms => ms = effectiveTimeoutMs timeoutMs .undefined
  | .cacheSet _ _ _ ms => ms = effectiveTimeoutMs timeoutMs .undefined
  | _ => True

def Bounds (input : RunnerInput) : List RunnerEvent → RunnerEvent → List RunnerEvent → Prop :=
  Records fun _ e => BoundInEffect input.enricher.timeoutMs e

/-- The runner's own outcomes among some outcomes are those of explained degradations. -/
def Accounted (input : RunnerInput) (past : List RunnerEvent)
    (outcomes : List (Option EnrichmentOutcome)) : Prop :=
  ∀ outcome, some outcome ∈ outcomes → outcome.provenance.kind = .unavailable →
    ∃ degradation observedAt, ExplainedBy past degradation ∧
      outcome = degradation.outcome input.enricher input.base observedAt

def SettlesAccounted (input : RunnerInput) (result : Except Thrown EnricherRun)
    (past : List RunnerEvent) : Prop :=
  ∀ run, result = .ok run → Accounted input past run.report.outcomes

section
variable {input : RunnerInput} {degradations : List RuntimeDegradation}
  {past past' : List RunnerEvent}

theorem ExplainedBy.grow {degradation : RuntimeDegradation} (h : ExplainedBy past degradation)
    (hgrow : ∀ e ∈ past, e ∈ past') : ExplainedBy past' degradation := by
  intro call hblames
  rcases h call hblames with ⟨e, he, hcall⟩ | hfired
  · exact Or.inl ⟨e, hgrow e he, hcall⟩
  · exact Or.inr (hgrow _ hfired)

theorem Explained.snoc (h : Explained past degradations) (e : RunnerEvent) :
    Explained (past ++ [e]) degradations :=
  fun degradation hmem => (h degradation hmem).grow fun _ he => List.mem_append_left _ he

theorem Explained.append {more : List RuntimeDegradation} (h : Explained past degradations)
    (hmore : Explained past more) : Explained past (degradations ++ more) := by
  intro degradation hmem
  rcases List.mem_append.mp hmem with hmem | hmem
  · exact h degradation hmem
  · exact hmore degradation hmem

theorem Accounted.grow {outcomes : List (Option EnrichmentOutcome)}
    (h : Accounted input past outcomes) (hgrow : ∀ e ∈ past, e ∈ past') :
    Accounted input past' outcomes := by
  intro outcome hmem hkind
  obtain ⟨degradation, observedAt, hexplained, houtcome⟩ := h outcome hmem hkind
  exact ⟨degradation, observedAt, hexplained.grow hgrow, houtcome⟩

def isBlamingCode (code : EnrichmentFrameworkCauseCode) : Bool :=
  code = .timeout || code = .cacheReadError || code = .cacheWriteError

/-- A degradation whose code is no bounded call's blames none. -/
theorem explainedBy_of_code {degradation : RuntimeDegradation}
    (h : isBlamingCode degradation.code = false) : ExplainedBy past degradation := by
  rintro call ⟨hcode, -⟩
  rw [hcode] at h
  cases call <;> cases h

theorem wp_bounded {α : Type} {op : RunnerOp} {rest : RunnerAns op → RunnerProg α}
    {post : α → List RunnerEvent → Prop}
    (hbound : ∀ answer, BoundInEffect input.enricher.timeoutMs ⟨op, answer⟩)
    (h : ∀ answer, wp (Bounds input) (rest answer) post (past ++ [⟨op, some answer⟩])) :
    wp (Bounds input) (.call op rest) post past :=
  wp_recorded hbound h

/-! ### Settling -/

theorem wp_degradationOutcomes_accounted (h : Explained past degradations) :
    wp (Bounds input) (degradationOutcomes input degradations)
      (fun outcomes past' => Accounted input past' outcomes ∧ ∀ e ∈ past, e ∈ past') past := by
  induction degradations generalizing past with
  | nil =>
      refine ⟨?_, fun e he => he⟩
      intro outcome hmem
      cases hmem
  | cons degradation rest ih =>
      refine wp_bounded (fun _ => trivial) fun observedAt => ?_
      change wp (Bounds input) (degradationOutcomes input rest >>= _) _ _
      rw [wp_bind]
      have hrest : Explained (past ++ [⟨.clock, some observedAt⟩]) rest :=
        Explained.snoc (fun d hd => h d (List.mem_cons_of_mem _ hd)) _
      refine wp_mono (ih hrest) ?_
      rintro outcomes past' ⟨haccounted, hgrow⟩
      have hpast : ∀ e ∈ past, e ∈ past' := fun e he => hgrow e (List.mem_append_left _ he)
      refine ⟨fun outcome hmem hkind => ?_, hpast⟩
      rcases List.mem_append.mp hmem with hhead | htail
      · have houtcome := Option.some.inj (List.mem_singleton.mp hhead)
        exact ⟨degradation, observedAt, (h degradation List.mem_cons_self).grow hpast, houtcome⟩
      · exact haccounted outcome htail hkind

theorem wp_settleWith_accounted {report : EnrichmentReport} (h : Explained past degradations)
    (hreport : Accounted input past report.outcomes) :
    wp (Bounds input) (settleWith input report degradations) (SettlesAccounted input) past := by
  simp only [settleWith, withDegradations]
  rw [wp_bind, wp_bind]
  refine wp_mono (wp_degradationOutcomes_accounted h) ?_
  rintro outcomes past' ⟨haccounted, hgrow⟩ run ⟨rfl⟩ outcome hmem hkind
  rcases List.mem_append.mp hmem with hreported | hdegraded
  · exact hreport.grow hgrow outcome hreported hkind
  · exact haccounted outcome hdegraded hkind

theorem wp_settleFramework_accounted {primary : RuntimeDegradation}
    (h : Explained past degradations) (hprimary : ExplainedBy past primary) :
    wp (Bounds input) (settleFramework input primary degradations) (SettlesAccounted input)
      past := by
  refine wp_bounded (fun _ => trivial) fun observedAt => ?_
  refine wp_settleWith_accounted (h.snoc _) fun outcome hmem hkind => ?_
  have houtcome := Option.some.inj (List.mem_singleton.mp hmem)
  exact ⟨primary, observedAt, hprimary.grow fun e he => List.mem_append_left _ he, houtcome⟩

theorem wp_record_explained (h : Explained past degradations) (operation : GovernorRecord) :
    wp (Bounds input) (addGovernorRecordDegradation input operation degradations)
      (fun degradations' past' => Explained past' degradations' ∧ ∀ e ∈ past, e ∈ past') past := by
  have hgrow (e : RunnerEvent) : ∀ e' ∈ past, e' ∈ past ++ [e] :=
    fun e' he => List.mem_append_left _ he
  have herror (past : List RunnerEvent) : Explained past
      [{ status := .failure, code := .governorError, retryable := true,
         details := some (.obj [(text "operation", .str operation.name)]) }] := by
    intro degradation hmem
    obtain rfl := List.mem_singleton.mp hmem
    exact explainedBy_of_code rfl
  rw [addGovernorRecordDegradation]
  by_cases hgov : input.hasGovernor = true
  · rw [if_pos hgov]
    cases operation with
    | recordSuccess =>
        refine wp_bounded (fun _ => trivial) fun answer => ?_
        cases answer with
        | value v => exact ⟨h.snoc _, hgrow _⟩
        | threw => exact ⟨(h.snoc _).append (herror _), hgrow _⟩
    | recordFailure =>
        refine wp_bounded (fun _ => trivial) fun answer => ?_
        cases answer with
        | value v => exact ⟨h.snoc _, hgrow _⟩
        | threw => exact ⟨(h.snoc _).append (herror _), hgrow _⟩
  · rw [if_neg hgov]
    exact ⟨h, fun e he => he⟩

/-! ### Cache -/

theorem wp_cacheTtlFor_explained (report : Value) (staticTtlMs : Option Rat)
    (h : Explained past degradations) :
    wp (Bounds input) (cacheTtlFor input report staticTtlMs) (fun ttl past' =>
      Explained past' (degradations ++ ttl.degradation.toList) ∧ ∀ e ∈ past, e ∈ past') past := by
  have herror (past : List RunnerEvent) (reason : String) :
      Explained past (ttlDegradation reason).degradation.toList := by
    intro degradation hmem
    obtain rfl := List.mem_singleton.mp hmem
    exact explainedBy_of_code rfl
  rw [cacheTtlFor]
  by_cases hresolver : input.enricher.cacheTtlMsFor = some true
  · rw [if_pos hresolver]
    refine wp_bounded (fun _ => trivial) fun answer => ?_
    cases answer with
    | threw => exact ⟨(h.snoc _).append (herror _ _), fun e he => List.mem_append_left _ he⟩
    | value candidate =>
        refine ⟨(h.snoc _).append ?_, fun e he => List.mem_append_left _ he⟩
        cases candidate with
        | undefined => exact fun degradation hmem => by cases hmem
        | null => exact fun degradation hmem => by cases hmem
        | num n => exact fun degradation hmem => by cases hmem
        | _ => exact herror _ _
  · rw [if_neg hresolver]
    exact ⟨h.append (fun degradation hmem => by cases hmem), fun e he => he⟩

/-- A write that a deadline or a signal has cut off. -/
theorem wp_cacheWriteTimedOut_explained (h : Explained past degradations)
    (hcut : (∃ e ∈ past, timedOutCall e = some .cacheWrite) ∨ ⟨.aborted, some true⟩ ∈ past) :
    wp (Bounds input) (cacheWriteTimedOut degradations)
      (fun degradations' past' => Explained past' degradations' ∧ ∀ e ∈ past, e ∈ past') past := by
  refine wp_bounded (fun _ => trivial) fun fired => ?_
  refine ⟨(h.snoc _).append fun degradation hmem => ?_, fun e he => List.mem_append_left _ he⟩
  obtain rfl := List.mem_singleton.mp hmem
  rintro call ⟨hcode, -⟩
  cases call with
  | provider => cases hcode
  | cacheRead => cases hcode
  | cacheWrite =>
      rcases hcut with ⟨e, he, hcall⟩ | hfired
      · exact Or.inl ⟨e, List.mem_append_left _ he, hcall⟩
      · exact Or.inr (List.mem_append_left _ hfired)

theorem wp_writeCache_explained (slot : CacheSlot) (report : Value)
    (h : Explained past degradations) :
    wp (Bounds input) (writeCache input slot report degradations)
      (fun degradations' past' => Explained past' degradations' ∧ ∀ e ∈ past, e ∈ past') past := by
  rw [writeCache, wp_bind]
  refine wp_mono (wp_cacheTtlFor_explained report slot.staticTtlMs h) ?_
  rintro ttl past₁ ⟨h, hgrow₁⟩
  cases hms : ttl.ttlMs with
  | none => exact ⟨h, hgrow₁⟩
  | some ttlMs =>
      refine wp_bounded (fun _ => trivial) fun fired => ?_
      have hfired (fired : Bool) : ∀ e ∈ past, e ∈ past₁ ++ [⟨.aborted, some fired⟩] :=
        fun e he => List.mem_append_left _ (hgrow₁ e he)
      cases fired with
      | true =>
          refine wp_mono (wp_cacheWriteTimedOut_explained (h.snoc _) (Or.inr ?_)) ?_
          · exact List.mem_append_right _ (List.mem_singleton_self _)
          · rintro degradations' past' ⟨h, hgrow⟩
            exact ⟨h, fun e he => hgrow e (hfired true e he)⟩
      | false =>
          refine wp_bounded (fun _ => rfl) fun answer => ?_
          have hset : ∀ e ∈ past, e ∈ past₁ ++ [⟨.aborted, some false⟩] ++
              [⟨.cacheSet slot.key (cloneEnrichmentReport report) ttlMs
                (effectiveTimeoutMs input.enricher.timeoutMs .undefined), some answer⟩] :=
            fun e he => List.mem_append_left _ (hfired false e he)
          cases answer with
          | value v => exact ⟨(h.snoc _).snoc _, hset⟩
          | threw =>
              refine ⟨((h.snoc _).snoc _).append fun degradation hmem => ?_, hset⟩
              obtain rfl := List.mem_singleton.mp hmem
              rintro call ⟨hcode, hdetails⟩
              cases call with
              | provider => cases hcode
              | cacheRead => cases hcode
              | cacheWrite => cases hdetails
          | timedOut =>
              refine wp_mono (wp_cacheWriteTimedOut_explained ((h.snoc _).snoc _) (Or.inl ?_)) ?_
              · exact ⟨_, List.mem_append_right _ (List.mem_singleton_self _), rfl⟩
              · rintro degradations' past' ⟨h, hgrow⟩
                exact ⟨h, fun e he => hgrow e (hset e he)⟩

/-! ### Provider -/

theorem wp_settleReport_accounted {output report : Value} (slot : Option CacheSlot)
    (h : Explained past degradations)
    (hnormalized : Normalized input.enricher input.base output report) :
    wp (Bounds input) (settleReport input slot report degradations) (SettlesAccounted input)
      past := by
  have hreport (past : List RunnerEvent) : Accounted input past (readReport report).outcomes :=
    fun outcome hmem hkind => absurd hkind (available_of_normalized hnormalized hmem)
  rw [settleReport]
  cases outcomesSome isFailure (readReport report).outcomes with
  | error e => exact fun run hrun => by cases hrun
  | ok failed =>
      simp only []
      rw [wp_bind]
      refine wp_mono (wp_record_explained h _) ?_
      rintro degradations past' ⟨h, -⟩
      cases slot with
      | none => exact wp_settleWith_accounted h (hreport _)
      | some s =>
          cases outcomesEvery isCompleted (readReport report).outcomes with
          | error e => exact fun run hrun => by cases hrun
          | ok completed =>
              cases completed with
              | false => exact wp_settleWith_accounted h (hreport _)
              | true =>
                  simp only []
                  rw [wp_bind]
                  refine wp_mono (wp_writeCache_explained s report h) ?_
                  rintro degradations past' ⟨h, -⟩
                  exact wp_settleWith_accounted h (hreport _)

theorem wp_normalizeOutput_explained (h : Explained past degradations) (output : Value) :
    wp (Bounds input) (normalizeOutput input output) (fun report past' =>
      Explained past' degradations ∧
        ∀ r, report = some r → Normalized input.enricher input.base output r) past := by
  rw [normalizeOutput]
  by_cases hflat : isEnricherFindingArray output = true
  · rw [if_pos hflat]
    refine wp_bounded (fun _ => trivial) fun observedAt => ⟨h.snoc _, ?_⟩
    rintro r ⟨rfl⟩
    exact .legacy observedAt hflat
  · rw [if_neg hflat]
    exact ⟨h, fun r hr => .declared (Bool.eq_false_of_not_eq_true hflat) hr⟩

/-- A run that ends in a failed record and an outcome of the runner's own. -/
theorem wp_recordFailure_accounted {primary : RuntimeDegradation} (h : Explained past degradations)
    (hprimary : ExplainedBy past primary) :
    wp (Bounds input) (addGovernorRecordDegradation input .recordFailure degradations >>=
      fun degradations => settleFramework input primary degradations) (SettlesAccounted input)
      past := by
  rw [wp_bind]
  refine wp_mono (wp_record_explained h _) ?_
  rintro degradations past' ⟨h, hgrow⟩
  exact wp_settleFramework_accounted h (hprimary.grow hgrow)

theorem wp_settleOutput_accounted (slot : Option CacheSlot) (output : Value)
    (h : Explained past degradations) :
    wp (Bounds input) (settleOutput input slot output degradations) (SettlesAccounted input)
      past := by
  rw [settleOutput]
  refine wp_bounded (fun _ => trivial) fun fired => ?_
  cases fired with
  | true => exact wp_recordFailure_accounted (h.snoc _) (explainedBy_of_code rfl)
  | false =>
      change wp (Bounds input) (normalizeOutput input output >>= _) (SettlesAccounted input) _
      rw [wp_bind]
      refine wp_mono (wp_normalizeOutput_explained (h.snoc _) output) ?_
      rintro (_ | report) past' ⟨h, hnormalized⟩
      · exact wp_recordFailure_accounted h (explainedBy_of_code rfl)
      · exact wp_settleReport_accounted slot h (hnormalized report rfl)

theorem wp_settleUnfinished_accounted {primary : RuntimeDegradation}
    (h : Explained past degradations) (hprimary : ExplainedBy past primary) :
    wp (Bounds input) (settleUnfinished input primary degradations) (SettlesAccounted input)
      past := by
  rw [settleUnfinished, wp_bind]
  refine wp_mono (wp_record_explained h _) ?_
  rintro degradations past' ⟨h, hgrow⟩
  refine wp_bounded (fun _ => trivial) fun fired => ?_
  cases fired with
  | true => exact wp_settleFramework_accounted (h.snoc _) (explainedBy_of_code rfl)
  | false =>
      refine wp_settleFramework_accounted (h.snoc _) (hprimary.grow fun e he => ?_)
      exact List.mem_append_left _ (hgrow e he)

theorem wp_runProvider_accounted (slot : Option CacheSlot) (governorTimeoutMs : Value)
    (h : Explained past degradations) :
    wp (Bounds input) (runProvider input slot governorTimeoutMs degradations)
      (SettlesAccounted input) past := by
  refine wp_bounded (fun _ => ⟨governorTimeoutMs, rfl⟩) fun answer => ?_
  cases answer with
  | value output => exact wp_settleOutput_accounted slot output (h.snoc _)
  | threw => exact wp_settleUnfinished_accounted (h.snoc _) (explainedBy_of_code rfl)
  | timedOut =>
      refine wp_settleUnfinished_accounted (h.snoc _) ?_
      rintro call ⟨hcode, -⟩
      cases call with
      | provider => exact Or.inl ⟨_, List.mem_append_right _ (List.mem_singleton_self _), rfl⟩
      | cacheRead => cases hcode
      | cacheWrite => cases hcode

theorem isBlamingCode_denialCause (decision : Value) :
    isBlamingCode (denialCause decision) = false := by
  rw [denialCause]
  split
  · rfl
  · split <;> rfl

theorem wp_consultGovernor_explained (h : Explained past degradations) :
    wp (Bounds input) (consultGovernor input) (fun admission past' => Explained past' degradations ∧
      ∀ primary, admission = .refused primary → ExplainedBy past' primary) past := by
  rw [consultGovernor]
  by_cases hgov : input.hasGovernor = true
  · rw [if_pos hgov]
    refine wp_bounded (fun _ => trivial) fun answer => ?_
    cases answer with
    | threw =>
        refine ⟨h.snoc _, ?_⟩
        rintro primary ⟨rfl⟩
        exact explainedBy_of_code rfl
    | value decision =>
        change wp (Bounds input)
          (if (!isGovernorDecision decision) = true then
            .ret (Admission.refused (admitError (some "invalid-decision")))
          else if (!decisionRuns decision) = true then
            .ret (Admission.refused { status := .skipped, code := denialCause decision,
                                      retryable := true, own := isRuntime_denialCause decision })
          else .ret (Admission.run (decision.get (text "timeoutMs")))) _ _
        split
        · refine ⟨h.snoc _, ?_⟩
          rintro primary ⟨rfl⟩
          exact explainedBy_of_code rfl
        · split
          · refine ⟨h.snoc _, ?_⟩
            rintro primary ⟨rfl⟩
            exact explainedBy_of_code (isBlamingCode_denialCause decision)
          · refine ⟨h.snoc _, ?_⟩
            rintro primary ⟨⟩
  · rw [if_neg hgov]
    refine ⟨h, ?_⟩
    rintro primary ⟨⟩

theorem wp_runFresh_accounted (slot : Option CacheSlot) (h : Explained past degradations) :
    wp (Bounds input) (runFresh input slot degradations) (SettlesAccounted input) past := by
  rw [runFresh, wp_bind]
  refine wp_mono (wp_consultGovernor_explained h) ?_
  rintro (governorTimeoutMs | primary) past' ⟨h, hrefused⟩
  · exact wp_runProvider_accounted slot governorTimeoutMs h
  · exact wp_settleFramework_accounted h (hrefused primary rfl)

/-! ### The run -/

theorem explained_nil (past : List RunnerEvent) : Explained past [] := by
  intro degradation hmem
  cases hmem

theorem explained_keyError (past : List RunnerEvent) (degradation : RuntimeDegradation)
    (h : isBlamingCode degradation.code = false) : Explained past [degradation] := by
  intro other hmem
  obtain rfl := List.mem_singleton.mp hmem
  exact explainedBy_of_code h

/-- No slot is lost to a deadline. -/
theorem explained_of_key (staticTtlMs : Option Rat) (answer : Called) (past : List RunnerEvent) :
    Explained past (slotOfKey input staticTtlMs answer).degradation.toList := by
  cases answer with
  | threw => exact explained_keyError past _ rfl
  | value key =>
      cases key with
      | undefined => exact explained_nil past
      | null => exact explained_nil past
      | str key =>
          rw [slotOfKey]
          split
          · exact explained_keyError past _ rfl
          · rw [namespacedSlot]
            split
            · exact explained_keyError past _ rfl
            · exact explained_nil past
      | _ => exact explained_keyError past _ rfl

theorem explained_of_keyless {resolution : CacheSlotResolution}
    (h : keylessSlot input = some resolution) (past : List RunnerEvent) :
    Explained past resolution.degradation.toList := by
  rw [keylessSlot] at h
  split at h
  · cases h
    exact explained_nil past
  · split at h
    · cases h
      exact explained_keyError past _ rfl
    · split at h
      · cases h
        exact explained_nil past
      · cases h

theorem wp_resolveSlot_explained :
    wp (Bounds input) (resolveSlot input) (fun resolved past' => Explained past' resolved.2)
      past := by
  rw [resolveSlot]
  by_cases hcache : input.hasCache = true
  · rw [if_pos hcache, cacheSlotFor]
    cases hkeyless : keylessSlot input with
    | some resolution => exact explained_of_keyless hkeyless past
    | none =>
        refine wp_bounded (fun _ => trivial) fun answer => ?_
        exact explained_of_key _ answer _
  · rw [if_neg hcache]
    exact explained_nil past

def ReadExplained (read : CacheRead) (past : List RunnerEvent) : Prop :=
  match read with
  | .aborted => True
  | .hit _ degradations => Explained past degradations
  | .miss degradations => Explained past degradations

theorem wp_cacheReadTimedOut_explained (h : Explained past degradations)
    (hcut : (∃ e ∈ past, timedOutCall e = some .cacheRead) ∨ ⟨.aborted, some true⟩ ∈ past) :
    wp (Bounds input) (cacheReadTimedOut degradations) ReadExplained past := by
  refine wp_bounded (fun _ => trivial) fun fired => ?_
  cases fired with
  | true => trivial
  | false =>
      refine (h.snoc _).append fun degradation hmem => ?_
      obtain rfl := List.mem_singleton.mp hmem
      rintro call ⟨hcode, -⟩
      cases call with
      | provider => cases hcode
      | cacheWrite => cases hcode
      | cacheRead =>
          rcases hcut with ⟨e, he, hcall⟩ | hfired
          · exact Or.inl ⟨e, List.mem_append_left _ he, hcall⟩
          · exact Or.inr (List.mem_append_left _ hfired)

theorem wp_readCache_explained (slot : Option CacheSlot) (h : Explained past degradations) :
    wp (Bounds input) (readCache input slot degradations) ReadExplained past := by
  cases slot with
  | none => exact h
  | some s =>
      refine wp_bounded (fun _ => trivial) fun fired => ?_
      cases fired with
      | true =>
          refine wp_cacheReadTimedOut_explained (h.snoc _) (Or.inr ?_)
          exact List.mem_append_right _ (List.mem_singleton_self _)
      | false =>
          refine wp_bounded (fun _ => rfl) fun answer => ?_
          cases answer with
          | value cached =>
              change wp (Bounds input)
                (if cached.isUndefined then .ret (.miss degradations)
                  else .ret (.hit cached degradations)) ReadExplained _
              split
              · exact (h.snoc _).snoc _
              · exact (h.snoc _).snoc _
          | threw =>
              refine ((h.snoc _).snoc _).append fun degradation hmem => ?_
              obtain rfl := List.mem_singleton.mp hmem
              rintro call ⟨hcode, hdetails⟩
              cases call with
              | provider => cases hcode
              | cacheRead => cases hdetails
              | cacheWrite => cases hcode
          | timedOut =>
              refine wp_cacheReadTimedOut_explained ((h.snoc _).snoc _) (Or.inl ?_)
              exact ⟨_, List.mem_append_right _ (List.mem_singleton_self _), rfl⟩

theorem wp_serveCached_accounted (cached : Value) (h : Explained past degradations) :
    wp (Bounds input) (serveCached input cached degradations) (SettlesAccounted input) past := by
  rw [serveCached]
  cases hcached : normalizeCachedReport input.enricher cached with
  | error e => exact fun run hrun => by cases hrun
  | ok report =>
      cases report with
      | none => exact wp_settleFramework_accounted h (explainedBy_of_code rfl)
      | some report =>
          refine wp_settleWith_accounted h fun outcome hmem hkind => ?_
          exact absurd hkind ((cached_of_normalized hcached).2 outcome hmem)

theorem wp_runEnricher_accounted :
    wp (Bounds input) (runEnricher input) (SettlesAccounted input) [] := by
  refine wp_bounded (fun _ => trivial) fun fired => ?_
  cases fired with
  | true => exact wp_settleFramework_accounted (explained_nil _) (explainedBy_of_code rfl)
  | false =>
      change wp (Bounds input) (resolveSlot input >>= _) (SettlesAccounted input) _
      rw [wp_bind]
      refine wp_mono wp_resolveSlot_explained ?_
      rintro ⟨slot, degradations⟩ past h
      simp only []
      rw [wp_bind]
      refine wp_mono (wp_readCache_explained slot h) ?_
      rintro (_ | ⟨cached, degradations⟩ | degradations) past h
      · exact wp_settleFramework_accounted (explained_nil _) (explainedBy_of_code rfl)
      · exact wp_serveCached_accounted cached h
      · exact wp_runFresh_accounted slot h

/-- A settled run accounts for every outcome of its own, and bounds every call as its source asks. -/
theorem accounted_of_run {trace : List RunnerEvent} {result : Option (Except Thrown EnricherRun)}
    (run : Runs (runEnricher input) trace result) :
    (∀ e ∈ trace, BoundInEffect input.enricher.timeoutMs e) ∧
      ∀ r, result = some r → SettlesAccounted input r trace := by
  obtain ⟨past', hfollows, hpost⟩ := run.follows wp_runEnricher_accounted
  obtain ⟨hpast, hallowed⟩ := hfollows.recorded
  rw [List.nil_append] at hpast
  subst hpast
  refine ⟨fun e he => ?_, hpost⟩
  obtain ⟨before, after, rfl⟩ := List.append_of_mem he
  exact hallowed before e after rfl

end

end Linklint
