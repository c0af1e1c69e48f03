import Linklint.Inspect
import Linklint.Lib.StableSort

/-!
# Failure isolation on the parsed path

A check that throws costs itself only: the verdict is that of the run in which
it found nothing, and the skip list gains its token. The policy channel never
moves the score.
-/

namespace Linklint

variable (P : Platform) (bodies : CheckBodies)

/-- The axes that throw on a context, when the channel runs at all. -/
def failedAxes (ctx : InspectionContext) (late : LateOptions) : List PolicyAxis :=
  if late.policyOn then
    (GuardedLoop.run (fun axis => bodies.axis axis ctx) POLICY_AXIS_DESCRIPTORS).2
  else []

def failedDetectors (ctx : InspectionContext) (late : LateOptions) : List CheckDescriptor :=
  (runDetectors bodies ctx late.agentMode).2

/-- One token for each failed scan, each failed due detector and each failed axis. -/
def failureTokens (input : Text) (ctx : InspectionContext) (late : LateOptions) : List Text :=
  ((runScans bodies input ctx.runtime).2 ++ failedDetectors bodies ctx late).map (lexicalToken ·.id)
    ++ (failedAxes bodies ctx late).map (policyToken ·.id)

def nonPolicyReasons (result : InspectResult) : List Reason :=
  result.reasons.filter (fun reason => reason.layer ≠ .policy)

/-- Two option objects that differ in the policy keys only. -/
def AgreeOffPolicy (options options' : HostVal) : Prop :=
  ∀ reader key, key ∉ POLICY_OPTION_KEYS → options.read reader key = options'.read reader key

theorem runScans_quieted (input : Text) (runtime : RuntimeConfig) :
    runScans bodies.quieted input runtime = ((runScans bodies input runtime).1, []) :=
  GuardedLoop.run_quiet _ _

theorem runDetectors_quieted (ctx : InspectionContext) (agentMode : Bool) :
    runDetectors bodies.quieted ctx agentMode = ((runDetectors bodies ctx agentMode).1, []) :=
  GuardedLoop.run_quiet _ _

theorem runPolicy_quieted (ctx : InspectionContext) :
    runPolicy bodies.quieted ctx = ⟨(runPolicy bodies ctx).findings, [], true⟩ := by
  have h := GuardedLoop.run_quiet (fun axis => bodies.axis axis ctx) POLICY_AXIS_DESCRIPTORS
  unfold runPolicy
  change PolicyOutcome.mk (GuardedLoop.run (GuardedLoop.quiet _) _).1 _ _ = _
  rw [show (fun axis => bodies.quieted.axis axis ctx)
    = GuardedLoop.quiet (fun axis => bodies.axis axis ctx) from rfl, h]
  rfl

/-- The channel counts as run when one axis completes. -/
theorem runPolicy_anyAxisRan (ctx : InspectionContext) :
    (runPolicy bodies ctx).anyAxisRan = true
      ↔ ∃ axis ∈ POLICY_AXIS_DESCRIPTORS, GuardedLoop.failed (bodies.axis axis ctx) = false := by
  simp only [runPolicy, decide_eq_true_eq, GuardedLoop.run_snd]
  constructor
  · intro hlt
    by_contra hnone
    push Not at hnone
    have hall : POLICY_AXIS_DESCRIPTORS.filter (fun axis => GuardedLoop.failed (bodies.axis axis ctx))
        = POLICY_AXIS_DESCRIPTORS :=
      List.filter_eq_self.mpr (fun axis haxis => by simpa using hnone axis haxis)
    rw [hall] at hlt
    exact lt_irrefl _ hlt
  · rintro ⟨axis, haxis, hok⟩
    refine lt_of_le_of_ne (List.length_filter_le ..) ?_
    intro heq
    have := (List.length_filter_eq_length_iff.mp heq) axis haxis
    simp [hok] at this

theorem policyConfigured_of_late {options : HostVal} {late : LateOptions}
    (h : readLateOptions options = .ok late) : policyConfigured options = .ok late.policyOn := by
  simp only [readLateOptions, bind_eq_ok, pure_eq_ok] at h
  obtain ⟨agent, -, policyOn, hpolicy, suppressOn, -, rfl⟩ := h
  exact hpolicy

theorem inspectParsed_checksSkipped (ctx : InspectionContext) (input : Text)
    (optionSkipped : List Text) (late : LateOptions) :
    (inspectParsed P bodies ctx (runScans bodies input ctx.runtime) optionSkipped late).checksSkipped
      = optionSkipped ++ failureTokens bodies input ctx late ++ [RESOLUTION, REPUTATION] := by
  unfold inspectParsed buildOkResult failureTokens failedDetectors failedAxes
  cases h : late.policyOn with
  | false => simp
  | true => simp [runPolicy]

/-- Verdict fields see the findings of the run, never its failures. -/
theorem inspectParsed_quieted (ctx : InspectionContext) (input : Text)
    (optionSkipped : List Text) (late : LateOptions) :
    let result := inspectParsed P bodies ctx (runScans bodies input ctx.runtime) optionSkipped late
    let quiet := inspectParsed P bodies.quieted ctx (runScans bodies.quieted input ctx.runtime)
      optionSkipped late
    result.reasons = quiet.reasons ∧ result.confusables = quiet.confusables
      ∧ result.score = quiet.score ∧ result.severity = quiet.severity
      ∧ quiet.checksSkipped = optionSkipped ++ [RESOLUTION, REPUTATION] := by
  unfold inspectParsed buildOkResult
  rw [runScans_quieted, runDetectors_quieted, runPolicy_quieted]
  cases late.policyOn <;> simp

theorem lexicalToken_injective : Function.Injective lexicalToken := by
  intro a b h
  exact ((namespacedToken_inj (by decide) (by decide)).mp h).2

theorem policyToken_injective : Function.Injective policyToken := by
  intro a b h
  exact ((namespacedToken_inj (by decide) (by decide)).mp h).2

theorem lexicalToken_ne_policyToken (a b : Text) : lexicalToken a ≠ policyToken b := by
  intro h
  exact absurd ((namespacedToken_inj (by decide) (by decide)).mp h).1 (by decide)

theorem failedChecks_sublist (input : Text) (ctx : InspectionContext) (late : LateOptions) :
    List.Sublist ((runScans bodies input ctx.runtime).2 ++ failedDetectors bodies ctx late)
      (STRUCTURAL_SCANS ++ DETECTORS) := by
  refine List.Sublist.append ?_ ?_
  · rw [runScans, GuardedLoop.run_snd]
    exact List.filter_sublist
  · rw [failedDetectors, runDetectors, GuardedLoop.run_snd]
    exact List.filter_sublist.trans List.filter_sublist

/-- No failure is reported twice and no two failures share a token. -/
theorem failureTokens_nodup (input : Text) (ctx : InspectionContext) (late : LateOptions) :
    (failureTokens bodies input ctx late).Nodup := by
  have hchecks : ((STRUCTURAL_SCANS ++ DETECTORS).map CheckDescriptor.id).Nodup := by decide +kernel
  have haxes : (POLICY_AXIS_DESCRIPTORS.map PolicyAxis.id).Nodup := by decide
  have hlexical := (hchecks.sublist
    ((failedChecks_sublist bodies input ctx late).map CheckDescriptor.id)).map lexicalToken_injective
  have hpolicy : ((failedAxes bodies ctx late).map PolicyAxis.id).Nodup := by
    unfold failedAxes
    split
    · rw [GuardedLoop.run_snd]
      exact haxes.sublist (List.filter_sublist.map _)
    · exact List.nodup_nil
  rw [List.map_map] at hlexical
  refine List.nodup_append.mpr ⟨hlexical, ?_, ?_⟩
  · have := hpolicy.map policyToken_injective
    rwa [List.map_map] at this
  · rintro a ha b hb rfl
    obtain ⟨c, -, rfl⟩ := List.mem_map.mp ha
    obtain ⟨axis, -, hb⟩ := List.mem_map.mp hb
    exact lexicalToken_ne_policyToken _ _ hb.symm

theorem mem_failureTokens {input : Text} {ctx : InspectionContext} {late : LateOptions} {token : Text}
    (h : token ∈ failureTokens bodies input ctx late) :
    ∃ space id, token = namespacedToken space id ∧ (space = LEXICAL ∨ space = POLICY) := by
  rcases List.mem_append.mp h with h | h
  · obtain ⟨c, -, rfl⟩ := List.mem_map.mp h
    exact ⟨LEXICAL, c.id, rfl, Or.inl rfl⟩
  · obtain ⟨axis, -, rfl⟩ := List.mem_map.mp h
    exact ⟨POLICY, axis.id, rfl, Or.inr rfl⟩

/-- The tokens a run of the offline checks can report as skipped. -/
theorem mem_checksSkipped_shape {rawOptions : HostVal} {input : Text} {ctx : InspectionContext}
    {late : LateOptions} {token : Text}
    (h : token ∈ intakeTokens rawOptions ++ failureTokens bodies input ctx late
      ++ [RESOLUTION, REPUTATION]) :
    unit ':' ∈ token ∨ token = UNUSABLE_OPTIONS_TOKEN ∨ token = RESOLUTION ∨ token = REPUTATION := by
  simp only [List.mem_append, List.mem_cons, List.not_mem_nil, or_false] at h
  rcases h with (h | h) | h | h
  · rcases mem_intake_skipped h with hbare | ⟨key, rfl⟩
    · exact Or.inr (Or.inl hbare)
    · exact Or.inl (colon_mem_namespacedToken _ _)
  · obtain ⟨space, id, rfl, -⟩ := mem_failureTokens bodies h
    exact Or.inl (colon_mem_namespacedToken _ _)
  · exact Or.inr (Or.inr (Or.inl h))
  · exact Or.inr (Or.inr (Or.inr h))

theorem mem_channelTokens {policyRan agentRan suppressRan : Bool} {token : Text}
    (h : token ∈ channelTokens policyRan agentRan suppressRan) :
    token = LEXICAL ∨ token = POLICY ∧ policyRan = true ∨ token = AGENT ∨ token = SUPPRESSION := by
  cases policyRan <;> cases agentRan <;> cases suppressRan <;> simp [channelTokens] at h ⊢ <;> tauto

theorem policy_mem_channelTokens (policyRan agentRan suppressRan : Bool) :
    POLICY ∈ channelTokens policyRan agentRan suppressRan ↔ policyRan = true := by
  cases policyRan <;> cases agentRan <;> cases suppressRan <;> decide

theorem channelTokens_disjoint {rawOptions : HostVal} {input : Text} {ctx : InspectionContext}
    {late : LateOptions} {policyRan agentRan suppressRan : Bool} {token : Text}
    (hrun : token ∈ channelTokens policyRan agentRan suppressRan)
    (hskip : token ∈ intakeTokens rawOptions ++ failureTokens bodies input ctx late
      ++ [RESOLUTION, REPUTATION]) : False := by
  rcases mem_channelTokens hrun with rfl | ⟨rfl, -⟩ | rfl | rfl <;>
    exact absurd (mem_checksSkipped_shape bodies hskip) (by decide)

section Policy

theorem toReason_layer_policy {axis : PolicyAxis} {finding : CollectedFinding}
    (h : finding.code ∈ axis.emits) : (toReason finding).layer = .policy :=
  PolicyAxis.emits_policy h

theorem runPolicy_emits {bodies : CheckBodies} (haxes : bodies.AxesEmitDeclared)
    (ctx : InspectionContext) :
    ∀ finding ∈ (runPolicy bodies ctx).findings, ∃ axis : PolicyAxis, finding.code ∈ axis.emits := by
  intro finding h
  obtain ⟨axis, -, hfinding⟩ := GuardedLoop.mem_run_fst.mp h
  exact ⟨axis, haxes axis ctx finding hfinding⟩

/-- Reasons of the policy layer change neither the aggregate nor the other reasons. -/
theorem builtReasons_policy (ctx : InspectionContext) (findings policyFindings : List CollectedFinding)
    (h : ∀ finding ∈ policyFindings, ∃ axis : PolicyAxis, finding.code ∈ axis.emits) :
    aggregate (sortReasons (builtReasons P ctx findings policyFindings))
        = aggregate (builtReasons P ctx findings [])
      ∧ (sortReasons (builtReasons P ctx findings policyFindings)).filter (·.layer ≠ .policy)
        = sortReasons ((builtReasons P ctx findings []).filter (·.layer ≠ .policy)) := by
  have hsplit : builtReasons P ctx findings policyFindings
      = builtReasons P ctx findings []
        ++ (policyFindings.map toReason).map
          (suppressReason ctx.runtime.suppressReasons (suppressionHostContext P ctx.registrableDomain)) := by
    simp [builtReasons, applySuppressions_eq_map]
  constructor
  · rw [aggregate_perm (sortReasons_perm _), hsplit, aggregate_append_weightless]
    intro reason hreason
    simp only [List.mem_map] at hreason
    obtain ⟨_, ⟨finding, hfinding, rfl⟩, rfl⟩ := hreason
    obtain ⟨axis, haxis⟩ := h finding hfinding
    rcases suppressReason_weight ctx.runtime.suppressReasons
      (suppressionHostContext P ctx.registrableDomain) (toReason finding) with hw | hw
    · exact hw
    · rw [hw]
      exact weightFor_of_policy (PolicyAxis.emits_policy haxis)
  · rw [sortReasons, StableSort.filter_insertionSort, ← sortReasons, hsplit, List.filter_append]
    have hnone : ((policyFindings.map toReason).map (suppressReason ctx.runtime.suppressReasons
        (suppressionHostContext P ctx.registrableDomain))).filter (·.layer ≠ .policy) = [] := by
      rw [List.filter_eq_nil_iff]
      intro reason hreason
      simp only [List.mem_map] at hreason
      obtain ⟨_, ⟨finding, hfinding, rfl⟩, rfl⟩ := hreason
      obtain ⟨axis, haxis⟩ := h finding hfinding
      simp [toReason_layer_policy haxis]
    rw [hnone, List.append_nil]

/-- Off the policy keys two agreeing options normalize alike. -/
theorem runtime_of_agree {options options' : HostVal} (h : AgreeOffPolicy options options')
    {runtime runtime' : RuntimeConfig} (hr : normalizeOptions P options = .ok runtime)
    (hr' : normalizeOptions P options' = .ok runtime') :
    runtime' = { runtime with policy := runtime'.policy } := by
  obtain ⟨raw, idn, list, norm, rules, sup, policy, hraw, hidn, hlist, hnorm, hrules, hsup, -, rfl⟩ :=
    (normalizeOptions_eq_ok P).mp hr
  obtain ⟨raw', idn', list', norm', rules', sup', policy', hraw', hidn', hlist', hnorm', hrules',
    hsup', -, rfl⟩ := (normalizeOptions_eq_ok P).mp hr'
  rw [← h .normalize _ (by decide), hraw] at hraw'
  rw [← h .normalize _ (by decide), hidn] at hidn'
  rw [← h .normalize _ (by decide), hlist] at hlist'
  rw [← h .normalize _ (by decide), hrules] at hrules'
  cases hraw'
  cases hidn'
  cases hlist'
  cases hrules'
  rw [hnorm] at hnorm'
  rw [hsup] at hsup'
  cases hnorm'
  cases hsup'
  rfl

theorem agentMode_of_agree {options options' : HostVal} (h : AgreeOffPolicy options options')
    {late late' : LateOptions} (hl : readLateOptions options = .ok late)
    (hl' : readLateOptions options' = .ok late') : late'.agentMode = late.agentMode := by
  simp only [readLateOptions, bind_eq_ok, pure_eq_ok] at hl hl'
  obtain ⟨agent, hagent, _, -, _, -, rfl⟩ := hl
  obtain ⟨agent', hagent', _, -, _, -, rfl⟩ := hl'
  rw [← h .agentMode _ (by decide), hagent] at hagent'
  cases hagent'
  rfl

/-- Scans and detectors answer the same under another policy. -/
theorem findings_of_policyBlind {bodies : CheckBodies} (hblind : bodies.PolicyBlind) (input : Text)
    (ctx : InspectionContext) (policy : PolicyRuntimeConfig) (agentMode : Bool) :
    runScans bodies input { ctx.runtime with policy } = runScans bodies input ctx.runtime
      ∧ runDetectors bodies { ctx with runtime := { ctx.runtime with policy } } agentMode
        = runDetectors bodies ctx agentMode :=
  ⟨GuardedLoop.run_congr fun c _ => hblind.scan c (scanContext input ctx.runtime) policy,
    GuardedLoop.run_congr fun c _ => hblind.detector c ctx policy⟩

end Policy

/-- What the failures of the checks cost a run on a parsed input, against the run in which the
failing checks return no findings. -/
structure Isolated (rawOptions : HostVal) (input : Text) (ctx : InspectionContext)
    (late : LateOptions) (result quiet : InspectResult) : Prop where
  status : result.status = .ok
  reasons : result.reasons = quiet.reasons
  confusables : result.confusables = quiet.confusables
  score : result.score = quiet.score
  severity : result.severity = quiet.severity
  gained : result.checksSkipped.Perm (failureTokens bodies input ctx late ++ quiet.checksSkipped)
  gained_once : (failureTokens bodies input ctx late).Nodup
  gained_new : ∀ token ∈ failureTokens bodies input ctx late, token ∉ quiet.checksSkipped
  policy_run : POLICY ∈ result.checksRun ↔
    policyConfigured (effectiveOptions rawOptions) = .ok true ∧
      ∃ axis ∈ POLICY_AXIS_DESCRIPTORS, GuardedLoop.failed (bodies.axis axis ctx) = false
  disjoint : ∀ token ∈ result.checksRun, token ∉ result.checksSkipped

theorem inspectParsed_isolated {rawOptions : HostVal} {input : Text} (ctx : InspectionContext)
    {late : LateOptions} (hlate : readLateOptions (effectiveOptions rawOptions) = .ok late) :
    Isolated bodies rawOptions input ctx late
      (inspectParsed P bodies ctx (runScans bodies input ctx.runtime) (intakeTokens rawOptions) late)
      (inspectParsed P bodies.quieted ctx (runScans bodies.quieted input ctx.runtime)
        (intakeTokens rawOptions) late) := by
  obtain ⟨hreasons, hconfusables, hscore, hseverity, hquiet⟩ :=
    inspectParsed_quieted P bodies ctx input (intakeTokens rawOptions) late
  have hskipped := inspectParsed_checksSkipped P bodies ctx input (intakeTokens rawOptions) late
  refine ⟨rfl, hreasons, hconfusables, hscore, hseverity, ?_, failureTokens_nodup bodies input ctx late,
    ?_, ?_, ?_⟩
  · rw [hskipped, hquiet, ← List.append_assoc]
    exact List.Perm.append_right _ List.perm_append_comm
  · intro token htoken hin
    rw [hquiet] at hin
    obtain ⟨space, id, rfl, hspace⟩ := mem_failureTokens bodies htoken
    simp only [List.mem_append, List.mem_cons, List.not_mem_nil, or_false] at hin
    rcases hin with hin | hin | hin
    · rcases mem_intake_skipped hin with hbare | ⟨key, hkey⟩
      · exact absurd (hbare ▸ colon_mem_namespacedToken space id) (by decide)
      · have hcolon : unit ':' ∉ space := by rcases hspace with rfl | rfl <;> decide
        have := ((namespacedToken_inj hcolon (by decide)).mp hkey).1
        rcases hspace with rfl | rfl <;> exact absurd this (by decide)
    · exact absurd (hin ▸ colon_mem_namespacedToken space id) (by decide)
    · exact absurd (hin ▸ colon_mem_namespacedToken space id) (by decide)
  · rw [policyConfigured_of_late hlate]
    simp only [inspectParsed, buildOkResult, policy_mem_channelTokens, Except.ok.injEq]
    cases late.policyOn with
    | false => simp
    | true => simpa using runPolicy_anyAxisRan bodies ctx
  · intro token hrun hskip
    rw [hskipped] at hskip
    exact channelTokens_disjoint bodies hrun hskip

/-- Policy off or on, with the same other options: the same score, severity and other reasons. -/
theorem inspectParsed_policy_inert {bodies : CheckBodies} (hblind : bodies.PolicyBlind)
    (haxes : bodies.AxesEmitDeclared) (input : Text) (ctx : InspectionContext)
    (policy : PolicyRuntimeConfig) (optionSkipped optionSkipped' : List Text)
    {late late' : LateOptions} (hagent : late'.agentMode = late.agentMode) :
    let result := inspectParsed P bodies ctx (runScans bodies input ctx.runtime) optionSkipped late
    let ctx' := { ctx with runtime := { ctx.runtime with policy } }
    let result' := inspectParsed P bodies ctx' (runScans bodies input ctx'.runtime) optionSkipped' late'
    result'.score = result.score ∧ result'.severity = result.severity
      ∧ nonPolicyReasons result' = nonPolicyReasons result := by
  obtain ⟨hscans, hdetectors⟩ := findings_of_policyBlind hblind input ctx policy late.agentMode
  simp only [inspectParsed, buildOkResult, nonPolicyReasons, hscans, hagent, hdetectors]
  generalize (runScans bodies input ctx.runtime).1 ++ (runDetectors bodies ctx late.agentMode).1 = found
  have hbuilt : ∀ policyFindings,
      builtReasons P { ctx with runtime := { ctx.runtime with policy } } found policyFindings
        = builtReasons P ctx found policyFindings := fun _ => rfl
  have hchannel : ∀ (on : Bool) (c : InspectionContext), ∀ finding ∈
      (if on then runPolicy bodies c
        else { findings := [], skippedAxes := [], anyAxisRan := false } : PolicyOutcome).findings,
      ∃ axis : PolicyAxis, finding.code ∈ axis.emits := by
    intro on c
    cases on
    · simp
    · exact runPolicy_emits haxes c
  obtain ⟨hagg, hfilter⟩ := builtReasons_policy P ctx found _ (hchannel late.policyOn ctx)
  obtain ⟨hagg', hfilter'⟩ := builtReasons_policy P ctx found _
    (hchannel late'.policyOn { ctx with runtime := { ctx.runtime with policy } })
  rw [hbuilt, hagg, hagg', hfilter, hfilter']
  exact ⟨rfl, rfl, rfl⟩

/-- On an input that parses every failing scan, detector or axis is isolated, and the policy
channel is inert. -/
theorem failures_isolated {rawOptions : HostVal}
    (opts : ReadableOptions P (effectiveOptions rawOptions)) (input : Text) (ctx : InspectionContext)
    (hparse : parseInput P input opts.runtime = .ok (some ctx)) :
    ∃ result quiet,
      inspect P bodies (.string input) rawOptions = .ok result ∧
      inspect P bodies.quieted (.string input) rawOptions = .ok quiet ∧
      Isolated bodies rawOptions input ctx opts.late result quiet ∧
      ∀ (rawOptions' : HostVal) (_ : ReadableOptions P (effectiveOptions rawOptions')),
        AgreeOffPolicy (effectiveOptions rawOptions) (effectiveOptions rawOptions') →
        bodies.PolicyBlind → bodies.AxesEmitDeclared →
        ∃ result', inspect P bodies (.string input) rawOptions' = .ok result' ∧
          result'.score = result.score ∧ result'.severity = result.severity ∧
          nonPolicyReasons result' = nonPolicyReasons result := by
  have hruntime := (parseInput_runtime P hparse).1
  refine ⟨_, _, inspect_of_readable P bodies input opts, inspect_of_readable P bodies.quieted input opts,
    ?_, ?_⟩
  · rw [inspectedResult_of_parsed P bodies hparse, inspectedResult_of_parsed P bodies.quieted hparse,
      ← hruntime]
    exact inspectParsed_isolated P bodies ctx opts.late_eq
  · intro rawOptions' opts' hagree hblind haxes
    refine ⟨_, inspect_of_readable P bodies input opts', ?_⟩
    have hruntime' := runtime_of_agree P hagree opts.normalize_eq opts'.normalize_eq
    have hagent := agentMode_of_agree hagree opts.late_eq opts'.late_eq
    have hparse' : parseInput P input opts'.runtime
        = .ok (some { ctx with runtime := { ctx.runtime with policy := opts'.runtime.policy } }) := by
      rw [parseInput_withRuntime P input opts.runtime, hparse, hruntime, ← hruntime']
      rfl
    rw [inspectedResult_of_parsed P bodies hparse, inspectedResult_of_parsed P bodies hparse',
      hruntime', ← hruntime]
    exact inspectParsed_policy_inert P hblind haxes input ctx opts'.runtime.policy _ _ hagent

/-- One scan, one detector and one axis throw; another detector finds something. -/
def someChecksThrow : CheckBodies where
  scan c _ := if c.id = text "control_char" then .error .thrown else .ok []
  detector c _ :=
    if c.id = text "idn_host" then .error .thrown
    else if c.id = text "userinfo_present" then
      .ok [{ code := .userinfoPresent, detail := text "userinfo" }]
    else .ok []
  axis a _ := if a = .tld then .error .thrown else .ok []

theorem failures_isolated_userinfo : ∃ ctx,
    parseInput .ascii (text "http://user@example.com/") (ReadableOptions.empty .ascii).runtime
      = .ok (some ctx) ∧
    ∃ result quiet,
      inspect .ascii someChecksThrow (.string (text "http://user@example.com/")) .undefined
        = .ok result ∧
      inspect .ascii someChecksThrow.quieted (.string (text "http://user@example.com/")) .undefined
        = .ok quiet ∧
      Isolated someChecksThrow .undefined (text "http://user@example.com/") ctx
        (ReadableOptions.empty .ascii).late result quiet ∧
      ∀ (rawOptions' : HostVal) (_ : ReadableOptions .ascii (effectiveOptions rawOptions')),
        AgreeOffPolicy (effectiveOptions .undefined) (effectiveOptions rawOptions') →
        someChecksThrow.PolicyBlind → someChecksThrow.AxesEmitDeclared →
        ∃ result', inspect .ascii someChecksThrow (.string (text "http://user@example.com/"))
            rawOptions' = .ok result' ∧
          result'.score = result.score ∧ result'.severity = result.severity ∧
          nonPolicyReasons result' = nonPolicyReasons result :=
  ⟨_, rfl, failures_isolated .ascii someChecksThrow (ReadableOptions.empty .ascii) _ _ rfl⟩

end Linklint
