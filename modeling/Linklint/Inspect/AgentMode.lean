import Linklint.Cli.Policy
import Linklint.Inspect
import Linklint.Lib.StableSort

/-!
# Agent mode

The agent channel is an opt-in over the same run: with it on, everything the run
reports without it is still reported, and what is new comes from the agent-gated
checks alone.
-/

namespace Linklint

/-- The options with `agentMode` assigned; a primitive carries no other option. -/
def HostVal.setAgentMode (options : HostVal) (agentMode : Bool) : HostVal :=
  match options with
  | .object elements keys get =>
      .object elements (keys.map fun keys =>
          if text "agentMode" ∈ keys then keys else keys ++ [text "agentMode"])
        fun reader key => if key = text "agentMode" then .ok (.bool agentMode) else get reader key
  | _ => .plain [(text "agentMode", .bool agentMode)]

theorem HostVal.read_setAgentMode (options : HostVal) (agentMode : Bool) (reader : Reader) :
    (options.setAgentMode agentMode).read reader (text "agentMode") = .ok (.bool agentMode) := by
  cases options <;> simp [setAgentMode, read, plain]

theorem HostVal.read_setAgentMode_of_ne (options : HostVal) (agentMode agentMode' : Bool)
    (reader : Reader) {key : Text} (h : key ≠ text "agentMode") :
    (options.setAgentMode agentMode).read reader key
      = (options.setAgentMode agentMode').read reader key := by
  cases options <;> simp [setAgentMode, read, plain, List.lookup_cons, beq_eq_false_iff_ne.mpr h, h]

theorem HostVal.ownKeys_setAgentMode (options : HostVal) (agentMode agentMode' : Bool) :
    (options.setAgentMode agentMode).ownKeys = (options.setAgentMode agentMode').ownKeys := by
  cases options <;> rfl

theorem HostVal.isObject_setAgentMode (options : HostVal) (agentMode : Bool) :
    (options.setAgentMode agentMode).isObject = true := by
  cases options <;> rfl

section
variable (options : HostVal)

/-- No recognized key is dropped, so the assigned one is never reported. -/
theorem isDroppedKey_setAgentMode (agentMode agentMode' : Bool) :
    isDroppedKey (options.setAgentMode agentMode) = isDroppedKey (options.setAgentMode agentMode') := by
  funext key
  unfold isDroppedKey
  by_cases hkey : key = text "agentMode"
  · have hrecognized : RECOGNIZED_OPTION_KEYS.contains key = true := by
      rw [hkey]
      decide
    rw [hrecognized]
    rfl
  · rw [options.read_setAgentMode_of_ne agentMode agentMode' .intake hkey]

theorem unusable_setAgentMode_iff (agentMode agentMode' : Bool) :
    OptionsUnusable (options.setAgentMode agentMode)
      ↔ OptionsUnusable (options.setAgentMode agentMode') := by
  unfold OptionsUnusable
  rw [options.isObject_setAgentMode, options.isObject_setAgentMode,
    options.ownKeys_setAgentMode agentMode agentMode']

theorem intake_skipped_setAgentMode (agentMode agentMode' : Bool) :
    (intakeOptions (options.setAgentMode agentMode)).skipped
      = (intakeOptions (options.setAgentMode agentMode')).skipped := by
  unfold intakeOptions
  rw [options.isObject_setAgentMode, options.isObject_setAgentMode,
    options.ownKeys_setAgentMode agentMode agentMode',
    isDroppedKey_setAgentMode options agentMode agentMode']
  cases (options.setAgentMode agentMode').ownKeys <;> rfl

/-- What the run reads of the options, `agentMode` apart. -/
structure SameReads (left right : HostVal) : Prop where
  read : ∀ reader key, key ≠ text "agentMode" → left.read reader key = right.read reader key

theorem sameReads_setAgentMode (agentMode agentMode' : Bool) :
    SameReads (options.setAgentMode agentMode) (options.setAgentMode agentMode') where
  read reader _ h := options.read_setAgentMode_of_ne agentMode agentMode' reader h

end

section
variable {left right : HostVal} (P : Platform)

theorem SameReads.normalize (h : SameReads left right) :
    normalizeOptions P left = normalizeOptions P right := by
  have hread : ∀ key : String, text key ≠ text "agentMode" →
      left.read .normalize (text key) = right.read .normalize (text key) :=
    fun key => h.read .normalize (text key)
  unfold normalizeOptions normalizePolicyOptions
  rw [hread "maxDecodeDepth" (by decide), hread "idnPolicy" (by decide),
    hread "idnAllowlist" (by decide), hread "suppressReasons" (by decide),
    hread "denyTlds" (by decide), hread "allowTlds" (by decide), hread "denyHosts" (by decide),
    hread "allowHosts" (by decide), hread "denySchemes" (by decide),
    hread "allowSchemes" (by decide), hread "denyPorts" (by decide),
    hread "denyNonStandardPorts" (by decide)]

theorem SameReads.anyConfigured (h : SameReads left right) {keys : List Text}
    (hkeys : text "agentMode" ∉ keys) :
    Linklint.anyConfigured left keys = Linklint.anyConfigured right keys := by
  induction keys with
  | nil => rfl
  | cons key keys ih =>
      obtain ⟨hkey, hrest⟩ := not_or.mp (fun hmem => hkeys (List.mem_cons.mpr hmem))
      simp only [Linklint.anyConfigured]
      rw [h.read .policyConfigured key (Ne.symm hkey), ih hrest]

theorem SameReads.policyConfigured (h : SameReads left right) :
    Linklint.policyConfigured left = Linklint.policyConfigured right :=
  h.anyConfigured (by decide)

theorem SameReads.suppressConfigured (h : SameReads left right) :
    Linklint.suppressConfigured left = Linklint.suppressConfigured right := by
  unfold Linklint.suppressConfigured
  rw [h.read .suppressConfigured (text "suppressReasons") (by decide)]

/-- The late options agree, `agentMode` apart. -/
theorem SameReads.late (h : SameReads left right) {value value' : HostVal}
    (hleft : left.read .agentMode (text "agentMode") = .ok value)
    (hright : right.read .agentMode (text "agentMode") = .ok value') :
    (readLateOptions left = .error .thrown ∧ readLateOptions right = .error .thrown) ∨
      ∃ late : LateOptions, readLateOptions left = .ok { late with agentMode := value.isTrue } ∧
        readLateOptions right = .ok { late with agentMode := value'.isTrue } := by
  unfold readLateOptions
  rw [hleft, hright, h.policyConfigured, h.suppressConfigured]
  cases Linklint.policyConfigured right with
  | error e => exact Or.inl ⟨rfl, rfl⟩
  | ok policyOn =>
      cases Linklint.suppressConfigured right with
      | error e => exact Or.inl ⟨rfl, rfl⟩
      | ok suppressOn => exact Or.inr ⟨⟨value.isTrue, policyOn, suppressOn⟩, rfl, rfl⟩

end

/-! ### What the agent checks add -/

/-- The checks that run in agent mode only. -/
def AGENT_CHECKS : List CheckDescriptor := DETECTORS.filter CheckDescriptor.agentGated

theorem dueDetectors_agent : dueDetectors true = dueDetectors false ++ AGENT_CHECKS := by
  decide

/-- The reason stands for a finding of an agent-gated check. -/
def FromAgentCheck (bodies : CheckBodies) (ctx : InspectionContext) (reason : Reason) : Prop :=
  ∃ detector ∈ AGENT_CHECKS, ∃ finding ∈ GuardedLoop.results (bodies.detector detector ctx),
    reason.code = finding.code ∧ reason.detail = finding.detail

/-- The token of an agent-gated check that threw. -/
def FailedAgentCheck (bodies : CheckBodies) (ctx : InspectionContext) (token : Text) : Prop :=
  ∃ detector ∈ AGENT_CHECKS, GuardedLoop.failed (bodies.detector detector ctx) = true ∧
    token = lexicalToken detector.id

/-- What the agent channel makes of a result. -/
structure ExtendedByAgent (bodies : CheckBodies) (ctx : InspectionContext)
    (off on : InspectResult) : Prop where
  status : off.status = .ok ∧ on.status = .ok
  input : off.input = ctx.input ∧ on.input = ctx.input
  parsed : off.parsed = some ctx.parsed ∧ on.parsed = some ctx.parsed
  reasons : off.reasons.Sublist on.reasons
  added : ∃ added, on.reasons.Perm (off.reasons ++ added) ∧
    ∀ reason ∈ added, FromAgentCheck bodies ctx reason
  score : ∃ p q, off.score = some p ∧ on.score = some q ∧ p ≤ q ∧
    off.severity = some (severityForScore p) ∧ on.severity = some (severityForScore q)
  confusables : off.confusables <+: on.confusables
  checksRun : AGENT ∈ on.checksRun ∧ on.checksRun.filter (· ≠ AGENT) = off.checksRun
  checksSkipped : off.checksSkipped.Sublist on.checksSkipped ∧
    ∀ token ∈ on.checksSkipped, token ∈ off.checksSkipped ∨ FailedAgentCheck bodies ctx token

section
variable (P : Platform) (bodies : CheckBodies) (ctx : InspectionContext)

theorem runDetectors_agent :
    runDetectors bodies ctx true =
      ((runDetectors bodies ctx false).1 ++
          (GuardedLoop.run (fun detector => bodies.detector detector ctx) AGENT_CHECKS).1,
        (runDetectors bodies ctx false).2 ++
          (GuardedLoop.run (fun detector => bodies.detector detector ctx) AGENT_CHECKS).2) := by
  unfold runDetectors
  rw [dueDetectors_agent, GuardedLoop.run_append]

/-- The reasons of the agent findings, as the caller's suppressions leave them. -/
def agentReasons (found : List CollectedFinding) : List Reason :=
  applySuppressions (found.map toReason) ctx.runtime.suppressReasons
    (suppressionHostContext P ctx.registrableDomain)

theorem fromAgentCheck_of_mem {reason : Reason}
    (h : reason ∈ agentReasons P ctx
      (GuardedLoop.run (fun detector => bodies.detector detector ctx) AGENT_CHECKS).1) :
    FromAgentCheck bodies ctx reason := by
  rw [agentReasons, applySuppressions_eq_map] at h
  obtain ⟨_, hbase, rfl⟩ := List.mem_map.mp h
  obtain ⟨finding, hfinding, rfl⟩ := List.mem_map.mp hbase
  obtain ⟨detector, hdetector, hfound⟩ := GuardedLoop.mem_run_fst.mp hfinding
  refine ⟨detector, hdetector, finding, hfound, by simp, ?_⟩
  unfold suppressReason
  split <;> rfl

theorem agentReasons_bounded (found : List CollectedFinding) :
    WeightsBounded (agentReasons P ctx found) := by
  have hbounded := builtReasons_bounded P ctx found []
  rwa [builtReasons, List.append_nil] at hbounded

/-- The reasons with the agent findings are those without, and the agent ones among them. -/
theorem builtReasons_agent (found agentFound policyFindings : List CollectedFinding) :
    (builtReasons P ctx found policyFindings).Sublist
        (builtReasons P ctx (found ++ agentFound) policyFindings) ∧
      (builtReasons P ctx (found ++ agentFound) policyFindings).Perm
        (builtReasons P ctx found policyFindings ++ agentReasons P ctx agentFound) := by
  simp only [builtReasons, agentReasons, applySuppressions_eq_map, List.map_append]
  constructor
  · exact (List.sublist_append_left _ _).append_right _
  · rw [List.append_assoc, List.append_assoc]
    exact List.perm_append_comm.append_left _

theorem channelTokens_agent (policyRan suppressRan : Bool) :
    AGENT ∈ channelTokens policyRan true suppressRan ∧
      (channelTokens policyRan true suppressRan).filter (· ≠ AGENT)
        = channelTokens policyRan false suppressRan := by
  cases policyRan <;> cases suppressRan <;> decide

theorem due_agentGated (agentMode : Bool) :
    (dueDetectors agentMode).any CheckDescriptor.agentGated = agentMode := by
  cases agentMode <;> decide

/-- Agent mode over an input that parsed. -/
theorem inspectParsed_agent (structural : List CollectedFinding × List CheckDescriptor)
    (optionSkipped : List Text) (late : LateOptions) :
    ExtendedByAgent bodies ctx
      (inspectParsed P bodies ctx structural optionSkipped { late with agentMode := false })
      (inspectParsed P bodies ctx structural optionSkipped { late with agentMode := true }) := by
  generalize hpolicy : (if late.policyOn then runPolicy bodies ctx
    else { findings := [], skippedAxes := [], anyAxisRan := false } : PolicyOutcome) = policy
  generalize hfound : structural.1 ++ (runDetectors bodies ctx false).1 = found
  generalize hagent :
    GuardedLoop.run (fun detector => bodies.detector detector ctx) AGENT_CHECKS = agent
  have hfindings : structural.1 ++ (runDetectors bodies ctx true).1 = found ++ agent.1 := by
    rw [runDetectors_agent, hagent, ← hfound, List.append_assoc]
  obtain ⟨hsublist, hperm⟩ := builtReasons_agent P ctx found agent.1 policy.findings
  have hadded : (sortReasons (builtReasons P ctx (found ++ agent.1) policy.findings)).Perm
      (sortReasons (builtReasons P ctx found policy.findings) ++ agentReasons P ctx agent.1) :=
    (sortReasons_perm _).trans (hperm.trans ((sortReasons_perm _).symm.append_right _))
  have hbounded : WeightsBounded (sortReasons (builtReasons P ctx found policy.findings)) :=
    fun reason hreason => builtReasons_bounded P ctx _ _ reason (mem_sortReasons.mp hreason)
  constructor
  · exact ⟨rfl, rfl⟩
  · exact ⟨rfl, rfl⟩
  · exact ⟨rfl, rfl⟩
  · simp only [inspectParsed, buildOkResult, hpolicy, hfindings, hfound]
    exact StableSort.sublist_insertionSort_of_sublist hsublist
  · simp only [inspectParsed, buildOkResult, hpolicy, hfindings, hfound]
    refine ⟨_, hadded, fun reason hreason => ?_⟩
    rw [← hagent] at hreason
    exact fromAgentCheck_of_mem P bodies ctx hreason
  · simp only [inspectParsed, buildOkResult, hpolicy, hfindings, hfound]
    refine ⟨_, _, rfl, rfl, ?_, rfl, rfl⟩
    rw [aggregate_perm hadded]
    exact aggregate_score_append_le hbounded (agentReasons_bounded P ctx _)
  · simp only [inspectParsed, buildOkResult, hfindings, hfound]
    rw [findingConfusables, findingConfusables, List.flatMap_append]
    exact List.prefix_append _ _
  · simp only [inspectParsed, buildOkResult, due_agentGated]
    exact channelTokens_agent _ _
  · simp only [inspectParsed, buildOkResult, hpolicy, runDetectors_agent bodies ctx, hagent]
    constructor
    · refine (List.Sublist.append_right ?_ _).append_right _
      exact ((List.sublist_append_left _ _).map _).append_left _
    · intro token htoken
      simp only [List.map_append, List.mem_append] at htoken ⊢
      rcases htoken with (((hseed | hdetected | hadded) | hpolicies) | hlayers)
      · exact Or.inl (Or.inl (Or.inl (Or.inl hseed)))
      · exact Or.inl (Or.inl (Or.inl (Or.inr hdetected)))
      · obtain ⟨detector, hdetector, rfl⟩ := List.mem_map.mp hadded
        rw [← hagent, GuardedLoop.run_snd] at hdetector
        obtain ⟨hmem, hfailed⟩ := List.mem_filter.mp hdetector
        exact Or.inr ⟨detector, hmem, hfailed, rfl⟩
      · exact Or.inl (Or.inl (Or.inr hpolicies))
      · exact Or.inl (Or.inr hlayers)

/-! ### The two runs -/

/-- The input parsed under the options, with this context. -/
def ParsedAs (input : InputVal) (options : HostVal) (ctx : InspectionContext) : Prop :=
  ∃ s runtime, input = .string s ∧ normalizeOptions P options = .ok runtime ∧
    parseInput P s runtime = .ok (some ctx)

/-- Two runs over the same text, the second in agent mode. -/
structure AgentRuns (input : InputVal) (options : HostVal) (off on : InspectResult) : Prop where
  unparsed : off.status = .invalid → on = off
  parsed : off.status = .ok →
    ∃ ctx, ParsedAs P input options ctx ∧ ExtendedByAgent bodies ctx off on

theorem agentRuns_unparsed {input : InputVal} {options : HostVal} {result : InspectResult}
    (h : result.status = .invalid) : AgentRuns P bodies input options result result where
  unparsed _ := rfl
  parsed hok := by
    rw [hok] at h
    cases h

/-- Agent mode over a text, for options that are read alike. -/
theorem inspectString_agent (s : Text) (skipped : List Text) {left right value value' : HostVal}
    (hreads : SameReads left right)
    (hleft : left.read .agentMode (text "agentMode") = .ok value) (hoff : value.isTrue = false)
    (hright : right.read .agentMode (text "agentMode") = .ok value') (hon : value'.isTrue = true) :
    (inspectString P bodies s ⟨left, skipped⟩ = .error .thrown ∧
        inspectString P bodies s ⟨right, skipped⟩ = .error .thrown) ∨
      ∃ off on, inspectString P bodies s ⟨left, skipped⟩ = .ok off ∧
        inspectString P bodies s ⟨right, skipped⟩ = .ok on ∧
        AgentRuns P bodies (.string s) right off on := by
  simp only [inspectString]
  rw [hreads.normalize P]
  cases hruntime : normalizeOptions P right with
  | error e => exact Or.inl ⟨rfl, rfl⟩
  | ok runtime =>
      simp only [bind, Except.bind]
      cases hparse : parseInput P s runtime with
      | error e => exact Or.inr ⟨_, _, rfl, rfl, agentRuns_unparsed P bodies rfl⟩
      | ok parsed =>
          cases parsed with
          | none => exact Or.inr ⟨_, _, rfl, rfl, agentRuns_unparsed P bodies rfl⟩
          | some ctx =>
              rcases hreads.late hleft hright with ⟨hl, hr⟩ | ⟨late, hl, hr⟩
              · rw [hl, hr]
                exact Or.inl ⟨rfl, rfl⟩
              · rw [hl, hr, hoff, hon]
                refine Or.inr ⟨_, _, rfl, rfl, ⟨(fun hinvalid => by cases hinvalid), fun _ => ?_⟩⟩
                exact ⟨ctx, ⟨s, runtime, rfl, hruntime, hparse⟩,
                  inspectParsed_agent P bodies ctx _ skipped late⟩

/-- The results without and with agent mode. -/
structure AgentModeAdds (input : InputVal) (options : HostVal) (off on : InspectResult) : Prop where
  /-- Without a parsed input, or without usable options, the channel does not open. -/
  closed : off.status = .invalid ∨ OptionsUnusable (options.setAgentMode true) → on = off
  opened : off.status = .ok → ¬ OptionsUnusable (options.setAgentMode true) →
    ∃ ctx, ParsedAs P input (options.setAgentMode true) ctx ∧ ExtendedByAgent bodies ctx off on

theorem agentModeAdds_refl {input : InputVal} {options : HostVal} {result : InspectResult}
    (h : result.status = .invalid ∨ OptionsUnusable (options.setAgentMode true)) :
    AgentModeAdds P bodies input options result result where
  closed _ := rfl
  opened hok husable := by
    rcases h with hinvalid | hunusable
    · rw [hok] at hinvalid
      cases hinvalid
    · exact absurd hunusable husable

theorem optionsArgument_setAgentMode (options : HostVal) (agentMode : Bool) :
    optionsArgument (options.setAgentMode agentMode) = options.setAgentMode agentMode := by
  cases options <;> rfl

/-- Agent mode reports everything that the same run reports without it, never lowers the score, and
owes whatever it adds to the agent-gated checks. -/
theorem agent_mode_adds (input : InputVal) (options : HostVal) :
    (inspect P bodies input (options.setAgentMode false) = .error .thrown ∧
        inspect P bodies input (options.setAgentMode true) = .error .thrown) ∨
      ∃ off on, inspect P bodies input (options.setAgentMode false) = .ok off ∧
        inspect P bodies input (options.setAgentMode true) = .ok on ∧
        AgentModeAdds P bodies input options off on := by
  have hskipped := intake_skipped_setAgentMode options false true
  simp only [inspect, optionsArgument_setAgentMode]
  cases input with
  | nonString typeName asString =>
      refine Or.inr ⟨_, _, rfl, rfl, ?_⟩
      rw [hskipped]
      exact agentModeAdds_refl P bodies (Or.inl rfl)
  | string s =>
      by_cases hunusable : OptionsUnusable (options.setAgentMode true)
      · rw [intakeOptions_of_unusable hunusable,
          intakeOptions_of_unusable ((unusable_setAgentMode_iff options false true).mpr hunusable)]
        cases hresult : inspectString P bodies s ⟨HostVal.empty, [UNUSABLE_OPTIONS_TOKEN]⟩ with
        | error e => exact Or.inl ⟨hresult, hresult⟩
        | ok result =>
            exact Or.inr ⟨_, _, hresult, hresult, agentModeAdds_refl P bodies (Or.inr hunusable)⟩
      · have hon := intakeOptions_options hunusable
        have hoff : (intakeOptions (options.setAgentMode false)).options
            = options.setAgentMode false :=
          intakeOptions_options (mt (unusable_setAgentMode_iff options false true).mp hunusable)
        have hintake : ∀ intake : OptionIntake, intake = ⟨intake.options, intake.skipped⟩ :=
          fun _ => rfl
        rw [hintake (intakeOptions (options.setAgentMode false)), hoff, hskipped,
          hintake (intakeOptions (options.setAgentMode true)), hon]
        rcases inspectString_agent P bodies s
            (intakeOptions (options.setAgentMode true)).skipped
            (sameReads_setAgentMode options false true)
            (options.read_setAgentMode false .agentMode) rfl
            (options.read_setAgentMode true .agentMode) rfl with hthrown | ⟨off, on, hl, hr, hruns⟩
        · exact Or.inl hthrown
        · refine Or.inr ⟨off, on, hl, hr, ?_, fun hok _ => hruns.parsed hok⟩
          rintro (hinvalid | hun)
          · exact hruns.unparsed hinvalid
          · exact absurd hun hunusable

end

end Linklint
