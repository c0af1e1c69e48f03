import Linklint.Detectors.Checks

/-!
# Serializing a result

The registry attaches layer and weight to the collected findings; the two
builders assemble the `invalid` and the `ok` result.
-/

namespace Linklint

def toReason (finding : CollectedFinding) : Reason where
  code := finding.code
  layer := (reasonMeta finding.code).layer
  detail := finding.detail
  weight := weightFor finding.code

def findingConfusables (findings : List CollectedFinding) : List (Option Confusable) :=
  findings.flatMap fun finding => (finding.confusables.getD []).map some

def LEXICAL : Text := text "lexical"
def POLICY : Text := text "policy"
def AGENT : Text := text "agent"
def SUPPRESSION : Text := text "suppression"
def RESOLUTION : Text := text "resolution"
def REPUTATION : Text := text "reputation"

section
variable (P : Platform)

def parseErrorReason (parseErrorDetail : Option Text) : Reason where
  code := .parseError
  layer := .lexical
  detail := parseErrorDetail.getD (text "input is not a parseable URL or hostname")
  weight := 0

def buildInvalidResult (input : Text) (findings : List CollectedFinding)
    (parseErrorDetail : Option Text) (optionSkipped : List Text) : InspectResult :=
  let hasFindings := decide (findings ≠ [])
  { status := .invalid
    input
    parsed := none
    score := none
    severity := none
    confidence := 1
    reasons := if hasFindings then sortReasons (findings.map toReason)
      else [parseErrorReason parseErrorDetail]
    confusables := if hasFindings then findingConfusables findings else []
    checksRun := if hasFindings then [LEXICAL] else []
    checksSkipped := optionSkipped
      ++ if hasFindings then [RESOLUTION, REPUTATION] else [LEXICAL, RESOLUTION, REPUTATION]
    dataVersions := DATA_VERSIONS
    pslSnapshot := currentPslSnapshot P.now }

/-- The channel tokens in their fixed order. -/
def channelTokens (policyRan agentRan suppressRan : Bool) : List Text :=
  LEXICAL :: ((if policyRan then [POLICY] else []) ++ (if agentRan then [AGENT] else [])
    ++ if suppressRan then [SUPPRESSION] else [])

/-- The reasons of an `ok` result before they are sorted. -/
def builtReasons (ctx : InspectionContext) (findings policyFindings : List CollectedFinding) :
    List Reason :=
  applySuppressions ((findings ++ policyFindings).map toReason) ctx.runtime.suppressReasons
    (suppressionHostContext P ctx.registrableDomain)

def buildOkResult (ctx : InspectionContext) (findings : List CollectedFinding)
    (skippedDetectors : List Text) (policyFindings : List CollectedFinding)
    (policyRan agentRan suppressRan : Bool) : InspectResult :=
  let reasons := sortReasons (builtReasons P ctx findings policyFindings)
  let scored := aggregate reasons
  { status := .ok
    input := ctx.input
    parsed := some ctx.parsed
    score := some scored.score
    severity := some scored.severity
    confidence := 1
    reasons
    confusables := findingConfusables findings
    checksRun := channelTokens policyRan agentRan suppressRan
    checksSkipped := skippedDetectors ++ [RESOLUTION, REPUTATION]
    dataVersions := DATA_VERSIONS
    pslSnapshot := currentPslSnapshot P.now }

end

@[simp] theorem toReason_code (finding : CollectedFinding) : (toReason finding).code = finding.code :=
  rfl

theorem toReason_weight_bounds (finding : CollectedFinding) :
    0 ≤ (toReason finding).weight ∧ (toReason finding).weight ≤ 1 :=
  ⟨weightFor_nonneg _, weightFor_le_one _⟩

@[simp] theorem suppressReason_code (rules : List SuppressionRule) (host : Option Text)
    (reason : Reason) : (suppressReason rules host reason).code = reason.code := by
  unfold suppressReason
  split <;> rfl

@[simp] theorem suppressReason_layer (rules : List SuppressionRule) (host : Option Text)
    (reason : Reason) : (suppressReason rules host reason).layer = reason.layer := by
  unfold suppressReason
  split <;> rfl

theorem suppressReason_weight (rules : List SuppressionRule) (host : Option Text) (reason : Reason) :
    (suppressReason rules host reason).weight = 0
      ∨ (suppressReason rules host reason).weight = reason.weight := by
  unfold suppressReason
  split
  · exact Or.inl rfl
  · exact Or.inr rfl

theorem suppressReason_weight_bounds (rules : List SuppressionRule) (host : Option Text)
    {reason : Reason} (h : 0 ≤ reason.weight ∧ reason.weight ≤ 1) :
    0 ≤ (suppressReason rules host reason).weight
      ∧ (suppressReason rules host reason).weight ≤ 1 := by
  rcases suppressReason_weight rules host reason with hw | hw
  · rw [hw]
    exact ⟨le_refl _, zero_le_one⟩
  · rw [hw]
    exact h

theorem builtReasons_bounded (P : Platform) (ctx : InspectionContext)
    (findings policyFindings : List CollectedFinding) :
    WeightsBounded (builtReasons P ctx findings policyFindings) := by
  intro reason h
  rw [builtReasons, applySuppressions_eq_map] at h
  obtain ⟨base, hbase, rfl⟩ := List.mem_map.mp h
  obtain ⟨finding, -, rfl⟩ := List.mem_map.mp hbase
  exact suppressReason_weight_bounds _ _ (toReason_weight_bounds finding)

theorem mem_builtReasons_code {P : Platform} {ctx : InspectionContext}
    {findings policyFindings : List CollectedFinding} {code : ReasonCode} :
    (∃ reason ∈ builtReasons P ctx findings policyFindings, reason.code = code)
      ↔ ∃ finding ∈ findings ++ policyFindings, finding.code = code := by
  rw [builtReasons, applySuppressions_eq_map]
  simp only [List.mem_map]
  constructor
  · rintro ⟨_, ⟨_, ⟨finding, hfinding, rfl⟩, rfl⟩, hcode⟩
    exact ⟨finding, hfinding, by simpa using hcode⟩
  · rintro ⟨finding, hfinding, rfl⟩
    exact ⟨_, ⟨_, ⟨finding, hfinding, rfl⟩, rfl⟩, by simp⟩

end Linklint
