import Linklint.Inspect

/-!
# The reasons of a result

Every result is built in one of two ways. The reasons of either carry the
registry weight of their code, or none when the caller suppressed them.
-/

namespace Linklint

section
variable (P : Platform) (bodies : CheckBodies)

/-- How the synchronous entry point built a result. -/
inductive Built (rawOptions : HostVal) (result : InspectResult) : Prop
  | invalid {input : Text} {findings : List CollectedFinding} {detail : Option Text}
      (hfindings : findings = [] ∨ ∃ runtime, findings = (runScans bodies input runtime).1)
      (hresult : result = buildInvalidResult P input findings detail (intakeTokens rawOptions))
  | parsed {input : Text} {ctx : InspectionContext} {late : LateOptions}
      (hresult : result = inspectParsed P bodies ctx (runScans bodies input ctx.runtime)
        (intakeTokens rawOptions) late)

variable {P bodies}

theorem built_of_inspect {input : InputVal} {rawOptions : HostVal} {result : InspectResult}
    (h : inspect P bodies input rawOptions = .ok result) : Built P bodies rawOptions result := by
  cases input with
  | nonString typeName asString =>
      cases h
      exact .invalid (Or.inl rfl) rfl
  | string s =>
      obtain ⟨runtime, -, hparse⟩ := bind_eq_ok.mp h
      simp only [] at hparse
      cases hp : parseInput P s runtime with
      | error e =>
          rw [hp] at hparse
          cases hparse
          exact .invalid (Or.inr ⟨runtime, rfl⟩) rfl
      | ok parsed =>
          rw [hp] at hparse
          cases parsed with
          | none =>
              cases hparse
              exact .invalid (Or.inr ⟨runtime, rfl⟩) rfl
          | some ctx =>
              obtain ⟨late, -, hresult⟩ := bind_eq_ok.mp hparse
              cases hresult
              obtain ⟨rfl, -⟩ := parseInput_runtime P hp
              exact .parsed rfl

/-- A reason of a result: what the registry says of its code, or nothing when suppressed. -/
def RegistryReason (reason : Reason) : Prop :=
  reason.weight = if reason.suppressed then 0 else weightFor reason.code

theorem registryReason_suppress (rules : List SuppressionRule) (host : Option Text)
    (finding : CollectedFinding) : RegistryReason (suppressReason rules host (toReason finding)) := by
  unfold suppressReason RegistryReason
  split <;> rfl

theorem Built.registry {rawOptions : HostVal} {result : InspectResult}
    (h : Built P bodies rawOptions result) : ∀ reason ∈ result.reasons, RegistryReason reason := by
  intro reason hreason
  cases h with
  | invalid _ hresult =>
      subst hresult
      simp only [buildInvalidResult] at hreason
      split at hreason
      · obtain ⟨finding, -, rfl⟩ := List.mem_map.mp (mem_sortReasons.mp hreason)
        rfl
      · rw [List.mem_singleton.mp hreason]
        rfl
  | parsed hresult =>
      subst hresult
      rw [inspectParsed, buildOkResult, mem_sortReasons, builtReasons, applySuppressions_eq_map]
        at hreason
      obtain ⟨_, hbase, rfl⟩ := List.mem_map.mp hreason
      obtain ⟨finding, -, rfl⟩ := List.mem_map.mp hbase
      exact registryReason_suppress ..

theorem weightsBounded_of_registry {reasons : List Reason}
    (h : ∀ reason ∈ reasons, RegistryReason reason) : WeightsBounded reasons := by
  intro reason hreason
  rw [h reason hreason]
  split
  · exact ⟨le_refl _, zero_le_one⟩
  · exact ⟨weightFor_nonneg _, weightFor_le_one _⟩

/-- The reasons of one result that share a code are suppressed together. -/
theorem Built.suppressed_of_code {rawOptions : HostVal} {result : InspectResult}
    (h : Built P bodies rawOptions result) {a b : Reason} (ha : a ∈ result.reasons)
    (hb : b ∈ result.reasons) (hcode : a.code = b.code) : a.suppressed = b.suppressed := by
  cases h with
  | invalid _ hresult =>
      subst hresult
      simp only [buildInvalidResult] at ha hb
      split at ha
      · rename_i hfindings
        rw [if_pos hfindings] at hb
        obtain ⟨_, -, rfl⟩ := List.mem_map.mp (mem_sortReasons.mp ha)
        obtain ⟨_, -, rfl⟩ := List.mem_map.mp (mem_sortReasons.mp hb)
        rfl
      · rename_i hfindings
        rw [if_neg hfindings] at hb
        rw [List.mem_singleton.mp ha, List.mem_singleton.mp hb]
  | parsed hresult =>
      subst hresult
      rw [inspectParsed, buildOkResult, mem_sortReasons, builtReasons, applySuppressions_eq_map]
        at ha hb
      obtain ⟨_, hafinding, rfl⟩ := List.mem_map.mp ha
      obtain ⟨x, -, rfl⟩ := List.mem_map.mp hafinding
      obtain ⟨_, hbfinding, rfl⟩ := List.mem_map.mp hb
      obtain ⟨y, -, rfl⟩ := List.mem_map.mp hbfinding
      have hcodes : (toReason x).code = (toReason y).code := by simpa using hcode
      unfold suppressReason ruleMatches
      rw [hcodes]
      split <;> rfl

theorem Built.score {rawOptions : HostVal} {result : InspectResult}
    (h : Built P bodies rawOptions result) : result.status = .ok →
      result.score = some (aggregate result.reasons).score ∧
        result.severity = some (aggregate result.reasons).severity := by
  cases h with
  | invalid _ hresult =>
      subst hresult
      intro hok
      cases hok
  | parsed hresult =>
      subst hresult
      exact fun _ => ⟨rfl, rfl⟩

/-- The checks and the policy axes raise codes of their own two layers only. -/
theorem Built.layers {rawOptions : HostVal} {result : InspectResult}
    (hemits : bodies.EmitsDeclared) (haxes : bodies.AxesEmitDeclared)
    (h : Built P bodies rawOptions result) : ∀ reason ∈ result.reasons,
      (reasonMeta reason.code).layer = .lexical ∨ (reasonMeta reason.code).layer = .policy := by
  have hscans : ∀ input runtime, ∀ finding ∈ (runScans bodies input runtime).1,
      (reasonMeta finding.code).layer = .lexical := by
    intro input runtime finding hfinding
    obtain ⟨scan, hscan, hmem⟩ := GuardedLoop.mem_run_fst.mp hfinding
    exact CHECKS_emits_not_policy (List.mem_of_mem_filter hscan) (hemits.scan _ _ _ hmem)
  intro reason hreason
  cases h with
  | @invalid input findings detail hfindings hresult =>
      subst hresult
      left
      simp only [buildInvalidResult] at hreason
      split at hreason
      · obtain ⟨finding, hfinding, rfl⟩ := List.mem_map.mp (mem_sortReasons.mp hreason)
        rcases hfindings with rfl | ⟨runtime, rfl⟩
        · cases hfinding
        · exact hscans _ _ _ hfinding
      · rw [List.mem_singleton.mp hreason]
        rfl
  | @parsed input ctx late hresult =>
      subst hresult
      rw [inspectParsed, buildOkResult, mem_sortReasons] at hreason
      obtain ⟨finding, hfinding, hcode⟩ := mem_builtReasons_code.mp ⟨reason, hreason, rfl⟩
      rw [← hcode]
      rcases List.mem_append.mp hfinding with hlexical | hpolicy
      · left
        rcases List.mem_append.mp hlexical with hscan | hdetected
        · exact hscans _ _ _ hscan
        · obtain ⟨detector, hdue, hmem⟩ := GuardedLoop.mem_run_fst.mp hdetected
          have hcheck : detector ∈ CHECKS := List.mem_of_mem_filter (List.mem_of_mem_filter hdue)
          exact CHECKS_emits_not_policy hcheck (hemits.detector _ _ _ hmem)
      · right
        split at hpolicy
        · obtain ⟨axis, -, hmem⟩ := GuardedLoop.mem_run_fst.mp hpolicy
          have hall : ∀ axis : PolicyAxis, ∀ code ∈ axis.emits, (reasonMeta code).layer = .policy := by
            intro axis
            cases axis <;> decide
          exact hall axis _ (haxes _ _ _ hmem)
        · cases hpolicy

end

end Linklint
