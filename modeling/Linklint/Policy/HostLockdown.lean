import Linklint.Inspect

/-!
# The host allow-list

A configured `allowHosts` is a default-deny list for inputs with a registrable
domain. Inputs without one, such as IP literals, pass it in silence.
-/

namespace Linklint

variable (P : Platform)

/-- The option is set, to a list with these entries, for every reader of it. -/
structure ConfiguredList (options : HostVal) (key : Text) (entries : List HostVal) : Prop where
  read : ∃ value, options.read .normalize key = .ok value ∧ value.isUndefined = false ∧
    value.elements = .ok entries
  probed : ∃ value, options.read .policyConfigured key = .ok value ∧ value.isUndefined = false

/-- The domain equals an entry after trimming, leading-dot stripping and case folding. -/
def HostListed (entries : List HostVal) (domain : Text) : Prop :=
  ∃ s, HostVal.str s ∈ entries ∧ P.toLowerCase s.trim.dropLeadingDot = P.toLowerCase domain

/-- An input that raises no `host_not_allowlisted` has a registrable domain on the list. -/
def LockdownHolds (result : InspectResult) (entries : List HostVal) : Prop :=
  (∀ reason ∈ result.reasons, reason.code ≠ .hostNotAllowlisted) →
    ∃ parsed domain, result.parsed = some parsed ∧
      truthy parsed.registrableDomain = some domain ∧ HostListed P entries domain

theorem anyConfigured_of_set {options : HostVal} {keys : List Text} {key : Text} {value : HostVal}
    {on : Bool} (hkey : key ∈ keys) (hread : options.read .policyConfigured key = .ok value)
    (hset : value.isUndefined = false) (h : anyConfigured options keys = .ok on) : on = true := by
  induction keys with
  | nil => cases hkey
  | cons k rest ih =>
      obtain ⟨v, hv, hrest⟩ := bind_eq_ok.mp h
      by_cases hund : v.isUndefined = true
      · rw [if_pos hund] at hrest
        rcases List.mem_cons.mp hkey with rfl | hmem
        · rw [hread] at hv
          cases hv
          rw [hset] at hund
          cases hund
        · exact ih hmem hrest
      · rw [if_neg hund] at hrest
        exact (pure_eq_ok.mp hrest).symm

theorem policyOn_of_configured {options : HostVal} {entries : List HostVal} {late : LateOptions}
    (h : ConfiguredList options (text "allowHosts") entries)
    (hlate : readLateOptions options = .ok late) : late.policyOn = true := by
  simp only [readLateOptions, bind_eq_ok, pure_eq_ok] at hlate
  obtain ⟨agent, -, on, hon, suppress, -, rfl⟩ := hlate
  obtain ⟨value, hread, hset⟩ := h.probed
  exact anyConfigured_of_set (by decide) hread hset hon

theorem allowHosts_of_normalized {options : HostVal} {runtime : RuntimeConfig} {entries : List HostVal}
    (h : ConfiguredList options (text "allowHosts") entries)
    (hr : normalizeOptions P options = .ok runtime) :
    runtime.policy.allowHosts.configured = true ∧
      ∀ s, s ∈ runtime.policy.allowHosts.values →
        ∃ t, HostVal.str t ∈ entries ∧ P.toLowerCase t.trim.dropLeadingDot = s := by
  obtain ⟨value, hvalue, hset, helements⟩ := h.read
  obtain ⟨_, _, _, _, _, _, policy, -, -, -, -, -, -, hpolicy, rfl⟩ := (normalizeOptions_eq_ok P).mp hr
  simp only [normalizePolicyOptions, bind_eq_ok, pure_eq_ok] at hpolicy
  obtain ⟨_, -, _, -, _, -, _, -, _, -, _, -, allowValue, hallow, allowHosts, hlist, _, -, _, -, _, -,
    _, -, _, -, _, -, _, -, rfl⟩ := hpolicy
  rw [hvalue] at hallow
  cases hallow
  simp only [normalizedList, bind_eq_ok, pure_eq_ok, helements, Except.ok.injEq] at hlist
  obtain ⟨_, rfl, rfl⟩ := hlist
  refine ⟨by simp [hset], fun s hs => ?_⟩
  obtain ⟨item, hitem, hnorm⟩ := List.mem_filterMap.mp (List.mem_of_mem_filter hs)
  obtain ⟨entry, hentry, rfl⟩ := List.mem_map.mp hitem
  cases entry with
  | str t => exact ⟨t, hentry, Option.some.inj hnorm⟩
  | _ => cases hnorm

theorem parseInput_registrable {input : Text} {runtime : RuntimeConfig} {ctx : InspectionContext}
    (h : parseInput P input runtime = .ok (some ctx)) :
    ctx.parsed.registrableDomain = ctx.registrableDomain ∧
      ctx.registrableDomainLower = ctx.registrableDomain.map P.toLowerCase := by
  unfold parseInput parsePrepared at h
  split at h
  · cases h
  · split at h
    · cases h
    · obtain ⟨facts, -, hctx⟩ := bind_eq_ok.mp h
      cases hctx
      exact ⟨rfl, rfl⟩

/-- An IP host has no registrable domain, whatever the suffix list says. -/
theorem deriveHostFacts_ip {rawHost : Text} {facts : HostFacts}
    (hip : isIpHost (stripInvisible rawHost) = true) (h : deriveHostFacts P rawHost = .ok facts) :
    facts.psl.registrableDomain = none := by
  simp only [deriveHostFacts, hip, or_true, if_true] at h
  cases h
  rfl

/-- The host axis reports exactly the domains off a configured list. -/
theorem hostAxis_silent_iff {ctx : InspectionContext} {domain : Text}
    (hdomain : truthy ctx.registrableDomain = some domain)
    (hconfigured : ctx.runtime.policy.allowHosts.configured = true) :
    (∀ finding ∈ runHostAxis ctx, finding.code ≠ .hostNotAllowlisted)
      ↔ ctx.registrableDomainLower.getD [] ∈ ctx.runtime.policy.allowHosts.values := by
  simp only [runHostAxis, hdomain, hconfigured, true_and]
  constructor
  · intro h
    by_contra hnot
    rw [if_pos hnot] at h
    exact h _ (List.mem_append_right _ (List.mem_singleton_self _)) rfl
  · intro h finding hfinding
    rw [if_neg (not_not_intro h), List.append_nil] at hfinding
    split at hfinding
    · rw [List.mem_singleton.mp hfinding]
      exact ReasonCode.noConfusion
    · cases hfinding

theorem hostAxis_unlisted {ctx : InspectionContext} (h : truthy ctx.registrableDomain = none) :
    runHostAxis ctx = [] := by
  simp [runHostAxis, h]

/-- Only the host axis can emit the code. -/
theorem hostNotAllowlisted_source {bodies : CheckBodies} (hemits : bodies.EmitsDeclared)
    (input : Text) (ctx : InspectionContext) (optionSkipped : List Text) {late : LateOptions}
    (hon : late.policyOn = true) :
    (∀ reason ∈ (inspectParsed P (bodies.withPolicyAxes P) ctx
        (runScans (bodies.withPolicyAxes P) input ctx.runtime) optionSkipped late).reasons,
      reason.code ≠ .hostNotAllowlisted)
      ↔ ∀ finding ∈ runHostAxis ctx, finding.code ≠ .hostNotAllowlisted := by
  have hlexical : ∀ c ∈ CHECKS, ReasonCode.hostNotAllowlisted ∉ c.emits := by decide
  have hcode : (∃ reason ∈ builtReasons P ctx
        ((runScans (bodies.withPolicyAxes P) input ctx.runtime).1
          ++ (runDetectors (bodies.withPolicyAxes P) ctx late.agentMode).1)
        (runPolicy (bodies.withPolicyAxes P) ctx).findings, reason.code = .hostNotAllowlisted)
      ↔ ∃ finding ∈ runHostAxis ctx, finding.code = .hostNotAllowlisted := by
    rw [mem_builtReasons_code]
    constructor
    · rintro ⟨finding, hmem, hfinding⟩
      rcases List.mem_append.mp hmem with hmem | hmem
      · rcases List.mem_append.mp hmem with hmem | hmem
        · obtain ⟨c, hc, hrun⟩ := GuardedLoop.mem_run_fst.mp hmem
          have := hemits.scan c _ finding hrun
          exact absurd (hfinding ▸ this) (hlexical c (List.mem_of_mem_filter hc))
        · obtain ⟨c, hc, hrun⟩ := GuardedLoop.mem_run_fst.mp hmem
          have := hemits.detector c _ finding hrun
          exact absurd (hfinding ▸ this)
            (hlexical c (List.mem_of_mem_filter (List.mem_of_mem_filter hc)))
      · obtain ⟨axis, -, hrun⟩ := GuardedLoop.mem_run_fst.mp hmem
        have hdeclared := axis.run_emits P ctx finding hrun
        rw [hfinding] at hdeclared
        cases axis with
        | host => exact ⟨finding, hrun, hfinding⟩
        | _ => exact absurd hdeclared (by decide)
    · rintro ⟨finding, hmem, hfinding⟩
      refine ⟨finding, List.mem_append_right _ (GuardedLoop.mem_run_fst.mpr ?_), hfinding⟩
      exact ⟨.host, by decide, hmem⟩
  have hreasons : ∀ reason, reason ∈ (inspectParsed P (bodies.withPolicyAxes P) ctx
        (runScans (bodies.withPolicyAxes P) input ctx.runtime) optionSkipped late).reasons
      ↔ reason ∈ builtReasons P ctx
        ((runScans (bodies.withPolicyAxes P) input ctx.runtime).1
          ++ (runDetectors (bodies.withPolicyAxes P) ctx late.agentMode).1)
        (runPolicy (bodies.withPolicyAxes P) ctx).findings := by
    intro reason
    simp only [inspectParsed, buildOkResult, hon, if_true, mem_sortReasons]
  simp only [hreasons]
  constructor
  · intro h finding hfinding hf
    obtain ⟨reason, hreason, hr⟩ := hcode.mpr ⟨finding, hfinding, hf⟩
    exact h reason hreason hr
  · intro h reason hreason hr
    obtain ⟨finding, hfinding, hf⟩ := hcode.mp ⟨reason, hreason, hr⟩
    exact h finding hfinding hf

/-- `{ allowHosts: ["mycompany.com"] }` -/
def companyOnly : HostVal :=
  .plain [(text "allowHosts", .list [.str (text "mycompany.com")])]

def companyOnlyRead : ReadableOptions .ascii (effectiveOptions companyOnly) where
  runtime :=
    { maxDecodeDepth := DEFAULT_MAX_DECODE_DEPTH, idnPolicy := .block, idnAllowlist := []
      suppressReasons := []
      policy :=
        { denyTlds := ⟨false, []⟩, allowTlds := ⟨false, []⟩, denyHosts := ⟨false, []⟩
          allowHosts := ⟨true, [text "mycompany.com"]⟩, denySchemes := ⟨false, []⟩
          allowSchemes := ⟨false, []⟩, denyPorts := ⟨false, []⟩, denyNonStandardPorts := false } }
  late := { agentMode := false, policyOn := true, suppressOn := false }
  normalize_eq := by rfl
  late_eq := by rfl

theorem companyOnly_configured : ConfiguredList (effectiveOptions companyOnly) (text "allowHosts")
    [.str (text "mycompany.com")] where
  read := ⟨_, rfl, rfl, rfl⟩
  probed := ⟨_, rfl, rfl⟩

end Linklint
