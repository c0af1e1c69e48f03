import Linklint.Policy.Axes
import Linklint.Lib.GuardedLoop

/-!
# The check registry

Identity, phase and declared reason codes of the forty checks, in run order. The
bodies of the checks are a parameter of the program; `EmitsDeclared` is the
discipline the registry states for them.
-/

namespace Linklint

inductive CheckPhase where
  | structural
  | parsed
deriving DecidableEq

structure CheckDescriptor where
  id : Text
  phase : CheckPhase
  emits : List ReasonCode
  agentGated : Bool
deriving DecidableEq

def structuralCheck (id : String) (emits : List ReasonCode) : CheckDescriptor :=
  { id := text id, phase := .structural, emits, agentGated := false }

def parsedCheck (id : String) (emits : List ReasonCode) : CheckDescriptor :=
  { id := text id, phase := .parsed, emits, agentGated := false }

def agentCheck (id : String) (emits : List ReasonCode) : CheckDescriptor :=
  { id := text id, phase := .parsed, emits, agentGated := true }

def CHECKS : List CheckDescriptor :=
  [structuralCheck "ambiguous_authority" [.ambiguousAuthority],
   structuralCheck "separator_lookalike" [.separatorLookalike],
   structuralCheck "idna_mapping_ambiguity" [.idnaMappingAmbiguity, .brandIdnaCollapse],
   structuralCheck "control_char" [.controlChar],
   parsedCheck "normalization_delta" [.normalizationDelta],
   parsedCheck "confusable_char" [.confusableChar],
   parsedCheck "mixed_script" [.mixedScript],
   parsedCheck "ascii_homoglyph" [.asciiHomoglyph],
   parsedCheck "invisible_char" [.invisibleChar],
   parsedCheck "bidi_override" [.bidiOverride],
   parsedCheck "userinfo_present" [.userinfoPresent],
   parsedCheck "ip_obfuscation" [.ipObfuscation],
   parsedCheck "ip_classification"
     [.ipCloudMetadata, .ipLoopback, .ipLinkLocal, .ipPrivate, .ipReserved],
   parsedCheck "ambiguous_numeric_host" [.ambiguousNumericHost],
   parsedCheck "embedded_domain_in_subdomain" [.embeddedDomainInSubdomain],
   parsedCheck "file_extension_tld" [.fileExtensionTld],
   parsedCheck "encoding_obfuscation" [.encodingObfuscation],
   parsedCheck "dangerous_scheme" [.dangerousScheme],
   parsedCheck "confusable_in_path" [.confusableInPath],
   parsedCheck "brand_homoglyph" [.brandHomoglyph],
   parsedCheck "homograph_skeleton_collision" [.homographSkeletonCollision],
   parsedCheck "homograph_latin_skeleton" [.homographLatinSkeleton],
   parsedCheck "locale_case_collapse" [.localeCaseAmbiguity, .brandLocaleCollapse],
   parsedCheck "idn_host" [.idnHost],
   parsedCheck "open_redirect_param" [.openRedirectParam],
   parsedCheck "suspicious_extension" [.suspiciousExtension],
   parsedCheck "punycode_malformed" [.punycodeMalformed],
   parsedCheck "idna_protocol_violation" [.idnaProtocolViolation],
   parsedCheck "percent_encoding_malformed" [.percentEncodingMalformed],
   parsedCheck "low_byte_truncation" [.lowByteTruncation],
   parsedCheck "header_shaped_token" [.headerShapedToken],
   parsedCheck "best_fit_mapping" [.bestFitMapping],
   parsedCheck "host_length_unresolvable" [.hostLengthUnresolvable],
   parsedCheck "special_use_name" [.specialUseName],
   parsedCheck "fqdn_root_label" [.fqdnRootLabel],
   parsedCheck "excessive_subdomain_depth" [.excessiveSubdomainDepth],
   agentCheck "prompt_injection_url" [.promptInjectionUrl],
   agentCheck "credential_harvesting" [.credentialHarvesting],
   agentCheck "data_exfiltration" [.dataExfiltration],
   agentCheck "ssrf_cloud_metadata" [.ssrfCloudMetadata]]

def STRUCTURAL_SCANS : List CheckDescriptor := CHECKS.filter (·.phase == .structural)

def DETECTORS : List CheckDescriptor := CHECKS.filter (·.phase == .parsed)

structure ScanContext where
  input : Text
  prepared : Text
  runtime : RuntimeConfig
  authority : AuthorityRegion

/-- The bodies of the checks: pure functions of their context that may throw. -/
structure CheckBodies where
  scan : CheckDescriptor → ScanContext → Except Thrown (List CollectedFinding)
  detector : CheckDescriptor → InspectionContext → Except Thrown (List CollectedFinding)
  axis : PolicyAxis → InspectionContext → Except Thrown (List CollectedFinding)

namespace CheckBodies

/-- The policy axes as they are. -/
def withPolicyAxes (bodies : CheckBodies) (P : Platform) : CheckBodies :=
  { bodies with axis := fun axis ctx => .ok (axis.run P ctx) }

/-- Every throw is replaced by an empty list of findings. -/
def quieted (bodies : CheckBodies) : CheckBodies where
  scan c ctx := .ok (GuardedLoop.results (bodies.scan c ctx))
  detector c ctx := .ok (GuardedLoop.results (bodies.detector c ctx))
  axis a ctx := .ok (GuardedLoop.results (bodies.axis a ctx))

/-- A check emits only the codes its descriptor declares. -/
structure EmitsDeclared (bodies : CheckBodies) : Prop where
  scan : ∀ c ctx, ∀ finding ∈ GuardedLoop.results (bodies.scan c ctx), finding.code ∈ c.emits
  detector : ∀ c ctx, ∀ finding ∈ GuardedLoop.results (bodies.detector c ctx), finding.code ∈ c.emits

/-- A policy axis emits only the codes its descriptor declares. -/
def AxesEmitDeclared (bodies : CheckBodies) : Prop :=
  ∀ a ctx, ∀ finding ∈ GuardedLoop.results (bodies.axis a ctx), finding.code ∈ a.emits

/-- No scan or detector looks at the policy lists of its runtime configuration. -/
structure PolicyBlind (bodies : CheckBodies) : Prop where
  scan : ∀ c (ctx : ScanContext) policy,
    bodies.scan c { ctx with runtime := { ctx.runtime with policy } } = bodies.scan c ctx
  detector : ∀ c (ctx : InspectionContext) policy,
    bodies.detector c { ctx with runtime := { ctx.runtime with policy } } = bodies.detector c ctx

/-- Checks that find nothing. -/
def silent : CheckBodies where
  scan _ _ := .ok []
  detector _ _ := .ok []
  axis _ _ := .ok []

end CheckBodies

theorem CheckBodies.withPolicyAxes_emit (bodies : CheckBodies) (P : Platform) :
    (bodies.withPolicyAxes P).AxesEmitDeclared :=
  fun axis ctx => axis.run_emits P ctx

theorem silent_emitsDeclared : CheckBodies.silent.EmitsDeclared where
  scan _ _ := by simp [CheckBodies.silent, GuardedLoop.results]
  detector _ _ := by simp [CheckBodies.silent, GuardedLoop.results]

theorem silent_axesEmitDeclared : CheckBodies.silent.AxesEmitDeclared := by
  simp [CheckBodies.AxesEmitDeclared, CheckBodies.silent, GuardedLoop.results]

theorem CHECKS_length : CHECKS.length = 40 := rfl

/-- The token of a check names it: no two checks share an id. -/
theorem CHECKS_ids_nodup : (CHECKS.map CheckDescriptor.id).Nodup := by
  decide

/-- No lexical check declares a code of the policy layer. -/
theorem CHECKS_emits_not_policy {c : CheckDescriptor} (hc : c ∈ CHECKS) {code : ReasonCode}
    (h : code ∈ c.emits) : (reasonMeta code).layer = .lexical := by
  have all : ∀ c ∈ CHECKS, ∀ code ∈ c.emits, (reasonMeta code).layer = .lexical := by decide
  exact all c hc code h

end Linklint
