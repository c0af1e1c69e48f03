import Linklint.Js.Text
import Mathlib.Data.Rat.Defs
import Mathlib.Data.String.Basic
import Mathlib.Algebra.Order.Field.Rat
import Mathlib.Data.List.Sort
import Mathlib.Tactic.NormNum

/-!
# Reason codes and the order of reasons

The registry is the single source of every code, its layer and its weight;
detectors, policy axes and enrichers name a code and never a weight. Weights
are exact rationals. Families and summaries are display data and are left out.
-/

namespace Linklint

inductive Layer where
  | lexical
  | resolution
  | reputation
  | policy
deriving DecidableEq, Repr

def Layer.name : Layer → String
  | .lexical => "lexical"
  | .resolution => "resolution"
  | .reputation => "reputation"
  | .policy => "policy"

inductive ReasonCode where
  | fqdnRootLabel
  | normalizationDelta
  | confusableChar
  | confusableInPath
  | idnaMappingAmbiguity
  | localeCaseAmbiguity
  | mixedScript
  | invisibleChar
  | bidiOverride
  | userinfoPresent
  | ipObfuscation
  | ipLoopback
  | ipPrivate
  | ipLinkLocal
  | ipCloudMetadata
  | ssrfCloudMetadata
  | ipReserved
  | ambiguousNumericHost
  | embeddedDomainInSubdomain
  | fileExtensionTld
  | encodingObfuscation
  | dangerousScheme
  | punycodeMalformed
  | idnaProtocolViolation
  | percentEncodingMalformed
  | headerShapedToken
  | bestFitMapping
  | ambiguousAuthority
  | separatorLookalike
  | controlChar
  | hostLengthUnresolvable
  | specialUseName
  | lowByteTruncation
  | asciiHomoglyph
  | brandHomoglyph
  | homographSkeletonCollision
  | brandLocaleCollapse
  | brandIdnaCollapse
  | idnHost
  | homographLatinSkeleton
  | openRedirectParam
  | suspiciousExtension
  | excessiveSubdomainDepth
  | promptInjectionUrl
  | credentialHarvesting
  | dataExfiltration
  | openRedirectObserved
  | contentTypeMismatch
  | httpsDowngradeObserved
  | youngDomainBrandRisk
  | malwareUrlListed
  | verifiedPhishListed
  | tldDenied
  | tldNotAllowlisted
  | hostDenied
  | hostNotAllowlisted
  | schemeDenied
  | portDenied
  | parseError
deriving DecidableEq, Repr

namespace ReasonCode

/-- The registry key of a code, as it is serialized. -/
def name : ReasonCode → String
  | .fqdnRootLabel => "fqdn_root_label"
  | .normalizationDelta => "normalization_delta"
  | .confusableChar => "confusable_char"
  | .confusableInPath => "confusable_in_path"
  | .idnaMappingAmbiguity => "idna_mapping_ambiguity"
  | .localeCaseAmbiguity => "locale_case_ambiguity"
  | .mixedScript => "mixed_script"
  | .invisibleChar => "invisible_char"
  | .bidiOverride => "bidi_override"
  | .userinfoPresent => "userinfo_present"
  | .ipObfuscation => "ip_obfuscation"
  | .ipLoopback => "ip_loopback"
  | .ipPrivate => "ip_private"
  | .ipLinkLocal => "ip_link_local"
  | .ipCloudMetadata => "ip_cloud_metadata"
  | .ssrfCloudMetadata => "ssrf_cloud_metadata"
  | .ipReserved => "ip_reserved"
  | .ambiguousNumericHost => "ambiguous_numeric_host"
  | .embeddedDomainInSubdomain => "embedded_domain_in_subdomain"
  | .fileExtensionTld => "file_extension_tld"
  | .encodingObfuscation => "encoding_obfuscation"
  | .dangerousScheme => "dangerous_scheme"
  | .punycodeMalformed => "punycode_malformed"
  | .idnaProtocolViolation => "idna_protocol_violation"
  | .percentEncodingMalformed => "percent_encoding_malformed"
  | .headerShapedToken => "header_shaped_token"
  | .bestFitMapping => "best_fit_mapping"
  | .ambiguousAuthority => "ambiguous_authority"
  | .separatorLookalike => "separator_lookalike"
  | .controlChar => "control_char"
  | .hostLengthUnresolvable => "host_length_unresolvable"
  | .specialUseName => "special_use_name"
  | .lowByteTruncation => "low_byte_truncation"
  | .asciiHomoglyph => "ascii_homoglyph"
  | .brandHomoglyph => "brand_homoglyph"
  | .homographSkeletonCollision => "homograph_skeleton_collision"
  | .brandLocaleCollapse => "brand_locale_collapse"
  | .brandIdnaCollapse => "brand_idna_collapse"
  | .idnHost => "idn_host"
  | .homographLatinSkeleton => "homograph_latin_skeleton"
  | .openRedirectParam => "open_redirect_param"
  | .suspiciousExtension => "suspicious_extension"
  | .excessiveSubdomainDepth => "excessive_subdomain_depth"
  | .promptInjectionUrl => "prompt_injection_url"
  | .credentialHarvesting => "credential_harvesting"
  | .dataExfiltration => "data_exfiltration"
  | .openRedirectObserved => "open_redirect_observed"
  | .contentTypeMismatch => "content_type_mismatch"
  | .httpsDowngradeObserved => "https_downgrade_observed"
  | .youngDomainBrandRisk => "young_domain_brand_risk"
  | .malwareUrlListed => "malware_url_listed"
  | .verifiedPhishListed => "verified_phish_listed"
  | .tldDenied => "tld_denied"
  | .tldNotAllowlisted => "tld_not_allowlisted"
  | .hostDenied => "host_denied"
  | .hostNotAllowlisted => "host_not_allowlisted"
  | .schemeDenied => "scheme_denied"
  | .portDenied => "port_denied"
  | .parseError => "parse_error"

/-- Registry order. -/
def all : List ReasonCode :=
  [.fqdnRootLabel, .normalizationDelta, .confusableChar, .confusableInPath,
   .idnaMappingAmbiguity, .localeCaseAmbiguity, .mixedScript, .invisibleChar,
   .bidiOverride, .userinfoPresent, .ipObfuscation, .ipLoopback,
   .ipPrivate, .ipLinkLocal, .ipCloudMetadata, .ssrfCloudMetadata,
   .ipReserved, .ambiguousNumericHost, .embeddedDomainInSubdomain, .fileExtensionTld,
   .encodingObfuscation, .dangerousScheme, .punycodeMalformed, .idnaProtocolViolation,
   .percentEncodingMalformed, .headerShapedToken, .bestFitMapping, .ambiguousAuthority,
   .separatorLookalike, .controlChar, .hostLengthUnresolvable, .specialUseName,
   .lowByteTruncation, .asciiHomoglyph, .brandHomoglyph, .homographSkeletonCollision,
   .brandLocaleCollapse, .brandIdnaCollapse, .idnHost, .homographLatinSkeleton,
   .openRedirectParam, .suspiciousExtension, .excessiveSubdomainDepth, .promptInjectionUrl,
   .credentialHarvesting, .dataExfiltration, .openRedirectObserved, .contentTypeMismatch,
   .httpsDowngradeObserved, .youngDomainBrandRisk, .malwareUrlListed, .verifiedPhishListed,
   .tldDenied, .tldNotAllowlisted, .hostDenied, .hostNotAllowlisted,
   .schemeDenied, .portDenied, .parseError]

/-- `Object.hasOwn(REASON_CODES, key)`, with the code it names. -/
def ofName (key : String) : Option ReasonCode :=
  all.find? (fun code => code.name == key)

end ReasonCode

structure ReasonCodeMeta where
  layer : Layer
  scoring : Bool
  weight : Rat

def reasonMeta : ReasonCode → ReasonCodeMeta
  | .fqdnRootLabel => ⟨.lexical, false, 0⟩
  | .normalizationDelta => ⟨.lexical, false, 0⟩
  | .confusableChar => ⟨.lexical, false, 0⟩
  | .confusableInPath => ⟨.lexical, false, 0⟩
  | .idnaMappingAmbiguity => ⟨.lexical, false, 0⟩
  | .localeCaseAmbiguity => ⟨.lexical, false, 0⟩
  | .mixedScript => ⟨.lexical, true, 1⟩
  | .invisibleChar => ⟨.lexical, true, 1⟩
  | .bidiOverride => ⟨.lexical, true, 1⟩
  | .userinfoPresent => ⟨.lexical, true, 1 / 2⟩
  | .ipObfuscation => ⟨.lexical, true, 2 / 5⟩
  | .ipLoopback => ⟨.lexical, false, 0⟩
  | .ipPrivate => ⟨.lexical, false, 0⟩
  | .ipLinkLocal => ⟨.lexical, false, 0⟩
  | .ipCloudMetadata => ⟨.lexical, false, 0⟩
  | .ssrfCloudMetadata => ⟨.lexical, true, 1⟩
  | .ipReserved => ⟨.lexical, false, 0⟩
  | .ambiguousNumericHost => ⟨.lexical, true, 3 / 10⟩
  | .embeddedDomainInSubdomain => ⟨.lexical, true, 1 / 2⟩
  | .fileExtensionTld => ⟨.lexical, true, 2 / 5⟩
  | .encodingObfuscation => ⟨.lexical, true, 7 / 20⟩
  | .dangerousScheme => ⟨.lexical, true, 9 / 10⟩
  | .punycodeMalformed => ⟨.lexical, true, 1 / 5⟩
  | .idnaProtocolViolation => ⟨.lexical, true, 7 / 20⟩
  | .percentEncodingMalformed => ⟨.lexical, true, 1 / 5⟩
  | .headerShapedToken => ⟨.lexical, true, 1 / 2⟩
  | .bestFitMapping => ⟨.lexical, true, 1 / 2⟩
  | .ambiguousAuthority => ⟨.lexical, true, 13 / 20⟩
  | .separatorLookalike => ⟨.lexical, true, 1 / 2⟩
  | .controlChar => ⟨.lexical, true, 3 / 5⟩
  | .hostLengthUnresolvable => ⟨.lexical, false, 0⟩
  | .specialUseName => ⟨.lexical, false, 0⟩
  | .lowByteTruncation => ⟨.lexical, true, 3 / 5⟩
  | .asciiHomoglyph => ⟨.lexical, true, 1 / 5⟩
  | .brandHomoglyph => ⟨.lexical, true, 4 / 5⟩
  | .homographSkeletonCollision => ⟨.lexical, true, 1 / 2⟩
  | .brandLocaleCollapse => ⟨.lexical, true, 1 / 2⟩
  | .brandIdnaCollapse => ⟨.lexical, true, 1 / 2⟩
  | .idnHost => ⟨.lexical, true, 7 / 10⟩
  | .homographLatinSkeleton => ⟨.lexical, true, 1⟩
  | .openRedirectParam => ⟨.lexical, true, 2 / 5⟩
  | .suspiciousExtension => ⟨.lexical, true, 1 / 2⟩
  | .excessiveSubdomainDepth => ⟨.lexical, true, 3 / 20⟩
  | .promptInjectionUrl => ⟨.lexical, false, 0⟩
  | .credentialHarvesting => ⟨.lexical, false, 0⟩
  | .dataExfiltration => ⟨.lexical, false, 0⟩
  | .openRedirectObserved => ⟨.resolution, false, 0⟩
  | .contentTypeMismatch => ⟨.resolution, false, 0⟩
  | .httpsDowngradeObserved => ⟨.resolution, false, 0⟩
  | .youngDomainBrandRisk => ⟨.reputation, true, 1 / 2⟩
  | .malwareUrlListed => ⟨.reputation, true, 1⟩
  | .verifiedPhishListed => ⟨.reputation, true, 1⟩
  | .tldDenied => ⟨.policy, false, 0⟩
  | .tldNotAllowlisted => ⟨.policy, false, 0⟩
  | .hostDenied => ⟨.policy, false, 0⟩
  | .hostNotAllowlisted => ⟨.policy, false, 0⟩
  | .schemeDenied => ⟨.policy, false, 0⟩
  | .portDenied => ⟨.policy, false, 0⟩
  | .parseError => ⟨.lexical, false, 0⟩

def weightFor (code : ReasonCode) : Rat := (reasonMeta code).weight

structure Reason where
  code : ReasonCode
  layer : Layer
  detail : Text
  weight : Rat
  suppressed : Bool := false
deriving DecidableEq

/-- Descending weight, then ascending code by code point. -/
def compareReasons (a b : Reason) : Rat :=
  if b.weight ≠ a.weight then b.weight - a.weight
  else if a.code.name < b.code.name then -1
  else if b.code.name < a.code.name then 1
  else 0

def ReasonLe (a b : Reason) : Prop := compareReasons a b ≤ 0

instance : DecidableRel ReasonLe := fun a b =>
  inferInstanceAs (Decidable (compareReasons a b ≤ 0))

/-- `reasons.sort(compareReasons)`; both sorts are stable. -/
def sortReasons (reasons : List Reason) : List Reason :=
  reasons.insertionSort ReasonLe

theorem reasonLe_iff (a b : Reason) :
    ReasonLe a b ↔ b.weight < a.weight ∨ a.weight = b.weight ∧ a.code.name ≤ b.code.name := by
  unfold ReasonLe compareReasons
  by_cases hw : b.weight = a.weight
  · rcases lt_trichotomy a.code.name b.code.name with hlt | heq | hgt
    · simp [hw, hlt, le_of_lt hlt]
    · simp [hw, heq]
    · have hno : ¬ (1 : Rat) ≤ 0 := by norm_num
      simp [hw, hgt, not_lt_of_gt hgt, not_le_of_gt hgt, hno]
  · rw [if_pos hw, sub_nonpos]
    constructor
    · intro h
      exact Or.inl (lt_of_le_of_ne h hw)
    · rintro (h | h)
      · exact le_of_lt h
      · exact absurd h.1.symm hw

instance : Std.Total ReasonLe where
  total a b := by
    rw [reasonLe_iff, reasonLe_iff]
    rcases lt_trichotomy a.weight b.weight with hlt | heq | hgt
    · exact Or.inr (Or.inl hlt)
    · rcases le_total a.code.name b.code.name with h | h
      · exact Or.inl (Or.inr ⟨heq, h⟩)
      · exact Or.inr (Or.inr ⟨heq.symm, h⟩)
    · exact Or.inl (Or.inl hgt)

instance : IsTrans Reason ReasonLe where
  trans a b c hab hbc := by
    rw [reasonLe_iff] at *
    rcases hab with hab | ⟨hab, cab⟩ <;> rcases hbc with hbc | ⟨hbc, cbc⟩
    · exact Or.inl (lt_trans hbc hab)
    · exact Or.inl (hbc ▸ hab)
    · exact Or.inl (hab ▸ hbc)
    · exact Or.inr ⟨hab.trans hbc, le_trans cab cbc⟩

theorem sortReasons_perm (reasons : List Reason) : (sortReasons reasons).Perm reasons :=
  List.perm_insertionSort ReasonLe reasons

theorem sortReasons_sorted (reasons : List Reason) : (sortReasons reasons).Pairwise ReasonLe :=
  List.pairwise_insertionSort ReasonLe reasons

@[simp] theorem mem_sortReasons {reasons : List Reason} {reason : Reason} :
    reason ∈ sortReasons reasons ↔ reason ∈ reasons :=
  List.mem_insertionSort ReasonLe

theorem ReasonCode.mem_all (code : ReasonCode) : code ∈ ReasonCode.all := by
  cases code <;> decide

@[simp] theorem ReasonCode.ofName_name (code : ReasonCode) :
    ReasonCode.ofName code.name = some code := by
  cases code <;> rfl

theorem ReasonCode.name_injective : Function.Injective ReasonCode.name := by
  intro a b h
  have hb := b.ofName_name
  rw [← h, a.ofName_name] at hb
  exact Option.some.inj hb

theorem ReasonCode.ofName_eq_some {key : String} {code : ReasonCode} :
    ReasonCode.ofName key = some code ↔ code.name = key := by
  constructor
  · intro h
    have found := List.find?_some h
    exact eq_of_beq found
  · rintro rfl
    exact code.ofName_name

theorem weightFor_nonneg (code : ReasonCode) : 0 ≤ weightFor code := by
  cases code <;> norm_num [weightFor, reasonMeta]

theorem weightFor_le_one (code : ReasonCode) : weightFor code ≤ 1 := by
  cases code <;> norm_num [weightFor, reasonMeta]

/-- Informational codes carry weight zero, so they never move the score. -/
theorem weightFor_of_not_scoring {code : ReasonCode} (h : (reasonMeta code).scoring = false) :
    weightFor code = 0 := by
  cases code <;> first | rfl | cases h

/-- Every code of the policy layer is informational. -/
theorem weightFor_of_policy {code : ReasonCode} (h : (reasonMeta code).layer = .policy) :
    weightFor code = 0 := by
  cases code <;> first | rfl | cases h

end Linklint
