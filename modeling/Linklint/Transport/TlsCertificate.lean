import Linklint.Transport.Request
import Linklint.Transport.TlsDer

/-!
# Certificate normalization

What an observed handshake says of its leaf certificate: the trust signal as it
came, the validity window against the observation instant, and the identity of the
original host, none of them inferred from another. Parsing a certificate is the
platform's.
-/

namespace Linklint

/-- A raw observation, as an observer outside the types may report it. -/
structure TlsHandshakeObservation where
  serverName : Text
  remoteAddress : Text
  remotePort : JsNum
  certificateChain : List Bytes
  chainTrusted : Bool
  trustErrorCode : Option Text
  protocolVersion : Option Text

inductive CertificateAssuranceLevel where
  | dv | ov | iv | ev | unknown
deriving DecidableEq

def CertificateAssuranceLevel.name : CertificateAssuranceLevel → Text
  | .dv => text "dv"
  | .ov => text "ov"
  | .iv => text "iv"
  | .ev => text "ev"
  | .unknown => text "unknown"

inductive TlsCertificateDefect where
  | expired | notYetValid | hostnameMismatch | untrusted | selfSigned
deriving DecidableEq

def TlsCertificateDefect.name : TlsCertificateDefect → Text
  | .expired => text "expired"
  | .notYetValid => text "not-yet-valid"
  | .hostnameMismatch => text "hostname-mismatch"
  | .untrusted => text "untrusted"
  | .selfSigned => text "self-signed"

structure NormalizedCertificate where
  subject : Text
  issuer : Text
  serialNumber : Text
  subjectAltNames : List Text
  policyOids : List Text
  assuranceLevel : CertificateAssuranceLevel
  notBefore : Text
  notAfter : Text
  selfIssued : Bool

structure TlsCertificateValidation where
  chainTrusted : Bool
  hostnameMatch : Bool
  withinValidity : Bool
  defects : List TlsCertificateDefect

structure NormalizedTlsObservation where
  serverName : Text
  protocolVersion : Option Text
  leaf : NormalizedCertificate
  chainDepth : Nat
  validation : TlsCertificateValidation

/-! ### Policy -/

/-- `Partial<TlsInspectionPolicy>` -/
structure TlsInspectionOptions where
  maxTotalTimeMs : Option JsNum := none
  maxChainDepth : Option JsNum := none
  maxCertificateBytes : Option JsNum := none

structure TlsInspectionPolicy where
  maxTotalTimeMs : Nat
  maxChainDepth : Nat
  maxCertificateBytes : Nat

def DEFAULT_TLS_INSPECTION_POLICY : TlsInspectionPolicy where
  maxTotalTimeMs := 10000
  maxChainDepth := 10
  maxCertificateBytes := 65536

def MAX_TIMER_MS : Nat := 2147483647

/-- `Number.isSafeInteger(value) && value > 0`, with the number it then is. -/
def positiveSafeInteger (value : JsNum) : Option Nat :=
  value.toNat?.filter fun n => 0 < n && n < 2 ^ 53

/-- `requirePositiveInteger` of a value or the default it replaces. -/
def requirePositiveInteger (value : Option JsNum) (fallback : Nat) : Except Thrown Nat :=
  match value with
  | none => .ok fallback
  | some value => (positiveSafeInteger value).elim (.error .thrown) .ok

def resolveTlsInspectionPolicy (policy : TlsInspectionOptions) : Except Thrown TlsInspectionPolicy := do
  let maxTotalTimeMs ← requirePositiveInteger policy.maxTotalTimeMs
    DEFAULT_TLS_INSPECTION_POLICY.maxTotalTimeMs
  let maxChainDepth ← requirePositiveInteger policy.maxChainDepth
    DEFAULT_TLS_INSPECTION_POLICY.maxChainDepth
  let maxCertificateBytes ← requirePositiveInteger policy.maxCertificateBytes
    DEFAULT_TLS_INSPECTION_POLICY.maxCertificateBytes
  if MAX_TIMER_MS < maxTotalTimeMs then .error .thrown
  else return { maxTotalTimeMs, maxChainDepth, maxCertificateBytes }

/-! ### Reading a certificate -/

/-- What is read of a `node:crypto` certificate; an invalid date has no time. -/
structure X509Certificate where
  subject : Text
  issuer : Text
  serialNumber : Text
  subjectAltName : Option Text
  validFrom : Option Int
  validTo : Option Int
  /-- `checkHost(name) !== undefined` -/
  checkHost : Text → Bool

/-- What the inspector takes from its platform. -/
structure TlsApi extends TransportApi where
  /-- `new X509Certificate(der)` -/
  parseX509 : Bytes → Option X509Certificate

inductive TlsCertificateAnalysisCode where
  | certificateMalformed
  | certificateTooLarge
  | chainTooDeep
deriving DecidableEq

/-- A bounded-analysis failure, or any other exception. -/
inductive NormalizeFault where
  | analysis (code : TlsCertificateAnalysisCode)
  | other
deriving DecidableEq

/-- CA/Browser Forum policy OIDs, highest assurance first. -/
def ASSURANCE_BY_OID : List (Text × CertificateAssuranceLevel) :=
  [(text "2.23.140.1.1", .ev), (text "2.23.140.1.2.2", .ov), (text "2.23.140.1.2.3", .iv),
    (text "2.23.140.1.2.1", .dv)]

def assuranceFor (policyOids : List Text) : CertificateAssuranceLevel :=
  ((ASSURANCE_BY_OID.find? fun entry => policyOids.contains entry.1).map Prod.snd).getD .unknown

def parseDnsSans (subjectAltName : Option Text) : List Text :=
  match subjectAltName with
  | none => []
  | some names =>
      if names = [] then []
      else (((names.split (unit ',')).map Text.trim).filter fun entry =>
        entry.startsWith (text "DNS:")).map fun entry => entry.drop 4

def matchesHostname (certificate : X509Certificate) (hostname : Text) : Bool :=
  if hostname = [] then false else certificate.checkHost hostname

/-- `a > b` of two dates, false when one of them is invalid. -/
def isAfter : Option Int → Option Int → Bool
  | some a, some b => decide (b < a)
  | _, _ => false

/-- `a >= b` of two dates. -/
def isNotBefore : Option Int → Option Int → Bool
  | some a, some b => decide (b ≤ a)
  | _, _ => false

def readPolicyOids (der : Bytes) : Except NormalizeFault (List Text) :=
  match readCertificatePolicyOids der with
  | .ok (_, oids) => .ok oids
  | .error (.parseError _) => .error (.analysis .certificateMalformed)
  | .error _ => .error .other

/-- The validation axes of a leaf, each computed from its own source. -/
def validateLeaf (observation : TlsHandshakeObservation) (leaf : X509Certificate) (hostname : Text)
    (observedMs : Option Int) : TlsCertificateValidation :=
  let hostnameMatch := matchesHostname leaf hostname
  let selfIssued := leaf.subject == leaf.issuer
  { chainTrusted := observation.chainTrusted
    hostnameMatch
    withinValidity := isNotBefore observedMs leaf.validFrom && isNotBefore leaf.validTo observedMs
    defects := (if isAfter observedMs leaf.validTo then [.expired] else [])
      ++ (if isAfter leaf.validFrom observedMs then [.notYetValid] else [])
      ++ (if hostnameMatch then [] else [.hostnameMismatch])
      ++ (if observation.chainTrusted then [] else [.untrusted])
      ++ if selfIssued && !observation.chainTrusted then [.selfSigned] else [] }

section
variable (api : TlsApi)

/-- `date.toISOString()` -/
def isoOf (date : Option Int) : Except NormalizeFault Text :=
  date.elim (.error .other) fun ms => .ok (api.iso ms)

def normalizeLeaf (leaf : X509Certificate) (policyOids : List Text) :
    Except NormalizeFault NormalizedCertificate := do
  let notBefore ← isoOf api leaf.validFrom
  let notAfter ← isoOf api leaf.validTo
  return { subject := leaf.subject, issuer := leaf.issuer, serialNumber := leaf.serialNumber
           subjectAltNames := parseDnsSans leaf.subjectAltName, policyOids
           assuranceLevel := assuranceFor policyOids, notBefore, notAfter
           selfIssued := leaf.subject == leaf.issuer }

def normalizeTlsCertificate (observation : TlsHandshakeObservation) (hostname : Text)
    (observedMs : Option Int) (options : TlsInspectionOptions) :
    Except NormalizeFault NormalizedTlsObservation :=
  match resolveTlsInspectionPolicy options with
  | .error _ => .error .other
  | .ok policy =>
      match observation.certificateChain with
      | [] => .error (.analysis .certificateMalformed)
      | leafDer :: rest =>
          let chain := leafDer :: rest
          if policy.maxChainDepth < chain.length then .error (.analysis .chainTooDeep)
          else if chain.any fun certificate => policy.maxCertificateBytes < certificate.length then
            .error (.analysis .certificateTooLarge)
          else
            match api.parseX509 leafDer with
            | none => .error (.analysis .certificateMalformed)
            | some leaf => do
                let policyOids ← readPolicyOids leafDer
                let normalizedLeaf ← normalizeLeaf api leaf policyOids
                return { serverName := observation.serverName
                         protocolVersion := observation.protocolVersion
                         leaf := normalizedLeaf
                         chainDepth := chain.length
                         validation := validateLeaf observation leaf hostname observedMs }

end

/-! ### What a normalized observation says -/

theorem isAfter_iff {a b : Option Int} :
    isAfter a b = true ↔ ∃ x y, a = some x ∧ b = some y ∧ y < x := by
  unfold isAfter
  split
  · simp
  · rename_i hnot
    simp only [Bool.false_eq_true, false_iff]
    rintro ⟨x, y, rfl, rfl, -⟩
    exact hnot x y rfl rfl

section
variable {observation : TlsHandshakeObservation} {leaf : X509Certificate} {hostname : Text}
  {observedMs : Option Int}

/-- The defects of a leaf, one axis each. -/
structure AxesIndependent (observation : TlsHandshakeObservation) (leaf : X509Certificate)
    (hostname : Text) (observedMs : Option Int) (validation : TlsCertificateValidation) : Prop where
  trust : validation.chainTrusted = observation.chainTrusted
  identity : validation.hostnameMatch = true ↔ hostname ≠ [] ∧ leaf.checkHost hostname = true
  expired : .expired ∈ validation.defects ↔
    ∃ now last, observedMs = some now ∧ leaf.validTo = some last ∧ last < now
  notYetValid : .notYetValid ∈ validation.defects ↔
    ∃ now first, observedMs = some now ∧ leaf.validFrom = some first ∧ now < first
  mismatch : .hostnameMismatch ∈ validation.defects ↔ validation.hostnameMatch = false
  untrusted : .untrusted ∈ validation.defects ↔ observation.chainTrusted = false
  selfSigned : .selfSigned ∈ validation.defects ↔
    leaf.subject = leaf.issuer ∧ observation.chainTrusted = false
  clear : ∀ now first last, observedMs = some now → leaf.validFrom = some first →
    leaf.validTo = some last → (validation.defects = [] ↔ validation.chainTrusted = true ∧
      validation.hostnameMatch = true ∧ validation.withinValidity = true)

theorem validateLeaf_axes :
    AxesIndependent observation leaf hostname observedMs
      (validateLeaf observation leaf hostname observedMs) where
  trust := rfl
  identity := by
    simp only [validateLeaf, matchesHostname]
    split <;> simp_all
  expired := by
    have hafter : isAfter observedMs leaf.validTo = true ↔
        ∃ now last, observedMs = some now ∧ leaf.validTo = some last ∧ last < now := isAfter_iff
    rw [← hafter]
    simp only [validateLeaf]
    constructor
    · intro h
      by_contra hnot
      simp only [hnot] at h
      simp at h
    · intro h
      simp [h]
  notYetValid := by
    have hafter : isAfter leaf.validFrom observedMs = true ↔
        ∃ first now, leaf.validFrom = some first ∧ observedMs = some now ∧ now < first := isAfter_iff
    have hswap : (∃ now first, observedMs = some now ∧ leaf.validFrom = some first ∧ now < first) ↔
        ∃ first now, leaf.validFrom = some first ∧ observedMs = some now ∧ now < first := by
      constructor
      · rintro ⟨now, first, hnow, hfirst, hlt⟩
        exact ⟨first, now, hfirst, hnow, hlt⟩
      · rintro ⟨first, now, hfirst, hnow, hlt⟩
        exact ⟨now, first, hnow, hfirst, hlt⟩
    rw [hswap, ← hafter]
    simp only [validateLeaf]
    constructor
    · intro h
      by_contra hnot
      simp only [hnot] at h
      simp at h
    · intro h
      simp [h]
  mismatch := by simp [validateLeaf]
  untrusted := by simp [validateLeaf]
  selfSigned := by simp [validateLeaf]
  clear := by
    rintro now first last rfl hfirst hlast
    simp only [validateLeaf, hfirst, hlast, isAfter, isNotBefore]
    by_cases hexpired : last < now
    · simp [hexpired]
    by_cases hearly : now < first
    · simp [hexpired, hearly]
    have hlate : first ≤ now := by omega
    have hcurrent : now ≤ last := by omega
    cases observation.chainTrusted <;> cases matchesHostname leaf hostname <;>
      simp [hexpired, hearly, hlate, hcurrent]

/-- The posture is the highest one a recognized policy stands for. -/
theorem assuranceFor_eq_ev (policyOids : List Text) :
    assuranceFor policyOids = .ev ↔ text "2.23.140.1.1" ∈ policyOids := by
  unfold assuranceFor ASSURANCE_BY_OID
  by_cases hev : text "2.23.140.1.1" ∈ policyOids
  · simp [hev]
  by_cases hov : text "2.23.140.1.2.2" ∈ policyOids
  · simp [hev, hov]
  by_cases hiv : text "2.23.140.1.2.3" ∈ policyOids
  · simp [hev, hov, hiv]
  by_cases hdv : text "2.23.140.1.2.1" ∈ policyOids
  · simp [hev, hov, hiv, hdv]
  · simp [hev, hov, hiv, hdv]

theorem assuranceFor_eq_unknown (policyOids : List Text) :
    assuranceFor policyOids = .unknown ↔ ∀ entry ∈ ASSURANCE_BY_OID, entry.1 ∉ policyOids := by
  unfold assuranceFor
  constructor
  · intro h entry hentry hmem
    cases hfound : ASSURANCE_BY_OID.find? fun entry => policyOids.contains entry.1 with
    | none =>
        have hnot := List.find?_eq_none.mp hfound entry hentry
        exact hnot (by simpa using hmem)
    | some found =>
        have known : ∀ entry ∈ ASSURANCE_BY_OID, entry.2 ≠ .unknown := by decide
        rw [hfound] at h
        exact known found (List.mem_of_find?_eq_some hfound) h
  · intro h
    have hnone : ASSURANCE_BY_OID.find? (fun entry => policyOids.contains entry.1) = none := by
      rw [List.find?_eq_none]
      intro entry hentry
      simpa using h entry hentry
    rw [hnone]
    rfl

/-- What an analysed chain comes from. -/
structure NormalizedFrom (api : TlsApi) (observation : TlsHandshakeObservation) (hostname : Text)
    (observedMs : Option Int) (options : TlsInspectionOptions)
    (normalized : NormalizedTlsObservation) (leafDer : Bytes) (leaf : X509Certificate) : Prop where
  bounded : ∃ policy, resolveTlsInspectionPolicy options = .ok policy ∧
    observation.certificateChain.length ≤ policy.maxChainDepth ∧
    ∀ certificate ∈ observation.certificateChain, certificate.length ≤ policy.maxCertificateBytes
  first : observation.certificateChain.head? = some leafDer
  parsed : api.parseX509 leafDer = some leaf
  depth : normalized.chainDepth = observation.certificateChain.length
  policies : ∃ visits, readCertificatePolicyOids leafDer = .ok (visits, normalized.leaf.policyOids)
  extended : normalized.leaf.assuranceLevel = .ev ↔
    text "2.23.140.1.1" ∈ normalized.leaf.policyOids
  unassured : normalized.leaf.assuranceLevel = .unknown ↔
    ∀ entry ∈ ASSURANCE_BY_OID, entry.1 ∉ normalized.leaf.policyOids
  axes : AxesIndependent observation leaf hostname observedMs normalized.validation

theorem readPolicyOids_ok {der : Bytes} {oids : List Text} (h : readPolicyOids der = .ok oids) :
    ∃ visits, readCertificatePolicyOids der = .ok (visits, oids) := by
  unfold readPolicyOids at h
  split at h
  · rename_i visits _ hread
    cases h
    exact ⟨visits, hread⟩
  · cases h
  · cases h

theorem normalizeLeaf_ok {api : TlsApi} {leaf : X509Certificate} {policyOids : List Text}
    {normalized : NormalizedCertificate} (h : normalizeLeaf api leaf policyOids = .ok normalized) :
    normalized.policyOids = policyOids ∧ normalized.assuranceLevel = assuranceFor policyOids := by
  obtain ⟨notBefore, -, h⟩ := bind_eq_ok.mp h
  obtain ⟨notAfter, -, h⟩ := bind_eq_ok.mp h
  cases h
  exact ⟨rfl, rfl⟩

theorem normalized_of_ok {api : TlsApi} {options : TlsInspectionOptions}
    {normalized : NormalizedTlsObservation}
    (h : normalizeTlsCertificate api observation hostname observedMs options = .ok normalized) :
    ∃ leafDer leaf,
      NormalizedFrom api observation hostname observedMs options normalized leafDer leaf := by
  unfold normalizeTlsCertificate at h
  split at h
  · cases h
  rename_i policy hpolicy
  split at h
  · cases h
  rename_i leafDer rest hchain
  simp only [] at h
  split at h
  · cases h
  rename_i hdepth
  split at h
  · cases h
  rename_i hsizes
  split at h
  · cases h
  rename_i leaf hleaf
  obtain ⟨oids, hoids, h⟩ := bind_eq_ok.mp h
  obtain ⟨normalizedLeaf, hnormal, h⟩ := bind_eq_ok.mp h
  cases h
  obtain ⟨hsame, hassured⟩ := normalizeLeaf_ok hnormal
  refine ⟨leafDer, leaf, ⟨policy, hpolicy, ?_, ?_⟩, ?_, hleaf, ?_, ?_, ?_, ?_, validateLeaf_axes⟩
  · rw [hchain]
    omega
  · intro certificate hcertificate
    rw [hchain] at hcertificate
    simp only [List.any_eq_true, decide_eq_true_eq, not_exists, not_and] at hsizes
    have := hsizes certificate hcertificate
    omega
  · rw [hchain]
    rfl
  · rw [hchain]
  · obtain ⟨visits, hvisits⟩ := readPolicyOids_ok hoids
    exact ⟨visits, hsame ▸ hvisits⟩
  · rw [hassured, hsame]
    exact assuranceFor_eq_ev oids
  · rw [hassured, hsame]
    exact assuranceFor_eq_unknown oids

end

end Linklint
