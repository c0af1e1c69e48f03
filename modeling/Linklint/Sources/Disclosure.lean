import Linklint.Sources.Contract

/-!
# What a cleared source may send

No gate looks at the channels that are sent and the channels that are consented
to together. That a gated channel is sent with consent only follows from the
checks of the two channel lists and from the runtime filter.
-/

namespace Linklint

open Value

/-! ### The checks of a value -/

theorem isStr_iff {value : Value} {literal : String} :
    value.isStr literal = true ↔ value = .str (text literal) := by
  cases value <;> simp [isStr]

theorem isText_iff {value : Value} {s : Text} : value.isText s = true ↔ value = .str s := by
  cases value <;> simp [isText]

theorem isNonEmptyString_iff {value : Value} :
    value.isNonEmptyString = true ↔ ∃ s, value = .str s ∧ s.trim ≠ [] := by
  cases value <;> simp [isNonEmptyString]

theorem isBool_iff {value : Value} : value.isBool = true ↔ ∃ b, value = .bool b := by
  cases value <;> simp [isBool]

theorem isLiteralTrue_iff {value : Value} : value.isLiteralTrue = true ↔ value = .bool true := by
  cases value <;> simp [isLiteralTrue]

theorem isLiteralFalse_iff {value : Value} : value.isLiteralFalse = true ↔ value = .bool false := by
  cases value <;> simp [isLiteralFalse]

theorem listsText_iff {value : Value} {s : Text} : value.listsText s = true ↔
    ∃ items, value = .arr items ∧ some (.str s) ∈ items := by
  have hany (items : List (Option Value)) :
      (items.any fun item => item.elim false fun v => v.isText s) = true ↔
        some (.str s) ∈ items := by
    rw [List.any_eq_true]
    constructor
    · rintro ⟨item, hmem, hitem⟩
      cases item with
      | none => cases hitem
      | some v => exact isText_iff.mp hitem ▸ hmem
    · exact fun hmem => ⟨_, hmem, isText_iff.mpr rfl⟩
  cases value <;> simp [listsText, slots?, hany]

/-- A non-empty array of such values; its holes are not looked at. -/
def ListOf (p : Value → Prop) (value : Value) : Prop :=
  ∃ items, value = .arr items ∧ items ≠ [] ∧ ∀ v, some v ∈ items → p v

theorem isListOf_iff {p : Value → Bool} {q : Value → Prop} (hp : ∀ v, p v = true ↔ q v)
    {value : Value} : value.isListOf p = true ↔ ListOf q value := by
  have hevery (items : List (Option Value)) :
      everySlot p items = true ↔ ∀ v, some v ∈ items → q v := by
    rw [everySlot, List.all_eq_true]
    constructor
    · exact fun h v hv => (hp v).mp (h (some v) hv)
    · intro h item hitem
      cases item with
      | none => rfl
      | some v => exact (hp v).mpr (h v hitem)
  cases value <;> simp [isListOf, ListOf, slots?, hevery]

def NonBlank (value : Value) : Prop := ∃ s, value = .str s ∧ s.trim ≠ []

def IsChannel (value : Value) : Prop := ∃ channel : DisclosureChannel, value = .str channel.name

def IsMode (value : Value) : Prop := ∃ mode : CommercialMode, value = .str mode.name

theorem isDisclosureChannel_iff {value : Value} :
    isDisclosureChannel value = true ↔ IsChannel value := by
  have hall : ∀ channel : DisclosureChannel, channel ∈ DISCLOSURE_CHANNELS := by
    intro channel
    cases channel <;> decide
  simp [isDisclosureChannel, isAnyOf, isText_iff, IsChannel, hall]

theorem isConsentGatedChannel_iff {value : Value} :
    isConsentGatedChannel value = true ↔ ∃ channel ∈ CONSENT_GATED_CHANNELS, value = .str channel.name := by
  simp [isConsentGatedChannel, isAnyOf, isText_iff]

theorem isCommercialMode_iff {value : Value} : isCommercialMode value = true ↔ IsMode value := by
  have hall : ∀ mode : CommercialMode, mode ∈ COMMERCIAL_MODES := by
    intro mode
    cases mode <;> decide
  simp [isCommercialMode, isAnyOf, isText_iff, IsMode, hall]

/-! ### Consistent descriptors -/

section
variable (descriptor : Value)

/-- The source sends the channel. -/
def Sends (channel : DisclosureChannel) : Prop :=
  ∃ items, (descriptor.field "disclosure").field "sends" = .arr items ∧
    some (.str channel.name) ∈ items

/-- The source declares that the channel needs consent. -/
def RequiresConsent (channel : DisclosureChannel) : Prop :=
  ∃ items, (descriptor.field "disclosure").field "consentRequired" = .arr items ∧
    some (.str channel.name) ∈ items

/-- A source identified by whom it is and what it emits. -/
structure Identified : Prop where
  id : NonBlank (descriptor.field "id")
  displayName : NonBlank (descriptor.field "displayName")
  version : NonBlank (descriptor.field "version")
  layer : descriptor.field "layer" = .str (text "resolution") ∨
    descriptor.field "layer" = .str (text "reputation")
  evidenceScope : ListOf NonBlank (descriptor.field "evidenceScope")

/-- Known channels, and consent asked for exactly the gated ones that are sent. -/
structure DisclosesChannels : Prop where
  recipient : NonBlank ((descriptor.field "disclosure").field "recipient")
  channels : ListOf IsChannel ((descriptor.field "disclosure").field "sends")
  alone : Sends descriptor .none →
    ∃ item, (descriptor.field "disclosure").field "sends" = .arr [item]
  gated : ∃ items, (descriptor.field "disclosure").field "consentRequired" = .arr items ∧
    ∀ item ∈ items, ∃ channel ∈ CONSENT_GATED_CHANNELS, item = some (.str channel.name)
  consent : ∀ channel ∈ CONSENT_GATED_CHANNELS,
    RequiresConsent descriptor channel ↔ Sends descriptor channel

/-- The terms, the credential and the origin are of a known kind. -/
structure DeclaresTerms : Prop where
  credentials : (descriptor.field "credentials").field "kind" = .str (text "none") ∨
    ((descriptor.field "credentials").field "kind" = .str (text "required") ∨
      (descriptor.field "credentials").field "kind" = .str (text "optional")) ∧
      NonBlank ((descriptor.field "credentials").field "label")
  modes : ListOf IsMode ((descriptor.field "terms").field "supportedModes")
  attribution : ∃ b, (descriptor.field "terms").field "attributionRequired" = .bool b
  origin :
    ((descriptor.field "dataOrigin").field "kind" = .str (text "live-provider") ∧
      NonBlank ((descriptor.field "dataOrigin").field "recipient")) ∨
    ((descriptor.field "dataOrigin").field "kind" = .str (text "caller-owned-mirror") ∧
      (descriptor.field "dataOrigin").field "bundled" = .bool false)

/-- What the source says about the meaning of its answers. -/
structure DeclaresMeaning : Prop where
  declaresExpiry : ∃ b, (descriptor.field "freshness").field "declaresExpiry" = .bool b
  staleWhenExpired : ∃ b, (descriptor.field "freshness").field "staleWhenExpired" = .bool b
  scoring : descriptor.field "scoring" = .str (text "evidence-only") ∨
    descriptor.field "scoring" = .str (text "conjunctive-finding")
  noMatch : descriptor.field "noMatchSemantics" = .str (text "absence-is-not-safety")

structure ConsistentDescriptor : Prop where
  identified : Identified descriptor
  discloses : DisclosesChannels descriptor
  terms : DeclaresTerms descriptor
  meaning : DeclaresMeaning descriptor

variable {descriptor} {shown : Value → Text}

theorem check_eq_none {ok : Bool} {message : Text} : check ok message = none ↔ ok = true := by
  cases ok <;> simp [check]

theorem orElse_eq_none {a b : Option Text} : (a <|> b) = none ↔ a = none ∧ b = none := by
  cases a <;> simp

theorem identityFault_eq_none : identityFault descriptor = none ↔ Identified descriptor := by
  simp only [identityFault, orElse_eq_none, check_eq_none, isNonEmptyString_iff, Bool.or_eq_true,
    isStr_iff, isListOf_iff (fun _ => isNonEmptyString_iff)]
  constructor
  · rintro ⟨id, displayName, version, layer, scope⟩
    exact ⟨id, displayName, version, layer, scope⟩
  · rintro ⟨id, displayName, version, layer, scope⟩
    exact ⟨id, displayName, version, layer, scope⟩

/-- An entry of `consentRequired` passes when it is a gated channel that is sent. -/
theorem consentFault_eq_none {sends : Value} {item : Option Value} :
    consentFault shown sends item = none ↔ ∃ channel ∈ CONSENT_GATED_CHANNELS,
      item = some (.str channel.name) ∧ ∃ items, sends = .arr items ∧
        some (.str channel.name) ∈ items := by
  simp only [consentFault, orElse_eq_none, check_eq_none, isConsentGatedChannel_iff, listsText_iff]
  constructor
  · rintro ⟨⟨channel, hgated, hchannel⟩, items, hitems, hmem⟩
    rw [hchannel] at hmem
    cases item with
    | none => cases hchannel
    | some v =>
        rw [Option.getD_some] at hchannel
        exact ⟨channel, hgated, congrArg some hchannel, items, hitems, hmem⟩
  · rintro ⟨channel, hgated, rfl, items, hitems, hmem⟩
    exact ⟨⟨channel, hgated, rfl⟩, items, hitems, hmem⟩

/-- An entry of `sends` passes when it is listed or needs no consent. -/
theorem sendFault_eq_none {consentRequired : Value} {item : Option Value} :
    sendFault shown consentRequired item = none ↔ ∀ channel ∈ CONSENT_GATED_CHANNELS,
      item = some (.str channel.name) → ∃ items, consentRequired = .arr items ∧
        some (.str channel.name) ∈ items := by
  simp only [sendFault, check_eq_none, Bool.or_eq_true, Bool.not_eq_true', Bool.eq_false_iff, ne_eq,
    isConsentGatedChannel_iff, listsText_iff]
  constructor
  · rintro (hfree | hlisted) channel hgated rfl
    · exact absurd ⟨channel, hgated, rfl⟩ hfree
    · exact hlisted
  · intro h
    by_cases hgated : ∃ channel ∈ CONSENT_GATED_CHANNELS, item.getD .undefined = .str channel.name
    · obtain ⟨channel, hgated, hchannel⟩ := hgated
      cases item with
      | none => cases hchannel
      | some v =>
          rw [Option.getD_some] at hchannel
          subst hchannel
          exact Or.inr (h channel hgated rfl)
    · exact Or.inl hgated

theorem disclosureFault_eq_none :
    disclosureFault shown descriptor = none ↔ DisclosesChannels descriptor := by
  simp only [disclosureFault, orElse_eq_none, check_eq_none, isNonEmptyString_iff,
    isListOf_iff (fun _ => isDisclosureChannel_iff), List.findSome?_eq_none_iff,
    consentFault_eq_none, sendFault_eq_none, Bool.or_eq_true, Bool.not_eq_true', Bool.eq_false_iff,
    ne_eq, listsText_iff, beq_iff_eq]
  constructor
  · rintro ⟨recipient, channels, alone, array, listed, sent⟩
    have ⟨sends, hsends, _⟩ := channels
    obtain ⟨required, hrequired⟩ : ∃ required,
        (descriptor.field "disclosure").field "consentRequired" = .arr required := by
      cases hvalue : (descriptor.field "disclosure").field "consentRequired" with
      | arr required => exact ⟨required, rfl⟩
      | _ => simp [hvalue, slots?] at array
    rw [hrequired] at listed sent
    rw [hsends] at alone listed sent
    refine ⟨recipient, channels, ?_, ⟨required, hrequired, ?_⟩, ?_⟩
    · rintro ⟨items, hitems, hnone⟩
      obtain rfl : sends = items := by simpa [hsends] using hitems
      have hlength : sends.length = 1 := by
        rcases alone with hno | hone
        · exact absurd ⟨sends, rfl, hnone⟩ hno
        · exact hone
      obtain ⟨item, rfl⟩ := List.length_eq_one_iff.mp hlength
      exact ⟨item, hsends⟩
    · intro item hitem
      obtain ⟨channel, hgated, hchannel, -⟩ := listed item hitem
      exact ⟨channel, hgated, hchannel⟩
    · intro channel hgated
      constructor
      · rintro ⟨items, hitems, hmem⟩
        obtain rfl : required = items := by simpa [hrequired] using hitems
        obtain ⟨channel', -, hchannel, items, hitems, hsent⟩ := listed _ hmem
        rw [← hchannel] at hsent
        exact ⟨items, hsends.trans hitems, hsent⟩
      · rintro ⟨items, hitems, hmem⟩
        obtain rfl : sends = items := by simpa [hsends] using hitems
        obtain ⟨items, hlisted, hmem⟩ := sent _ hmem channel hgated rfl
        exact ⟨items, hrequired.trans hlisted, hmem⟩
  · rintro ⟨recipient, channels, alone, ⟨required, hrequired, gated⟩, consent⟩
    have ⟨sends, hsends, _⟩ := channels
    refine ⟨recipient, channels, ?_, by rw [hrequired]; rfl, ?_, ?_⟩
    · by_cases hnone : Sends descriptor .none
      · obtain ⟨item, hitem⟩ := alone hnone
        rw [hitem]
        exact Or.inr rfl
      · exact Or.inl hnone
    · rw [hrequired]
      intro item hitem
      obtain ⟨channel, hgated, rfl⟩ := gated item hitem
      exact ⟨channel, hgated, rfl, (consent channel hgated).mp ⟨required, hrequired, hitem⟩⟩
    · rw [hsends]
      rintro item hitem channel hgated rfl
      exact (consent channel hgated).mpr ⟨sends, hsends, hitem⟩

theorem credentialsFault_eq_none : credentialsFault descriptor = none ↔
    (descriptor.field "credentials").field "kind" = .str (text "none") ∨
      ((descriptor.field "credentials").field "kind" = .str (text "required") ∨
        (descriptor.field "credentials").field "kind" = .str (text "optional")) ∧
        NonBlank ((descriptor.field "credentials").field "label") := by
  have hrequired : text "required" ≠ text "none" := by decide
  have hoptional : text "optional" ≠ text "none" := by decide
  simp only [credentialsFault]
  generalize (descriptor.field "credentials").field "kind" = kind
  have hkind : (kind.isStr "required" || kind.isStr "optional") = true ↔
      kind = .str (text "required") ∨ kind = .str (text "optional") := by
    rw [Bool.or_eq_true, isStr_iff, isStr_iff]
  by_cases hslot : (kind.isStr "required" || kind.isStr "optional") = true
  · have hnone : kind ≠ .str (text "none") := by
      rcases hkind.mp hslot with rfl | rfl
      · simpa using hrequired
      · simpa using hoptional
    rw [if_pos hslot, check_eq_none, isNonEmptyString_iff]
    simp [hnone, hkind.mp hslot, NonBlank]
  · rw [if_neg hslot, check_eq_none, isStr_iff]
    simp [mt hkind.mpr hslot]

theorem originFault_eq_none : originFault descriptor = none ↔
    ((descriptor.field "dataOrigin").field "kind" = .str (text "live-provider") ∧
      NonBlank ((descriptor.field "dataOrigin").field "recipient")) ∨
    ((descriptor.field "dataOrigin").field "kind" = .str (text "caller-owned-mirror") ∧
      (descriptor.field "dataOrigin").field "bundled" = .bool false) := by
  have hkinds : text "live-provider" ≠ text "caller-owned-mirror" := by decide
  simp only [originFault]
  generalize (descriptor.field "dataOrigin").field "kind" = kind
  by_cases hlive : kind.isStr "live-provider" = true
  · obtain rfl := isStr_iff.mp hlive
    rw [if_pos hlive, check_eq_none, isNonEmptyString_iff]
    simp [hkinds, NonBlank]
  · rw [if_neg hlive]
    have hother : kind ≠ .str (text "live-provider") := mt isStr_iff.mpr hlive
    by_cases hmirror : kind.isStr "caller-owned-mirror" = true
    · obtain rfl := isStr_iff.mp hmirror
      rw [if_pos hmirror, check_eq_none, isLiteralFalse_iff]
      simp [hkinds.symm]
    · have hneither : kind ≠ .str (text "caller-owned-mirror") := mt isStr_iff.mpr hmirror
      rw [if_neg hmirror]
      simp [hother, hneither]

theorem termsFault_eq_none : termsFault descriptor = none ↔
    ListOf IsMode ((descriptor.field "terms").field "supportedModes") ∧
      ∃ b, (descriptor.field "terms").field "attributionRequired" = .bool b := by
  simp only [termsFault, orElse_eq_none, check_eq_none, isBool_iff,
    isListOf_iff (fun _ => isCommercialMode_iff)]

theorem honestyFault_eq_none : honestyFault descriptor = none ↔ DeclaresMeaning descriptor := by
  simp only [honestyFault, orElse_eq_none, check_eq_none, Bool.and_eq_true, Bool.or_eq_true,
    isBool_iff, isStr_iff]
  constructor
  · rintro ⟨⟨expiry, stale⟩, scoring, semantics⟩
    exact ⟨expiry, stale, scoring, semantics⟩
  · rintro ⟨expiry, stale, scoring, semantics⟩
    exact ⟨⟨expiry, stale⟩, scoring, semantics⟩

theorem descriptorFault_eq_none :
    descriptorFault shown descriptor = none ↔ ConsistentDescriptor descriptor := by
  simp only [descriptorFault, orElse_eq_none, identityFault_eq_none, disclosureFault_eq_none,
    credentialsFault_eq_none, termsFault_eq_none, originFault_eq_none, honestyFault_eq_none]
  constructor
  · rintro ⟨identified, discloses, credentials, ⟨modes, attribution⟩, origin, meaning⟩
    exact ⟨identified, discloses, ⟨credentials, modes, attribution, origin⟩, meaning⟩
  · rintro ⟨identified, discloses, ⟨credentials, modes, attribution, origin⟩, meaning⟩
    exact ⟨identified, discloses, credentials, ⟨modes, attribution⟩, origin, meaning⟩

/-- Validation accepts the consistent descriptors and no others. -/
theorem assertValid_iff :
    assertValidSourceDescriptor shown descriptor = .ok () ↔ ConsistentDescriptor descriptor := by
  rw [assertValidSourceDescriptor, ← @descriptorFault_eq_none descriptor shown]
  cases descriptorFault shown descriptor <;> simp

/-- A gated channel that is sent but not listed is refused. -/
theorem unlisted_refused {channel : DisclosureChannel} (hgated : channel ∈ CONSENT_GATED_CHANNELS)
    (hsends : Sends descriptor channel) (hunlisted : ¬ RequiresConsent descriptor channel) :
    ∃ error, assertValidSourceDescriptor shown descriptor = .error error ∧
      error.code = .invalidDescriptor := by
  cases hfault : descriptorFault shown descriptor with
  | none =>
      have consistent := descriptorFault_eq_none.mp hfault
      exact absurd ((consistent.discloses.consent channel hgated).mpr hsends) hunlisted
  | some message =>
      rw [assertValidSourceDescriptor, hfault]
      exact ⟨_, rfl, rfl⟩

end

/-! ### The gates -/

section
variable (descriptor : Value) (config : OnlineSourceConfig)

/-- The mode is among the supported ones; a hole in the list stands for `undefined`. -/
def SupportsMode (mode : Value) : Prop :=
  ∃ items, (descriptor.field "terms").field "supportedModes" = .arr items ∧
    (some mode ∈ items ∨ (mode = .undefined ∧ none ∈ items))

/-- A consistent descriptor whose terms the caller accepts. -/
structure Acceptable : Prop where
  consistent : ConsistentDescriptor descriptor
  mode : SupportsMode descriptor config.commercialMode
  attribution : (descriptor.field "terms").field "attributionRequired" = .bool true →
    config.acceptAttribution = .bool true

/-- The channel is in the caller's consent list. -/
def Consents (channel : DisclosureChannel) : Prop :=
  ∃ items, config.consent.field "allow" = .arr items ∧ some (.str channel.name) ∈ items

def RequiresCredential : Prop :=
  (descriptor.field "credentials").field "kind" = .str (text "required")

def MissingCredential : Prop :=
  RequiresCredential descriptor ∧ ∀ revealed, config.credential ≠ .secret revealed

/-- The consent list is absent, an array, or a text. -/
def ReadableConsent : Prop :=
  config.consent.field "allow" = .undefined ∨ config.consent.field "allow" = .null ∨
    (∃ items, config.consent.field "allow" = .arr items) ∨
    ∃ s, config.consent.field "allow" = .str s

def MissingConsent : Prop :=
  ReadableConsent config ∧ ∃ channel, RequiresConsent descriptor channel ∧ ¬ Consents config channel

variable {descriptor config} {shown : Value → Text}

theorem supportsMode_iff {mode : Value}
    (modes : ListOf IsMode ((descriptor.field "terms").field "supportedModes")) :
    supportsMode descriptor mode = true ↔ SupportsMode descriptor mode := by
  obtain ⟨items, hitems, -, known⟩ := modes
  have hsupports : SupportsMode descriptor mode ↔
      some mode ∈ items ∨ (mode = .undefined ∧ none ∈ items) := by
    constructor
    · rintro ⟨items', hitems', h⟩
      obtain rfl : items = items' := by simpa [hitems] using hitems'
      exact h
    · exact fun h => ⟨items, hitems, h⟩
  have hunknown (hmode : ∀ s, mode ≠ .str s) : some mode ∉ items := by
    intro hmem
    obtain ⟨known, hknown⟩ := known mode hmem
    exact hmode _ hknown
  rw [hsupports]
  cases mode with
  | str s => simp [supportsMode, hitems, listsText_iff]
  | undefined =>
      have habsent := hunknown (by simp)
      simp [supportsMode, hitems, slots?, habsent]
  | null => simpa [supportsMode] using hunknown (by simp)
  | bool b => simpa [supportsMode] using hunknown (by simp)
  | num n => simpa [supportsMode] using hunknown (by simp)
  | arr entries => simpa [supportsMode] using hunknown (by simp)
  | obj fields => simpa [supportsMode] using hunknown (by simp)
  | other => simpa [supportsMode] using hunknown (by simp)

theorem accepted_iff : assertSourceTermsAccepted shown descriptor config = .ok () ↔
    Acceptable descriptor config := by
  rw [assertSourceTermsAccepted]
  cases hvalid : assertValidSourceDescriptor shown descriptor with
  | error error =>
      have hinconsistent : ¬ ConsistentDescriptor descriptor := by
        rw [← @assertValid_iff descriptor shown, hvalid]
        exact fun h => nomatch h
      exact iff_of_false (fun h => nomatch h) fun h => hinconsistent h.consistent
  | ok accepted =>
      have consistent := (@assertValid_iff descriptor shown).mp hvalid
      have hmode := @supportsMode_iff descriptor config.commercialMode consistent.terms.modes
      by_cases hsupports : supportsMode descriptor config.commercialMode = true
      · by_cases hattribution : ((descriptor.field "terms").field "attributionRequired") = .bool true
        · by_cases haccepts : config.acceptAttribution = .bool true
          · have hacceptable : Acceptable descriptor config :=
              ⟨consistent, hmode.mp hsupports, fun _ => haccepts⟩
            simp [hsupports, isLiteralTrue_iff.mpr haccepts, hacceptable]
          · have hunacceptable : ¬ Acceptable descriptor config :=
              fun h => haccepts (h.attribution hattribution)
            have hdeclined : config.acceptAttribution.isLiteralTrue = false := by
              rw [Bool.eq_false_iff]
              exact mt isLiteralTrue_iff.mp haccepts
            simp [hsupports, isLiteralTrue_iff.mpr hattribution, hdeclined, hunacceptable]
        · have hacceptable : Acceptable descriptor config :=
            ⟨consistent, hmode.mp hsupports, fun h => absurd h hattribution⟩
          have hfree : ((descriptor.field "terms").field "attributionRequired").isLiteralTrue =
              false := by
            rw [Bool.eq_false_iff]
            exact mt isLiteralTrue_iff.mp hattribution
          simp [hsupports, hfree, hacceptable]
      · have hunacceptable : ¬ Acceptable descriptor config :=
          fun h => hsupports (hmode.mpr h.mode)
        simp [hsupports, hunacceptable]

/-- No single character of a text is a channel. -/
theorem channel_name_long (channel : DisclosureChannel) : 2 < channel.name.length := by
  cases channel <;> decide

theorem granted_iff {granted : List Value} (h : grantedChannels config = .ok granted)
    (channel : DisclosureChannel) :
    granted.any (isText · channel.name) = true ↔ Consents config channel := by
  have hany : granted.any (isText · channel.name) = true ↔ .str channel.name ∈ granted := by
    simp [List.any_eq_true, isText_iff]
  rw [hany, Consents]
  rw [grantedChannels] at h
  cases hallow : config.consent.field "allow" with
  | undefined => simp_all
  | null => simp_all
  | arr items =>
      simp only [hallow, Except.ok.injEq] at h
      subst h
      simp only [List.mem_map, Value.arr.injEq, exists_eq_left']
      constructor
      · rintro ⟨item, hitem, hchannel⟩
        cases item with
        | none => cases hchannel
        | some v =>
            rw [Option.getD_some] at hchannel
            exact hchannel ▸ hitem
      · exact fun hitem => ⟨_, hitem, rfl⟩
  | str s =>
      simp only [hallow, Except.ok.injEq] at h
      subst h
      have hlong := channel_name_long channel
      simp only [List.mem_map, Value.str.injEq, reduceCtorEq, false_and, exists_false, iff_false,
        not_exists, not_and]
      intro cp _ hcp
      have hshort : (encodeCodePoint cp).length ≤ 2 := by
        rw [encodeCodePoint]
        split <;> simp
      rw [hcp] at hshort
      omega
  | bool b => simp [hallow] at h
  | num n => simp [hallow] at h
  | obj fields => simp [hallow] at h
  | other => simp [hallow] at h

theorem readable_iff : ReadableConsent config ↔ ∃ granted, grantedChannels config = .ok granted := by
  rw [ReadableConsent, grantedChannels]
  cases config.consent.field "allow" <;> simp

theorem missingCredential_iff : (((descriptor.field "credentials").field "kind").isStr "required" &&
    !isOnlineSecret config.credential) = true ↔ MissingCredential descriptor config := by
  rw [Bool.and_eq_true, isStr_iff, MissingCredential, RequiresCredential]
  cases config.credential <;> simp [isOnlineSecret]

/-- The required channels of a consistent descriptor are gated channels. -/
theorem mem_consentRequired (consistent : ConsistentDescriptor descriptor) {s : Text} :
    s ∈ consentRequired descriptor ↔
      ∃ channel, s = channel.name ∧ RequiresConsent descriptor channel := by
  obtain ⟨items, hitems, gated⟩ := consistent.discloses.gated
  rw [consentRequired, hitems]
  simp only [slots?, Option.getD_some, List.mem_filterMap]
  constructor
  · rintro ⟨item, hitem, hs⟩
    obtain ⟨channel, -, rfl⟩ := gated item hitem
    obtain rfl := Option.some.inj hs
    exact ⟨channel, rfl, items, hitems, hitem⟩
  · rintro ⟨channel, rfl, items', hitems', hmem⟩
    obtain rfl : items = items' := by simpa [hitems] using hitems'
    exact ⟨_, hmem, rfl⟩

/-- What the runtime filter leaves is empty when every required channel is consented to. -/
theorem missing_eq_nil_iff (consistent : ConsistentDescriptor descriptor) {granted : List Value}
    (h : grantedChannels config = .ok granted) :
    (consentRequired descriptor).filter (fun s => !granted.any (isText · s)) = [] ↔
      ∀ channel, RequiresConsent descriptor channel → Consents config channel := by
  rw [List.filter_eq_nil_iff]
  constructor
  · intro hall channel hrequired
    have hgranted := hall _ ((mem_consentRequired consistent).mpr ⟨channel, rfl, hrequired⟩)
    rw [Bool.not_eq_true', Bool.not_eq_false] at hgranted
    exact (granted_iff h channel).mp hgranted
  · intro hall s hs
    obtain ⟨channel, rfl, hrequired⟩ := (mem_consentRequired consistent).mp hs
    rw [Bool.not_eq_true', Bool.not_eq_false]
    exact (granted_iff h channel).mpr (hall channel hrequired)

variable (shown descriptor config)

/-- The ways a preflight can end. -/
inductive PreflightRun : Except PreflightError OnlineSourcePreflight → Prop where
  | unacceptable (error : OnlineSourceConfigError) (refused : ¬ Acceptable descriptor config) :
      PreflightRun (.error (.config error))
  | noCredential (acceptable : Acceptable descriptor config)
      (missing : MissingCredential descriptor config) :
      PreflightRun (.ok (.refused (credentialsMissing shown descriptor)))
  | unreadable (acceptable : Acceptable descriptor config)
      (present : ¬ MissingCredential descriptor config) (unread : ¬ ReadableConsent config) :
      PreflightRun (.error .typeError)
  | noConsent (channels : List Text) (acceptable : Acceptable descriptor config)
      (present : ¬ MissingCredential descriptor config)
      (missing : MissingConsent descriptor config) :
      PreflightRun (.ok (.refused (consentMissing shown descriptor channels)))
  | cleared (credential : Option Text) (disclosure : List (Option Value))
      (acceptable : Acceptable descriptor config)
      (present : ¬ MissingCredential descriptor config)
      (consented : ∀ channel, RequiresConsent descriptor channel → Consents config channel)
      (readable : ReadableConsent config)
      (revealed : ∀ secret, config.credential = .secret secret → credential = some secret)
      (sends : (descriptor.field "disclosure").field "sends" = .arr disclosure) :
      PreflightRun (.ok (.ready credential disclosure))

variable {shown descriptor config}

theorem preflight_run :
    PreflightRun descriptor config shown (preflightOnlineSource shown descriptor config) := by
  rw [preflightOnlineSource]
  cases haccepted : assertSourceTermsAccepted shown descriptor config with
  | error error =>
      refine .unacceptable error ?_
      rw [← @accepted_iff descriptor config shown, haccepted]
      exact fun h => nomatch h
  | ok accepted =>
      have acceptable := (@accepted_iff descriptor config shown).mp haccepted
      have hmissing := @missingCredential_iff descriptor config
      by_cases hcredential : MissingCredential descriptor config
      · simp only [hmissing.mpr hcredential, if_true]
        exact .noCredential acceptable hcredential
      · simp only [mt hmissing.mp hcredential]
        cases hgranted : grantedChannels config with
        | error error =>
            have hunread : ¬ ReadableConsent config := by
              rw [readable_iff, hgranted]
              exact fun ⟨_, h⟩ => nomatch h
            have htype : error = .typeError := by
              rw [grantedChannels] at hgranted
              cases hallow : config.consent.field "allow" <;> simp_all
            rw [htype]
            exact .unreadable acceptable hcredential hunread
        | ok granted =>
            have hnone := missing_eq_nil_iff acceptable.consistent hgranted
            by_cases hfilter :
                (consentRequired descriptor).filter (fun s => !granted.any (isText · s)) = []
            · obtain ⟨sends, hsends, -⟩ := acceptable.consistent.discloses.channels
              simp only [hfilter, ne_eq, not_true_eq_false, if_false, hsends, slots?,
                Option.getD_some]
              have hreadable := readable_iff.mpr ⟨granted, hgranted⟩
              refine .cleared _ sends acceptable hcredential (hnone.mp hfilter) hreadable ?_ hsends
              intro secret hsecret
              rw [hsecret]
            · simp only [ne_eq, hfilter, not_false_eq_true, if_true]
              have hmissingConsent := mt hnone.mpr hfilter
              simp only [not_forall] at hmissingConsent
              obtain ⟨channel, hrequired, hdenied⟩ := hmissingConsent
              refine .noConsent _ acceptable hcredential ⟨?_, channel, hrequired, hdenied⟩
              exact readable_iff.mpr ⟨granted, hgranted⟩

section
variable {result : Except PreflightError OnlineSourcePreflight}

theorem PreflightRun.refused_iff (run : PreflightRun descriptor config shown result) :
    (∃ cause, result = .ok (.refused cause)) ↔ Acceptable descriptor config ∧
      (MissingCredential descriptor config ∨ MissingConsent descriptor config) := by
  cases run with
  | unacceptable error refused =>
      exact iff_of_false (fun ⟨_, h⟩ => nomatch h) fun h => refused h.1
  | noCredential acceptable missing => exact iff_of_true ⟨_, rfl⟩ ⟨acceptable, Or.inl missing⟩
  | unreadable acceptable present unread =>
      refine iff_of_false (fun ⟨_, h⟩ => nomatch h) fun ⟨_, hmissing⟩ => ?_
      rcases hmissing with hcredential | hconsent
      · exact present hcredential
      · exact unread hconsent.1
  | noConsent channels acceptable present missing =>
      exact iff_of_true ⟨_, rfl⟩ ⟨acceptable, Or.inr missing⟩
  | cleared credential disclosure acceptable present consented revealed sends =>
      refine iff_of_false (fun ⟨_, h⟩ => nomatch h) fun ⟨_, hmissing⟩ => ?_
      rcases hmissing with hcredential | ⟨_, channel, hrequired, hdenied⟩
      · exact present hcredential
      · exact hdenied (consented channel hrequired)

theorem PreflightRun.thrown_iff (run : PreflightRun descriptor config shown result) :
    (∃ error, result = .error error) ↔ ¬ Acceptable descriptor config ∨
      (¬ MissingCredential descriptor config ∧ ¬ ReadableConsent config ∧
        Acceptable descriptor config) := by
  cases run with
  | unacceptable error refused => exact iff_of_true ⟨_, rfl⟩ (Or.inl refused)
  | noCredential acceptable missing =>
      refine iff_of_false (fun ⟨_, h⟩ => nomatch h) fun h => ?_
      rcases h with hrefused | ⟨hpresent, _⟩
      · exact hrefused acceptable
      · exact hpresent missing
  | unreadable acceptable present unread =>
      exact iff_of_true ⟨_, rfl⟩ (Or.inr ⟨present, unread, acceptable⟩)
  | noConsent channels acceptable present missing =>
      refine iff_of_false (fun ⟨_, h⟩ => nomatch h) fun h => ?_
      rcases h with hrefused | ⟨_, hunread, _⟩
      · exact hrefused acceptable
      · exact hunread missing.1
  | cleared credential disclosure acceptable present consented readable revealed sends =>
      refine iff_of_false (fun ⟨_, h⟩ => nomatch h) fun h => ?_
      rcases h with hrefused | ⟨_, hunread, _⟩
      · exact hrefused acceptable
      · exact hunread readable

/-- A cleared run has its credential, and every gated channel it sends is consented to. -/
theorem PreflightRun.of_ready {credential : Option Text} {disclosure : List (Option Value)}
    (run : PreflightRun descriptor config shown (.ok (.ready credential disclosure))) :
    Acceptable descriptor config ∧
      (RequiresCredential descriptor →
        ∃ secret, config.credential = .secret secret ∧ credential = some secret) ∧
      ∀ channel ∈ CONSENT_GATED_CHANNELS, some (.str channel.name) ∈ disclosure →
        Consents config channel := by
  cases run with
  | cleared _ _ acceptable present consented readable revealed sends =>
      refine ⟨acceptable, fun required => ?_, fun channel hgated hsent => ?_⟩
      · cases hcredential : config.credential with
        | secret secret => exact ⟨secret, rfl, revealed secret hcredential⟩
        | unbranded value =>
            refine absurd ⟨required, fun secret hsecret => ?_⟩ present
            rw [hcredential] at hsecret
            cases hsecret
      · apply consented channel
        exact (acceptable.consistent.discloses.consent channel hgated).mpr ⟨disclosure, sends, hsent⟩

end

variable (descriptor config shown)

/-- What a preflight lets through, refuses and throws at. -/
structure DisclosurePreflight : Prop where
  ready : ∀ credential disclosure,
    preflightOnlineSource shown descriptor config = .ok (.ready credential disclosure) →
      Acceptable descriptor config ∧
      (RequiresCredential descriptor →
        ∃ secret, config.credential = .secret secret ∧ credential = some secret) ∧
      ∀ channel ∈ CONSENT_GATED_CHANNELS, some (.str channel.name) ∈ disclosure →
        Consents config channel
  refused : (∃ cause, preflightOnlineSource shown descriptor config = .ok (.refused cause)) ↔
    Acceptable descriptor config ∧
      (MissingCredential descriptor config ∨ MissingConsent descriptor config)
  thrown : (∃ error, preflightOnlineSource shown descriptor config = .error error) ↔
    ¬ Acceptable descriptor config ∨
      (¬ MissingCredential descriptor config ∧ ¬ ReadableConsent config ∧
        Acceptable descriptor config)
  unlisted : ∀ channel ∈ CONSENT_GATED_CHANNELS, Sends descriptor channel →
    ¬ RequiresConsent descriptor channel →
      ∃ error, assertValidSourceDescriptor shown descriptor = .error error ∧
        error.code = .invalidDescriptor

theorem disclosure_preflight : DisclosurePreflight descriptor config shown where
  ready credential disclosure h := by
    have run := @preflight_run descriptor config shown
    rw [h] at run
    exact run.of_ready
  refused := preflight_run.refused_iff
  thrown := preflight_run.thrown_iff
  unlisted channel hgated hsends hunlisted := unlisted_refused hgated hsends hunlisted

end

end Linklint
