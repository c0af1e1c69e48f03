import Linklint.Js.Date
import Linklint.Policy.Axes
import Linklint.Schema.EnrichmentGuards

/-!
# The contract of an online source

A descriptor is what a source publishes about itself. It is checked before it is
used, so it is a value here and not a record: the checks are all that is known
about it.
-/

namespace Linklint

inductive DisclosureChannel where
  | none | registrableDomain | host | urlPrefixHash | fullUrl | clientIp | watchlist
deriving DecidableEq

inductive CommercialMode where
  | nonCommercial | fairUse | commercial
deriving DecidableEq

def DisclosureChannel.name : DisclosureChannel → Text
  | .none => text "none"
  | .registrableDomain => text "registrable-domain"
  | .host => text "host"
  | .urlPrefixHash => text "url-prefix-hash"
  | .fullUrl => text "full-url"
  | .clientIp => text "client-ip"
  | .watchlist => text "watchlist"

def CommercialMode.name : CommercialMode → Text
  | .nonCommercial => text "non-commercial"
  | .fairUse => text "fair-use"
  | .commercial => text "commercial"

def DISCLOSURE_CHANNELS : List DisclosureChannel :=
  [.none, .registrableDomain, .host, .urlPrefixHash, .fullUrl, .clientIp, .watchlist]

def CONSENT_GATED_CHANNELS : List DisclosureChannel := [.fullUrl, .clientIp, .watchlist]

def COMMERCIAL_MODES : List CommercialMode := [.nonCommercial, .fairUse, .commercial]

inductive OnlineSourceConfigErrorCode where
  | invalidDescriptor | unsupportedCommercialMode | attributionNotAccepted
deriving DecidableEq

structure OnlineSourceConfigError where
  code : OnlineSourceConfigErrorCode
  sourceId : Text
  message : Text

/-- What a caller hands over as its credential: a branded object that reveals it, or any value. -/
inductive CredentialSlot where
  | secret (revealed : Text)
  | unbranded (value : Value)

structure OnlineSourceConfig where
  commercialMode : Value
  acceptAttribution : Value
  credential : CredentialSlot
  consent : Value

inductive OnlineSourcePreflight where
  | ready (credential : Option Text) (disclosure : List (Option Value))
  | refused (cause : EnrichmentCause)

inductive PreflightError where
  | config (error : OnlineSourceConfigError)
  | typeError

def isOnlineSecret : CredentialSlot → Bool
  | .secret _ => true
  | .unbranded _ => false

namespace Value

/-- `value?.key` -/
def field (value : Value) (key : String) : Value := value.get (text key)

def isText (value : Value) (s : Text) : Bool :=
  match value with
  | .str t => t == s
  | _ => false

/-- `names.includes(value)` -/
def isAnyOf (value : Value) (names : List Text) : Bool := names.any value.isText

def isLiteralTrue : Value → Bool
  | .bool b => b
  | _ => false

def isLiteralFalse : Value → Bool
  | .bool b => !b
  | _ => false

/-- `value.includes(s)` of an array. -/
def listsText (value : Value) (s : Text) : Bool :=
  (value.slots?.getD []).any fun item => item.elim false fun v => v.isText s

/-- `Array.isArray(value) && value.length !== 0 && value.every(p)` -/
def isListOf (p : Value → Bool) (value : Value) : Bool :=
  match value.slots? with
  | none => false
  | some items => !items.isEmpty && everySlot p items

end Value

def isDisclosureChannel (value : Value) : Bool :=
  value.isAnyOf (DISCLOSURE_CHANNELS.map DisclosureChannel.name)

def isConsentGatedChannel (value : Value) : Bool :=
  value.isAnyOf (CONSENT_GATED_CHANNELS.map DisclosureChannel.name)

def isCommercialMode (value : Value) : Bool := value.isAnyOf (COMMERCIAL_MODES.map CommercialMode.name)

/-- A check of the descriptor and the message it fails with. -/
def check (ok : Bool) (message : Text) : Option Text := if ok then none else some message

section
variable (shown : Value → Text) (descriptor : Value)

/-- `String(value)`: a string as it is, any other value as the platform shows it. -/
def templateText : Value → Text
  | .str s => s
  | value => shown value

def identityFault : Option Text :=
  check (descriptor.field "id").isNonEmptyString (text "descriptor.id must be a non-empty string")
  <|> check (descriptor.field "displayName").isNonEmptyString
    (text "descriptor.displayName is required")
  <|> check (descriptor.field "version").isNonEmptyString (text "descriptor.version is required")
  <|> check ((descriptor.field "layer").isStr "resolution" || (descriptor.field "layer").isStr "reputation")
    (text "descriptor.layer must be 'resolution' or 'reputation'")
  <|> check ((descriptor.field "evidenceScope").isListOf Value.isNonEmptyString)
    (text "descriptor.evidenceScope must be a non-empty list of evidence type tokens")

/-- One entry of `consentRequired`; a hole is read as `undefined`. -/
def consentFault (sends : Value) (item : Option Value) : Option Text :=
  let channel := item.getD .undefined
  check (isConsentGatedChannel channel)
    (text "disclosure.consentRequired lists non-gated channel '" ++ templateText shown channel
      ++ text "'")
  <|> check (sends.listsText (templateText shown channel))
    (text "disclosure.consentRequired '" ++ templateText shown channel
      ++ text "' is not among disclosure.sends")

/-- One entry of `sends`: a gated channel must be listed. -/
def sendFault (consentRequired : Value) (item : Option Value) : Option Text :=
  let channel := item.getD .undefined
  check (!isConsentGatedChannel channel || consentRequired.listsText (templateText shown channel))
    (text "disclosure.sends '" ++ templateText shown channel
      ++ text "' must be listed in consentRequired")

def disclosureFault : Option Text :=
  let disclosure := descriptor.field "disclosure"
  let sends := disclosure.field "sends"
  let consentRequired := disclosure.field "consentRequired"
  check (disclosure.field "recipient").isNonEmptyString (text "disclosure.recipient is required")
  <|> check (sends.isListOf isDisclosureChannel)
    (text "disclosure.sends must be a non-empty list of known channels")
  <|> check (!sends.listsText DisclosureChannel.none.name || (sends.slots?.getD []).length == 1)
    (text "disclosure.sends of 'none' must be the sole channel")
  <|> check consentRequired.slots?.isSome (text "disclosure.consentRequired must be an array")
  <|> (consentRequired.slots?.getD []).findSome? (consentFault shown sends)
  <|> (sends.slots?.getD []).findSome? (sendFault shown consentRequired)

def credentialsFault : Option Text :=
  let kind := (descriptor.field "credentials").field "kind"
  if kind.isStr "required" || kind.isStr "optional" then
    check ((descriptor.field "credentials").field "label").isNonEmptyString
      (text "credentials.label is required")
  else
    check (kind.isStr "none") (text "credentials.kind must be 'none', 'required', or 'optional'")

def termsFault : Option Text :=
  let terms := descriptor.field "terms"
  check ((terms.field "supportedModes").isListOf isCommercialMode)
    (text "terms.supportedModes must be a non-empty list of commercial modes")
  <|> check (terms.field "attributionRequired").isBool
    (text "terms.attributionRequired must be a boolean")

def originFault : Option Text :=
  let origin := descriptor.field "dataOrigin"
  if (origin.field "kind").isStr "live-provider" then
    check (origin.field "recipient").isNonEmptyString (text "dataOrigin.recipient is required")
  else if (origin.field "kind").isStr "caller-owned-mirror" then
    check (origin.field "bundled").isLiteralFalse (text "dataOrigin.bundled must be false for a mirror")
  else some (text "dataOrigin.kind must be 'live-provider' or 'caller-owned-mirror'")

def honestyFault : Option Text :=
  let freshness := descriptor.field "freshness"
  let scoring := descriptor.field "scoring"
  check ((freshness.field "declaresExpiry").isBool && (freshness.field "staleWhenExpired").isBool)
    (text "freshness.declaresExpiry and freshness.staleWhenExpired must be booleans")
  <|> check (scoring.isStr "evidence-only" || scoring.isStr "conjunctive-finding")
    (text "descriptor.scoring must be 'evidence-only' or 'conjunctive-finding'")
  <|> check ((descriptor.field "noMatchSemantics").isStr "absence-is-not-safety")
    (text "descriptor.noMatchSemantics must be the literal 'absence-is-not-safety'")

/-- The first check that fails. -/
def descriptorFault : Option Text :=
  identityFault descriptor <|> disclosureFault shown descriptor <|> credentialsFault descriptor
  <|> termsFault descriptor <|> originFault descriptor <|> honestyFault descriptor

def descriptorId : Text :=
  match descriptor.field "id" with
  | .str id => id
  | _ => text "<unknown>"

def assertValidSourceDescriptor : Except OnlineSourceConfigError Unit :=
  match descriptorFault shown descriptor with
  | none => .ok ()
  | some message => .error { code := .invalidDescriptor, sourceId := descriptorId descriptor, message }

/-! ### The terms gate -/

/-- `supportedModes.includes(mode)` once every entry is known to be a mode or a hole. -/
def supportsMode (mode : Value) : Bool :=
  let supported := (descriptor.field "terms").field "supportedModes"
  match mode with
  | .str s => supported.listsText s
  | .undefined => (supported.slots?.getD []).any Option.isNone
  | _ => false

def assertSourceTermsAccepted (terms : OnlineSourceConfig) : Except OnlineSourceConfigError Unit :=
  match assertValidSourceDescriptor shown descriptor with
  | .error error => .error error
  | .ok _ =>
      let id := descriptorId descriptor
      if !supportsMode descriptor terms.commercialMode then
        let supported := ((descriptor.field "terms").field "supportedModes").slots?.getD []
        .error
          { code := .unsupportedCommercialMode
            sourceId := id
            message := text "Source '" ++ id ++ text "' does not support commercial mode '"
              ++ templateText shown terms.commercialMode ++ text "'; supported: "
              ++ listText (supported.map fun item => item.elim [] (templateText shown)) }
      else if ((descriptor.field "terms").field "attributionRequired").isLiteralTrue &&
          !terms.acceptAttribution.isLiteralTrue then
        .error
          { code := .attributionNotAccepted
            sourceId := id
            message := text "Source '" ++ id
              ++ text "' requires attribution; set terms.acceptAttribution = true" }
      else .ok ()

/-! ### The runtime gates -/

/-- `new Set(config.consent?.allow ?? [])` -/
def grantedChannels (config : OnlineSourceConfig) : Except PreflightError (List Value) :=
  match config.consent.field "allow" with
  | .undefined => .ok []
  | .null => .ok []
  | .arr items => .ok (items.map fun item => item.getD .undefined)
  | .str s => .ok ((codePoints s).map fun cp => .str (encodeCodePoint cp))
  | _ => .error .typeError

/-- The entries of `consentRequired`, all of them texts once the descriptor is valid. -/
def consentRequired : List Text :=
  (((descriptor.field "disclosure").field "consentRequired").slots?.getD []).filterMap fun item =>
    match item with
    | some (.str s) => some s
    | _ => none

def credentialsMissing : EnrichmentCause :=
  let label := (descriptor.field "credentials").field "label"
  { code := text "credentials-missing"
    message := some (text "Source '" ++ descriptorId descriptor ++ text "' requires the "
      ++ templateText shown label ++ text " credential")
    retryable := some false
    details := some (.obj [(text "slot", label),
      (text "scheme", (descriptor.field "credentials").field "scheme")]) }

def consentMissing (missing : List Text) : EnrichmentCause :=
  let recipient := (descriptor.field "disclosure").field "recipient"
  { code := text "disclosure-consent-required"
    message := some (text "Source '" ++ descriptorId descriptor ++ text "' would disclose "
      ++ listText missing ++ text " to " ++ templateText shown recipient
      ++ text "; grant explicit consent to proceed")
    retryable := some false
    details := some (.obj [(text "channels", .arr (missing.map fun s => some (.str s))),
      (text "recipient", recipient)]) }

def preflightOnlineSource (config : OnlineSourceConfig) :
    Except PreflightError OnlineSourcePreflight :=
  match assertSourceTermsAccepted shown descriptor config with
  | .error error => .error (.config error)
  | .ok _ =>
      if ((descriptor.field "credentials").field "kind").isStr "required" &&
          !isOnlineSecret config.credential then
        .ok (.refused (credentialsMissing shown descriptor))
      else
        match grantedChannels config with
        | .error error => .error error
        | .ok granted =>
            let missing := (consentRequired descriptor).filter fun s => !granted.any (Value.isText · s)
            if missing ≠ [] then .ok (.refused (consentMissing shown descriptor missing))
            else
              let credential := match config.credential with
                | .secret revealed => some revealed
                | .unbranded _ => none
              .ok (.ready credential
                (((descriptor.field "disclosure").field "sends").slots?.getD []))

end

/-! ### Freshness -/

/-- What freshness a source can assert about its observations. -/
structure FreshnessCapability where
  declaresExpiry : Bool
  staleWhenExpired : Bool

/-- The time value of a `Date`; none is an invalid one. -/
abbrev TimeValue := Option Int

/-- `a.getTime() >= b.getTime()`: no comparison with NaN holds. -/
def notBefore (a b : TimeValue) : Bool :=
  match a, b with
  | some t, some e => decide (e ≤ t)
  | _, _ => false

/-- The freshness of an observation; none is the RangeError of an invalid expiry. -/
def freshnessFor (dates : DateApi) (capability : FreshnessCapability) (observedAt : TimeValue)
    (expiresAt : Option TimeValue) : Option EnrichmentFreshness :=
  match expiresAt with
  | none => some { status := .unknown, expiresAt := none }
  | some expiry =>
      if !capability.declaresExpiry then some { status := .unknown, expiresAt := none }
      else
        let expired := notBefore observedAt expiry
        let status := if expired && capability.staleWhenExpired then .stale else .fresh
        expiry.map fun instant => { status, expiresAt := some (dates.iso instant) }

end Linklint
