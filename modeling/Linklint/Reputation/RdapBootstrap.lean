import Linklint.Js.Url
import Linklint.Js.Value
import Linklint.Mirrors.FeedUpdate

/-!
# The RDAP bootstrap registry
-/

namespace Linklint

open Interaction

structure RdapBootstrapRegistry where
  version : Text
  publication : Text
  /-- top-level domains and their base URLs -/
  services : List (List Text × List Text)

structure RdapBootstrapSnapshotMetadata extends SnapshotStamp where
  registryVersion : Text
  registryPublication : Text
  serviceCount : Nat
  insecureBaseUrlsDropped : Nat

structure RdapBootstrapSnapshot where
  metadata : RdapBootstrapSnapshotMetadata
  registry : RdapBootstrapRegistry

inductive RdapBootstrapCauseCode where
  | throttled
  | httpError
  | malformed
  | networkError
  | insecureUrl
  | callerAborted
deriving DecidableEq

structure RdapConditionalRequest where
  ifNoneMatch : Option Text
  ifModifiedSince : Option Text

structure RdapHttpRequest where
  url : Text
  conditional : Option RdapConditionalRequest

def IANA_RDAP_BOOTSTRAP_URL : Text := text "https://data.iana.org/rdap/dns.json"
def RDAP_BOOTSTRAP_SOURCE_ID : Text := text "iana.rdap-bootstrap"
def RDAP_BOOTSTRAP_SOURCE_VERSION : Text := text "1.0.0"
def DEFAULT_RDAP_BOOTSTRAP_CADENCE_MS : Rat := 86400000

/-- A string that `isStringArray` has let through. -/
def stringItem : Option Value → Option Text
  | some (.str s) => some s
  | _ => none

/-- `isStringArray` of a document, with the strings. -/
def stringArray : Value → Option (List Text)
  | .arr items => items.mapM stringItem
  | _ => none

def readService : Option Value → Option (List Text × List Text)
  | some (.arr [some tlds, some urls]) => do
      return (← stringArray tlds, ← stringArray urls)
  | _ => none

/-- Parse and validate a bootstrap registry document. -/
def parseRdapBootstrap (value : Value) : Option RdapBootstrapRegistry :=
  match value.get (text "version"), value.get (text "publication"), value.get (text "services") with
  | .str version, .str publication, .arr items =>
      (items.mapM readService).map fun services => { version, publication, services }
  | _, _, _ => none

section
variable (P : Platform) (dates : DateApi) (api : UrlApi) (parseJson : Text → Option Value)

def isHttpsUrl (url : Text) : Bool := (P.toLowerCase url).startsWith (text "https://")

/-- Apply the base-URL scheme policy; a service left without a URL goes. -/
def applyBaseUrlSchemePolicy (registry : RdapBootstrapRegistry) (allowInsecure : Bool) :
    RdapBootstrapRegistry × Nat :=
  if allowInsecure then (registry, 0)
  else
    let secured := registry.services.map fun (tlds, urls) => (tlds, urls.filter (isHttpsUrl P))
    let dropped := registry.services.map fun (_, urls) =>
      urls.length - (urls.filter (isHttpsUrl P)).length
    ({ registry with services := secured.filter fun (_, urls) => 0 < urls.length }, dropped.sum)

/-- Decode the body as JSON, then validate it. -/
def parseBootstrapDocument (body : Text) : Option RdapBootstrapRegistry :=
  (parseJson body).bind parseRdapBootstrap

/-- Refuse a bootstrap URL the scheme policy does not allow. -/
def refuseInsecureUrl (raw : Text) (allowInsecure : Bool) :
    Option (FeedCause RdapBootstrapCauseCode) :=
  match api.parse raw with
  | none =>
      some
        { code := .insecureUrl, message := text "bootstrapUrl is not a valid absolute URL"
          retryable := false, details := none }
  | some parsed =>
      if parsed.protocol = text "https:" then none
      else if parsed.protocol = text "http:" ∧ allowInsecure = true then none
      else
        some
          { code := .insecureUrl
            message :=
              text "bootstrapUrl must use https (set allowInsecureBootstrapUrl to override)"
            retryable := false
            details := some [(text "scheme", .text (some parsed.protocol))] }

/-- Conditional-refresh validators from the previous snapshot. -/
def conditionalValidators : Option SnapshotStamp → Option RdapConditionalRequest
  | none => none
  | some previous =>
      if previous.etag = none ∧ previous.lastModified = none then none
      else some { ifNoneMatch := previous.etag, ifModifiedSince := previous.lastModified }

abbrev RdapFeed :=
  Feed RdapBootstrapSnapshotMetadata RdapBootstrapSnapshot RdapHttpRequest RdapBootstrapRegistry
    RdapBootstrapCauseCode

abbrev RdapProg (α : Type) :=
  FeedProg RdapBootstrapSnapshotMetadata RdapBootstrapSnapshot RdapHttpRequest α

def rdapFeed (allowInsecureRdapBases : Bool) : RdapFeed where
  name := text "IANA bootstrap"
  source := RDAP_BOOTSTRAP_SOURCE_ID
  version := RDAP_BOOTSTRAP_SOURCE_VERSION
  codes :=
    { throttled := .throttled, httpError := .httpError, malformed := .malformed,
      networkError := .networkError, callerAborted := .callerAborted }
  malformedMessage := text "IANA bootstrap body is not a valid RFC 9224 registry document"
  throttleStatuses := [429]
  throttleDetails response := [(text "retryAfter", .text (headerValue P response (text "retry-after")))]
  isAbortError error := error.name == some (text "AbortError")
  errorDetails error := error.code.map fun code => [(text "transport", .text (some code))]
  parse := parseBootstrapDocument parseJson
  stamp metadata := metadata.toSnapshotStamp
  snapshot parsed stamp :=
    let policed := applyBaseUrlSchemePolicy P parsed allowInsecureRdapBases
    { metadata :=
        { stamp with
          registryVersion := policed.1.version
          registryPublication := policed.1.publication
          serviceCount := policed.1.services.length
          insecureBaseUrlsDropped := policed.2 }
      registry := policed.1 }

structure UpdateRdapBootstrapOptions where
  bootstrapUrl : Option Text
  cadenceMs : Option JsNum
  allowInsecureBootstrapUrl : Bool
  allowInsecureRdapBases : Bool

def rdapCall (options : UpdateRdapBootstrapOptions) :
    FeedCall RdapBootstrapSnapshotMetadata RdapHttpRequest RdapBootstrapCauseCode :=
  let url := options.bootstrapUrl.getD IANA_RDAP_BOOTSTRAP_URL
  { cadenceMs := resolveCadence DEFAULT_RDAP_BOOTSTRAP_CADENCE_MS options.cadenceMs
    refusal := refuseInsecureUrl api url options.allowInsecureBootstrapUrl
    request := fun previous =>
      { url, conditional := conditionalValidators (previous.map (·.toSnapshotStamp)) } }

def updateRdapBootstrap (options : UpdateRdapBootstrapOptions) :
    RdapProg (Option
      (UpdateResult RdapBootstrapSnapshotMetadata RdapBootstrapSnapshot RdapBootstrapCauseCode)) :=
  (rdapFeed P parseJson options.allowInsecureRdapBases).update P dates (rdapCall api options)

end

end Linklint
