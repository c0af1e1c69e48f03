import Linklint.Js.Url
import Linklint.Parse.Decode
import Linklint.Policy.Axes

/-!
# Redirect parameters that point off-site

Two hosts are compared by a site: the registrable domain when the suffix lookup
finds one, else the canonical address, else the host itself.
-/

namespace Linklint

/-- Known redirect parameter names, compared in lower case. -/
def REDIRECT_PARAMS : List Text :=
  ["next", "url", "redirect", "redirect_uri", "redirect_url", "dest", "destination", "return",
    "returnurl", "continue", "u", "goto", "target"].map text

def OAUTH_REDIRECT_PARAM : Text := text "redirect_uri"
def OAUTH_CLIENT_ID_PARAM : Text := text "client_id"

def DANGEROUS_PAYLOAD_SCHEMES : List Text :=
  ["javascript", "data", "blob", "file", "vbscript"].map text

def INTENT_FALLBACK_PARAMS : List Text :=
  ["browser_fallback_url", "s.browser_fallback_url"].map text

structure Authority where
  site : Text
  registrableDomain : Option Text
deriving DecidableEq

/-- A decoded `key=value` pair, its key in lower case. -/
structure QueryPair where
  key : Text
  rawValue : Text
deriving DecidableEq

structure OpenRedirectPayload where
  param : Text
  targetSite : Text
  registrableDomain : Option Text
  dangerousScheme : Option Text
deriving DecidableEq

/-- The query-like slice of a fragment: what follows its first `?`, or all of it. -/
def fragmentQueryLike (fragment : Option Text) : Option Text :=
  match truthy fragment with
  | none => none
  | some f =>
      match Text.cutFirst (unit '?') f with
      | (_, some rest) => some rest
      | (whole, none) => some whole

/-- What `.` does not match. -/
def isLineTerminator (u : CodeUnit) : Bool :=
  u.toNat == 0x0A || u.toNat == 0x0D || u.toNat == 0x2028 || u.toNat == 0x2029

/-- `/^Intent;.*;end$/` -/
def isIntentFragment (f : Text) : Bool :=
  f.startsWith (text "Intent;") && Text.endsWith (f.drop (text "Intent;").length) (text ";end")
    && f.all fun u => !isLineTerminator u

def intentExtras (fragment : Option Text) : Option Text :=
  (fragment.map Text.trim).filter isIntentFragment

/-- `u.hostname || null` of a parsed value. -/
def parsedHostname (api : UrlApi) (raw : Text) : Option Text :=
  truthy ((api.parse raw).map Url.hostname)

/-- The host of a value that is protocol-relative or has a scheme and an authority. -/
def targetHost (api : UrlApi) (value : Text) : Option Text :=
  let v := value.trim
  if v = [] then none
  else if v.startsWith (text "//") ∧ ¬ v.startsWith (text "///") then
    parsedHostname api (text "https:" ++ v)
  else
    match matchScheme v with
    | some (_, rest) => if rest.startsWith (text "//") then parsedHostname api v else none
    | none => none

section
variable (P : Platform)

/-- The dangerous scheme a payload without a host declares. -/
def dangerousPayloadScheme (value : Text) : Option Text :=
  match matchScheme value.trim with
  | some (name, _) =>
      let scheme := P.toLowerCase name
      if scheme ∈ DANGEROUS_PAYLOAD_SCHEMES then some scheme else none
  | none => none

/-- The spelling an authority is read from: trimmed, in lower case, without root dot and brackets. -/
def authorityText (host : Text) : Text :=
  unbracket (P.toLowerCase (stripTrailingRootDot host.trim))

/-- `analyzeHost(h).registrableDomain`, or nothing when the lookup throws. -/
def registrableDomainOf (h : Text) : Option Text :=
  match analyzeHost P h with
  | .ok psl => psl.registrableDomain
  | .error _ => none

/-- The suffix lookup comes first, the readers of addresses after it. -/
def authorityOf (host : Text) : Option Authority :=
  let h := authorityText P host
  if h = [] then none
  else
    match registrableDomainOf P h with
    | some domain => some { site := P.toLowerCase domain, registrableDomain := some domain }
    | none =>
        match (if h.includes (unit ':') then analyzeIpv6 h else none) with
        | some v6 => some { site := v6.canonical, registrableDomain := none }
        | none =>
            match analyzeIpv4 h with
            | some v4 => some { site := v4.canonical, registrableDomain := none }
            | none => some { site := h, registrableDomain := none }

def queryPair (maxDecodeDepth : Nat) (pair : Text) : Option QueryPair :=
  match Text.cutFirst (unit '=') pair with
  | (key, some rawValue) =>
      some { key := P.toLowerCase (boundedDecode key maxDecodeDepth).value, rawValue }
  | (_, none) => none

/-- An empty pair and one without `=` are skipped. -/
def queryPairs (query : Text) (maxDecodeDepth : Nat) (separator : CodeUnit) : List QueryPair :=
  (query.split separator).filterMap (queryPair P maxDecodeDepth)

/-- A query with a `client_id` is an authorization request. -/
def isAuthorizationRequest (pairs : List QueryPair) : Bool :=
  pairs.any fun pair => pair.key == OAUTH_CLIENT_ID_PARAM && pair.rawValue != []

def schemePayload (param scheme : Text) : OpenRedirectPayload where
  param := param
  targetSite := scheme ++ [unit ':']
  registrableDomain := none
  dangerousScheme := some scheme

variable (api : UrlApi)

/-- What one pair of a surface contributes. -/
def pairPayload (inputSiteLower : Text) (maxDecodeDepth : Nat) (authorizes : Bool)
    (pair : QueryPair) : Option OpenRedirectPayload :=
  if pair.key ∉ REDIRECT_PARAMS then none
  else if pair.rawValue = [] then none
  else
    let value := (boundedDecode pair.rawValue maxDecodeDepth).value
    match targetHost api value with
    | none => (dangerousPayloadScheme P value).map (schemePayload pair.key)
    | some host =>
        match authorityOf P host with
        | none => none
        | some authority =>
            if authority.site = inputSiteLower then none
            else if pair.key = OAUTH_REDIRECT_PARAM ∧ authorizes ∧
                authority.registrableDomain.isSome then none
            else some { param := pair.key, targetSite := authority.site,
                        registrableDomain := authority.registrableDomain, dangerousScheme := none }

def openRedirectParamPayloads (query inputSiteLower : Option Text) (maxDecodeDepth : Nat) :
    List OpenRedirectPayload :=
  match truthy query, truthy inputSiteLower with
  | some query, some inputSite =>
      let pairs := queryPairs P query maxDecodeDepth (unit '&')
      pairs.filterMap (pairPayload P api inputSite maxDecodeDepth (isAuthorizationRequest pairs))
  | _, _ => []

/-- The executable payload an intent fragment declares as its fallback. -/
def intentFallbackPayload (fragment : Option Text) (maxDecodeDepth : Nat) :
    Option OpenRedirectPayload :=
  match intentExtras fragment with
  | none => none
  | some extras =>
      (queryPairs P extras maxDecodeDepth (unit ';')).findSome? fun pair =>
        if pair.key ∉ INTENT_FALLBACK_PARAMS ∨ pair.rawValue = [] then none
        else (dangerousPayloadScheme P (boundedDecode pair.rawValue maxDecodeDepth).value).map
          (schemePayload pair.key)

def openRedirectDetail (label linkHost : Text) (payload : OpenRedirectPayload) : Text :=
  match payload.dangerousScheme, payload.registrableDomain with
  | some scheme, _ =>
      label ++ text " '" ++ payload.param ++ text "' carries an executable payload rather than a "
        ++ text "destination: its value is a hostless '" ++ scheme ++ text ":' URL, a scheme "
        ++ text "that can execute or embed content, on a link that reads as '" ++ linkHost
        ++ text "'"
  | none, some domain =>
      label ++ text " '" ++ payload.param ++ text "' points off-site: its value resolves to '"
        ++ domain ++ text "', a different registrable domain than the link host '" ++ linkHost
        ++ text "'"
  | none, none =>
      label ++ text " '" ++ payload.param ++ text "' points off-site: its value resolves to the "
        ++ text "host '" ++ payload.targetSite ++ text "', which has no registrable domain and is "
        ++ text "a different authority than the link host '" ++ linkHost ++ text "'"

/-- The query first, then the fragment; an intent fallback only when neither has a payload. -/
def foundPayloads (ctx : InspectionContext) (inputSite : Text) :
    List (Text × OpenRedirectPayload) :=
  let depth := ctx.runtime.maxDecodeDepth
  let surfaces := [(text "redirect parameter", ctx.query),
    (text "fragment redirect parameter", fragmentQueryLike ctx.fragment)]
  let found := surfaces.filterMap fun (label, surface) =>
    (openRedirectParamPayloads P api surface (some inputSite) depth).head?.map (label, ·)
  if found = [] then
    ((intentFallbackPayload P ctx.fragment depth).map (text "intent fallback parameter", ·)).toList
  else found

def openRedirectParam (ctx : InspectionContext) : List CollectedFinding :=
  match authorityOf P ctx.host with
  | none => []
  | some inputAuthority =>
      match foundPayloads P api ctx inputAuthority.site with
      | [] => []
      | (label, payload) :: _ =>
          let linkHost := ctx.registrableDomain.getD inputAuthority.site
          [{ code := .openRedirectParam, detail := openRedirectDetail label linkHost payload }]

end

end Linklint
