import Linklint.Parse.RawParts
import Linklint.Parse.Runtime
import Linklint.Schema.Result

/-!
# Host facts and the inspection context

What is derived from the raw host, and the context every detector and policy
axis reads.
-/

namespace Linklint

structure PslResult where
  registrableDomain : Option Text
  publicSuffix : Option Text
  subdomain : Option Text
  isIp : Bool

def emptyPsl (isIp : Bool) : PslResult where
  registrableDomain := none
  publicSuffix := none
  subdomain := none
  isIp := isIp

structure HostFacts where
  host : Text
  isIp : Bool
  psl : PslResult
  hostUnicode : Text
  hostLabels : List Text

structure InspectionContext where
  input : Text
  scheme : Option Text
  userinfo : Option Text
  rawHost : Text
  host : Text
  hostUnicode : Text
  isIp : Bool
  hostLabels : List Text
  registrableDomain : Option Text
  registrableDomainLower : Option Text
  publicSuffix : Option Text
  publicSuffixTld : Option Text
  subdomain : Option Text
  subdomainLabels : List Text
  port : Option Nat
  path : Text
  query : Option Text
  fragment : Option Text
  parsed : ParsedUrl
  runtime : RuntimeConfig

/-- A string value that is not `null` and not empty. -/
def truthy (value : Option Text) : Option Text := value.filter (· ≠ [])

theorem truthy_eq_some {value : Option Text} {s : Text} :
    truthy value = some s ↔ value = some s ∧ s ≠ [] := by
  rw [truthy, Option.filter_eq_some_iff, decide_eq_true_eq]

section
variable (P : Platform)

def analyzeHost (host : Text) : Except Thrown PslResult := do
  let r ← P.tldtsParse false host
  return { registrableDomain := r.domain, publicSuffix := r.publicSuffix,
           subdomain := r.subdomain, isIp := r.isIp.getD false }

/-- The host is an IPv4 in any `inet_aton` form or an IPv6 literal. -/
def isIpHost (host : Text) : Bool :=
  host != [] && ((analyzeIpv4 host).isSome
    || (host.includes (unit ':') && (analyzeIpv6 host).isSome))

def deriveHostFacts (rawHost : Text) : Except Thrown HostFacts := do
  let host := stripInvisible rawHost
  let isIp := isIpHost host
  let psl ← if host = [] ∨ isIp then pure (emptyPsl isIp) else analyzeHost P host
  return {
    host, isIp, psl
    hostUnicode := if host = [] ∨ isIp then host else P.toUnicode host
    hostLabels :=
      if host = [] then []
      else if isIp ∧ host.includes (unit ':') then [host]
      else host.dropTrailingDot.split (unit '.') }

def buildParsedUrl (raw : RawParts) (facts : HostFacts) : ParsedUrl where
  scheme := raw.scheme
  userinfo := raw.userinfo
  effectiveHost := if facts.host = [] then none else some facts.host
  registrableDomain := facts.psl.registrableDomain
  publicSuffix := facts.psl.publicSuffix
  subdomain := facts.psl.subdomain
  hostLabels := facts.hostLabels
  port := raw.port
  path := raw.path
  query := raw.query
  fragment := raw.fragment
  isIp := facts.psl.isIp

def buildInspectionContext (input : Text) (raw : RawParts) (facts : HostFacts) (parsed : ParsedUrl)
    (runtime : RuntimeConfig) : InspectionContext where
  input := input
  scheme := raw.scheme
  userinfo := raw.userinfo
  rawHost := raw.rawHost
  host := facts.host
  hostUnicode := facts.hostUnicode
  isIp := facts.psl.isIp
  hostLabels := facts.hostLabels
  registrableDomain := facts.psl.registrableDomain
  registrableDomainLower := facts.psl.registrableDomain.map P.toLowerCase
  publicSuffix := facts.psl.publicSuffix
  publicSuffixTld := (truthy facts.psl.publicSuffix).bind (fun s => (s.split (unit '.')).getLast?)
  subdomain := facts.psl.subdomain
  subdomainLabels := ((truthy facts.psl.subdomain).map (Text.split (unit '.'))).getD []
  port := raw.port
  path := raw.path
  query := raw.query
  fragment := raw.fragment
  parsed := parsed
  runtime := runtime

def prepare (input : Text) : Text := input.trim

/-- `null` when no URL or host can be identified; the suffix lookup may throw. -/
def parsePrepared (input : Text) (runtime : RuntimeConfig) (tokens : RawUrlTokens) :
    Except Thrown (Option InspectionContext) :=
  match parseRawParts P tokens with
  | none => .ok none
  | some raw => do
      let facts ← deriveHostFacts P raw.rawHost
      return some (buildInspectionContext P input raw facts (buildParsedUrl raw facts) runtime)

/-- `prepared === "" ? null : parsePrepared(...)` -/
def parseInput (input : Text) (runtime : RuntimeConfig) : Except Thrown (Option InspectionContext) :=
  if prepare input = [] then .ok none
  else parsePrepared P input runtime (tokenizeRawUrl (prepare input))

def MAX_ECHO : Nat := 40

def echo (region : Text) : Text :=
  if region.length > MAX_ECHO then region.take MAX_ECHO ++ text "…" else region

def describeSchemelessFailure (tokens : RawUrlTokens) : Option Text :=
  (bareSingleLabelHost P tokens).map fun host =>
    text "no scheme, and the host '" ++ echo host
      ++ text "' is a single label with no dot — input without a scheme must name a dotted host or carry a scheme such as 'http://'; the input was not inspected"

def describeParseFailure (tokens : RawUrlTokens) : Option Text :=
  match tokens.scheme with
  | none => describeSchemelessFailure P tokens
  | some scheme =>
      let recognition := if isKnownScheme scheme then text "is a scheme linklint recognizes"
        else text "is not a scheme linklint recognizes"
      let failure := if tokens.authority = [] then text "no authority follows it"
        else text "the authority region '" ++ echo tokens.authority ++ text "' is not a host"
      some (text "scheme '" ++ scheme ++ text ":' " ++ recognition ++ text ", and " ++ failure
        ++ text " — the body after '" ++ scheme ++ text ":' was not inspected")

/-- Parsing threads the runtime configuration through to the context untouched. -/
theorem parseInput_runtime {input : Text} {runtime : RuntimeConfig} {ctx : InspectionContext}
    (h : parseInput P input runtime = .ok (some ctx)) : ctx.runtime = runtime ∧ ctx.input = input := by
  unfold parseInput parsePrepared at h
  split at h
  · cases h
  · split at h
    · cases h
    · cases hfacts : deriveHostFacts P _ with
      | error e => rw [hfacts] at h; cases h
      | ok facts =>
          rw [hfacts] at h
          cases h
          exact ⟨rfl, rfl⟩

/-- Whether and how an input parses does not depend on the configuration. -/
theorem parseInput_withRuntime (input : Text) (runtime runtime' : RuntimeConfig) :
    parseInput P input runtime'
      = (parseInput P input runtime).map (Option.map fun ctx => { ctx with runtime := runtime' }) := by
  unfold parseInput parsePrepared
  split
  · rfl
  · split
    · rfl
    · cases deriveHostFacts P _ <;> rfl

end

end Linklint
