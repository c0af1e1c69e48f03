import Linklint.Schema.Options
import Linklint.Platform

/-!
# The runtime configuration

The validated knobs derived once from the options. Every read of a recognized
key is unguarded here, so reading can throw.
-/

namespace Linklint

def DEFAULT_MAX_DECODE_DEPTH : Nat := 4

inductive IdnPolicy where
  | block
  | allow
deriving DecidableEq

structure SuppressionRule where
  code : Text
  host : Option Text
deriving DecidableEq

/-- The membership set of a list is `values` itself. -/
structure PolicyList (α : Type) where
  configured : Bool
  values : List α

structure PolicyRuntimeConfig where
  denyTlds : PolicyList Text
  allowTlds : PolicyList Text
  denyHosts : PolicyList Text
  allowHosts : PolicyList Text
  denySchemes : PolicyList Text
  allowSchemes : PolicyList Text
  denyPorts : PolicyList JsNum
  denyNonStandardPorts : Bool

structure RuntimeConfig where
  maxDecodeDepth : Nat
  idnPolicy : IdnPolicy
  idnAllowlist : List Text
  suppressReasons : List SuppressionRule
  policy : PolicyRuntimeConfig

def PolicyList.unset {α : Type} : PolicyList α := { configured := false, values := [] }

/-- The configuration that sets nothing but the decode depth. -/
def depthRuntime (depth : Nat) : RuntimeConfig where
  maxDecodeDepth := depth
  idnPolicy := .block
  idnAllowlist := []
  suppressReasons := []
  policy :=
    { denyTlds := .unset, allowTlds := .unset, denyHosts := .unset, allowHosts := .unset,
      denySchemes := .unset, allowSchemes := .unset, denyPorts := .unset,
      denyNonStandardPorts := false }

def trimListValue : HostVal → HostVal
  | .str s => .str s.trim
  | value => value

/-- `blank` is the comparison with `""`, which no number meets. -/
def normalizedList {α : Type} (values : HostVal) (normalize : HostVal → Option α)
    (blank : α → Bool) : Except Thrown (PolicyList α) := do
  let items ← values.elements
  let normalized := ((items.map trimListValue).filterMap normalize).filter (!blank ·)
  return { configured := !values.isUndefined, values := normalized }

section
variable (P : Platform)

def normalizeIdnDomain (value : Text) : Text :=
  P.toLowerCase (P.toUnicode value.dropLeadingDot)

def normalizeIdnEntry : HostVal → Option Text
  | .str s => some (normalizeIdnDomain P s)
  | _ => none

def normalizeTld : HostVal → Option Text
  | .str s => some (P.toLowerCase s.dropLeadingDot)
  | _ => none

def normalizeHost : HostVal → Option Text
  | .str s => some (P.toLowerCase s.dropLeadingDot)
  | _ => none

/-- `value.replace(/^:+|:+$/g, "").toLowerCase()` -/
def normalizeScheme : HostVal → Option Text
  | .str s =>
      let isColon := (· == unit ':')
      some (P.toLowerCase (((s.dropWhile isColon).reverse.dropWhile isColon).reverse))
  | _ => none

def normalizePort : HostVal → Option JsNum
  | .num n => some n
  | _ => none

/-- One entry of `suppressReasons`: `none` drops the rule. -/
def normalizeSuppressRule (rule : HostVal) : Except Thrown (Option SuppressionRule) := do
  if rule.isObject then
    let code ← rule.read .normalize (text "code")
    let host ← rule.read .normalize (text "host")
    match code with
    | .str s =>
        if s.trim = [] then return none
        else
          let scope := match host with
            | .str h => if h.trim = [] then none else some (normalizeIdnDomain P h.trim)
            | _ => none
          return some { code := s.trim, host := scope }
    | _ => return none
  else return none

def normalizeSuppressReasons (rules : HostVal) : Except Thrown (List SuppressionRule) := do
  let entries ← rules.elements
  let normalized ← entries.mapM (normalizeSuppressRule P)
  return normalized.filterMap id

def normalizePolicyOptions (options : HostVal) : Except Thrown PolicyRuntimeConfig := do
  let denyTlds ← normalizedList (← options.read .normalize (text "denyTlds")) (normalizeTld P) (· = [])
  let allowTlds ← normalizedList (← options.read .normalize (text "allowTlds")) (normalizeTld P) (· = [])
  let denyHosts ← normalizedList (← options.read .normalize (text "denyHosts")) (normalizeHost P) (· = [])
  let allowHosts ← normalizedList (← options.read .normalize (text "allowHosts")) (normalizeHost P) (· = [])
  let denySchemes ←
    normalizedList (← options.read .normalize (text "denySchemes")) (normalizeScheme P) (· = [])
  let allowSchemes ←
    normalizedList (← options.read .normalize (text "allowSchemes")) (normalizeScheme P) (· = [])
  let denyPorts ←
    normalizedList (← options.read .normalize (text "denyPorts")) normalizePort (fun _ => false)
  let denyNonStandardPorts ← options.read .normalize (text "denyNonStandardPorts")
  return { denyTlds, allowTlds, denyHosts, allowHosts, denySchemes, allowSchemes, denyPorts,
           denyNonStandardPorts := denyNonStandardPorts.isTrue }

def decodeDepthOf : HostVal → Nat
  | .num n => n.toNat?.getD DEFAULT_MAX_DECODE_DEPTH
  | _ => DEFAULT_MAX_DECODE_DEPTH

def idnPolicyOf : HostVal → IdnPolicy
  | .str s => if s = text "allow" then .allow else .block
  | _ => .block

def normalizeOptions (options : HostVal) : Except Thrown RuntimeConfig := do
  let raw ← options.read .normalize (text "maxDecodeDepth")
  let idnPolicy ← options.read .normalize (text "idnPolicy")
  let idnAllowlist ←
    normalizedList (← options.read .normalize (text "idnAllowlist")) (normalizeIdnEntry P) (· = [])
  let suppressReasons ←
    normalizeSuppressReasons P (← options.read .normalize (text "suppressReasons"))
  let policy ← normalizePolicyOptions P options
  return { maxDecodeDepth := decodeDepthOf raw, idnPolicy := idnPolicyOf idnPolicy,
           idnAllowlist := idnAllowlist.values, suppressReasons, policy }

theorem normalizeOptions_eq_ok {options : HostVal} {runtime : RuntimeConfig} :
    normalizeOptions P options = .ok runtime ↔
      ∃ raw idnPolicy allowlist idnAllowlist rules suppressReasons policy,
        options.read .normalize (text "maxDecodeDepth") = .ok raw ∧
        options.read .normalize (text "idnPolicy") = .ok idnPolicy ∧
        options.read .normalize (text "idnAllowlist") = .ok allowlist ∧
        normalizedList allowlist (normalizeIdnEntry P) (· = []) = .ok idnAllowlist ∧
        options.read .normalize (text "suppressReasons") = .ok rules ∧
        normalizeSuppressReasons P rules = .ok suppressReasons ∧
        normalizePolicyOptions P options = .ok policy ∧
        { maxDecodeDepth := decodeDepthOf raw, idnPolicy := idnPolicyOf idnPolicy,
          idnAllowlist := idnAllowlist.values, suppressReasons, policy } = runtime := by
  simp only [normalizeOptions, bind_eq_ok, pure_eq_ok]
  constructor
  · rintro ⟨raw, hraw, idn, hidn, list, hlist, norm, hnorm, rules, hrules, sup, hsup, policy, hpolicy, h⟩
    exact ⟨raw, idn, list, norm, rules, sup, policy, hraw, hidn, hlist, hnorm, hrules, hsup, hpolicy, h⟩
  · rintro ⟨raw, idn, list, norm, rules, sup, policy, hraw, hidn, hlist, hnorm, hrules, hsup, hpolicy, h⟩
    exact ⟨raw, hraw, idn, hidn, list, hlist, norm, hnorm, rules, hrules, sup, hsup, policy, hpolicy, h⟩

end

end Linklint
