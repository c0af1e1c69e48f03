import Linklint.Parse.Context
import Linklint.Scoring

/-!
# The policy axes

The caller-owned allow and deny lists over a parsed context: TLD, host, scheme
and port, in registry order.
-/

namespace Linklint

/-- A finding before the registry attaches its layer and weight. -/
structure CollectedFinding where
  code : ReasonCode
  detail : Text
  confusables : Option (List Confusable) := none
deriving DecidableEq

def listText (values : List Text) : Text := Text.join (text ", ") values

section
variable (ctx : InspectionContext)

def runTldAxis (P : Platform) : List CollectedFinding :=
  match truthy ctx.publicSuffix with
  | none => []
  | some _ =>
      let tld := P.toLowerCase (ctx.publicSuffixTld.getD [])
      let { allowTlds, denyTlds, .. } := ctx.runtime.policy
      (if tld ∈ denyTlds.values then
        [{ code := .tldDenied, detail := text "TLD '." ++ tld ++ text "' is on the caller deny-list" }]
      else [])
      ++ if allowTlds.configured ∧ tld ∉ allowTlds.values then
        [{ code := .tldNotAllowlisted,
           detail := text "TLD '." ++ tld ++ text "' is not on the caller allow-list (["
             ++ listText allowTlds.values ++ text "])" }]
      else []

/-- An input without a registrable domain is left alone, whatever the lists say. -/
def runHostAxis : List CollectedFinding :=
  match truthy ctx.registrableDomain with
  | none => []
  | some _ =>
      let registrable := ctx.registrableDomainLower.getD []
      let { allowHosts, denyHosts, .. } := ctx.runtime.policy
      let subject := text "Host '" ++ ctx.host ++ text "' (registrable domain '" ++ registrable
      (if registrable ∈ denyHosts.values then
        [{ code := .hostDenied, detail := subject ++ text "') is on the caller deny-list" }]
      else [])
      ++ if allowHosts.configured ∧ registrable ∉ allowHosts.values then
        [{ code := .hostNotAllowlisted,
           detail := subject ++ text "') is not on the caller allow-list (["
             ++ listText allowHosts.values ++ text "])" }]
      else []

def runSchemeAxis (P : Platform) : List CollectedFinding :=
  match truthy ctx.scheme with
  | none => []
  | some written =>
      let scheme := P.toLowerCase written
      let { allowSchemes, denySchemes, .. } := ctx.runtime.policy
      (if scheme ∈ denySchemes.values then
        [{ code := .schemeDenied, detail := text "scheme '" ++ scheme ++ text "' is on the caller deny-list" }]
      else [])
      ++ if allowSchemes.configured ∧ scheme ∉ allowSchemes.values then
        [{ code := .schemeDenied,
           detail := text "scheme '" ++ scheme ++ text "' is not on the caller allow-list (["
             ++ listText allowSchemes.values ++ text "])" }]
      else []

def STANDARD_PORTS : List (Text × Nat) :=
  [(text "http", 80), (text "https", 443), (text "ftp", 21), (text "ws", 80), (text "wss", 443)]

/-- At most one finding: the deny-list wins over the non-standard rule. -/
def runPortAxis (P : Platform) : List CollectedFinding :=
  match ctx.port with
  | none => []
  | some port =>
      let policy := ctx.runtime.policy
      if JsNum.ofNat port ∈ policy.denyPorts.values then
        [{ code := .portDenied,
           detail := text "port " ++ decimalText port ++ text " is on the caller deny-list" }]
      else if policy.denyNonStandardPorts then
        let scheme := (truthy ctx.scheme).map P.toLowerCase
        let standard := scheme.bind (List.lookup · STANDARD_PORTS)
        if standard = some port then []
        else
          -- `constructor` is the one scheme the table object inherits a property for
        let expected := match standard, scheme with
            | some n, _ => text " (expected " ++ decimalText n ++ text ")"
            | none, some s =>
                if s = text "constructor" then
                  text " (expected function Object() \x7b [native code] \x7d)"
                else text " (no standard port for scheme '" ++ s ++ text "')"
            | none, none => []
          [{ code := .portDenied,
             detail := text "port " ++ decimalText port ++ text " is non-standard for scheme '"
               ++ scheme.getD (text "?") ++ text "'" ++ expected }]
      else []

end

inductive PolicyAxis where
  | tld
  | host
  | scheme
  | port
deriving DecidableEq

namespace PolicyAxis

def id : PolicyAxis → Text
  | .tld => text "tld"
  | .host => text "host"
  | .scheme => text "scheme"
  | .port => text "port"

def optionKeys : PolicyAxis → List Text
  | .tld => [text "denyTlds", text "allowTlds"]
  | .host => [text "denyHosts", text "allowHosts"]
  | .scheme => [text "allowSchemes", text "denySchemes"]
  | .port => [text "denyPorts", text "denyNonStandardPorts"]

def emits : PolicyAxis → List ReasonCode
  | .tld => [.tldDenied, .tldNotAllowlisted]
  | .host => [.hostDenied, .hostNotAllowlisted]
  | .scheme => [.schemeDenied]
  | .port => [.portDenied]

def run (P : Platform) (axis : PolicyAxis) (ctx : InspectionContext) : List CollectedFinding :=
  match axis with
  | .tld => runTldAxis ctx P
  | .host => runHostAxis ctx
  | .scheme => runSchemeAxis ctx P
  | .port => runPortAxis ctx P

end PolicyAxis

def POLICY_AXIS_DESCRIPTORS : List PolicyAxis := [.tld, .host, .scheme, .port]

def POLICY_OPTION_KEYS : List Text := POLICY_AXIS_DESCRIPTORS.flatMap PolicyAxis.optionKeys

/-- `POLICY_OPTION_KEYS.some(key => options[key] !== undefined)`, which stops at the first. -/
def anyConfigured (options : HostVal) : List Text → Except Thrown Bool
  | [] => .ok false
  | key :: rest => do
      let value ← options.read .policyConfigured key
      if value.isUndefined then anyConfigured options rest else return true

def policyConfigured (options : HostVal) : Except Thrown Bool :=
  anyConfigured options POLICY_OPTION_KEYS

def suppressConfigured (options : HostVal) : Except Thrown Bool := do
  let value ← options.read .suppressConfigured (text "suppressReasons")
  return !value.isUndefined

/-- Every axis emits only the codes its descriptor declares. -/
theorem PolicyAxis.run_emits (P : Platform) (axis : PolicyAxis) (ctx : InspectionContext) :
    ∀ finding ∈ axis.run P ctx, finding.code ∈ axis.emits := by
  cases axis with
  | tld =>
      simp only [run, runTldAxis, emits]
      split
      · simp
      · intro finding h
        grind
  | host =>
      simp only [run, runHostAxis, emits]
      split
      · simp
      · intro finding h
        grind
  | scheme =>
      simp only [run, runSchemeAxis, emits]
      split
      · simp
      · intro finding h
        grind
  | port =>
      simp only [run, runPortAxis, emits]
      split
      · simp
      · intro finding h
        grind

/-- The codes of the axes are the policy layer, which never scores. -/
theorem PolicyAxis.emits_policy {axis : PolicyAxis} {code : ReasonCode} (h : code ∈ axis.emits) :
    (reasonMeta code).layer = .policy := by
  cases axis <;> simp only [emits, List.mem_cons, List.not_mem_nil, or_false] at h
  · rcases h with rfl | rfl <;> rfl
  · rcases h with rfl | rfl <;> rfl
  · rw [h]
    rfl
  · rw [h]
    rfl

end Linklint
