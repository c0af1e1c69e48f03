import Linklint.Inspect

/-!
# URL comparison

How two inputs relate: the same origin, and the same site under two views of the
suffix list. Each input is described by a canonical view first; the relations read
the views and nothing else.
-/

namespace Linklint

inductive UrlRelation where
  | same | different | undetermined
deriving DecidableEq

/-- What kind of origin a side has: `"tuple"`, `"opaque"` or `"undetermined"`. -/
inductive OriginKind where
  | tupleOrigin | opaqueOrigin | undetermined
deriving DecidableEq

structure ComparedUrl where
  input : Option Text
  scheme : Option Text
  originKind : OriginKind
  host : Option Text
  port : Option Nat
  site : Option Text
  siteIcann : Option Text
deriving DecidableEq

structure UrlComparison where
  sameOrigin : UrlRelation
  sameSite : UrlRelation
  sameSiteIcann : UrlRelation
  left : ComparedUrl
  right : ComparedUrl
  pslSnapshot : PslSnapshot
deriving DecidableEq

def TUPLE_ORIGIN_SCHEMES : List Text := ["http", "https", "ws", "wss", "ftp"].map text

def DEFAULT_PORTS : List (Text × Nat) :=
  [(text "http", 80), (text "https", 443), (text "ws", 80), (text "wss", 443), (text "ftp", 21)]

def undeterminedSide (input : Option Text) : ComparedUrl where
  input := input
  scheme := none
  originKind := .undetermined
  host := none
  port := none
  site := none
  siteIcann := none

section
variable (P : Platform) (tr46ToAscii : (transitional : Bool) → Text → Except Thrown (Option Text))

def toAsciiUnder (host : Text) (transitional : Bool) : Option Text :=
  match tr46ToAscii transitional host with
  | .ok ace => ace
  | .error _ => none

def privateRegistrableDomain (host : Text) : Except Thrown (Option Text) := do
  let r ← P.tldtsParse true host
  return r.domain

def canonicalHost (host : Text) (isIp : Bool) : Option Text :=
  if host = [] then none
  else
    let bare := stripTrailingRootDot host
    if bare = [] then none
    else if isIp then
      match analyzeIpv4 bare, analyzeIpv6 bare with
      | some v4, _ => some v4.canonical
      | none, some v6 => some v6.canonical
      | none, none => some (P.toLowerCase bare)
    else toAsciiUnder tr46ToAscii bare false

/-- `parse(input)` under the default options. -/
def parseDefault (input : Text) : Except Thrown (Option InspectionContext) := do
  let runtime ← normalizeOptions P HostVal.empty
  parseInput P input runtime

def originKindOf : Option Text → OriginKind
  | none => .undetermined
  | some scheme => if scheme ∈ TUPLE_ORIGIN_SCHEMES then .tupleOrigin else .opaqueOrigin

/-- A side whose host has no canonical form: it is rejected, or there is none. -/
def hostlessSide (input : Text) (ctx : InspectionContext) : ComparedUrl :=
  let rejected := ctx.host ≠ [] ∧ stripTrailingRootDot ctx.host ≠ []
  { undeterminedSide (some input) with
    scheme := ctx.scheme
    originKind := if rejected then .undetermined else .opaqueOrigin }

/-- A side with a canonical host; an address is a site of its own. -/
def hostSide (input : Text) (ctx : InspectionContext) (host : Text) : Except Thrown ComparedUrl := do
  let port :=
    if ctx.port ≠ none ∧ ctx.port = DEFAULT_PORTS.lookup (ctx.scheme.getD []) then none else ctx.port
  let site ←
    if ctx.isIp then pure host else do
      let domain ← privateRegistrableDomain P host
      pure (domain.getD host)
  let siteIcann ←
    if ctx.isIp then pure host else do
      let psl ← analyzeHost P host
      pure (psl.registrableDomain.getD host)
  return {
    input := some input
    scheme := ctx.scheme
    originKind := originKindOf ctx.scheme
    host := some host
    port
    site := some site
    siteIcann := some siteIcann }

def describe : InputVal → Except Thrown ComparedUrl
  | .nonString _ _ => .ok (undeterminedSide none)
  | .string input => do
      match ← parseDefault P input with
      | none => return undeterminedSide (some input)
      | some ctx =>
          match canonicalHost P tr46ToAscii ctx.host ctx.isIp with
          | none => return hostlessSide input ctx
          | some host => hostSide P input ctx host

end

/-! ### The relations -/

def relateOrigin (left right : ComparedUrl) : UrlRelation :=
  if left.originKind = .undetermined ∨ right.originKind = .undetermined then .undetermined
  else if left.originKind = .opaqueOrigin ∨ right.originKind = .opaqueOrigin then .different
  else if left.scheme = right.scheme ∧ left.host = right.host ∧ left.port = right.port then .same
  else .different

def siteUndetermined (side : ComparedUrl) : Prop :=
  side.originKind = .undetermined ∧ side.host = none

instance (side : ComparedUrl) : Decidable (siteUndetermined side) :=
  inferInstanceAs (Decidable (_ ∧ _))

def relateSite (left right : ComparedUrl) (pick : ComparedUrl → Option Text) : UrlRelation :=
  if siteUndetermined left ∨ siteUndetermined right then .undetermined
  else if pick left = none ∨ pick right = none then .different
  else if pick left = pick right then .same
  else .different

def compareUrls (P : Platform) (tr46ToAscii : Bool → Text → Except Thrown (Option Text))
    (left right : InputVal) : Except Thrown UrlComparison := do
  let a ← describe P tr46ToAscii left
  let b ← describe P tr46ToAscii right
  return {
    sameOrigin := relateOrigin a b
    sameSite := relateSite a b ComparedUrl.site
    sameSiteIcann := relateSite a b ComparedUrl.siteIcann
    left := a
    right := b
    pslSnapshot := currentPslSnapshot P.now }

end Linklint
