import Linklint.Schema.Enrich

/-!
# Results

The versioned result contract. Version stamps are the constants of the pinned
data releases.
-/

namespace Linklint

inductive Status where
  | ok
  | invalid
deriving DecidableEq, Repr

inductive Severity where
  | info
  | low
  | medium
  | high
  | critical
deriving DecidableEq, Repr

structure ParsedUrl where
  scheme : Option Text
  userinfo : Option Text
  effectiveHost : Option Text
  registrableDomain : Option Text
  publicSuffix : Option Text
  subdomain : Option Text
  hostLabels : List Text
  port : Option Nat
  path : Text
  query : Option Text
  fragment : Option Text
  isIp : Bool
deriving DecidableEq

structure DataVersions where
  publicSuffixList : Text
  unicodeConfusables : Text
  unicodeScripts : Text
  idna : Text
  fileExtensionTlds : Text
  cloudMetadata : Text
  ipRanges : Text
  specialUseNames : Text
  brands : Text
  weights : Text
deriving DecidableEq

def DATA_VERSIONS : DataVersions where
  publicSuffixList := text "tldts@7.4.10"
  unicodeConfusables := text "uts39-16.0.0-curated"
  unicodeScripts := text "ecma-unicode-property-escapes"
  idna := text "tr46@6.0.0"
  fileExtensionTlds := text "2026-06-19"
  cloudMetadata := text "2026-08-25-gcp-ipv6"
  ipRanges := text "iana-special-purpose-2026-07-25"
  specialUseNames := text "2026-08-25-rfc6761"
  brands := text "2026-07-26-watchlist"
  weights := text "1.23"

structure PslSnapshot where
  date : Option Text
  stale : Option Bool
deriving DecidableEq

/-- `2026-07-30T00:00:00Z` in milliseconds. -/
def PSL_LIST_DATE_MS : Int := 1785369600000

/-- A release date bounds the age from below, so it proves staleness only. -/
def currentPslSnapshot (now : Int) : PslSnapshot where
  date := some (text "2026-07-30")
  stale := if (now - PSL_LIST_DATE_MS) / 86400000 > 180 then some true else none

structure InspectResult where
  status : Status
  input : Text
  parsed : Option ParsedUrl
  score : Option Rat
  severity : Option Severity
  confidence : Rat
  reasons : List Reason
  confusables : List (Option Confusable)
  checksRun : List Text
  checksSkipped : List Text
  dataVersions : DataVersions
  pslSnapshot : PslSnapshot
  enrichment : Option EnrichmentReport := none

end Linklint
