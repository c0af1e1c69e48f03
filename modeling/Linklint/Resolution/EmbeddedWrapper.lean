import Linklint.Resolution.OfflineEvidence

/-!
# The embedded-wrapper enricher

The outcome it records for a destination it decoded: the evidence of the decode
and of the offline inspection, and the reasons of that inspection as findings.
-/

namespace Linklint

namespace EmbeddedWrapper

def EMBEDDED_WRAPPER_SOURCE_ID : Text := text "embedded-wrapper.local"
def EMBEDDED_WRAPPER_SOURCE_VERSION : Text := text "1.0.0"

def FRESHNESS : EnrichmentFreshness := ⟨.fresh, none⟩

inductive EmbeddedWrapperVendor where
  | microsoftSafeLinks
  | proofpointUrlDefense
deriving DecidableEq

def EmbeddedWrapperVendor.name : EmbeddedWrapperVendor → Text
  | .microsoftSafeLinks => text "microsoft-safe-links"
  | .proofpointUrlDefense => text "proofpoint-url-defense"

def formatDocumentation : EmbeddedWrapperVendor → Text
  | .microsoftSafeLinks =>
      text "https://learn.microsoft.com/defender-office-365/safe-links-about"
  | .proofpointUrlDefense =>
      text "https://help.proofpoint.com/Threat_Insight_Dashboard/Concepts/How_do_I_decode_a_rewritten_URL%3F"

structure EmbeddedWrapperDecoded where
  wrapperUrl : Text
  destinationUrl : Text
  vendor : EmbeddedWrapperVendor
  format : Text
  formatVersion : Text

def declaredProvenance (decoded : EmbeddedWrapperDecoded) : EnrichmentProvenance :=
  .declared ⟨text "@linklint/online.embedded-wrapper", some EMBEDDED_WRAPPER_SOURCE_VERSION, none⟩
    (some ⟨decoded.format, some decoded.formatVersion, some (formatDocumentation decoded.vendor)⟩)

/-- Every reason of the inspection is emitted. -/
def offlineFindings (result : InspectResult) : List EnricherFinding :=
  (result.reasons.filter fun reason => isRegistered reason.code).map
    (offlineFinding result (text "Decoded wrapper destination"))

def decodedPayload (decoded : EmbeddedWrapperDecoded) (offline : InspectResult) (depth : Nat) :
    Value :=
  .obj [(text "wrapperUrl", .str decoded.wrapperUrl),
    (text "destinationUrl", .str decoded.destinationUrl),
    (text "vendor", .str decoded.vendor.name), (text "format", .str decoded.format),
    (text "formatVersion", .str decoded.formatVersion), (text "depth", .num (.ofNat depth)),
    (text "localOnly", .bool true), (text "offlineInspection", offlineInspection offline)]

def decodedOutcome (decoded : EmbeddedWrapperDecoded) (offline : InspectResult) (observedAt : Text)
    (depth : Nat) : EnrichmentOutcome where
  sourceId := EMBEDDED_WRAPPER_SOURCE_ID
  layer := .resolution
  status := .success
  subject := ⟨.url, decoded.destinationUrl⟩
  observedAt
  provenance := declaredProvenance decoded
  freshness := FRESHNESS
  evidence := [some
    { type := text "wrapper.decode"
      subject := ⟨.url, decoded.destinationUrl⟩
      observedAt
      provenance := declaredProvenance decoded
      freshness := FRESHNESS
      payload := decodedPayload decoded offline depth }]
  findings := (offlineFindings offline).map some
  cause := none

end EmbeddedWrapper

end Linklint
