import Linklint.Schema.Enrich
import Linklint.Transport.Types

/-!
# Outcomes of a fetch

What the transport is asked for and what it reports back: a response, a refusal
before anything was sent, or an attempt that did not complete.
-/

namespace Linklint

def TransportCauseCode.name : TransportCauseCode → Text
  | .authorizationRequired => text "authorization-required"
  | .invalidUrl => text "invalid-url"
  | .unsupportedScheme => text "unsupported-scheme"
  | .unsupportedMethod => text "unsupported-method"
  | .urlCredentials => text "url-credentials"
  | .refererNotSameOrigin => text "referer-not-same-origin"
  | .prohibitedAddress => text "prohibited-address"
  | .hopLimit => text "hop-limit"
  | .responseTooLarge => text "response-too-large"
  | .responseTooSlow => text "response-too-slow"
  | .decompressedResponseTooLarge => text "decompressed-response-too-large"
  | .responseHeadersTooLarge => text "response-headers-too-large"
  | .unsupportedContentEncoding => text "unsupported-content-encoding"
  | .timeout => text "timeout"
  | .callerAborted => text "caller-aborted"
  | .dnsNotFound => text "dns-not-found"
  | .dnsTimeout => text "dns-timeout"
  | .dnsMalformed => text "dns-malformed"
  | .dnsError => text "dns-error"
  | .connectRefused => text "connect-refused"
  | .connectTimeout => text "connect-timeout"
  | .connectError => text "connect-error"
  | .connectionAddressMismatch => text "connection-address-mismatch"
  | .tlsHandshake => text "tls-handshake"
  | .tlsCertificate => text "tls-certificate"
  | .httpMalformed => text "http-malformed"
  | .httpReset => text "http-reset"
  | .httpTimeout => text "http-timeout"
  | .httpError => text "http-error"
  | .decompressionError => text "decompression-error"

abbrev Bytes := List UInt8

/-- A field may occur more than once. -/
abbrev ResponseHeaders := List (Text × List Text)

inductive TransportMethod where
  | get
  | head
deriving DecidableEq

def TransportMethod.name : TransportMethod → Text
  | .get => text "GET"
  | .head => text "HEAD"

structure DestinationFetchAuthorization where
  kind : Text
  url : Text
deriving DecidableEq

structure TlsEvidence where
  authorized : Bool
  serverName : Text
  peerDnsNames : List Text
deriving DecidableEq

structure TransportEvidence where
  subject : EnrichmentSubject
  observedAt : Text
  hop : Nat
  protocol : Option Text := none
  hostname : Option Text := none
  port : Option Nat := none
  resolvedAddresses : Option (List Text) := none
  selectedAddress : Option Text := none
  tls : Option TlsEvidence := none

structure TransportCause where
  code : TransportCauseCode
  details : Option Value := none

structure SafeFetchResponse where
  url : Text
  status : JsNum
  headers : ResponseHeaders
  body : Bytes
  encodedBytes : Nat
  decompressedBytes : Nat

inductive FetchResult where
  | success (response : SafeFetchResponse)
  | blocked (cause : TransportCause)
  | incomplete (cause : TransportCause)

structure SafeFetchOutcome where
  subject : EnrichmentSubject
  observedAt : Text
  evidence : TransportEvidence
  result : FetchResult

end Linklint
