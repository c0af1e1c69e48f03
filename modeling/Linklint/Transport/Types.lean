import Linklint.Js.Text

/-!
# Causes and headers of the transport
-/

namespace Linklint

inductive TransportCauseCode where
  | authorizationRequired
  | invalidUrl
  | unsupportedScheme
  | unsupportedMethod
  | urlCredentials
  | refererNotSameOrigin
  | prohibitedAddress
  | hopLimit
  | responseTooLarge
  | responseTooSlow
  | decompressedResponseTooLarge
  | responseHeadersTooLarge
  | unsupportedContentEncoding
  | timeout
  | callerAborted
  | dnsNotFound
  | dnsTimeout
  | dnsMalformed
  | dnsError
  | connectRefused
  | connectTimeout
  | connectError
  | connectionAddressMismatch
  | tlsHandshake
  | tlsCertificate
  | httpMalformed
  | httpReset
  | httpTimeout
  | httpError
  | decompressionError
deriving DecidableEq

/-- A header map with lower-case names, each at most once. -/
abbrev Headers := List (Text × Text)

/-- `headers[name] = value`; a string is not taken for a prototype. -/
def setHeader (headers : Headers) (name value : Text) : Headers :=
  if name = text "__proto__" then headers
  else if headers.any (fun field => field.1 == name) then
    headers.map fun field => if field.1 = name then (name, value) else field
  else headers ++ [(name, value)]

end Linklint
