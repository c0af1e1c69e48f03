import Linklint.Js.Text

/-!
# URLs of the platform

The components of a `URL` object. Parsing, resolving against a base and
serializing are the platform's.
-/

namespace Linklint

/-- A `URL` of the platform; an absent component is the empty text. -/
structure Url where
  /-- with its colon -/
  protocol : Text
  username : Text
  password : Text
  /-- brackets included -/
  hostname : Text
  /-- empty for the default of the scheme -/
  port : Text
  pathname : Text
  search : Text
  hash : Text
deriving DecidableEq

def Url.host (url : Url) : Text :=
  if url.port = [] then url.hostname else url.hostname ++ unit ':' :: url.port

/-- `url.origin` of a scheme with a tuple origin. -/
def Url.origin (url : Url) : Text := url.protocol ++ text "//" ++ url.host

/-- `url.hash = ""` -/
def Url.withoutHash (url : Url) : Url := { url with hash := [] }

/-- `new URL(raw)`, `new URL(raw, base)` and `url.href`. -/
structure UrlApi where
  parse : Text → Option Url
  resolve : Text → Url → Option Url
  href : Url → Text

/-- `unbracket(url.hostname)` -/
def unbracket (hostname : Text) : Text :=
  if hostname.head? = some (unit '[') ∧ hostname.getLast? = some (unit ']') then
    (hostname.drop 1).dropLast
  else hostname

end Linklint
