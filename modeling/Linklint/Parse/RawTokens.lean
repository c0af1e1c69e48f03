import Linklint.Js.Text

/-!
# Raw tokens of a URL candidate

The validation-free split shared by the parser and the structural scans.
-/

namespace Linklint

def isSlash (u : CodeUnit) : Bool := u == unit '/' || u == unit '\\'

/-- `/^[/\\]{2}/` -/
def startsWithSlashPair : Text → Bool
  | a :: b :: _ => isSlash a && isSlash b
  | _ => false

def isSchemeUnit (u : CodeUnit) : Bool :=
  isAsciiLetter u || isDigit u || u == unit '+' || u == unit '.' || u == unit '-'

/-- `SCHEME_RE`: the scheme name and the text after its colon. -/
def matchScheme (prepared : Text) : Option (Text × Text) :=
  match prepared with
  | [] => none
  | c :: rest =>
      let name := rest.takeWhile isSchemeUnit
      match rest.drop name.length with
      | d :: after => if isAsciiLetter c ∧ d = unit ':' then some (c :: name, after) else none
      | [] => none

def KNOWN_SCHEMES : List Text :=
  ["http", "https", "ftp", "ftps", "ws", "wss", "file", "mailto", "tel", "about", "chrome",
    "view-source", "javascript", "data", "vbscript", "blob"].map text

def OPAQUE_SCHEMES : List Text :=
  ["javascript", "data", "vbscript", "blob", "mailto", "tel", "about"].map text

def isKnownScheme (candidate : Text) : Bool := KNOWN_SCHEMES.contains candidate
def isOpaqueScheme (candidate : Text) : Bool := OPAQUE_SCHEMES.contains candidate

def isAuthorityEnd (u : CodeUnit) : Bool := u == unit '/' || u == unit '?' || u == unit '#'

/-- `/^\d+([/?#]|$)/` -/
def startsWithPort (after : Text) : Bool :=
  let digits := after.takeWhile isDigit
  digits != [] && match after.drop digits.length with
    | [] => true
    | u :: _ => isAuthorityEnd u

def looksLikeHostPort (candidate after : Text) : Bool :=
  (candidate.includes (unit '.') || startsWithPort after) && !isKnownScheme candidate

structure RawUrlTokens where
  prepared : Text
  rawScheme : Option Text
  scheme : Option Text
  protocolRelative : Bool
  isOpaque : Bool
  authorityIntroducer : Text
  authority : Text
  path : Text
  query : Option Text
  fragment : Option Text

structure PathQueryFragment where
  path : Text
  query : Option Text
  fragment : Option Text

def splitPathQueryFragment (input : Text) : PathQueryFragment :=
  let hash := Text.cutFirst (unit '#') input
  let question := Text.cutFirst (unit '?') hash.1
  { path := question.1, query := question.2, fragment := hash.2 }

/-- The authority introducer and path of a local `file:` body. -/
def hostlessFileBody (rest : Text) : Option (Text × Text) :=
  if rest = [] ∨ (rest.head?.any isSlash) then
    if startsWithSlashPair rest then
      let afterEmptyAuthority := rest.drop 2
      if afterEmptyAuthority = [] ∨ afterEmptyAuthority.head? = some (unit '/') then
        some (rest.take 2, afterEmptyAuthority)
      else none
    else some ([], rest)
  else none

def leadingAuthorityIntroducer (rest : Text) (scheme : Option Text) (protocolRelative : Bool) :
    Text :=
  if scheme = none ∧ ¬ protocolRelative then []
  else if startsWithSlashPair rest then rest.takeWhile isSlash
  else []

/-- The accepted scheme as written and lower-cased, and the text after it. -/
def splitScheme (prepared : Text) : Option (Text × Text) × Text :=
  match matchScheme prepared with
  | some (candidateRaw, after) =>
      let candidate := candidateRaw.map asciiLower
      if looksLikeHostPort candidate after then (none, prepared)
      else (some (candidateRaw, candidate), after)
  | none => (none, prepared)

def tokenizeRawUrl (prepared : Text) : RawUrlTokens :=
  let (accepted, rest) := splitScheme prepared
  let rawScheme := accepted.map Prod.fst
  let scheme := accepted.map Prod.snd
  let protocolRelative := scheme.isNone && startsWithSlashPair prepared
  let isOpaque := scheme.any isOpaqueScheme && !startsWithSlashPair rest
  let tokens := fun (introducer authority : Text) (body : PathQueryFragment) =>
    { prepared, rawScheme, scheme, protocolRelative, isOpaque, authorityIntroducer := introducer,
      authority, path := body.path, query := body.query, fragment := body.fragment : RawUrlTokens }
  if isOpaque then tokens [] [] (splitPathQueryFragment rest)
  else
    let hostless := if scheme = some (text "file") then hostlessFileBody rest else none
    match hostless with
    | some (introducer, path) => tokens introducer [] (splitPathQueryFragment path)
    | none =>
        let introducer := leadingAuthorityIntroducer rest scheme protocolRelative
        let authorityAndRemainder := rest.drop introducer.length
        let authority := authorityAndRemainder.takeWhile (!isAuthorityEnd ·)
        tokens introducer authority
          (splitPathQueryFragment (authorityAndRemainder.drop authority.length))

structure AuthorityRegion where
  scheme : Option Text
  protocolRelative : Bool
  separator : Text
  authority : Text
  path : Text
  fragment : Option Text
  isOpaque : Bool

def authorityRegion (tokens : RawUrlTokens) : AuthorityRegion where
  scheme := tokens.scheme
  protocolRelative := tokens.protocolRelative
  separator := tokens.authorityIntroducer
  authority := tokens.authority
  path := tokens.path
  fragment := tokens.fragment
  isOpaque := tokens.isOpaque

end Linklint
