import Linklint.Parse.RawTokens
import Linklint.Parse.Ip
import Linklint.Platform

/-!
# Raw parts

The validating projection of the raw tokens: userinfo, host and port, and the
reasons an authority does not parse.
-/

namespace Linklint

/-- Unicode `Cc` or `Cf`. -/
def isInvisible (cp : Nat) : Bool :=
  cp ≤ 0x1F || (0x7F ≤ cp && cp ≤ 0x9F) || cp == 0xAD || (0x600 ≤ cp && cp ≤ 0x605) || cp == 0x61C
    || cp == 0x6DD || cp == 0x70F || cp == 0x890 || cp == 0x891 || cp == 0x8E2 || cp == 0x180E
    || (0x200B ≤ cp && cp ≤ 0x200F) || (0x202A ≤ cp && cp ≤ 0x202E)
    || (0x2060 ≤ cp && cp ≤ 0x2064) || (0x2066 ≤ cp && cp ≤ 0x206F) || cp == 0xFEFF
    || (0xFFF9 ≤ cp && cp ≤ 0xFFFB) || cp == 0x110BD || cp == 0x110CD
    || (0x13430 ≤ cp && cp ≤ 0x1343F) || (0x1BCA0 ≤ cp && cp ≤ 0x1BCA3)
    || (0x1D173 ≤ cp && cp ≤ 0x1D17A) || cp == 0xE0001 || (0xE0020 ≤ cp && cp ≤ 0xE007F)

def stripInvisible (input : Text) : Text :=
  ((codePoints input).filter (!isInvisible ·)).flatMap encodeCodePoint

def MAX_PORT : Nat := 65535

/-- `Number(digits)`, unless it is out of range. -/
def toPort (digits : Text) : Option Nat :=
  if numeralValue 10 digits > MAX_PORT then none else some (numeralValue 10 digits)

/-- `PORT_DIGITS_RE` -/
def isPortDigits (s : Text) : Bool := s != [] && s.all isDigit

structure RawParts where
  scheme : Option Text
  userinfo : Option Text
  rawHost : Text
  port : Option Nat
  path : Text
  query : Option Text
  fragment : Option Text

structure SplitParts where
  parts : RawParts
  bracketed : Bool

/-- `ILLEGAL_HOST_RE` matches the unit. -/
def isIllegalHostUnit (u : CodeUnit) : Bool :=
  isSpace u || (text "<>\"\x7b\x7d|\\^").contains u || u.toNat == 0x60

section
variable (P : Platform)

/-- `HOST_CHARS_RE` -/
def isHostCodePoint (cp : Nat) : Bool :=
  P.isLetterMarkNumber cp || cp == 0x2E || cp == 0x5F || cp == 0x25 || cp == 0x2D

def hostIsValid (rawHost : Text) : Bool :=
  let clean := stripInvisible rawHost
  clean != [] && !clean.any isIllegalHostUnit && (codePoints clean).all (isHostCodePoint P)
    && !((clean.dropTrailingDot.split (unit '.')).contains [])

end

def opaqueBody (tokens : RawUrlTokens) : Text :=
  tokens.path ++ (match tokens.query with
    | some q => unit '?' :: q
    | none => []) ++ (match tokens.fragment with
    | some f => unit '#' :: f
    | none => [])

def hasParseableAuthorityIntroducer (tokens : RawUrlTokens) : Bool :=
  if tokens.scheme = none then !tokens.protocolRelative
  else tokens.authorityIntroducer == [] || tokens.authorityIntroducer == text "//"

structure HostPort where
  rawHost : Text
  port : Option Nat
  bracketed : Bool

/-- `[host]` and an optional port claim after it. -/
def splitBracketed (hostport : Text) : Option HostPort :=
  match (Text.cutFirst (unit ']') hostport).2 with
  | none => none
  | some portPart =>
      let rawHost := (Text.cutFirst (unit ']') hostport).1.drop 1
      match portPart with
      | [] => some { rawHost, port := none, bracketed := true }
      | u :: p =>
          if u = unit ':' ∧ isPortDigits p then
            (toPort p).map (fun port => { rawHost, port := some port, bracketed := true })
          else none

/-- A host and, when the tail after the last colon is digits, a port. -/
def splitUnbracketed (hostport : Text) : Option HostPort :=
  match Text.cutLast (unit ':') hostport with
  | (some head, tail) =>
      if isPortDigits tail then
        (toPort tail).map (fun port => { rawHost := head, port := some port, bracketed := false })
      else some { rawHost := hostport, port := none, bracketed := false }
  | (none, _) => some { rawHost := hostport, port := none, bracketed := false }

def splitHostPort (hostport : Text) : Option HostPort :=
  if hostport.head? = some (unit '[') then splitBracketed hostport else splitUnbracketed hostport

/-- The parts of a hostless input. -/
def hostlessParts (scheme : Option Text) (path : Text) (query fragment : Option Text) : SplitParts where
  parts := { scheme, userinfo := none, rawHost := [], port := none, path, query, fragment }
  bracketed := false

section
variable (P : Platform)

def splitRawParts (tokens : RawUrlTokens) : Option SplitParts :=
  if tokens.isOpaque then some (hostlessParts tokens.scheme (opaqueBody tokens) none none)
  else if tokens.scheme = some (text "file") ∧ tokens.authority = [] then
    some (hostlessParts tokens.scheme tokens.path tokens.query tokens.fragment)
  else if !hasParseableAuthorityIntroducer tokens then none
  else do
    let (userinfo, hostport) := Text.cutLast (unit '@') tokens.authority
    let split ← splitHostPort hostport
    let valid := if split.bracketed then (analyzeIpv6 split.rawHost).isSome
      else hostIsValid P split.rawHost
    if valid then
      some { bracketed := split.bracketed,
             parts := { scheme := tokens.scheme, userinfo, rawHost := split.rawHost,
                        port := split.port, path := tokens.path, query := tokens.query,
                        fragment := tokens.fragment } }
    else none

/-- Input without a scheme must name a dotted host or an IP literal. -/
def isBareSingleLabel (split : SplitParts) : Bool :=
  if split.parts.scheme ≠ none ∨ split.bracketed then false
  else
    let host := stripInvisible split.parts.rawHost
    if host = [] ∨ host.includes (unit '.') then false else (analyzeIpv4 host).isNone

def parseRawParts (tokens : RawUrlTokens) : Option RawParts :=
  match splitRawParts P tokens with
  | none => none
  | some split => if isBareSingleLabel split then none else some split.parts

def bareSingleLabelHost (tokens : RawUrlTokens) : Option Text :=
  match splitRawParts P tokens with
  | some split => if isBareSingleLabel split then some split.parts.rawHost else none
  | none => none

end

end Linklint
