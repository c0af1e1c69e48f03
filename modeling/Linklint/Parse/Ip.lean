import Linklint.Js.Text
import Linklint.Js.Number

/-!
# IP literals

`inet_aton` style IPv4 recognition, IPv6 literals and their canonical texts.
-/

namespace Linklint

structure Ipv4Analysis where
  obfuscated : Bool
  canonical : Text
deriving DecidableEq

structure Ipv4Part where
  value : Nat
  nonDecimal : Bool
deriving DecidableEq

def isOctalDigit (u : CodeUnit) : Bool := 48 ≤ u.toNat && u.toNat ≤ 55

/-- The digits of a `0x` part. -/
def hexPartDigits : Text → Option Text
  | z :: x :: rest =>
      if z = unit '0' ∧ (x = unit 'x' ∨ x = unit 'X') ∧ rest ≠ [] ∧ rest.all isHexDigit then some rest
      else none
  | _ => none

/-- `/^0[0-7]+$/` -/
def isOctalPart : Text → Bool
  | z :: rest => z == unit '0' && rest != [] && rest.all isOctalDigit
  | [] => false

/-- One `inet_aton` part; a value that overflows to `Infinity` is refused. -/
def parsePart (part : Text) : Option Ipv4Part :=
  match hexPartDigits part with
  | some ds => (roundToDouble (numeralValue 16 ds)).map (⟨·, true⟩)
  | none =>
      if isOctalPart part then (roundToDouble (numeralValue 8 part)).map (⟨·, true⟩)
      else if part ≠ [] ∧ part.all isDigit then
        (roundToDouble (numeralValue 10 part)).map
          (⟨·, decide (part.length > 1 ∧ part.head? = some (unit '0'))⟩)
      else none

def toDotted (n : Nat) : Text :=
  Text.join [unit '.'] ([n / 2 ^ 24 % 256, n / 2 ^ 16 % 256, n / 2 ^ 8 % 256, n % 256].map decimalText)

def stripTrailingRootDot (host : Text) : Text :=
  if host.length > 1 ∧ host.getLast? = some (unit '.') then host.dropLast else host

/-- The packing of the leading single-byte parts. -/
def packBytes : Nat → List Ipv4Part → Option Nat
  | full, [] => some full
  | full, part :: rest => if part.value > 0xff then none else packBytes (full * 256 + part.value) rest

/-- The packed 32-bit value of `inet_aton` parts; the last one fills the remaining bytes. -/
def packIpv4 (vals : List Ipv4Part) : Option Nat := do
  let last ← vals.getLast?
  let remainingBytes := 4 - (vals.length - 1)
  if last.value ≥ 2 ^ (8 * remainingBytes) then none
  else do
    let high ← packBytes 0 vals.dropLast
    let full := high * 2 ^ (8 * remainingBytes) + last.value
    if full > 0xffffffff then none else some full

def analyzeIpv4 (host : Text) : Option Ipv4Analysis :=
  let parts := (stripTrailingRootDot host).split (unit '.')
  if parts.length > 4 then none
  else do
    let vals ← parts.mapM parsePart
    let full ← packIpv4 vals
    some { obfuscated := vals.any Ipv4Part.nonDecimal || vals.length != 4, canonical := toDotted full }

structure Ipv6Analysis where
  obfuscated : Bool
  canonical : Text
  embeddedIpv4 : Option Text
  embeddedIpv4Via : Option Text
deriving DecidableEq

structure Low32Wrapper where
  hextets : List Nat
  mechanism : Text
  excludeLow : List Nat

/-- The transition prefixes that carry an IPv4 in the low 32 bits. -/
def LOW32_WRAPPERS : List Low32Wrapper :=
  [{ hextets := [0, 0, 0, 0, 0, 0xffff],
     mechanism := text "IPv4-mapped prefix ::ffff:0:0/96", excludeLow := [] },
   { hextets := [0x64, 0xff9b, 0, 0, 0, 0],
     mechanism := text "NAT64 well-known prefix 64:ff9b::/96 (RFC 6052)", excludeLow := [] },
   { hextets := [0x64, 0xff9b, 0x1, 0, 0, 0],
     mechanism := text "NAT64 local-use prefix 64:ff9b:1::/48 (RFC 8215)", excludeLow := [] },
   { hextets := [0, 0, 0, 0, 0, 0],
     mechanism := text "IPv4-compatible prefix ::/96 (deprecated by RFC 4291)",
     excludeLow := [0, 1] }]

structure EmbeddedIpv4 where
  address : Text
  mechanism : Text

/-- The low 32 bits of eight hextets. -/
def low32 (groups : List Nat) : Nat := groups.getD 6 0 * 2 ^ 16 + groups.getD 7 0

/-- The wrapper that decides an address: the first whose prefix matches. -/
def matchedWrapper (groups : List Nat) : Option Low32Wrapper :=
  LOW32_WRAPPERS.find? (fun wrapper => groups.take 6 == wrapper.hextets)

def unwrapLow32Ipv4 (groups : List Nat) : Option EmbeddedIpv4 :=
  match matchedWrapper groups with
  | none => none
  | some wrapper =>
      if low32 groups ∈ wrapper.excludeLow then none
      else some { address := toDotted (low32 groups), mechanism := wrapper.mechanism }

/-- `/^\d{1,3}$/`, no leading zero and at most 255. -/
def parseOctet (part : Text) : Option Nat :=
  if 1 ≤ part.length ∧ part.length ≤ 3 ∧ part.all isDigit ∧
      ¬ (part.length > 1 ∧ part.head? = some (unit '0')) ∧ numeralValue 10 part ≤ 255 then
    some (numeralValue 10 part)
  else none

def parseStrictDottedQuad (s : Text) : Option Nat :=
  let parts := s.split (unit '.')
  if parts.length ≠ 4 then none
  else (parts.mapM parseOctet).map (fun octets => octets.foldl (fun value n => value * 256 + n) 0)

/-- `/^[0-9a-fA-F]{1,4}$/` -/
def parseHextet (p : Text) : Option Nat :=
  if 1 ≤ p.length ∧ p.length ≤ 4 ∧ p.all isHexDigit then some (numeralValue 16 p) else none

def parseHextetParts : List Text → Option (List Nat)
  | [] => some []
  | p :: rest =>
      if p.includes (unit '.') then
        if rest ≠ [] then none
        else (parseStrictDottedQuad p).map (fun v4 => [v4 / 2 ^ 16, v4 % 2 ^ 16])
      else do
        let g ← parseHextet p
        let gs ← parseHextetParts rest
        some (g :: gs)

def parseHextets (s : Text) : Option (List Nat) :=
  if s = [] then some [] else parseHextetParts (s.split (unit ':'))

/-- The loop that looks for the longest zero run; the first of equal ones wins. -/
structure ZeroRunScan where
  index : Nat := 0
  bestStart : Nat := 0
  bestLen : Nat := 0
  curLen : Nat := 0

def ZeroRunScan.step (scan : ZeroRunScan) (group : Nat) : ZeroRunScan :=
  if group = 0 then
    let curLen := scan.curLen + 1
    if curLen > scan.bestLen then
      { index := scan.index + 1, bestStart := scan.index + 1 - curLen, bestLen := curLen, curLen }
    else { scan with index := scan.index + 1, curLen }
  else { scan with index := scan.index + 1, curLen := 0 }

def longestZeroRun (groups : List Nat) : ZeroRunScan := groups.foldl ZeroRunScan.step {}

def colonJoin (hex : List Text) : Text := Text.join [unit ':'] hex

/-- The RFC 5952 text of eight hextets. -/
def canonicalizeIpv6 (groups : List Nat) : Text :=
  let run := longestZeroRun groups
  let hex := groups.map (numeralText 16)
  if run.bestLen < 2 then colonJoin hex
  else colonJoin (hex.take run.bestStart) ++ text "::" ++ colonJoin (hex.drop (run.bestStart + run.bestLen))

/-- The RFC 5952 mixed text: only the upper six hextets are compressed. -/
def mixedCanonicalIpv6 (groups : List Nat) (dotted : Text) : Text :=
  let upper := groups.take 6
  let run := longestZeroRun upper
  let hex := upper.map (numeralText 16)
  if run.bestLen < 2 then colonJoin hex ++ unit ':' :: dotted
  else
    let tail := colonJoin (hex.drop (run.bestStart + run.bestLen))
    colonJoin (hex.take run.bestStart) ++ text "::"
      ++ (if tail = [] then [] else tail ++ [unit ':']) ++ dotted

/-- `(host.match(/::/g) ?? []).length` -/
def doubleColons : Text → Nat
  | c :: d :: rest =>
      if c = unit ':' ∧ d = unit ':' then 1 + doubleColons rest else doubleColons (d :: rest)
  | _ => 0

/-- The texts around the first `::`. -/
def cutDoubleColon : Text → Option (Text × Text)
  | c :: d :: rest =>
      if c = unit ':' ∧ d = unit ':' then some ([], rest)
      else (cutDoubleColon (d :: rest)).map (fun cut => (c :: cut.1, cut.2))
  | _ => none

/-- The eight hextets of an IPv6 literal without a zone. -/
def ipv6Groups (host : Text) : Option (List Nat) :=
  if host = [] ∨ ¬ host.includes (unit ':') ∨ host.includes (unit '%') then none
  else if doubleColons host > 1 then none
  else do
    let groups ← match cutDoubleColon host with
      | some (leftText, rightText) =>
          if leftText.includes (unit '.') then none
          else do
            let left ← parseHextets leftText
            let right ← parseHextets rightText
            if 8 < left.length + right.length + 1 then none
            else some (left ++ List.replicate (8 - (left.length + right.length)) 0 ++ right)
      | none => parseHextets host
    if groups.length ≠ 8 then none else some groups

def analyzeIpv6 (host : Text) : Option Ipv6Analysis :=
  (ipv6Groups host).map fun groups =>
    let canonical := canonicalizeIpv6 groups
    let embedded := unwrapLow32Ipv4 groups
    let lower := host.map asciiLower
    { obfuscated := lower != canonical && !(match embedded with
        | some e => lower == mixedCanonicalIpv6 groups e.address
        | none => false)
      canonical
      embeddedIpv4 := embedded.map EmbeddedIpv4.address
      embeddedIpv4Via := embedded.map EmbeddedIpv4.mechanism }

end Linklint
