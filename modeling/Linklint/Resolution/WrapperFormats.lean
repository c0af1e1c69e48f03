import Linklint.Resolution.EmbeddedWrapper
import Linklint.Js.Codecs
import Linklint.Js.Number
import Linklint.Js.Url

/-!
# Wrapper formats

The catalog of wrapper hosts and the pinned formats of their links, decoded
locally and one hop at a time.
-/

namespace Linklint

namespace EmbeddedWrapper

def DEFAULT_EMBEDDED_WRAPPER_MAX_DEPTH : Nat := 4
def MAX_EMBEDDED_WRAPPER_DEPTH : Nat := 8
def DEFAULT_EMBEDDED_WRAPPER_MAX_URL_LENGTH : Nat := 16384
def MAX_CONFIGURED_URL_LENGTH : Nat := 1048576
def MICROSOFT_SUFFIX : Text := text "safelinks.protection.outlook.com"
def PROOFPOINT_HOSTS : List Text := [text "urldefense.com", text "urldefense.proofpoint.com"]

/-- A positive integer option up to a cap, or its default. -/
def boundedOption (standard cap : Nat) (value : Option JsNum) : Nat :=
  match value.bind JsNum.toNat? with
  | some n => if n = 0 then standard else min n cap
  | none => standard

def boundedDepth (value : Option JsNum) : Nat :=
  boundedOption DEFAULT_EMBEDDED_WRAPPER_MAX_DEPTH MAX_EMBEDDED_WRAPPER_DEPTH value

def boundedUrlLength (value : Option JsNum) : Nat :=
  boundedOption DEFAULT_EMBEDDED_WRAPPER_MAX_URL_LENGTH MAX_CONFIGURED_URL_LENGTH value

theorem boundedOption_pos {standard cap : Nat} (hstandard : 0 < standard) (hcap : 0 < cap)
    (value : Option JsNum) : 0 < boundedOption standard cap value := by
  rw [boundedOption]
  split
  · split <;> omega
  · exact hstandard

theorem boundedOption_le {standard cap : Nat} (h : standard ≤ cap) (value : Option JsNum) :
    boundedOption standard cap value ≤ cap := by
  rw [boundedOption]
  split
  · split <;> omega
  · exact h

/-- A bounded value is its own bound. -/
theorem boundedOption_ofNat {standard cap n : Nat} (hpos : 0 < n) (hle : n ≤ cap) :
    boundedOption standard cap (some (.ofNat n)) = n := by
  have hnat : (JsNum.ofNat n).toNat? = some n := by simp [JsNum.ofNat, JsNum.toNat?]
  simp only [boundedOption, Option.bind_some, hnat, if_neg (Nat.pos_iff_ne_zero.mp hpos)]
  exact Nat.min_eq_left hle

/-! ### Hosts -/

def isLowerAlphanumeric (u : CodeUnit) : Bool := isLower u || isDigit u

/-- `/^[a-z0-9](?:[a-z0-9-]{0,61}[a-z0-9])?$/` -/
def isTenantLabel (label : Text) : Bool :=
  label != [] && decide (label.length ≤ 63) && label.head?.any isLowerAlphanumeric &&
    label.getLast?.any isLowerAlphanumeric &&
    label.all fun u => isLowerAlphanumeric u || u == unit '-'

def isMicrosoftSafeLinksHost (hostname : Text) : Bool :=
  let labels := hostname.split (unit '.')
  labels.length == 5 && Text.join [unit '.'] labels.tail == MICROSOFT_SUFFIX &&
    labels.head?.any isTenantLabel

def wrapperVendor (hostname : Text) : Option EmbeddedWrapperVendor :=
  if isMicrosoftSafeLinksHost hostname then some .microsoftSafeLinks
  else if PROOFPOINT_HOSTS.contains hostname then some .proofpointUrlDefense
  else none

def isExactHttpsWrapper (url : Url) : Bool :=
  url.protocol == text "https:" && url.port == [] && url.username == [] && url.password == []

/-- `new URL(input)` of a text that is not empty and has no blanks around it. -/
def parseExactUrl (api : UrlApi) (input : Text) : Option Url :=
  if input = [] ∨ input ≠ input.trim then none else api.parse input

/-! ### Queries -/

def queryParts (search : Text) : List Text :=
  if search.startsWith [unit '?'] then Text.split (unit '&') (search.drop 1) else []

def decodeFormComponent (value : Text) : Option Text :=
  decodeURIComponent (value.map fun u => if u = unit '+' then unit ' ' else u)

/-- The raw values of the parameters with a name. -/
def rawQueryValues (search name : Text) : List Text :=
  (queryParts search).filterMap fun part =>
    let (rawName, value) := Text.cutFirst (unit '=') part
    if decodeFormComponent rawName = some name then some (value.getD []) else none

def exactRawQueryParameter (search name : Text) : Option Text :=
  match rawQueryValues search name with
  | [value] => some value
  | _ => none

def hasExactQueryParameter (search name : Text) : Bool := (rawQueryValues search name).length == 1

def exactQueryParameter (search name : Text) : Option Text :=
  (exactRawQueryParameter search name).bind decodeFormComponent

/-! ### Proofpoint payloads -/

def NAMED_ENTITIES : List (Text × CodeUnit) :=
  [(text "amp;", unit '&'), (text "lt;", unit '<'), (text "gt;", unit '>'),
    (text "quot;", 0x22), (text "apos;", 0x27)]

/-- `&#digits;` or `&#xdigits;` after the `#`: what stands for it, and the rest. -/
def numericEntity (entity digits : Text) (base : Nat) (isBaseDigit : CodeUnit → Bool) :
    Option (Text × Text) :=
  let run := digits.takeWhile isBaseDigit
  match digits.drop run.length with
  | semicolon :: rest =>
      if run ≠ [] ∧ semicolon = unit ';' then
        let codePoint := numeralValue base run
        let written := entity.take (entity.length - rest.length)
        some (if isScalarValue codePoint then encodeCodePoint codePoint else written, rest)
      else none
  | [] => none

/-- The entity a text starts with, replaced, and the rest. -/
def entityAt (s : Text) : Option (Text × Text) :=
  match s with
  | ampersand :: body =>
      if ampersand = unit '&' then
        match NAMED_ENTITIES.find? fun named => Text.startsWith (body.map asciiLower) named.1 with
        | some (name, replacement) => some ([replacement], body.drop name.length)
        | none =>
            match body with
            | hash :: x :: digits =>
                if hash ≠ unit '#' then none
                else if asciiLower x = unit 'x' then numericEntity s digits 16 isHexDigit
                else numericEntity s (x :: digits) 10 isDigit
            | _ => none
      else none
  | [] => none

theorem length_of_numericEntity {entity digits replacement rest : Text} {base : Nat}
    {isBaseDigit : CodeUnit → Bool}
    (h : numericEntity entity digits base isBaseDigit = some (replacement, rest)) :
    rest.length < digits.length := by
  rw [numericEntity] at h
  split at h
  · rename_i semicolon tail hdrop
    have hlength := congrArg List.length hdrop
    rw [List.length_drop, List.length_cons] at hlength
    split at h
    · cases h
      omega
    · cases h
  · cases h

theorem length_of_entityAt {s replacement rest : Text}
    (h : entityAt s = some (replacement, rest)) : rest.length < s.length := by
  unfold entityAt at h
  split at h
  · rename_i ampersand body
    split at h
    · split at h
      · cases h
        simp only [List.length_drop, List.length_cons]
        omega
      · split at h
        · rename_i hash x digits
          simp only [List.length_cons]
          split at h
          · cases h
          · split at h
            · have hrest := length_of_numericEntity h
              omega
            · have hrest := length_of_numericEntity h
              rw [List.length_cons] at hrest
              omega
        · cases h
    · cases h
  · cases h

def decodeProofpointHtmlEntities : Text → Text
  | [] => []
  | u :: rest =>
      match _h : entityAt (u :: rest) with
      | some (replacement, rest) => replacement ++ decodeProofpointHtmlEntities rest
      | none => u :: decodeProofpointHtmlEntities rest
termination_by s => s.length
decreasing_by
  · exact length_of_entityAt _h
  · exact Nat.lt_succ_self _

def decodeProofpointV1Payload (value : Text) : Option Text :=
  (decodeURIComponent value).map decodeProofpointHtmlEntities

def decodeProofpointV2Payload (value : Text) : Option Text :=
  decodeProofpointV1Payload
    (value.map fun u => if u = unit '-' then unit '%' else if u = unit '_' then unit '/' else u)

def PROOFPOINT_V3_RUN_CODES : Text := BASE64URL_ALPHABET

/-- `__;([A-Za-z0-9_-]*)!.*\$$` at the start of a text: the encoded characters. -/
def v3Tail (s : Text) : Option Text :=
  if s.startsWith (text "__;") then
    let encoded := (s.drop 3).takeWhile (BASE64URL_ALPHABET.contains ·)
    match (s.drop 3).drop encoded.length with
    | mark :: signature =>
        if mark = unit '!' ∧ signature.getLast? = some (unit '$') then some encoded else none
    | [] => none
  else none

/-- The shortest text before such a tail. -/
def v3Template : Text → Option (Text × Text)
  | [] => none
  | u :: rest =>
      match v3Tail rest with
      | some encoded => some ([u], encoded)
      | none => (v3Template rest).map fun found => (u :: found.1, found.2)

/-- The characters of a payload, when it is the canonical encoding of UTF-8 text. -/
def decodeBase64UrlCharacters (encoded : Text) : Option (List Text) :=
  if encoded.length % 4 = 1 then none
  else
    let bytes := base64UrlBytes encoded
    if base64UrlText bytes ≠ encoded then none
    else (textDecode bytes).map fun characters => characters.map encodeCodePoint

/-- Put the characters in the place of the asterisks; none may be left over. -/
def expandTemplate : Text → List Text → Option Text
  | [], replacements => if replacements = [] then some [] else none
  | u :: rest, replacements =>
      if u ≠ unit '*' then (expandTemplate rest replacements).map (u :: ·)
      else
        let single :=
          match replacements with
          | [] => none
          | character :: more => (expandTemplate rest more).map (character ++ ·)
        match rest with
        | v :: runCode :: rest' =>
            if v = unit '*' then
              if PROOFPOINT_V3_RUN_CODES.contains runCode then
                let runLength := PROOFPOINT_V3_RUN_CODES.idxOf runCode + 2
                if replacements.length < runLength then none
                else
                  (expandTemplate rest' (replacements.drop runLength)).map
                    ((replacements.take runLength).flatten ++ ·)
              else none
            else single
        | _ => single

def decodeProofpointV3Payload (pathAndQuery : Text) : Option Text :=
  if pathAndQuery.startsWith (text "/v3/__") then do
    let (encodedTemplate, encoded) ← v3Template (pathAndQuery.drop 6)
    let template ← decodeURIComponent encodedTemplate
    let replacements ← decodeBase64UrlCharacters encoded
    expandTemplate template replacements
  else none

/-! ### Decoding -/

inductive DecodeCauseCode where
  | unsupportedWrapperFormat
  | malformedWrapper
  | invalidDecodedUrl
  | decodedUrlTooLong
deriving DecidableEq

def DecodeCauseCode.name : DecodeCauseCode → Text
  | .unsupportedWrapperFormat => text "unsupported-wrapper-format"
  | .malformedWrapper => text "malformed-wrapper"
  | .invalidDecodedUrl => text "invalid-decoded-url"
  | .decodedUrlTooLong => text "decoded-url-too-long"

inductive EmbeddedWrapperDecodeResult where
  | decoded (decoded : EmbeddedWrapperDecoded)
  | notWrapper (input : Text)
  | unsupported (input : Text) (vendor : EmbeddedWrapperVendor) (code : DecodeCauseCode)
      (message : Text)
  | malformed (input : Text) (vendor : EmbeddedWrapperVendor) (format : Option Text)
      (code : DecodeCauseCode) (message : Text)

def unsupported (input : Text) (vendor : EmbeddedWrapperVendor) : EmbeddedWrapperDecodeResult :=
  .unsupported input vendor .unsupportedWrapperFormat
    (text "The trusted wrapper host uses a scheme, path, or version outside the pinned catalog.")

def malformedProofpoint (input format : Text) : EmbeddedWrapperDecodeResult :=
  .malformed input .proofpointUrlDefense (some format) .malformedWrapper
    (text "The Proofpoint URL Defense payload does not match the pinned local grammar.")

section
variable (api : UrlApi)

def validateDecoded (input destinationUrl : Text) (vendor : EmbeddedWrapperVendor)
    (format formatVersion : Text) (maxUrlLength : Nat) : EmbeddedWrapperDecodeResult :=
  if maxUrlLength < destinationUrl.length then
    .malformed input vendor (some format) .decodedUrlTooLong
      (text "The decoded destination exceeds the configured local decode bound.")
  else if destinationUrl = [] ∨ (parseExactUrl api destinationUrl).isNone then
    .malformed input vendor (some format) .invalidDecodedUrl
      (text "The locally decoded destination is not an absolute URL.")
  else .decoded { wrapperUrl := input, destinationUrl, vendor, format, formatVersion }

def decodeMicrosoftSafeLinks (input : Text) (parsed : Url) (maxUrlLength : Nat) :
    EmbeddedWrapperDecodeResult :=
  let format := text "microsoft-safe-links-standard"
  if parsed.pathname ≠ text "/" ∨ parsed.hash ≠ [] then unsupported input .microsoftSafeLinks
  else
    match exactQueryParameter parsed.search (text "url") with
    | none =>
        .malformed input .microsoftSafeLinks (some format) .malformedWrapper
          (text "The Microsoft Safe Links wrapper must contain exactly one valid url parameter.")
    | some destination =>
        validateDecoded api input destination .microsoftSafeLinks format (text "standard-2026-07")
          maxUrlLength

/-- A decoded Proofpoint payload, or the malformed result of its absence. -/
def proofpointDecoded (input format formatVersion : Text) (maxUrlLength : Nat) :
    Option Text → EmbeddedWrapperDecodeResult
  | none => malformedProofpoint input format
  | some destination =>
      validateDecoded api input destination .proofpointUrlDefense format formatVersion maxUrlLength

def decodeProofpoint (input : Text) (parsed : Url) (maxUrlLength : Nat) :
    EmbeddedWrapperDecodeResult :=
  if parsed.hash ≠ [] then unsupported input .proofpointUrlDefense
  else if parsed.pathname = text "/v1/url" then
    let destination :=
      (exactRawQueryParameter parsed.search (text "u")).bind decodeProofpointV1Payload
    proofpointDecoded api input (text "proofpoint-url-defense-v1") (text "v1") maxUrlLength
      (if hasExactQueryParameter parsed.search (text "k") then destination else none)
  else if parsed.pathname = text "/v2/url" then
    let destination :=
      (exactRawQueryParameter parsed.search (text "u")).bind decodeProofpointV2Payload
    proofpointDecoded api input (text "proofpoint-url-defense-v2") (text "v2") maxUrlLength
      (if hasExactQueryParameter parsed.search (text "d") ||
        hasExactQueryParameter parsed.search (text "c") then destination else none)
  else if parsed.pathname.startsWith (text "/v3/") then
    proofpointDecoded api input (text "proofpoint-url-defense-v3") (text "v3.0.1") maxUrlLength
      (decodeProofpointV3Payload (parsed.pathname ++ parsed.search))
  else unsupported input .proofpointUrlDefense

/-- Decode one wrapper. -/
def decodeEmbeddedWrapper (input : Text) (maxUrlLength : Option JsNum) :
    EmbeddedWrapperDecodeResult :=
  let maxUrlLength := boundedUrlLength maxUrlLength
  match parseExactUrl api input with
  | none => .notWrapper input
  | some parsed =>
      match wrapperVendor parsed.hostname with
      | none => .notWrapper input
      | some vendor =>
          if maxUrlLength < input.length then
            .malformed input vendor none .decodedUrlTooLong
              (text "The wrapper URL exceeds the configured local decode bound.")
          else if !isExactHttpsWrapper parsed then unsupported input vendor
          else
            match vendor with
            | .microsoftSafeLinks => decodeMicrosoftSafeLinks api input parsed maxUrlLength
            | .proofpointUrlDefense => decodeProofpoint api input parsed maxUrlLength

end

end EmbeddedWrapper

end Linklint
