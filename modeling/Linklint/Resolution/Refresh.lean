import Linklint.Js.Url
import Linklint.Platform
import Linklint.Transport.Outcome

/-!
# Transitions of a redirect chain

Where a response sends the chain next: the `Location` of a redirect status, a
`Refresh` header, or the first meta refresh of an HTML body. Decoding a body and
finding the meta element in its markup are parameters.
-/

namespace Linklint

namespace RedirectChain

def MAX_CHAIN_URL_LENGTH : Nat := 16384

def REDIRECT_STATUSES : List JsNum := [301, 302, 303, 307, 308].map JsNum.ofNat

def HTML_MEDIA_TYPES : List Text := [text "text/html", text "application/xhtml+xml"]

inductive TransitionKind where
  | httpRedirect
  | httpRefresh
  | htmlMetaRefresh
deriving DecidableEq

def TransitionKind.name : TransitionKind → Text
  | .httpRedirect => text "http-redirect"
  | .httpRefresh => text "http-refresh"
  | .htmlMetaRefresh => text "html-meta-refresh"

structure FollowTransition where
  kind : TransitionKind
  targetUrl : Text
  delayMs : Option Rat
deriving DecidableEq

inductive StopStatus where
  | skipped
  | failure
deriving DecidableEq

def StopStatus.outcome : StopStatus → OutcomeStatus
  | .skipped => .skipped
  | .failure => .failure

inductive TransitionDecision where
  | terminal
  | follow (transition : FollowTransition)
  | stop (outcomeStatus : StopStatus) (code : Text) (details : Option Value)
      (targetUrl : Option Text)

structure RefreshPolicy where
  maxBytes : Nat
  maxDelayMs : Rat

/-- What the chain takes from the platform and from the markup scan. -/
structure ChainApi where
  urls : UrlApi
  platform : Platform
  /-- `new TextDecoder(encoding).decode(body)` -/
  decodeText : Text → Bytes → Text
  firstMetaRefreshContent : Text → Option Text

def stop (outcomeStatus : StopStatus) (code : String) (details : List (Text × Value)) :
    TransitionDecision :=
  .stop outcomeStatus (text code) (some (.obj details)) none

def kindField (kind : TransitionKind) : Text × Value := (text "mechanism", .str kind.name)

/-! ### Headers -/

inductive SingleHeader where
  | missing
  | ambiguous
  | value (value : Text)

structure ContentType where
  mediaType : Text
  charset : Option Text

/-- `"..."` or `'...'` and nothing but blanks after it. -/
def quotedValue (quote : CodeUnit) (s : Text) : Option Text :=
  if s.head? = some quote then
    match Text.cutFirst quote s.tail with
    | (body, some rest) => if rest.all isSpace then some body else none
    | (_, none) => none
  else none

/-- `[^\s;]+` and nothing but blanks after it. -/
def bareValue (s : Text) : Option Text :=
  let body := s.takeWhile fun u => !isSpace u && u != unit ';'
  if body ≠ [] ∧ (s.drop body.length).all isSpace then some body else none

/-- `literal` at the start of `s`, in any case of its ASCII letters; the rest of `s`. -/
def dropIgnoringCase (literal : String) (s : Text) : Option Text :=
  let length := (text literal).length
  if (s.take length).map asciiLower = text literal then some (s.drop length) else none

/-- `=` between blanks. -/
def dropEquals (s : Text) : Option Text :=
  match s.dropWhile isSpace with
  | u :: rest => if u = unit '=' then some (rest.dropWhile isSpace) else none
  | [] => none

/-- The value of a `charset` parameter. -/
def charsetParameter (parameter : Text) : Option Text := do
  let rest ← dropIgnoringCase "charset" (parameter.dropWhile isSpace)
  let value ← dropEquals rest
  (quotedValue (unit '"') value).orElse fun _ =>
    (quotedValue (unit '\'') value).orElse fun _ => bareValue value

section
variable (api : ChainApi)

def singleHeader (headers : ResponseHeaders) (name : String) : SingleHeader :=
  match (headers.filter fun field => api.platform.toLowerCase field.1 == text name).flatMap Prod.snd with
  | [] => .missing
  | [value] => if value.trim = [] then .ambiguous else .value value.trim
  | _ => .ambiguous

def singleHeaderValue (headers : ResponseHeaders) (name : String) : Option Text :=
  match singleHeader api headers name with
  | .value value => some value
  | _ => none

/-- The last `charset` parameter counts. -/
def parseContentType (value : Option Text) : Option ContentType :=
  value.bind fun value =>
    match value.split (unit ';') with
    | [] => none
    | rawMediaType :: parameters =>
        let mediaType := api.platform.toLowerCase rawMediaType.trim
        let charset := (parameters.filterMap charsetParameter).getLast?
        if mediaType = [] then none else some ⟨mediaType, charset.map api.platform.toLowerCase⟩

/-- The encoding a declared charset stands for. -/
def htmlEncoding (charset : Text) : Option Text :=
  if charset ∈ [text "utf-8", text "utf8", text "us-ascii"] then some (text "utf-8")
  else if charset ∈ [text "iso-8859-1", text "latin1", text "windows-1252"] then
    some (text "windows-1252")
  else none

def declaredCharset (contentType : ContentType) : Text :=
  api.platform.toLowerCase (contentType.charset.getD (text "utf-8"))

/-- The markup, or the charset that is not supported. -/
def decodeHtml (body : Bytes) (contentType : ContentType) : Except Text Text :=
  match htmlEncoding (declaredCharset api contentType) with
  | some encoding => .ok (api.decodeText encoding body)
  | none => .error (declaredCharset api contentType)

def charsetUnsupported (charset : Text) : TransitionDecision :=
  stop .failure "refresh-charset-unsupported" [(text "charset", .str charset)]

def bodyTooLarge (policy : RefreshPolicy) (body : Bytes) : TransitionDecision :=
  stop .skipped "refresh-body-too-large"
    [(text "maxRefreshBytes", .num (.ofNat policy.maxBytes)),
      (text "observedBytes", .num (.ofNat body.length))]

def isHtml (contentType : Option ContentType) : Bool :=
  contentType.any fun contentType => HTML_MEDIA_TYPES.contains contentType.mediaType

/-- Why a refresh header is not followed, if it is not. -/
def refreshEligibility (body : Bytes) (contentType : Option ContentType) (policy : RefreshPolicy) :
    Option TransitionDecision :=
  if policy.maxBytes < body.length then some (bodyTooLarge policy body)
  else
    match contentType.filter fun contentType => isHtml (some contentType) with
    | none => some (stop .skipped "refresh-mime-unsupported"
        [(text "mediaType", (contentType.map fun contentType => .str contentType.mediaType).getD
          .null)])
    | some contentType =>
        match decodeHtml api body contentType with
        | .error charset => some (charsetUnsupported charset)
        | .ok _ => none

end

/-! ### Refresh values -/

/-- `\d+(?:\.\d+)?`: the number and what follows it. -/
def delaySeconds (s : Text) : Option (Rat × Text) :=
  let whole := s.takeWhile isDigit
  let rest := s.drop whole.length
  if whole = [] then none
  else
    let fraction := rest.tail.takeWhile isDigit
    if rest.head? = some (unit '.') ∧ fraction ≠ [] then
      some ((numeralValue 10 whole : Rat) + numeralValue 10 fraction / 10 ^ fraction.length,
        rest.drop (fraction.length + 1))
    else some ((numeralValue 10 whole : Rat), rest)

/-- `; url = target` to the end. -/
def urlParameter (s : Text) : Option Text :=
  match s with
  | u :: rest => if u = unit ';' then
      (dropIgnoringCase "url" (rest.dropWhile isSpace)).bind fun rest =>
        (dropEquals rest).map Text.trim
    else none
  | [] => none

/-- The delay in seconds and the target text, empty when there is none. -/
def matchRefresh (value : Text) : Option (Rat × Text) := do
  let (seconds, rest) ← delaySeconds (value.dropWhile isSpace)
  let rest := rest.dropWhile isSpace
  if rest = [] then return (seconds, [])
  else return (seconds, ← urlParameter rest)

def unquoteRefreshTarget (value : Text) : Text :=
  let trimmed := value.trim
  if 2 ≤ trimmed.length ∧ (trimmed.head? = some (unit '"') ∨ trimmed.head? = some (unit '\''))
      ∧ trimmed.getLast? = trimmed.head? then
    Text.trim trimmed.tail.dropLast
  else trimmed

/-- `Number.isFinite`, up to the rounding at the last double. -/
def isFiniteDelay (delayMs : Rat) : Bool := decide (delayMs < 2 ^ 1024)

section
variable (api : ChainApi)

/-- `new URL(raw, base)` of texts. -/
def resolveUrl (raw base : Text) : Option Url :=
  (api.urls.parse base).bind fun base => api.urls.resolve raw base

def isHttp (protocol : Text) : Bool := protocol == text "http:" || protocol == text "https:"

def resolveTransition (kind : TransitionKind) (rawTarget currentUrl : Text) (delayMs : Option Rat) :
    TransitionDecision :=
  match resolveUrl api rawTarget.trim currentUrl with
  | none => stop .failure "invalid-target" [kindField kind]
  | some resolved =>
      let target := resolved.withoutHash
      let href := api.urls.href target
      if !isHttp target.protocol ∨ MAX_CHAIN_URL_LENGTH < href.length then
        .stop .failure (text "invalid-target")
          (some (.obj [kindField kind, (text "scheme", .str target.protocol)])) (some href)
      else .follow { kind, targetUrl := href, delayMs }

def parseRefreshTransition (kind : TransitionKind) (value currentUrl : Text) (maxDelayMs : Rat) :
    TransitionDecision :=
  match matchRefresh value with
  | none => stop .failure "invalid-refresh" [kindField kind]
  | some (seconds, rawTarget) =>
      let delayMs := seconds * 1000
      if !isFiniteDelay delayMs then stop .failure "invalid-refresh" [kindField kind]
      else if maxDelayMs < delayMs then
        stop .skipped "refresh-delay-exceeded" [kindField kind, (text "delayMs", .num (.fin delayMs)),
          (text "maxRefreshDelayMs", .num (.fin maxDelayMs))]
      else
        let target := unquoteRefreshTarget rawTarget
        resolveTransition api kind (if target = [] then currentUrl else target) currentUrl
          (some delayMs)

/-- The transition of a body with no refresh header. -/
def metaTransition (response : SafeFetchResponse) (contentType : Option ContentType)
    (currentUrl : Text) (policy : RefreshPolicy) : TransitionDecision :=
  match contentType.filter fun contentType => isHtml (some contentType) with
  | none => .terminal
  | some contentType =>
      if policy.maxBytes < response.body.length then bodyTooLarge policy response.body
      else
        match decodeHtml api response.body contentType with
        | .error charset => charsetUnsupported charset
        | .ok html =>
            match api.firstMetaRefreshContent html with
            | none => .terminal
            | some content =>
                parseRefreshTransition api .htmlMetaRefresh content currentUrl policy.maxDelayMs

def locationReason (missing : Bool) : Value :=
  .str (text (if missing then "missing-location" else "ambiguous-location"))

def transitionFor (response : SafeFetchResponse) (currentUrl : Text) (method : TransportMethod)
    (policy : RefreshPolicy) : TransitionDecision :=
  if REDIRECT_STATUSES.contains response.status then
    match singleHeader api response.headers "location" with
    | .value location => resolveTransition api .httpRedirect location currentUrl none
    | .missing => stop .failure "invalid-target"
        [kindField .httpRedirect, (text "reason", locationReason true)]
    | .ambiguous => stop .failure "invalid-target"
        [kindField .httpRedirect, (text "reason", locationReason false)]
  else
    let contentType := parseContentType api (singleHeaderValue api response.headers "content-type")
    match singleHeader api response.headers "refresh" with
    | .ambiguous => stop .failure "invalid-refresh"
        [(text "reason", .str (text "ambiguous-header"))]
    | .value value =>
        match refreshEligibility api response.body contentType policy with
        | some decision => decision
        | none => parseRefreshTransition api .httpRefresh value currentUrl policy.maxDelayMs
    | .missing =>
        if method = .head then .terminal
        else metaTransition api response contentType currentUrl policy

end

end RedirectChain

end Linklint
