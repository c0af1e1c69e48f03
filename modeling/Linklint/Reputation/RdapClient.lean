import Linklint.Reputation.RdapBootstrap

/-!
# RDAP lookups

The routing of a registrable domain through the bootstrap registry, and the one
lookup that follows it: a read-through cache and a bounded chain of redirects.
The normalization of a record is the caller's.
-/

namespace Linklint

open Interaction

/-! ### Routing -/

/-- `s.replace(/\.+$/, "")` -/
def dropTrailingDots (s : Text) : Text := (s.reverse.dropWhile (· == unit '.')).reverse

inductive RdapRouting where
  | routed (baseUrl tld : Text)
  | unsupportedTld (tld : Text)

section
variable (P : Platform)

/-- The final label of a domain, lowercased. -/
def tldLabel (domain : Text) : Text :=
  (Text.cutLast (unit '.') (P.toLowerCase (dropTrailingDots domain))).2

/-- The first HTTPS base URL, or else the first, with its trailing slash. -/
def preferHttpsBase (urls : List Text) : Option Text :=
  ((urls.find? (isHttpsUrl P)).or urls.head?).map fun chosen =>
    if chosen.endsWith [unit '/'] then chosen else chosen ++ [unit '/']

/-- Route a registrable domain to its base URL. -/
def resolveRdapBase (registry : RdapBootstrapRegistry) (registrableDomain : Text) : RdapRouting :=
  let tld := tldLabel P registrableDomain
  let base := registry.services.findSome? fun (tlds, urls) =>
    if tlds.any fun entry => P.toLowerCase entry == tld then preferHttpsBase P urls else none
  match base with
  | some baseUrl => .routed baseUrl tld
  | none => .unsupportedTld tld

end

/-! ### One lookup -/

inductive RdapCauseCode where
  | unsupportedTld
  | throttled
  | httpError
  | malformed
  | tooManyRedirects
  | invalidDomain
  | networkError
  | callerAborted
deriving DecidableEq

inductive RdapFetchResult (Record : Type) where
  | found (record : Record) (fromCache : Bool)
  | noHit (domain : Text)
  | skipped (cause : FeedCause RdapCauseCode)
  | failure (cause : FeedCause RdapCauseCode)

/-- The records of a caller. -/
structure RdapRecords (Record : Type) where
  /-- `normalizeRdapDomain(value, { domain, observedAt, expiresAt })` -/
  normalize : Value → Text → Text → Option Text → Record
  expiresAt : Record → Option Text

structure FetchRdapDomainOptions where
  registry : RdapBootstrapRegistry
  registrableDomain : Text
  cacheTtlMs : Option JsNum
  hasCache : Bool
  maxRedirects : Option JsNum

/-- The operations of a lookup. -/
inductive LookupOp (Record : Type) where
  /-- `signal?.aborted` -/
  | aborted
  | cacheGet (key : Text)
  /-- `clock.now()`, in milliseconds -/
  | now
  | request (url : Text)
  | cacheSet (key : Text) (record : Record)

def LookupAns {Record : Type} : LookupOp Record → Type
  | .aborted => Bool
  | .cacheGet _ => Option Record
  | .now => Int
  | .request _ => Except FeedError FeedResponse
  | .cacheSet _ _ => Unit

abbrev LookupProg (Record α : Type) := Prog (LookupOp Record) LookupAns α

def DEFAULT_RDAP_MAX_REDIRECTS : Nat := 3
def MAX_RDAP_REDIRECTS : Nat := 5
def RdapClient.REDIRECT_STATUSES : List Nat := [301, 302, 303, 307, 308]

section
variable {Record : Type}

def lookupAborted : LookupProg Record Bool := Prog.perform LookupOp.aborted
def lookupNow : LookupProg Record Int := Prog.perform LookupOp.now

def cachedRecord (key : Text) : LookupProg Record (Option Record) :=
  Prog.perform (LookupOp.cacheGet key)

def requestUrl (url : Text) : LookupProg Record (Except FeedError FeedResponse) :=
  Prog.perform (LookupOp.request url)

def storeRecord (key : Text) (record : Record) : LookupProg Record Unit :=
  Prog.perform (LookupOp.cacheSet key record)

def skipLookup (code : RdapCauseCode) (message : Text) (retryable : Bool)
    (details : Option (List (Text × CauseDetail))) : RdapFetchResult Record :=
  .skipped { code, message, retryable, details }

def failLookup (code : RdapCauseCode) (message : Text)
    (details : Option (List (Text × CauseDetail))) : RdapFetchResult Record :=
  .failure { code, message, retryable := false, details }

def boundedRedirects (value : Option JsNum) : Nat :=
  match value.bind JsNum.toNat? with
  | some n => min n MAX_RDAP_REDIRECTS
  | none => DEFAULT_RDAP_MAX_REDIRECTS

def describeRdapError (error : FeedError) : Text :=
  match error.name with
  | some name => text "RDAP request failed: " ++ name
  | none => text "RDAP request failed"

section
variable (P : Platform) (dates : DateApi) (api : UrlApi) (parseJson : Text → Option Value)
  (domainToASCII : Text → Text) (records : RdapRecords Record) (options : FetchRdapDomainOptions)

/-- The A-label form of a domain, when it is routable. -/
def toALabel (domain : Text) : Option Text :=
  if domain.trim = [] then none
  else
    let ascii := domainToASCII (P.toLowerCase (dropTrailingDots domain.trim))
    if ascii = [] ∨ ascii.includes (unit '.') = false then none else some ascii

/-- `new URL(location, base).toString()`, or the location itself. -/
def resolveLocation (base location : Text) : Text :=
  match (api.parse base).bind (api.resolve location) with
  | some url => api.href url
  | none => location

/-- The first `Location` that is not blank. -/
def locationHeader (response : FeedResponse) : Option Text :=
  headerValue P response (text "location")

def retryAfterHeader (response : FeedResponse) : Option Text :=
  (response.headers.find? fun field => P.toLowerCase field.1 == text "retry-after").map Prod.snd

/-- The record of a parsed answer and its dates; `none` is the RangeError of a date out of range. -/
def newRecord (aLabel : Text) (parsed : Value) (observedAt : Int) : Option Record := do
  let expiresAt ← match positiveMs options.cacheTtlMs with
    | some ttl => (dates.toISOString (observedAt + ttl)).map some
    | none => some none
  let observedText ← dates.toISOString observedAt
  return records.normalize parsed aLabel observedText expiresAt

/-- The result of an answer that is no redirect. -/
def terminalResult (response : FeedResponse) (aLabel : Text) :
    LookupProg Record (Option (RdapFetchResult Record)) :=
  if response.status = 404 then return some (.noHit aLabel)
  else if response.status = 429 then
    return some (skipLookup .throttled (text "RDAP endpoint returned 429") true
      (some [(text "retryAfter", .text (retryAfterHeader P response))]))
  else if response.status < 200 ∨ 300 ≤ response.status then
    return some (failLookup .httpError (text "RDAP status " ++ decimalText response.status)
      (some [(text "status", .number response.status)]))
  else
    match parseJson response.body with
    | none => return some (failLookup .malformed (text "RDAP response body is not valid JSON") none)
    | some parsed => do
        let observedAt ← lookupNow
        match newRecord dates records options aLabel parsed observedAt with
        | none => return none
        | some record =>
            if options.hasCache then do
              storeRecord aLabel record
              return some (.found record false)
            else return some (.found record false)

/-- The redirect loop with the requests it has left. -/
def followRedirects (aLabel : Text) :
    Nat → Text → List Text → LookupProg Record (Option (RdapFetchResult Record))
  | 0, _, _ =>
      return some (failLookup .tooManyRedirects
        (text "exceeded " ++ decimalText (boundedRedirects options.maxRedirects) ++
          text " redirects") none)
  | remaining + 1, url, seen => do
      if ← lookupAborted then
        return some (skipLookup .callerAborted (text "lookup cancelled") false none)
      else if seen.contains url then
        return some (failLookup .tooManyRedirects (text "redirect loop at " ++ url) none)
      else
        match ← requestUrl url with
        | .error error =>
            if ← lookupAborted then
              return some (skipLookup .callerAborted (text "lookup cancelled") false none)
            else return some (failLookup .networkError (describeRdapError error) none)
        | .ok response =>
            if RdapClient.REDIRECT_STATUSES.contains response.status then
              match locationHeader P response with
              | none =>
                  return some (failLookup .httpError (text "redirect without Location from " ++ url)
                    none)
              | some location =>
                  followRedirects aLabel remaining (resolveLocation api url location) (url :: seen)
            else terminalResult P dates parseJson records options response aLabel

/-- `isFresh(record, clock)` -/
def isFresh (record : Record) : LookupProg Record Bool :=
  match (records.expiresAt record).bind dates.parse with
  | none => return false
  | some expiry => do
      let now ← lookupNow
      return decide (now < expiry)

/-- `cache?.get(aLabel)`, when it is fresh. -/
def readThrough (aLabel : Text) : LookupProg Record (Option Record) :=
  if options.hasCache then do
    match ← cachedRecord aLabel with
    | none => return none
    | some record => return if ← isFresh dates records record then some record else none
  else return none

/-- The first URL of a lookup. -/
def domainUrl (baseUrl aLabel : Text) : Text := baseUrl ++ text "domain/" ++ aLabel

/-- One lookup; a result of `none` is a call that rejects. -/
def fetchRdapDomain : LookupProg Record (Option (RdapFetchResult Record)) := do
  if ← lookupAborted then
    return some (skipLookup .callerAborted (text "lookup cancelled before start") false none)
  else
    match toALabel P domainToASCII options.registrableDomain with
    | none =>
        return some (skipLookup .invalidDomain
          (text "not a routable domain: " ++ options.registrableDomain) false none)
    | some aLabel =>
        match ← readThrough dates records options aLabel with
        | some record => return some (.found record true)
        | none =>
            match resolveRdapBase P options.registry aLabel with
            | .unsupportedTld tld =>
                return some (skipLookup .unsupportedTld (text "no RDAP service for ." ++ tld) false
                  (some [(text "tld", .text (some tld))]))
            | .routed baseUrl _ =>
                followRedirects P dates api parseJson records options aLabel
                  (boundedRedirects options.maxRedirects + 1) (domainUrl baseUrl aLabel) []

end

end

end Linklint
