import Linklint.Js.Date
import Linklint.Js.Number
import Linklint.Lib.Interaction
import Linklint.Platform

/-!
# Snapshot updates

The update of a caller-owned snapshot: a cancellation check, a cadence guard, one
conditional request, and a write of what was parsed in full. The feeds differ in
their requests, their parsers, and the statuses and errors they know.
-/

namespace Linklint

open Interaction

structure FeedResponse where
  status : Nat
  headers : List (Text × Text)
  body : Text

/-- What a client throws: the name of an `Error`, and a `code` that is a string. -/
structure FeedError where
  name : Option Text
  code : Option Text

/-- The metadata every snapshot has. -/
structure SnapshotStamp where
  source : Text
  version : Text
  etag : Option Text
  lastModified : Option Text
  observedAt : Text
  expiresAt : Option Text

inductive CauseDetail where
  | text (value : Option Text)
  | number (value : Nat)

structure FeedCause (Code : Type) where
  code : Code
  message : Text
  retryable : Bool
  details : Option (List (Text × CauseDetail))

inductive UnchangedReason where
  | notModified
  | withinCadence
deriving DecidableEq

inductive UpdateResult (Metadata Snapshot Code : Type) where
  | updated (snapshot : Snapshot)
  | unchanged (metadata : Metadata) (reason : UnchangedReason)
  | skipped (cause : FeedCause Code)
  | failure (cause : FeedCause Code)

/-- The operations of an update. -/
inductive FeedOp (Snapshot Request : Type) where
  /-- `signal?.aborted` -/
  | aborted
  | readMetadata
  /-- `clock.now()`, in milliseconds -/
  | now
  | request (request : Request)
  | replace (snapshot : Snapshot)

def FeedAns (Metadata : Type) {Snapshot Request : Type} : FeedOp Snapshot Request → Type
  | .aborted => Bool
  | .readMetadata => Option Metadata
  | .now => Int
  | .request _ => Except FeedError FeedResponse
  | .replace _ => Unit

/-- The causes of a feed. -/
structure FeedCodes (Code : Type) where
  throttled : Code
  httpError : Code
  malformed : Code
  networkError : Code
  callerAborted : Code

/-- What sets one feed apart. -/
structure Feed (Metadata Snapshot Request Data Code : Type) where
  name : Text
  source : Text
  version : Text
  codes : FeedCodes Code
  malformedMessage : Text
  throttleStatuses : List Nat
  throttleDetails : FeedResponse → List (Text × CauseDetail)
  isAbortError : FeedError → Bool
  errorDetails : FeedError → Option (List (Text × CauseDetail))
  parse : Text → Option Data
  stamp : Metadata → SnapshotStamp
  snapshot : Data → SnapshotStamp → Snapshot

/-- What one call of an update brings: its cadence, its URL check and its request. -/
structure FeedCall (Metadata Request Code : Type) where
  cadenceMs : Option Rat
  refusal : Option (FeedCause Code)
  request : Option Metadata → Request

/-- `typeof value === "number" && Number.isFinite(value) && value > 0 ? value : null` -/
def positiveMs : Option JsNum → Option Rat
  | some (.fin q) => if 0 < q then some q else none
  | _ => none

/-- An explicit non-positive value disables the cadence; absent uses the default. -/
def resolveCadence (defaultMs : Rat) : Option JsNum → Option Rat
  | none => some defaultMs
  | some value => positiveMs (some value)

section
variable (P : Platform) (dates : DateApi)

def headerValue (response : FeedResponse) (name : Text) : Option Text :=
  (response.headers.find? fun field =>
    P.toLowerCase field.1 == name && field.2.trim != []).map Prod.snd

def withinCadence (previous : SnapshotStamp) (now : Int) (cadenceMs : Rat) : Bool :=
  match dates.parse previous.observedAt with
  | none => false
  | some observed => decide ((now : Rat) < observed + cadenceMs)

/-- `If-None-Match` and `If-Modified-Since` of the previous snapshot. -/
def conditionalHeaders : Option SnapshotStamp → List (Text × Text)
  | none => []
  | some previous =>
      (previous.etag.map fun etag => (text "If-None-Match", etag)).toList ++
        (previous.lastModified.map fun value => (text "If-Modified-Since", value)).toList

section
variable {Metadata Snapshot Request Data Code : Type}

abbrev FeedProg (Metadata Snapshot Request α : Type) :=
  Prog (FeedOp Snapshot Request) (FeedAns Metadata) α

def updateAborted : FeedProg Metadata Snapshot Request Bool := Prog.perform FeedOp.aborted

def storedMetadata : FeedProg Metadata Snapshot Request (Option Metadata) :=
  Prog.perform FeedOp.readMetadata

def clockNow : FeedProg Metadata Snapshot Request Int := Prog.perform FeedOp.now

def feedRequest (request : Request) :
    FeedProg Metadata Snapshot Request (Except FeedError FeedResponse) :=
  Prog.perform (FeedOp.request request)

def replaceSnapshot (snapshot : Snapshot) : FeedProg Metadata Snapshot Request Unit :=
  Prog.perform (FeedOp.replace snapshot)

namespace Feed

variable (feed : Feed Metadata Snapshot Request Data Code)

def skip (code : Code) (message : Text) : UpdateResult Metadata Snapshot Code :=
  .skipped { code, message, retryable := false, details := none }

def throttled (response : FeedResponse) : UpdateResult Metadata Snapshot Code :=
  .skipped
    { code := feed.codes.throttled
      message := feed.name ++ text " endpoint returned " ++ decimalText response.status
      retryable := true
      details := some (feed.throttleDetails response) }

def fail (code : Code) (message : Text) (details : Option (List (Text × CauseDetail))) :
    UpdateResult Metadata Snapshot Code :=
  .failure { code, message, retryable := false, details }

def describeError (error : FeedError) : Text :=
  match error.name with
  | some name => feed.name ++ text " request failed: " ++ name
  | none => feed.name ++ text " request failed"

/-- The metadata of a new snapshot; `none` is the RangeError of a date out of range. -/
def newStamp (response : FeedResponse) (now : Int) (cadenceMs : Option Rat) :
    Option SnapshotStamp := do
  let expiresAt ← match cadenceMs with
    | some cadence => (dates.toISOString (now + cadence)).map some
    | none => some none
  let observedAt ← dates.toISOString now
  return { source := feed.source, version := feed.version, etag := headerValue P response (text "etag"),
           lastModified := headerValue P response (text "last-modified"), observedAt, expiresAt }

/-- The snapshot a response gives; `none` is the RangeError of a date out of range. -/
def newSnapshot (data : Data) (response : FeedResponse) (now : Int) (cadenceMs : Option Rat) :
    Option Snapshot :=
  (feed.newStamp P dates response now cadenceMs).map (feed.snapshot data)

/-- What a response that is no snapshot means. -/
def refusedResponse (previous : Option Metadata) (response : FeedResponse) :
    Option (UpdateResult Metadata Snapshot Code) :=
  if response.status = 304 then
    some (match previous with
      | some metadata => .unchanged metadata .notModified
      | none => fail feed.codes.httpError
          (text "provider returned 304 with no stored snapshot") none)
  else if feed.throttleStatuses.contains response.status then some (feed.throttled response)
  else if response.status < 200 ∨ 300 ≤ response.status then
    some (fail feed.codes.httpError
      (feed.name ++ text " status " ++ decimalText response.status)
      (some [(text "status", .number response.status)]))
  else none

/-- Take a response: write the snapshot it gives in full, or nothing. -/
def takeResponse (previous : Option Metadata) (now : Int) (cadenceMs : Option Rat)
    (response : FeedResponse) :
    FeedProg Metadata Snapshot Request (Option (UpdateResult Metadata Snapshot Code)) :=
  match feed.refusedResponse previous response with
  | some result => return some result
  | none =>
      match feed.parse response.body with
      | none => return some (fail feed.codes.malformed feed.malformedMessage none)
      | some data =>
          match feed.newSnapshot P dates data response now cadenceMs with
          | none => return none
          | some snapshot => do
              replaceSnapshot snapshot
              return some (.updated snapshot)

/-- One update; a result of `none` is a call that rejects. -/
def update (call : FeedCall Metadata Request Code) :
    FeedProg Metadata Snapshot Request (Option (UpdateResult Metadata Snapshot Code)) := do
  if ← updateAborted then
    return some (skip feed.codes.callerAborted (text "update cancelled before start"))
  else
    let previous ← storedMetadata
    let now ← clockNow
    let within := match previous, call.cadenceMs with
      | some metadata, some cadence => withinCadence dates (feed.stamp metadata) now cadence
      | _, _ => false
    match previous, within, call.refusal with
    | some metadata, true, _ => return some (.unchanged metadata .withinCadence)
    | _, _, some cause => return some (.failure cause)
    | previous, _, none =>
        match ← feedRequest (call.request previous) with
        | .error error =>
            if (← updateAborted) || feed.isAbortError error then
              return some (skip feed.codes.callerAborted (text "update cancelled"))
            else
              return some (fail feed.codes.networkError (feed.describeError error)
                (feed.errorDetails error))
        | .ok response => feed.takeResponse P dates previous now call.cadenceMs response

end Feed

end

end

end Linklint
