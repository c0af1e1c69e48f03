import Linklint.Mirrors.Csv
import Linklint.Mirrors.FeedUpdate

/-!
# The URLhaus mirror
-/

namespace Linklint

open Interaction

inductive UrlhausUrlStatus where
  | online
  | offline
  | unknown
deriving DecidableEq

structure UrlhausRecord where
  id : Text
  url : Text
  dateAdded : Option Text
  status : UrlhausUrlStatus
  lastOnline : Option Text
  threat : Option Text
  tags : List Text
  reporter : Option Text

structure UrlhausSnapshotMetadata extends SnapshotStamp where
  recordCount : Nat

structure UrlhausSnapshot where
  metadata : UrlhausSnapshotMetadata
  records : List UrlhausRecord

inductive UrlhausCauseCode where
  | throttled
  | httpError
  | malformed
  | networkError
  | callerAborted
deriving DecidableEq

/-- The request of a CSV feed. -/
structure MirrorHttpRequest where
  url : Text
  headers : List (Text × Text)

def URLHAUS_COLUMN_COUNT : Nat := 9
def URLHAUS_SOURCE_ID : Text := text "urlhaus.mirror"
def URLHAUS_SOURCE_VERSION : Text := text "1.0.0"
def URLHAUS_ONLINE_DUMP_URL : Text := text "https://urlhaus.abuse.ch/downloads/csv_online/"
def AUTH_KEY_HEADER : Text := text "Auth-Key"

/-- A field of a row, absent past its end. -/
def fieldAt (fields : List Text) (index : Nat) : Option Text := fields[index]?

/-- `(fields[index] ?? "").trim()` -/
def trimmedField (fields : List Text) (index : Nat) : Text := ((fieldAt fields index).getD []).trim

def nonEmpty (fields : List Text) (index : Nat) : Option Text :=
  let trimmed := trimmedField fields index
  if trimmed = [] then none else some trimmed

/-- `/^\d{4}-\d{2}-\d{2} \d{2}:\d{2}:\d{2}$/` -/
def isSpacedInstant (s : Text) : Bool :=
  let shape := text "0000-00-00 00:00:00"
  s.length == shape.length && (s.zip shape).all fun (u, v) =>
    if v = unit '0' then isDigit u else u == v

section
variable (P : Platform) (dates : DateApi)

/-- The canonical text of an instant, when it can be read. -/
def canonicalInstant (s : Text) : Option Text := (dates.parse s).map dates.iso

namespace Urlhaus

/-- URLhaus timestamps are space-separated UTC. -/
def isoInstant (fields : List Text) (index : Nat) : Option Text :=
  match nonEmpty fields index with
  | none => none
  | some trimmed =>
      canonicalInstant dates
        (if isSpacedInstant trimmed then trimmed.take 10 ++ unit 'T' :: trimmed.drop 11 ++ [unit 'Z']
         else trimmed)

def urlStatus (fields : List Text) (index : Nat) : UrlhausUrlStatus :=
  let normalized := P.toLowerCase (trimmedField fields index)
  if normalized = text "online" then .online
  else if normalized = text "offline" then .offline
  else .unknown

/-- A record without an id or a URL is unusable. -/
def toRecord (fields : List Text) : Option UrlhausRecord :=
  let id := trimmedField fields 0
  let url := trimmedField fields 2
  if id = [] ∨ url = [] then none
  else
    some
      { id
        url
        dateAdded := isoInstant dates fields 1
        status := urlStatus P fields 3
        lastOnline := isoInstant dates fields 4
        threat := nonEmpty fields 5
        tags := ((((fieldAt fields 6).getD []).split (unit ',')).map Text.trim).filter (· != [])
        reporter := nonEmpty fields 8 }

/-- `/urlhaus/i.test(line)` -/
def signsUrlhaus (line : Text) : Bool := (line.map asciiLower).tails.any fun rest =>
  (text "urlhaus").isPrefixOf rest

/-- One line: whether it signs the file, and its record. -/
def readLine (line : Text) : Bool × Option UrlhausRecord :=
  if line.head? = some (unit '#') then (signsUrlhaus line, none)
  else
    match parseCsvRow line with
    | none => (false, none)
    | some fields =>
        if fields.length < URLHAUS_COLUMN_COUNT then (false, none)
        else
          match toRecord P dates fields with
          | none => (false, none)
          | some record => (true, some record)

def parseUrlhausCsv (body : Text) : Option (List UrlhausRecord) :=
  if body.trim = [] then none
  else
    let lines := (splitCsvLines body).map (readLine P dates)
    if lines.any Prod.fst then some (lines.filterMap Prod.snd) else none

end Urlhaus

abbrev UrlhausFeed :=
  Feed UrlhausSnapshotMetadata UrlhausSnapshot MirrorHttpRequest (List UrlhausRecord)
    UrlhausCauseCode

abbrev UrlhausProg (α : Type) :=
  FeedProg UrlhausSnapshotMetadata UrlhausSnapshot MirrorHttpRequest α

def urlhausFeed : UrlhausFeed where
  name := text "URLhaus"
  source := URLHAUS_SOURCE_ID
  version := URLHAUS_SOURCE_VERSION
  codes :=
    { throttled := .throttled, httpError := .httpError, malformed := .malformed,
      networkError := .networkError, callerAborted := .callerAborted }
  malformedMessage := text "URLhaus response body is not a recognizable CSV dump"
  throttleStatuses := [429]
  throttleDetails response := [(text "retryAfter", .text (headerValue P response (text "retry-after")))]
  isAbortError _ := false
  errorDetails _ := none
  parse := Urlhaus.parseUrlhausCsv P dates
  stamp metadata := metadata.toSnapshotStamp
  snapshot records stamp := { metadata := { stamp with recordCount := records.length }, records }

structure UpdateUrlhausSnapshotOptions where
  /-- `credential.reveal()` -/
  credential : Text
  dumpUrl : Option Text
  cadenceMs : Option JsNum

def urlhausCall (options : UpdateUrlhausSnapshotOptions) :
    FeedCall UrlhausSnapshotMetadata MirrorHttpRequest UrlhausCauseCode where
  cadenceMs := positiveMs options.cadenceMs
  refusal := none
  request previous :=
    { url := options.dumpUrl.getD URLHAUS_ONLINE_DUMP_URL
      headers := (AUTH_KEY_HEADER, options.credential) ::
        conditionalHeaders (previous.map (·.toSnapshotStamp)) }

def updateUrlhausSnapshot (options : UpdateUrlhausSnapshotOptions) :
    UrlhausProg (Option (UpdateResult UrlhausSnapshotMetadata UrlhausSnapshot UrlhausCauseCode)) :=
  (urlhausFeed P dates).update P dates (urlhausCall options)

end

end Linklint
