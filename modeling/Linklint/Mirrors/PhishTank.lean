import Linklint.Mirrors.Urlhaus

/-!
# The PhishTank mirror
-/

namespace Linklint

open Interaction

structure PhishTankRecord where
  phishId : Text
  url : Text
  detailUrl : Option Text
  submissionTime : Option Text
  verified : Bool
  verificationTime : Option Text
  online : Bool
  target : Option Text

structure PhishTankSnapshotMetadata extends SnapshotStamp where
  recordCount : Nat

structure PhishTankSnapshot where
  metadata : PhishTankSnapshotMetadata
  records : List PhishTankRecord

inductive PhishTankCauseCode where
  | throttled
  | httpError
  | malformed
  | networkError
  | callerAborted
deriving DecidableEq

def PHISHTANK_COLUMN_COUNT : Nat := 8
def PHISHTANK_SOURCE_ID : Text := text "phishtank.mirror"
def PHISHTANK_SOURCE_VERSION : Text := text "1.0.0"
def PHISHTANK_DATA_BASE_URL : Text := text "https://data.phishtank.com/data"
def PHISHTANK_ONLINE_VALID_FEED : Text := text "online-valid.csv"
def PHISHTANK_DEFAULT_CADENCE_MS : Rat := 3600000
def DEFAULT_USER_AGENT : Text := text "linklint-phishtank-mirror"
def THROTTLE_STATUSES : List Nat := [429, 509]

section
variable (P : Platform) (dates : DateApi)

namespace PhishTank

def isoInstant (fields : List Text) (index : Nat) : Option Text :=
  (nonEmpty fields index).bind (canonicalInstant dates)

def isYes (fields : List Text) (index : Nat) : Bool :=
  P.toLowerCase (trimmedField fields index) == text "yes"

def isHeaderRow (fields : List Text) : Bool :=
  P.toLowerCase (trimmedField fields 0) == text "phish_id"
    && P.toLowerCase (trimmedField fields 1) == text "url"

def toRecord (fields : List Text) : Option PhishTankRecord :=
  let phishId := trimmedField fields 0
  let url := trimmedField fields 1
  if phishId = [] ∨ url = [] then none
  else
    some
      { phishId
        url
        detailUrl := nonEmpty fields 2
        submissionTime := isoInstant dates fields 3
        verified := isYes P fields 4
        verificationTime := isoInstant dates fields 5
        online := isYes P fields 6
        target := nonEmpty fields 7 }

/-- One line: whether it signs the file, and its record. -/
def readLine (line : Text) : Bool × Option PhishTankRecord :=
  match parseCsvRow line with
  | none => (false, none)
  | some fields =>
      if fields.length < PHISHTANK_COLUMN_COUNT then (false, none)
      else if isHeaderRow P fields then (true, none)
      else
        match toRecord P dates fields with
        | none => (false, none)
        | some record => (true, some record)

def parsePhishTankCsv (body : Text) : Option (List PhishTankRecord) :=
  if body.trim = [] then none
  else
    let lines := (splitCsvLines body).map (readLine P dates)
    if lines.any Prod.fst then some (lines.filterMap Prod.snd) else none

end PhishTank

abbrev PhishTankFeed :=
  Feed PhishTankSnapshotMetadata PhishTankSnapshot MirrorHttpRequest (List PhishTankRecord)
    PhishTankCauseCode

abbrev PhishTankProg (α : Type) :=
  FeedProg PhishTankSnapshotMetadata PhishTankSnapshot MirrorHttpRequest α

def phishTankFeed : PhishTankFeed where
  name := text "PhishTank"
  source := PHISHTANK_SOURCE_ID
  version := PHISHTANK_SOURCE_VERSION
  codes :=
    { throttled := .throttled, httpError := .httpError, malformed := .malformed,
      networkError := .networkError, callerAborted := .callerAborted }
  malformedMessage := text "PhishTank response body is not a recognizable CSV feed"
  throttleStatuses := THROTTLE_STATUSES
  throttleDetails response :=
    [(text "status", .number response.status),
      (text "retryAfter", .text (headerValue P response (text "retry-after")))]
  isAbortError _ := false
  errorDetails _ := none
  parse := PhishTank.parsePhishTankCsv P dates
  stamp metadata := metadata.toSnapshotStamp
  snapshot records stamp := { metadata := { stamp with recordCount := records.length }, records }

structure UpdatePhishTankSnapshotOptions where
  /-- `appKey.reveal()` -/
  appKey : Option Text
  baseUrl : Option Text
  userAgent : Option Text
  cadenceMs : Option JsNum

/-- `s.replace(/\/+$/, "")` -/
def dropTrailingSlashes (s : Text) : Text :=
  (s.reverse.dropWhile (· == unit '/')).reverse

def phishTankUrl (options : UpdatePhishTankSnapshotOptions) : Text :=
  let base := dropTrailingSlashes (options.baseUrl.getD PHISHTANK_DATA_BASE_URL)
  match options.appKey with
  | none => base ++ unit '/' :: PHISHTANK_ONLINE_VALID_FEED
  | some key => base ++ unit '/' :: key ++ unit '/' :: PHISHTANK_ONLINE_VALID_FEED

def phishTankCall (options : UpdatePhishTankSnapshotOptions) :
    FeedCall PhishTankSnapshotMetadata MirrorHttpRequest PhishTankCauseCode where
  cadenceMs := resolveCadence PHISHTANK_DEFAULT_CADENCE_MS options.cadenceMs
  refusal := none
  request previous :=
    { url := phishTankUrl options
      headers := (text "User-Agent", options.userAgent.getD DEFAULT_USER_AGENT) ::
        conditionalHeaders (previous.map (·.toSnapshotStamp)) }

def updatePhishTankSnapshot (options : UpdatePhishTankSnapshotOptions) :
    PhishTankProg
      (Option (UpdateResult PhishTankSnapshotMetadata PhishTankSnapshot PhishTankCauseCode)) :=
  (phishTankFeed P dates).update P dates (phishTankCall options)

end

end Linklint
