import Linklint.Enrichment.Fold

/-!
# Offline evidence of a target

What an enricher records of the synchronous inspection of a target it found: a
compact projection of the result, and the reasons as findings that carry a code
and no weight.
-/

namespace Linklint

def SCHEMA_VERSION : Text := text "1.14"

def Status.name : Status → Text
  | .ok => text "ok"
  | .invalid => text "invalid"

def Severity.name : Severity → Text
  | .info => text "info"
  | .low => text "low"
  | .medium => text "medium"
  | .high => text "high"
  | .critical => text "critical"

/-- A nullable member of a payload. -/
def nullable {α : Type} (value : α → Value) : Option α → Value
  | none => .null
  | some a => value a

def textsValue (items : List Text) : Value := .arr (items.map fun item => some (.str item))

def dataVersionsValue (versions : DataVersions) : Value :=
  .obj [(text "publicSuffixList", .str versions.publicSuffixList),
    (text "unicodeConfusables", .str versions.unicodeConfusables),
    (text "unicodeScripts", .str versions.unicodeScripts),
    (text "idna", .str versions.idna),
    (text "fileExtensionTlds", .str versions.fileExtensionTlds),
    (text "cloudMetadata", .str versions.cloudMetadata),
    (text "ipRanges", .str versions.ipRanges),
    (text "specialUseNames", .str versions.specialUseNames),
    (text "brands", .str versions.brands),
    (text "weights", .str versions.weights)]

def offlineInspection (result : InspectResult) : Value :=
  .obj [(text "schemaVersion", .str SCHEMA_VERSION),
    (text "status", .str result.status.name),
    (text "score", nullable (fun score => .num (.fin score)) result.score),
    (text "severity", nullable (fun severity => .str severity.name) result.severity),
    (text "confidence", .num (.fin result.confidence)),
    (text "reasonCodes", textsValue (result.reasons.map fun reason => text reason.code.name)),
    (text "checksRun", textsValue result.checksRun),
    (text "checksSkipped", textsValue result.checksSkipped),
    (text "dataVersions", dataVersionsValue result.dataVersions),
    (text "pslSnapshot", .obj [(text "date", nullable Value.str result.pslSnapshot.date),
      (text "stale", nullable Value.bool result.pslSnapshot.stale)])]

/-- `Object.hasOwn(REASON_CODES, code)` -/
def isRegistered (code : ReasonCode) : Bool := ReasonCode.all.contains code

/-- The confusables of the component a confusable code is about. -/
def offlineConfusables (result : InspectResult) (code : ReasonCode) : List (Option Confusable) :=
  match code with
  | .confusableChar =>
      result.confusables.filter fun item => item.any fun item => item.component == .host
  | .confusableInPath =>
      result.confusables.filter fun item => item.any fun item => item.component != .host
  | _ => []

/-- A reason as a bare finding. -/
def offlineFinding (result : InspectResult) (heading : Text) (reason : Reason) : EnricherFinding where
  code := reason.code
  detail := heading ++ text ": " ++ reason.detail
  confusables :=
    if offlineConfusables result reason.code = [] then none
    else some (offlineConfusables result reason.code)

theorem isRegistered_eq (code : ReasonCode) : isRegistered code = true :=
  List.contains_iff_mem.mpr code.mem_all

@[simp] theorem offlineInspection_score (result : InspectResult) :
    (offlineInspection result).get (text "score")
      = nullable (fun score => .num (.fin score)) result.score := rfl

end Linklint
