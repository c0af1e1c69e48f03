import Linklint.Schema.Enrich

/-!
# Guards of the enrichment boundary

The runtime checks on what an enricher resolves to or a cache returns. An array
is checked with `every`, which skips its holes. A value is a tree, so the cycle
check of `isJsonValue` never refuses one.
-/

namespace Linklint

/-- `Array.prototype.every`: a hole is not visited. -/
def everySlot (p : Value → Bool) (items : List (Option Value)) : Bool :=
  items.all fun item => item.elim true p

/-- `Array.prototype.some`: a hole is not visited. -/
def someSlot (p : Value → Bool) (items : List (Option Value)) : Bool :=
  items.any fun item => item.elim false p

namespace Value

/-- `Array.isArray(value)`, with the slots. -/
def slots? : Value → Option (List (Option Value))
  | .arr items => some items
  | _ => none

/-- A plain object. -/
def isRecord : Value → Bool
  | .obj _ => true
  | _ => false

def isBool : Value → Bool
  | .bool _ => true
  | _ => false

/-- `Number.isInteger(value) && value >= 0` -/
def isNatural : Value → Bool
  | .num n => n.toNat?.isSome
  | _ => false

/-- A finite number of the unit interval. -/
def isUnitNumber : Value → Bool
  | .num (.fin q) => decide (0 ≤ q ∧ q ≤ 1)
  | _ => false

mutual

def isJsonValue : Value → Bool
  | .undefined => false
  | .null => true
  | .bool _ => true
  | .num n => n.isFinite
  | .str _ => true
  | .arr items => isJsonItems items
  | .obj fields => isJsonFields fields
  | .other => false

def isJsonItems : List (Option Value) → Bool
  | [] => true
  | none :: rest => isJsonItems rest
  | some v :: rest => v.isJsonValue && isJsonItems rest

def isJsonFields : List (Text × Value) → Bool
  | [] => true
  | (_, v) :: rest => v.isJsonValue && isJsonFields rest

end

end Value

/-! ### ISO instants -/

/-- `\d{k}`, with the number and the rest of the text. -/
def takeDigits (k : Nat) (s : Text) : Option (Nat × Text) :=
  if (s.take k).length = k ∧ (s.take k).all isDigit then
    some (numeralValue 10 (s.take k), s.drop k)
  else none

def takeUnit (u : CodeUnit) : Text → Option Text
  | v :: rest => if v = u then some rest else none
  | [] => none

/-- `(?:\.\d+)?`, with the digits of the fraction. -/
def takeFraction (s : Text) : Option (Text × Text) :=
  match takeUnit (unit '.') s with
  | none => some ([], s)
  | some rest =>
      let ds := rest.takeWhile isDigit
      if ds = [] then none else some (ds, rest.drop ds.length)

/-- `(?:Z|[+-]\d{2}:\d{2})$` within the range of an offset. -/
def isOffset (s : Text) : Bool :=
  if s = text "Z" then true
  else
    match (takeUnit (unit '+') s).or (takeUnit (unit '-') s) with
    | none => false
    | some rest =>
        ((do
          let (hours, rest) ← takeDigits 2 rest
          let rest ← takeUnit (unit ':') rest
          let (minutes, rest) ← takeDigits 2 rest
          return decide (hours ≤ 23 ∧ minutes ≤ 59 ∧ rest = [])) : Option Bool).getD false

/-- The pattern of `isIsoInstant` and a finite `Date.parse`. -/
def isIsoText (s : Text) : Bool :=
  ((do
    let (_, s) ← takeDigits 4 s
    let s ← takeUnit (unit '-') s
    let (month, s) ← takeDigits 2 s
    let s ← takeUnit (unit '-') s
    let (day, s) ← takeDigits 2 s
    let s ← takeUnit (unit 'T') s
    let (hour, s) ← takeDigits 2 s
    let s ← takeUnit (unit ':') s
    let (minute, s) ← takeDigits 2 s
    let s ← takeUnit (unit ':') s
    let (second, s) ← takeDigits 2 s
    let (fraction, s) ← takeFraction s
    let midnight := hour = 24 ∧ minute = 0 ∧ second = 0 ∧ fraction.all (· == unit '0')
    return decide (1 ≤ month ∧ month ≤ 12 ∧ 1 ≤ day ∧ day ≤ 31 ∧ (hour ≤ 23 ∨ midnight)
      ∧ minute ≤ 59 ∧ second ≤ 59) && isOffset s) : Option Bool).getD false

def isIsoInstant : Value → Bool
  | .str s => isIsoText s
  | _ => false

/-! ### The parts of a report -/

structure EnrichmentIdentity where
  sourceId : Text
  layer : EnrichmentLayer

def isEnrichmentLayer (value : Value) : Bool :=
  value.isStr "resolution" || value.isStr "reputation"

def isSubject (value : Value) : Bool :=
  value.isRecord
    && ((value.get (text "kind")).isStr "url" || (value.get (text "kind")).isStr "host")
    && (value.get (text "value")).isString

def isProvenanceRef (value : Value) : Bool :=
  value.isRecord && (value.get (text "name")).isNonEmptyString
    && ((value.get (text "version")).isUndefined || (value.get (text "version")).isNonEmptyString)
    && ((value.get (text "url")).isUndefined || (value.get (text "url")).isNonEmptyString)

def isProvenance (value : Value) : Bool :=
  value.isRecord &&
    if (value.get (text "kind")).isStr "declared" then
      isProvenanceRef (value.get (text "source"))
        && ((value.get (text "data")).isNull || isProvenanceRef (value.get (text "data")))
    else if (value.get (text "kind")).isStr "legacy-incomplete"
        || (value.get (text "kind")).isStr "unavailable" then
      (value.get (text "source")).isNull && (value.get (text "data")).isNull
    else false

def isFreshness (value : Value) : Bool :=
  value.isRecord
    && ((value.get (text "status")).isStr "fresh" || (value.get (text "status")).isStr "stale"
      || (value.get (text "status")).isStr "unknown")
    && ((value.get (text "expiresAt")).isNull || isIsoInstant (value.get (text "expiresAt")))

def isPayload (value : Value) : Bool := value.isRecord && value.isJsonValue

def isCause (value : Value) : Bool :=
  value.isRecord && (value.get (text "code")).isNonEmptyString
    && ((value.get (text "message")).isUndefined || (value.get (text "message")).isString)
    && ((value.get (text "retryable")).isUndefined || (value.get (text "retryable")).isBool)
    && ((value.get (text "details")).isUndefined || isPayload (value.get (text "details")))

def isConfusable (value : Value) : Bool :=
  value.isRecord && (value.get (text "char")).isString
    && (value.get (text "codepoint")).isNonEmptyString
    && (value.get (text "confusableWith")).isNonEmptyString
    && ((value.get (text "component")).isStr "host" || (value.get (text "component")).isStr "path"
      || (value.get (text "component")).isStr "query")
    && (value.get (text "position")).isNatural

/-- `Object.hasOwn(REASON_CODES, key)`, with the code. -/
def ReasonCode.ofText (key : Text) : Option ReasonCode :=
  ReasonCode.all.find? fun code => text code.name == key

/-- `isNonEmptyString(value) && Object.hasOwn(REASON_CODES, value)` -/
def isReasonCode : Value → Bool
  | .str s => s.trim != [] && (ReasonCode.ofText s).isSome
  | _ => false

/-- `Array.isArray(value) && value.every(p)` -/
def isArrayOf (p : Value → Bool) (value : Value) : Bool :=
  match value.slots? with
  | some items => everySlot p items
  | none => false

def isFinding (value : Value) : Bool :=
  value.isRecord && isReasonCode (value.get (text "code")) && (value.get (text "detail")).isString
    && ((value.get (text "confidence")).isUndefined
      || (value.get (text "confidence")).isUnitNumber)
    && ((value.get (text "confusables")).isUndefined
      || isArrayOf isConfusable (value.get (text "confusables")))

def isEvidence (value : Value) : Bool :=
  value.isRecord && (value.get (text "type")).isNonEmptyString
    && isSubject (value.get (text "subject")) && isIsoInstant (value.get (text "observedAt"))
    && isProvenance (value.get (text "provenance")) && isFreshness (value.get (text "freshness"))
    && isPayload (value.get (text "payload"))

/-- `value.length` of an array. -/
def slotCount (value : Value) : Nat := (value.slots?.map List.length).getD 0

def matchesIdentity (value : Value) : Option EnrichmentIdentity → Bool
  | none => true
  | some expected =>
      (match value.get (text "sourceId") with
        | .str s => s == expected.sourceId
        | _ => false)
      && (match value.get (text "layer") with
        | .str s => s == expected.layer.name
        | _ => false)

/-- The rule of each status for findings, evidence and cause. -/
def isStatusConsistent (value : Value) : Bool :=
  let status := value.get (text "status")
  let cause := value.get (text "cause")
  let findings := slotCount (value.get (text "findings"))
  let evidence := slotCount (value.get (text "evidence"))
  if status.isStr "success" then cause.isUndefined && (0 < findings || 0 < evidence)
  else if status.isStr "no-hit" then cause.isUndefined && findings == 0
  else if status.isStr "skipped" || status.isStr "failure" then findings == 0 && isCause cause
  else false

def isEnrichmentOutcome (expected : Option EnrichmentIdentity) (value : Value) : Bool :=
  value.isRecord && (value.get (text "sourceId")).isNonEmptyString
    && isEnrichmentLayer (value.get (text "layer")) && matchesIdentity value expected
    && isSubject (value.get (text "subject")) && isIsoInstant (value.get (text "observedAt"))
    && isProvenance (value.get (text "provenance")) && isFreshness (value.get (text "freshness"))
    && isArrayOf isEvidence (value.get (text "evidence"))
    && isArrayOf isFinding (value.get (text "findings")) && isStatusConsistent value

def isEnrichmentReport (expected : Option EnrichmentIdentity) (value : Value) : Bool :=
  value.isRecord && value.isJsonValue
    && (value.get (text "schemaVersion")).isStr "1.0"
    && slotCount (value.get (text "outcomes")) != 0
    && isArrayOf (isEnrichmentOutcome expected) (value.get (text "outcomes"))

def isEnricherFindingArray (value : Value) : Bool :=
  value.slots?.isSome && value.isJsonValue && isArrayOf isFinding value

end Linklint
