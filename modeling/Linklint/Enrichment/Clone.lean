import Linklint.Schema.EnrichmentGuards

/-!
# The JSON clone of a checked value

On JSON data the clone only turns array holes into `null`. Every guard reads the
clone as it read the original, except where it meets a former hole.
-/

namespace Linklint

namespace Value

mutual

/-- The value with `null` in place of every hole. -/
def fill : Value → Value
  | .undefined => .undefined
  | .null => .null
  | .bool b => .bool b
  | .num n => .num n
  | .str s => .str s
  | .arr items => .arr (fillItems items)
  | .obj fields => .obj (fillFields fields)
  | .other => .other

def fillItems : List (Option Value) → List (Option Value)
  | [] => []
  | none :: rest => some .null :: fillItems rest
  | some v :: rest => some v.fill :: fillItems rest

def fillFields : List (Text × Value) → List (Text × Value)
  | [] => []
  | (k, v) :: rest => (k, v.fill) :: fillFields rest

end

/-- What a slot of an array becomes. -/
def fillItem (item : Option Value) : Value := item.elim .null fill

theorem fillItems_eq_map (items : List (Option Value)) :
    fillItems items = items.map fun item => some (fillItem item) := by
  induction items with
  | nil => rfl
  | cons item rest ih => cases item <;> simp [fillItems, fillItem, ih]

theorem fillFields_eq_map (fields : List (Text × Value)) :
    fillFields fields = fields.map fun field => (field.1, field.2.fill) := by
  induction fields with
  | nil => rfl
  | cons field rest ih => simp [fillFields, ih]

theorem isJsonItems_eq (items : List (Option Value)) :
    isJsonItems items = everySlot isJsonValue items := by
  induction items with
  | nil => rfl
  | cons item rest ih => cases item <;> simp [isJsonItems, everySlot, ih]

theorem isJsonFields_eq (fields : List (Text × Value)) :
    isJsonFields fields = fields.all fun field => field.2.isJsonValue := by
  induction fields with
  | nil => rfl
  | cons field rest ih => simp [isJsonFields, ih]

theorem mem_of_isJsonItems {items : List (Option Value)} (h : isJsonItems items = true) {v : Value}
    (hv : some v ∈ items) : v.isJsonValue = true := by
  rw [isJsonItems_eq, everySlot, List.all_eq_true] at h
  exact h (some v) hv

/-- On JSON data the clone is the filled value. -/
theorem jsonClone_eq_fill {v : Value} : v.isJsonValue = true → v.jsonClone = some v.fill := by
  induction v using tree_induction with
  | undefined => simp [isJsonValue]
  | null => exact fun _ => rfl
  | bool b => exact fun _ => rfl
  | num n =>
      intro h
      have hfinite : n.isFinite = true := by simpa [isJsonValue] using h
      simp [jsonClone, fill, hfinite]
  | str s => exact fun _ => rfl
  | arr items ih =>
      intro h
      simp only [isJsonValue] at h
      have hitems : cloneItems items = fillItems items := by
        rw [cloneItems_eq_map, fillItems_eq_map]
        refine List.map_congr_left fun item hitem => ?_
        cases item with
        | none => rfl
        | some v => simp [cloneItem, fillItem, ih v hitem (mem_of_isJsonItems h hitem)]
      simp [jsonClone, fill, hitems]
  | obj fields ih =>
      intro h
      simp only [isJsonValue] at h
      have hfields : cloneFields fields = fillFields fields := by
        induction fields with
        | nil => rfl
        | cons field rest ihRest =>
            obtain ⟨k, v⟩ := field
            simp only [isJsonFields, Bool.and_eq_true] at h
            have hv := ih k v (List.mem_cons_self ..) h.1
            have hrest := ihRest (fun k v hmem => ih k v (List.mem_cons_of_mem _ hmem)) h.2
            simp [cloneFields, fillFields, hv, hrest]
      simp [jsonClone, fill, hfields]
  | other => simp [isJsonValue]

theorem lookup_map_snd {fields : List (Text × Value)} {k : Text} (f : Value → Value) :
    (fields.map fun field => (field.1, f field.2)).lookup k = (fields.lookup k).map f := by
  induction fields with
  | nil => rfl
  | cons field rest ih =>
      obtain ⟨k', v⟩ := field
      simp only [List.map_cons, List.lookup_cons, ih]
      cases k == k' <;> rfl

@[simp] theorem get_fill (v : Value) (k : Text) : v.fill.get k = (v.get k).fill := by
  cases v with
  | obj fields =>
      simp only [fill, get, fillFields_eq_map, lookup_map_snd]
      cases fields.lookup k <;> simp [fill]
  | _ => rfl

@[simp] theorem isRecord_fill (v : Value) : v.fill.isRecord = v.isRecord := by cases v <;> rfl
@[simp] theorem isBool_fill (v : Value) : v.fill.isBool = v.isBool := by cases v <;> rfl
@[simp] theorem isNatural_fill (v : Value) : v.fill.isNatural = v.isNatural := by cases v <;> rfl
@[simp] theorem isString_fill (v : Value) : v.fill.isString = v.isString := by cases v <;> rfl
@[simp] theorem isNull_fill (v : Value) : v.fill.isNull = v.isNull := by cases v <;> rfl

@[simp] theorem isUndefined_fill (v : Value) : v.fill.isUndefined = v.isUndefined := by
  cases v <;> rfl

@[simp] theorem isUnitNumber_fill (v : Value) : v.fill.isUnitNumber = v.isUnitNumber := by
  cases v <;> rfl

@[simp] theorem isNonEmptyString_fill (v : Value) :
    v.fill.isNonEmptyString = v.isNonEmptyString := by
  cases v <;> rfl

@[simp] theorem isStr_fill (v : Value) (literal : String) :
    v.fill.isStr literal = v.isStr literal := by
  cases v <;> rfl

@[simp] theorem slots?_fill (v : Value) :
    v.fill.slots? = v.slots?.map fun items => items.map fun item => some (fillItem item) := by
  cases v with
  | arr items => simp [fill, slots?, fillItems_eq_map]
  | _ => rfl

@[simp] theorem isJsonValue_fill (v : Value) : v.fill.isJsonValue = v.isJsonValue := by
  induction v using tree_induction with
  | arr items ih =>
      simp only [fill, isJsonValue]
      induction items with
      | nil => rfl
      | cons item rest ihRest =>
          have hrest := ihRest fun v hv => ih v (List.mem_cons_of_mem _ hv)
          cases item with
          | none => simp [fillItems, isJsonItems, isJsonValue, hrest]
          | some v => simp [fillItems, isJsonItems, hrest, ih v (List.mem_cons_self ..)]
  | obj fields ih =>
      simp only [fill, isJsonValue]
      induction fields with
      | nil => rfl
      | cons field rest ihRest =>
          obtain ⟨k, v⟩ := field
          have hrest := ihRest fun k v hv => ih k v (List.mem_cons_of_mem _ hv)
          simp [fillFields, isJsonFields, hrest, ih k v (List.mem_cons_self ..)]
  | _ => rfl

@[simp] theorem fill_fill (v : Value) : v.fill.fill = v.fill := by
  induction v using tree_induction with
  | arr items ih =>
      simp only [fill, fillItems_eq_map, List.map_map, arr.injEq]
      refine List.map_congr_left fun item hitem => ?_
      cases item with
      | none => rfl
      | some v => simp [fillItem, ih v hitem]
  | obj fields ih =>
      simp only [fill, fillFields_eq_map, List.map_map, obj.injEq]
      refine List.map_congr_left fun field hfield => ?_
      simp [ih field.1 field.2 hfield]
  | _ => rfl

/-- The array has a hole of its own. -/
def hasHole (v : Value) : Bool := v.slots?.elim false fun items => items.any Option.isNone

/-- Some element of the array meets `q`. -/
def someElement (q : Value → Bool) (v : Value) : Bool := v.slots?.elim false (someSlot q)

end Value

open Value

@[simp] theorem isIsoInstant_fill (v : Value) : isIsoInstant v.fill = isIsoInstant v := by
  cases v <;> rfl

@[simp] theorem isReasonCode_fill (v : Value) : isReasonCode v.fill = isReasonCode v := by
  cases v <;> rfl

@[simp] theorem slotCount_fill (v : Value) : slotCount v.fill = slotCount v := by
  rw [slotCount, slots?_fill, slotCount]
  cases v.slots? <;> simp

/-- Cloning an array of checked elements fails exactly at its holes. -/
theorem isArrayOf_fill {p : Value → Bool} (hp : p .null = false) (v : Value) :
    isArrayOf p v.fill = (isArrayOf (fun x => p x.fill) v && !v.hasHole) := by
  rw [isArrayOf, slots?_fill, isArrayOf, hasHole]
  cases v.slots? with
  | none => rfl
  | some items =>
      simp only [Option.map_some, Option.elim_some, everySlot]
      induction items with
      | nil => rfl
      | cons item rest ih =>
          cases item with
          | none => simp [fillItem, hp]
          | some x =>
              rw [List.map_cons, List.all_cons, ih]
              simp [fillItem, Bool.and_assoc]

theorem isArrayOf_and (p q : Value → Bool) (v : Value) :
    isArrayOf (fun x => p x && !q x) v = (isArrayOf p v && !v.someElement q) := by
  rw [isArrayOf, isArrayOf, someElement]
  cases v.slots? with
  | none => rfl
  | some items =>
      simp only [Option.elim_some, everySlot, someSlot]
      induction items with
      | nil => rfl
      | cons item rest ih =>
          cases item with
          | none => simpa using ih
          | some x =>
              simp only [List.all_cons, List.any_cons, Option.elim_some, ih]
              cases p x <;> cases q x <;> simp

/-! ### Guards that meet no hole -/

@[simp] theorem isSubject_fill (v : Value) : isSubject v.fill = isSubject v := by
  simp [isSubject]

@[simp] theorem isProvenanceRef_fill (v : Value) : isProvenanceRef v.fill = isProvenanceRef v := by
  simp [isProvenanceRef]

@[simp] theorem isProvenance_fill (v : Value) : isProvenance v.fill = isProvenance v := by
  simp [isProvenance]

@[simp] theorem isFreshness_fill (v : Value) : isFreshness v.fill = isFreshness v := by
  simp [isFreshness]

@[simp] theorem isPayload_fill (v : Value) : isPayload v.fill = isPayload v := by
  simp [isPayload]

@[simp] theorem isCause_fill (v : Value) : isCause v.fill = isCause v := by
  simp [isCause]

@[simp] theorem isConfusable_fill (v : Value) : isConfusable v.fill = isConfusable v := by
  simp [isConfusable]

@[simp] theorem isEvidence_fill (v : Value) : isEvidence v.fill = isEvidence v := by
  simp [isEvidence]

@[simp] theorem isEnrichmentLayer_fill (v : Value) :
    isEnrichmentLayer v.fill = isEnrichmentLayer v := by
  simp [isEnrichmentLayer]

@[simp] theorem isStatusConsistent_fill (v : Value) :
    isStatusConsistent v.fill = isStatusConsistent v := by
  simp [isStatusConsistent]

@[simp] theorem matchesIdentity_fill (v : Value) (expected : Option EnrichmentIdentity) :
    matchesIdentity v.fill expected = matchesIdentity v expected := by
  cases expected with
  | none => rfl
  | some expected =>
      simp only [matchesIdentity, get_fill]
      cases v.get (text "sourceId") <;> cases v.get (text "layer") <;> rfl

/-! ### Guards that do -/

/-- A hole among the confusables of a finding. -/
def findingHoles (finding : Value) : Bool := (finding.get (text "confusables")).hasHole

/-- A hole in one of the lists of an outcome that the guards look into. -/
def outcomeHoles (outcome : Value) : Bool :=
  (outcome.get (text "evidence")).hasHole || (outcome.get (text "findings")).hasHole
    || (outcome.get (text "findings")).someElement findingHoles

/-- A hole in one of the lists of a report that the guards look into. -/
def reportHoles (report : Value) : Bool :=
  (report.get (text "outcomes")).hasHole
    || (report.get (text "outcomes")).someElement outcomeHoles

theorem isFinding_fill (v : Value) : isFinding v.fill = (isFinding v && !findingHoles v) := by
  have harray : isArrayOf isConfusable (v.get (text "confusables")).fill
      = (isArrayOf isConfusable (v.get (text "confusables")) && !findingHoles v) := by
    rw [isArrayOf_fill rfl]
    simp [findingHoles]
  have hundefined : (v.get (text "confusables")).isUndefined = true → findingHoles v = false := by
    intro h
    cases hv : v.get (text "confusables") <;> simp_all [findingHoles, isUndefined, hasHole, slots?]
  simp only [isFinding, get_fill, isRecord_fill, isReasonCode_fill, isString_fill,
    isUndefined_fill, isUnitNumber_fill, harray]
  cases hu : (v.get (text "confusables")).isUndefined with
  | true => simp [hundefined hu]
  | false => simp [Bool.and_assoc]

theorem isEnrichmentOutcome_fill (expected : Option EnrichmentIdentity) (v : Value) :
    isEnrichmentOutcome expected v.fill = (isEnrichmentOutcome expected v && !outcomeHoles v) := by
  have hevidence : isArrayOf isEvidence (v.get (text "evidence")).fill
      = (isArrayOf isEvidence (v.get (text "evidence"))
        && !(v.get (text "evidence")).hasHole) := by
    rw [isArrayOf_fill rfl]
    simp
  have hfindings : isArrayOf isFinding (v.get (text "findings")).fill
      = (isArrayOf isFinding (v.get (text "findings"))
        && !(v.get (text "findings")).someElement findingHoles
        && !(v.get (text "findings")).hasHole) := by
    rw [isArrayOf_fill rfl]
    simp only [isFinding_fill]
    rw [isArrayOf_and]
  simp only [isEnrichmentOutcome, get_fill, isRecord_fill, isNonEmptyString_fill,
    isEnrichmentLayer_fill, matchesIdentity_fill, isSubject_fill, isIsoInstant_fill,
    isProvenance_fill, isFreshness_fill, isStatusConsistent_fill, hevidence, hfindings,
    outcomeHoles]
  cases isArrayOf isEvidence (v.get (text "evidence")) <;>
    cases (v.get (text "evidence")).hasHole <;>
    cases isArrayOf isFinding (v.get (text "findings")) <;>
    cases (v.get (text "findings")).someElement findingHoles <;>
    cases (v.get (text "findings")).hasHole <;> simp

/-- The clone of an accepted report is a report exactly when no list of it has a hole. -/
theorem isEnrichmentReport_fill (expected : Option EnrichmentIdentity) (v : Value) :
    isEnrichmentReport expected v.fill = (isEnrichmentReport expected v && !reportHoles v) := by
  have houtcomes : isArrayOf (isEnrichmentOutcome expected) (v.get (text "outcomes")).fill
      = (isArrayOf (isEnrichmentOutcome expected) (v.get (text "outcomes"))
        && !(v.get (text "outcomes")).someElement outcomeHoles
        && !(v.get (text "outcomes")).hasHole) := by
    rw [isArrayOf_fill rfl]
    simp only [isEnrichmentOutcome_fill]
    rw [isArrayOf_and]
  simp only [isEnrichmentReport, get_fill, isRecord_fill, isJsonValue_fill, isStr_fill,
    slotCount_fill, houtcomes, reportHoles]
  cases isArrayOf (isEnrichmentOutcome expected) (v.get (text "outcomes")) <;>
    cases (v.get (text "outcomes")).someElement outcomeHoles <;>
    cases (v.get (text "outcomes")).hasHole <;> simp

end Linklint
