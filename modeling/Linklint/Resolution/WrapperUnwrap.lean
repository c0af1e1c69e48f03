import Linklint.Resolution.WrapperFormats
import Linklint.Inspect.NeverThrows
import Linklint.Js.Date

/-!
# Nested wrappers

The loop that decodes a wrapper, inspects what it found and looks again, up to a
depth. Its report is one success outcome for each decode and at most one outcome
that says why it stopped; it rejects only when an inspection throws.
-/

namespace Linklint

namespace EmbeddedWrapper

def EMBEDDED_WRAPPER_CATALOG_VERSION : Text := text "2026-07-17"

/-- The provenance of an outcome without a decode. -/
def catalogProvenance : EnrichmentProvenance :=
  .declared ⟨text "@linklint/online.embedded-wrapper", some EMBEDDED_WRAPPER_SOURCE_VERSION, none⟩
    (some ⟨text "embedded-wrapper-format-catalog", some EMBEDDED_WRAPPER_CATALOG_VERSION, none⟩)

def subjectFor (value : Text) : EnrichmentSubject := ⟨.url, value⟩

def inspectionSubject (result : InspectResult) : EnrichmentSubject :=
  match result.parsed with
  | some parsed =>
      match parsed.scheme, parsed.effectiveHost with
      | none, some host => ⟨.host, host⟩
      | _, _ => subjectFor result.input
  | none => subjectFor result.input

def noHitOutcome (subject : EnrichmentSubject) (observedAt : Text) : EnrichmentOutcome where
  sourceId := EMBEDDED_WRAPPER_SOURCE_ID
  layer := .resolution
  status := .noHit
  subject
  observedAt
  provenance := catalogProvenance
  freshness := FRESHNESS
  evidence := []
  findings := []
  cause := none

def degradationOutcome (subject : EnrichmentSubject) (observedAt : Text) (status : DegradationStatus)
    (code : Text) (details : Option (List (Text × Value))) : EnrichmentOutcome where
  sourceId := EMBEDDED_WRAPPER_SOURCE_ID
  layer := .resolution
  status := status.outcome
  subject
  observedAt
  provenance := catalogProvenance
  freshness := FRESHNESS
  evidence := []
  findings := []
  cause := some { code, retryable := some false, details := details.map .obj }

/-- What the enricher runs on. -/
structure WrapperWorld where
  platform : Platform
  bodies : CheckBodies
  api : UrlApi
  dates : DateApi
  /-- `now().getTime()`, with `none` for NaN -/
  now : Except Thrown (Option Int)
  /-- `context.signal?.aborted === true` at every check of the loop -/
  aborted : Nat → Bool

structure EmbeddedWrapperEnricherOptions where
  maxUrlLength : Option JsNum := none
  maxDepth : Option JsNum := none
  /-- `options.inspectOptions ?? {}`, as the inspection at each depth reads it. -/
  inspectOptions : Nat → HostVal := fun _ => .empty

def CALLER_ABORTED : Text := text "caller-aborted"
def WRAPPER_DEPTH_EXCEEDED : Text := text "wrapper-depth-exceeded"

/-- An invalid date is reported as the epoch. -/
def observedInstant (dates : DateApi) (now : Except Thrown (Option Int)) : Except Thrown Text :=
  now.map fun time => dates.iso (time.getD 0)

section
variable (world : WrapperWorld) (options : EmbeddedWrapperEnricherOptions)

/-- `decodeEmbeddedWrapper(current, { maxUrlLength })` -/
def decodeCurrent (current : Text) : EmbeddedWrapperDecodeResult :=
  decodeEmbeddedWrapper world.api current (some (.ofNat (boundedUrlLength options.maxUrlLength)))

def inspectDestination (depth : Nat) (url : Text) : Except Thrown InspectResult :=
  inspect world.platform world.bodies (.string url) (options.inspectOptions depth)

def vendorDetails (vendor : EmbeddedWrapperVendor) (format : Option Text) : List (Text × Value) :=
  (text "vendor", .str vendor.name) :: (format.map fun format => (text "format", .str format)).toList

/-- The host of an exact absolute URL is in the catalog. -/
def isWrapperUrl (api : UrlApi) (url : Text) : Bool :=
  (parseExactUrl api url).any fun candidate => (wrapperVendor candidate.hostname).isSome

/-- The loop, from the current URL with the outcomes so far. -/
def unwrap (observedAt : Text) (base : InspectResult) (current : Text)
    (outcomes : List EnrichmentOutcome) (depth : Nat) : Except Thrown (List EnrichmentOutcome) :=
  if world.aborted depth then
    .ok (outcomes ++ [degradationOutcome (subjectFor current) observedAt .skipped
      CALLER_ABORTED none])
  else if boundedDepth options.maxDepth ≤ depth then
    if isWrapperUrl world.api current then
      .ok (outcomes ++ [degradationOutcome (subjectFor current) observedAt .failure
        WRAPPER_DEPTH_EXCEEDED
        (some [(text "maxDepth", .num (.ofNat (boundedDepth options.maxDepth)))])])
    else .ok outcomes
  else
    match decodeCurrent world options current with
    | .notWrapper _ =>
        if outcomes.isEmpty then
          .ok (outcomes ++ [noHitOutcome (inspectionSubject base) observedAt])
        else .ok outcomes
    | .unsupported _ vendor code _ =>
        .ok (outcomes ++ [degradationOutcome (subjectFor current) observedAt .skipped code.name
          (some (vendorDetails vendor none))])
    | .malformed _ vendor format code _ =>
        .ok (outcomes ++ [degradationOutcome (subjectFor current) observedAt .failure code.name
          (some (vendorDetails vendor format))])
    | .decoded decoded =>
        match inspectDestination world options (depth + 1) decoded.destinationUrl with
        | .error e => .error e
        | .ok offline =>
            unwrap observedAt base decoded.destinationUrl
              (outcomes ++ [decodedOutcome decoded offline observedAt (depth + 1)]) (depth + 1)
termination_by boundedDepth options.maxDepth - depth

/-- The destinations the loop comes by from a URL, each with its depth. -/
def destinations (current : Text) (depth : Nat) : List (Nat × Text) :=
  if world.aborted depth = true ∨ boundedDepth options.maxDepth ≤ depth then []
  else
    match decodeCurrent world options current with
    | .decoded decoded =>
        (depth + 1, decoded.destinationUrl) :: destinations decoded.destinationUrl (depth + 1)
    | _ => []
termination_by boundedDepth options.maxDepth - depth
decreasing_by omega

/-- `enrich(base, context)` of the embedded-wrapper enricher. -/
def enrich (base : InspectResult) : Except Thrown EnrichmentReport := do
  let observedAt ← observedInstant world.dates world.now
  let outcomes ← unwrap world options observedAt base base.input [] 0
  .ok { outcomes := outcomes.map some }

end

/-! ### What a decode gives -/

/-- A decode of `input` with the destination bound `limit`. -/
def Sound (api : UrlApi) (input : Text) (limit : Nat) : EmbeddedWrapperDecodeResult → Prop
  | .decoded decoded => decoded.wrapperUrl = input ∧ decoded.destinationUrl.length ≤ limit ∧
      (parseExactUrl api decoded.destinationUrl).isSome = true
  | .notWrapper _ => False
  | _ => True

theorem sound_validateDecoded (api : UrlApi) (input destinationUrl : Text)
    (vendor : EmbeddedWrapperVendor) (format formatVersion : Text) (limit : Nat) :
    Sound api input limit
      (validateDecoded api input destinationUrl vendor format formatVersion limit) := by
  rw [validateDecoded]
  split
  · trivial
  · rename_i hlength
    split
    · trivial
    · rename_i hvalid
      refine ⟨rfl, Nat.not_lt.mp hlength, ?_⟩
      simp only [not_or, Option.isNone_iff_eq_none] at hvalid
      exact Option.isSome_iff_ne_none.mpr hvalid.2

theorem sound_decodeMicrosoftSafeLinks (api : UrlApi) (input : Text) (parsed : Url) (limit : Nat) :
    Sound api input limit (decodeMicrosoftSafeLinks api input parsed limit) := by
  rw [decodeMicrosoftSafeLinks]
  split
  · trivial
  · split
    · trivial
    · exact sound_validateDecoded ..

theorem sound_proofpointDecoded (api : UrlApi) (input format formatVersion : Text) (limit : Nat)
    (destination : Option Text) :
    Sound api input limit (proofpointDecoded api input format formatVersion limit destination) := by
  cases destination with
  | none => trivial
  | some destination => exact sound_validateDecoded ..

theorem sound_decodeProofpoint (api : UrlApi) (input : Text) (parsed : Url) (limit : Nat) :
    Sound api input limit (decodeProofpoint api input parsed limit) := by
  rw [decodeProofpoint]
  split
  · trivial
  · split
    · exact sound_proofpointDecoded ..
    · split
      · exact sound_proofpointDecoded ..
      · split
        · exact sound_proofpointDecoded ..
        · trivial

/-- Exactly the URLs with a host outside the catalog are no wrappers. -/
theorem decodeEmbeddedWrapper_cases (api : UrlApi) (input : Text) (maxUrlLength : Option JsNum) :
    (isWrapperUrl api input = false ∧
      decodeEmbeddedWrapper api input maxUrlLength = .notWrapper input) ∨
    (isWrapperUrl api input = true ∧ Sound api input (boundedUrlLength maxUrlLength)
      (decodeEmbeddedWrapper api input maxUrlLength)) := by
  rw [decodeEmbeddedWrapper, isWrapperUrl]
  cases hparsed : parseExactUrl api input with
  | none => exact Or.inl ⟨rfl, rfl⟩
  | some parsed =>
      cases hvendor : wrapperVendor parsed.hostname with
      | none => exact Or.inl ⟨by simp [hvendor], by simp [hvendor]⟩
      | some vendor =>
          refine Or.inr ⟨by simp [hvendor], ?_⟩
          simp only [hvendor]
          split
          · trivial
          · split
            · trivial
            · cases vendor with
              | microsoftSafeLinks => exact sound_decodeMicrosoftSafeLinks ..
              | proofpointUrlDefense => exact sound_decodeProofpoint ..

/-! ### Runs of the loop -/

/-- A decode and the inspection of its destination. -/
abbrev UnwrapStep := EmbeddedWrapperDecoded × InspectResult

/-- The success outcomes of the decodes after `depth` others. -/
def successes (observedAt : Text) : Nat → List UnwrapStep → List EnrichmentOutcome
  | _, [] => []
  | depth, (decoded, offline) :: steps =>
      decodedOutcome decoded offline observedAt (depth + 1) :: successes observedAt (depth + 1) steps

/-- The current URL after some decodes. -/
def currentAfter : Text → List UnwrapStep → Text
  | current, [] => current
  | _, (decoded, _) :: steps => currentAfter decoded.destinationUrl steps

section
variable (world : WrapperWorld) (options : EmbeddedWrapperEnricherOptions)

/-- Decodes that follow one another from a URL at a depth, each destination inspected. -/
inductive Unwraps : Nat → Text → List UnwrapStep → Prop
  | nil {depth : Nat} {current : Text} : Unwraps depth current []
  | cons {depth : Nat} {current : Text} {decoded : EmbeddedWrapperDecoded}
      {offline : InspectResult} {steps : List UnwrapStep}
      (decodes : decodeCurrent world options current = .decoded decoded)
      (inspected : inspectDestination world options (depth + 1) decoded.destinationUrl = .ok offline)
      (rest : Unwraps (depth + 1) decoded.destinationUrl steps) :
      Unwraps depth current ((decoded, offline) :: steps)

/-- Why the loop stops at a URL after so many decodes, and what it adds to the report. -/
inductive Stops (observedAt : Text) (base : InspectResult) (current : Text) (depth : Nat) :
    List EnrichmentOutcome → Prop
  | aborted (aborted : world.aborted depth = true) :
      Stops observedAt base current depth
        [degradationOutcome (subjectFor current) observedAt .skipped CALLER_ABORTED none]
  | exceeded (running : world.aborted depth = false) (full : boundedDepth options.maxDepth ≤ depth)
      (wrapper : isWrapperUrl world.api current = true) :
      Stops observedAt base current depth
        [degradationOutcome (subjectFor current) observedAt .failure WRAPPER_DEPTH_EXCEEDED
          (some [(text "maxDepth", .num (.ofNat (boundedDepth options.maxDepth)))])]
  | noHit (running : world.aborted depth = false) (first : depth = 0)
      (plain : isWrapperUrl world.api current = false) :
      Stops observedAt base current depth [noHitOutcome (inspectionSubject base) observedAt]
  | plain (later : 0 < depth) (plain : isWrapperUrl world.api current = false) :
      Stops observedAt base current depth []
  | refused (room : depth < boundedDepth options.maxDepth) (status : DegradationStatus)
      (code : DecodeCauseCode) (details : Option (List (Text × Value))) :
      Stops observedAt base current depth
        [degradationOutcome (subjectFor current) observedAt status code.name details]

/-- The loop gets through these decodes without a stop. -/
structure Reaches (current : Text) (depth : Nat) (steps : List UnwrapStep) : Prop where
  unwraps : Unwraps world options depth current steps
  room : depth + steps.length ≤ boundedDepth options.maxDepth
  running : ∀ k, depth ≤ k → k < depth + steps.length → world.aborted k = false

end

section
variable {world : WrapperWorld} {options : EmbeddedWrapperEnricherOptions} {base : InspectResult}
  {observedAt current : Text} {depth : Nat} {outcomes : List EnrichmentOutcome}

theorem Reaches.nil (h : depth ≤ boundedDepth options.maxDepth) :
    Reaches world options current depth [] where
  unwraps := .nil
  room := h
  running _ hle hlt := absurd hlt (Nat.not_lt.mpr hle)

theorem Reaches.cons {decoded : EmbeddedWrapperDecoded} {offline : InspectResult}
    {steps : List UnwrapStep} (running : world.aborted depth = false)
    (decodes : decodeCurrent world options current = .decoded decoded)
    (inspected : inspectDestination world options (depth + 1) decoded.destinationUrl = .ok offline)
    (h : Reaches world options decoded.destinationUrl (depth + 1) steps) :
    Reaches world options current depth ((decoded, offline) :: steps) where
  unwraps := .cons decodes inspected h.unwraps
  room := by
    have hroom := h.room
    rw [List.length_cons]
    omega
  running k hle hlt := by
    rcases Nat.eq_or_lt_of_le hle with rfl | hlater
    · exact running
    · rw [List.length_cons] at hlt
      exact h.running k hlater (by omega)

theorem boundedDepth_pos (value : Option JsNum) : 0 < boundedDepth value :=
  boundedOption_pos (by decide) (by decide) value

theorem plain_of_notWrapper {input : Text} (h : decodeCurrent world options current = .notWrapper input) :
    isWrapperUrl world.api current = false := by
  rcases decodeEmbeddedWrapper_cases world.api current
    (some (.ofNat (boundedUrlLength options.maxUrlLength))) with ⟨hplain, -⟩ | ⟨-, hsound⟩
  · exact hplain
  · rw [show decodeEmbeddedWrapper world.api current _ = .notWrapper input from h] at hsound
    cases hsound

/-- What the loop returns: the decodes it got through, and why it stopped after them. -/
theorem unwrap_eq_ok {result : List EnrichmentOutcome} (hdepth : depth ≤ boundedDepth options.maxDepth)
    (hfirst : outcomes.isEmpty = true ↔ depth = 0)
    (h : unwrap world options observedAt base current outcomes depth = .ok result) :
    ∃ steps stop, Reaches world options current depth steps ∧
      Stops world options observedAt base (currentAfter current steps) (depth + steps.length) stop ∧
      result = outcomes ++ successes observedAt depth steps ++ stop := by
  fun_induction unwrap world options observedAt base current outcomes depth with
  | case1 current outcomes depth haborted =>
      cases h
      exact ⟨[], _, .nil hdepth, .aborted haborted, by simp [successes, currentAfter]⟩
  | case2 current outcomes depth haborted hfull hwrapper =>
      cases h
      exact ⟨[], _, .nil hdepth, .exceeded (Bool.eq_false_of_not_eq_true haborted) hfull hwrapper,
        by simp [successes, currentAfter]⟩
  | case3 current outcomes depth haborted hfull hplain =>
      cases h
      have hlater : 0 < depth := (boundedDepth_pos _).trans_le hfull
      exact ⟨[], _, .nil hdepth, .plain hlater (Bool.eq_false_of_not_eq_true hplain),
        by simp [successes]⟩
  | case4 current outcomes depth haborted hroom input hdecode hempty =>
      cases h
      exact ⟨[], _, .nil hdepth, .noHit (Bool.eq_false_of_not_eq_true haborted)
        (hfirst.mp hempty) (plain_of_notWrapper hdecode), by simp [successes]⟩
  | case5 current outcomes depth haborted hroom input hdecode hmore =>
      cases h
      have hlater : 0 < depth := Nat.pos_of_ne_zero fun hzero => hmore (hfirst.mpr hzero)
      exact ⟨[], _, .nil hdepth, .plain hlater (plain_of_notWrapper hdecode), by simp [successes]⟩
  | case6 current outcomes depth haborted hroom input vendor code message hdecode =>
      cases h
      refine ⟨[], _, .nil hdepth, .refused (Nat.lt_of_not_le hroom) .skipped code
        (some (vendorDetails vendor none)), ?_⟩
      simp only [successes, currentAfter, List.append_nil]
  | case7 current outcomes depth haborted hroom input vendor format code message hdecode =>
      cases h
      refine ⟨[], _, .nil hdepth, .refused (Nat.lt_of_not_le hroom) .failure code
        (some (vendorDetails vendor format)), ?_⟩
      simp only [successes, currentAfter, List.append_nil]
  | case8 => cases h
  | case9 current outcomes depth haborted hroom decoded hdecode offline hinspect ih =>
      obtain ⟨steps, stop, hreaches, hstop, hresult⟩ := ih (by omega) (by simp) h
      have hlength : depth + 1 + steps.length =
          depth + ((decoded, offline) :: steps).length := by
        rw [List.length_cons]
        omega
      rw [hlength] at hstop
      refine ⟨(decoded, offline) :: steps, stop,
        .cons (Bool.eq_false_of_not_eq_true haborted) hdecode hinspect hreaches, hstop, ?_⟩
      rw [hresult]
      simp [successes]

theorem inspectDestination_returns_iff {url : Text} :
    (∃ offline, inspectDestination world options depth url = .ok offline) ↔
      Inspectable world.platform (options.inspectOptions depth) url :=
  inspectText_returns_iff _ _ url _

/-- The loop returns when every destination on its way can be inspected. -/
theorem unwrap_returns_iff :
    (∃ result, unwrap world options observedAt base current outcomes depth = .ok result) ↔
      ∀ found ∈ destinations world options current depth,
        Inspectable world.platform (options.inspectOptions found.1) found.2 := by
  fun_induction unwrap world options observedAt base current outcomes depth with
  | case1 current outcomes depth haborted =>
      rw [destinations, if_pos (Or.inl haborted)]
      simp
  | case2 current outcomes depth haborted hfull hwrapper =>
      rw [destinations, if_pos (Or.inr hfull)]
      simp
  | case3 current outcomes depth haborted hfull hplain =>
      rw [destinations, if_pos (Or.inr hfull)]
      simp
  | case4 current outcomes depth haborted hroom input hdecode hempty =>
      rw [destinations, if_neg (not_or.mpr ⟨haborted, hroom⟩), hdecode]
      simp
  | case5 current outcomes depth haborted hroom input hdecode hmore =>
      rw [destinations, if_neg (not_or.mpr ⟨haborted, hroom⟩), hdecode]
      simp
  | case6 current outcomes depth haborted hroom input vendor code message hdecode =>
      rw [destinations, if_neg (not_or.mpr ⟨haborted, hroom⟩), hdecode]
      simp
  | case7 current outcomes depth haborted hroom input vendor format code message hdecode =>
      rw [destinations, if_neg (not_or.mpr ⟨haborted, hroom⟩), hdecode]
      simp
  | case8 current outcomes depth haborted hroom decoded hdecode e hinspect =>
      rw [destinations, if_neg (not_or.mpr ⟨haborted, hroom⟩), hdecode]
      constructor
      · rintro ⟨result, h⟩
        cases h
      · intro hall
        obtain ⟨offline, hoffline⟩ :=
          inspectDestination_returns_iff.mpr (List.forall_mem_cons.mp hall).1
        rw [hinspect] at hoffline
        cases hoffline
  | case9 current outcomes depth haborted hroom decoded hdecode offline hinspect ih =>
      rw [destinations, if_neg (not_or.mpr ⟨haborted, hroom⟩), hdecode]
      simp only [List.forall_mem_cons, ih, ← inspectDestination_returns_iff, hinspect]
      exact ⟨fun hrest => ⟨⟨offline, rfl⟩, hrest⟩, And.right⟩

end

end EmbeddedWrapper

end Linklint
