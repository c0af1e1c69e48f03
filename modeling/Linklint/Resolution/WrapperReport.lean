import Linklint.Resolution.WrapperUnwrap

/-!
# The report of the embedded-wrapper enricher

Whenever the loop returns, the report says what it decoded and why it stopped. It
returns exactly when the clock does and every destination can be inspected.
-/

namespace Linklint

namespace EmbeddedWrapper

section
variable {world : WrapperWorld} {options : EmbeddedWrapperEnricherOptions} {base : InspectResult}
  {observedAt current : Text} {depth : Nat} {steps : List UnwrapStep} {stop : List EnrichmentOutcome}

@[simp]
theorem decodedOutcome_status (decoded : EmbeddedWrapperDecoded) (offline : InspectResult)
    (observedAt : Text) (depth : Nat) :
    (decodedOutcome decoded offline observedAt depth).status = .success := rfl

@[simp]
theorem decodedOutcome_cause (decoded : EmbeddedWrapperDecoded) (offline : InspectResult)
    (observedAt : Text) (depth : Nat) :
    (decodedOutcome decoded offline observedAt depth).cause = none := rfl

theorem success_of_mem_successes {outcome : EnrichmentOutcome}
    (h : outcome ∈ successes observedAt depth steps) :
    outcome.status = .success ∧ outcome.cause = none := by
  induction steps generalizing depth with
  | nil => cases h
  | cons step steps ih =>
      rcases List.mem_cons.mp h with rfl | hmem
      · exact ⟨rfl, rfl⟩
      · exact ih hmem

/-- The destination is an exact absolute URL within the configured length. -/
def Exact (world : WrapperWorld) (options : EmbeddedWrapperEnricherOptions)
    (destinationUrl : Text) : Prop :=
  (parseExactUrl world.api destinationUrl).isSome = true ∧
    destinationUrl.length ≤ boundedUrlLength options.maxUrlLength

theorem boundedUrlLength_ofNat (value : Option JsNum) :
    boundedUrlLength (some (.ofNat (boundedUrlLength value))) = boundedUrlLength value :=
  boundedOption_ofNat (boundedOption_pos (by decide) (by decide) value)
    (boundedOption_le (by decide) value)

theorem exact_of_decodes {decoded : EmbeddedWrapperDecoded}
    (h : decodeCurrent world options current = .decoded decoded) :
    decoded.wrapperUrl = current ∧ Exact world options decoded.destinationUrl := by
  rcases decodeEmbeddedWrapper_cases world.api current
    (some (.ofNat (boundedUrlLength options.maxUrlLength))) with ⟨-, hnot⟩ | ⟨-, hsound⟩
  · rw [decodeCurrent, hnot] at h
    cases h
  · rw [show decodeEmbeddedWrapper world.api current _ = .decoded decoded from h,
      boundedUrlLength_ofNat] at hsound
    obtain ⟨hwrapper, hlength, hparses⟩ := hsound
    exact ⟨hwrapper, hparses, hlength⟩

theorem Unwraps.exact (h : Unwraps world options depth current steps) :
    ∀ step ∈ steps, Exact world options step.1.destinationUrl := by
  induction h with
  | nil => simp
  | cons decodes inspected rest ih =>
      exact List.forall_mem_cons.mpr ⟨(exact_of_decodes decodes).2, ih⟩

/-- Each decode is of the URL the one before it found. -/
theorem Unwraps.chained (h : Unwraps world options depth current steps) :
    steps.map (·.1.wrapperUrl) = (current :: steps.map (·.1.destinationUrl)).dropLast := by
  induction h with
  | nil => rfl
  | cons decodes inspected rest ih =>
      simp only [List.map_cons, List.dropLast_cons_cons, ih, (exact_of_decodes decodes).1]

theorem Stops.length_le
    (h : Stops world options observedAt base current depth stop) : stop.length ≤ 1 := by
  cases h <;> simp

@[simp]
theorem degradationOutcome_status (subject : EnrichmentSubject) (observedAt : Text)
    (status : DegradationStatus) (code : Text) (details : Option (List (Text × Value))) :
    (degradationOutcome subject observedAt status code details).status = status.outcome := rfl

theorem degradation_ne (status : DegradationStatus) :
    status.outcome ≠ .success ∧ status.outcome ≠ .noHit := by
  cases status <;> decide

theorem Stops.ne_success
    (h : Stops world options observedAt base current depth stop) :
    ∀ outcome ∈ stop, outcome.status ≠ .success := by
  intro outcome hmem
  cases h with
  | plain => cases hmem
  | noHit =>
      rw [List.mem_singleton.mp hmem]
      exact nofun
  | aborted | exceeded | refused =>
      rw [List.mem_singleton.mp hmem, degradationOutcome_status]
      exact (degradation_ne _).1

/-- A loop that has decoded nothing has something to say. -/
theorem Stops.ne_nil
    (h : Stops world options observedAt base current 0 stop) : stop ≠ [] := by
  cases h with
  | plain later => exact absurd later (Nat.lt_irrefl 0)
  | aborted | exceeded | noHit | refused => exact List.cons_ne_nil _ _

theorem Stops.noHit_first {outcome : EnrichmentOutcome}
    (h : Stops world options observedAt base current depth stop) (hmem : outcome ∈ stop)
    (hstatus : outcome.status = .noHit) :
    depth = 0 ∧ stop = [outcome] ∧ isWrapperUrl world.api current = false := by
  cases h with
  | plain => cases hmem
  | noHit running first plain =>
      rw [List.mem_singleton.mp hmem]
      exact ⟨first, rfl, plain⟩
  | aborted | exceeded | refused =>
      rw [List.mem_singleton.mp hmem, degradationOutcome_status] at hstatus
      exact absurd hstatus (degradation_ne _).2

/-- The outcome says that the depth bound was exceeded. -/
def SaysDepthExceeded (outcome : EnrichmentOutcome) : Prop :=
  ∃ cause, outcome.cause = some cause ∧ cause.code = WRAPPER_DEPTH_EXCEEDED

theorem DecodeCauseCode.name_ne_depthExceeded (code : DecodeCauseCode) :
    code.name ≠ WRAPPER_DEPTH_EXCEEDED := by
  cases code <;> decide

theorem saysDepthExceeded_degradation {subject : EnrichmentSubject} {observedAt : Text}
    {status : DegradationStatus} {code : Text} {details : Option (List (Text × Value))} :
    SaysDepthExceeded (degradationOutcome subject observedAt status code details) ↔
      code = WRAPPER_DEPTH_EXCEEDED := by
  simp [SaysDepthExceeded, degradationOutcome]

theorem Stops.exceeded_iff
    (h : Stops world options observedAt base current depth stop)
    (hle : depth ≤ boundedDepth options.maxDepth) :
    (∃ outcome ∈ stop, SaysDepthExceeded outcome) ↔
      depth = boundedDepth options.maxDepth ∧ world.aborted depth = false ∧
        isWrapperUrl world.api current = true := by
  cases h with
  | aborted haborted =>
      simp only [List.mem_singleton, exists_eq_left, saysDepthExceeded_degradation, haborted]
      constructor
      · intro h
        exact absurd h (by decide)
      · rintro ⟨-, h, -⟩
        cases h
  | exceeded running full wrapper =>
      simp only [List.mem_singleton, exists_eq_left, saysDepthExceeded_degradation, true_iff]
      exact ⟨Nat.le_antisymm hle full, running, wrapper⟩
  | noHit running first plain =>
      simp [SaysDepthExceeded, noHitOutcome, plain]
  | plain later plain => simp [plain]
  | refused room status code details =>
      simp only [List.mem_singleton, exists_eq_left, saysDepthExceeded_degradation]
      constructor
      · intro h
        exact absurd h code.name_ne_depthExceeded
      · intro h
        omega

/-! ### The contract of a report -/

/-- What a report says about the decodes it is of. -/
structure ReportContract (world : WrapperWorld) (options : EmbeddedWrapperEnricherOptions)
    (base : InspectResult) (observedAt : Text) (steps : List UnwrapStep)
    (outcomes : List EnrichmentOutcome) : Prop where
  /-- one decode after the other, every destination inspected -/
  unwraps : Unwraps world options 0 base.input steps
  bounded : steps.length ≤ boundedDepth options.maxDepth
  exact : ∀ step ∈ steps, Exact world options step.1.destinationUrl
  chained : steps.map (·.1.wrapperUrl) = (base.input :: steps.map (·.1.destinationUrl)).dropLast
  /-- one success for each decode, with its depth -/
  succeeded : outcomes.filter (·.status = .success) = successes observedAt 0 steps
  nonempty : outcomes ≠ []
  lastOnly : ∀ before outcome after, outcomes = before ++ outcome :: after →
    outcome.status ≠ .success → after = []
  noHit : ∀ outcome ∈ outcomes, outcome.status = .noHit →
    outcomes = [outcome] ∧ isWrapperUrl world.api base.input = false
  exceeded : (∃ outcome ∈ outcomes, SaysDepthExceeded outcome) ↔
    steps.length = boundedDepth options.maxDepth ∧
      world.aborted (boundedDepth options.maxDepth) = false ∧
      isWrapperUrl world.api (currentAfter base.input steps) = true

theorem filter_successes_append
    (h : Stops world options observedAt base current depth stop) :
    (successes observedAt 0 steps ++ stop).filter (·.status = .success) =
      successes observedAt 0 steps := by
  have hstop : stop.filter (·.status = .success) = [] := by
    rw [List.filter_eq_nil_iff]
    intro outcome hmem hstatus
    exact h.ne_success outcome hmem (of_decide_eq_true hstatus)
  rw [List.filter_append, hstop, List.append_nil, List.filter_eq_self]
  intro outcome hmem
  exact decide_eq_true (success_of_mem_successes hmem).1

theorem last_of_not_success {before after : List EnrichmentOutcome} {outcome : EnrichmentOutcome}
    (h : Stops world options observedAt base current depth stop)
    (hsplit : successes observedAt 0 steps ++ stop = before ++ outcome :: after)
    (hstatus : outcome.status ≠ .success) : after = [] := by
  rcases List.append_eq_append_iff.mp hsplit with ⟨rest, rfl, hstop⟩ | ⟨rest, hsuccesses, hrest⟩
  · have hlength := h.length_le
    rw [hstop, List.length_append, List.length_cons] at hlength
    exact List.length_eq_zero_iff.mp (by omega)
  · cases rest with
    | nil =>
        have hlength := h.length_le
        rw [← List.nil_append stop, ← hrest, List.length_cons] at hlength
        exact List.length_eq_zero_iff.mp (by omega)
    | cons first rest =>
        rw [List.cons_append, List.cons.injEq] at hrest
        have hmem : outcome ∈ successes observedAt 0 steps := by
          rw [hsuccesses, hrest.1]
          exact List.mem_append_right _ (List.mem_cons_self ..)
        exact absurd (success_of_mem_successes hmem).1 hstatus

/-- What the loop returns keeps the contract. -/
theorem reportContract_of_stops (hreaches : Reaches world options base.input 0 steps)
    (hstop : Stops world options observedAt base (currentAfter base.input steps) steps.length stop) :
    ReportContract world options base observedAt steps (successes observedAt 0 steps ++ stop) where
  unwraps := hreaches.unwraps
  bounded := by
    have hroom := hreaches.room
    omega
  exact := hreaches.unwraps.exact
  chained := hreaches.unwraps.chained
  succeeded := filter_successes_append hstop
  nonempty := by
    cases steps with
    | nil => exact hstop.ne_nil
    | cons step steps => exact List.cons_ne_nil _ _
  lastOnly before outcome after hsplit hstatus := last_of_not_success hstop hsplit hstatus
  noHit outcome hmem hstatus := by
    rcases List.mem_append.mp hmem with hsuccess | hmem
    · rw [(success_of_mem_successes hsuccess).1] at hstatus
      cases hstatus
    · obtain ⟨hlength, honly, hplain⟩ := hstop.noHit_first hmem hstatus
      rw [List.length_eq_zero_iff.mp hlength] at hplain ⊢
      exact ⟨honly, hplain⟩
  exceeded := by
    have hroom := hreaches.room
    rw [Nat.zero_add] at hroom
    have hsuccesses : ¬ ∃ outcome ∈ successes observedAt 0 steps, SaysDepthExceeded outcome := by
      rintro ⟨outcome, hmem, cause, hcause, -⟩
      rw [(success_of_mem_successes hmem).2] at hcause
      cases hcause
    have hends : (∃ outcome ∈ successes observedAt 0 steps ++ stop, SaysDepthExceeded outcome) ↔
        ∃ outcome ∈ stop, SaysDepthExceeded outcome := by
      simp only [List.mem_append, or_and_right, exists_or, hsuccesses, false_or]
    rw [hends, hstop.exceeded_iff hroom]
    constructor
    · rintro ⟨hfull, hrunning, hwrapper⟩
      exact ⟨hfull, hfull ▸ hrunning, hwrapper⟩
    · rintro ⟨hfull, hrunning, hwrapper⟩
      exact ⟨hfull, hfull ▸ hrunning, hwrapper⟩

/-- A report that keeps the contract. -/
def Contracted (world : WrapperWorld) (options : EmbeddedWrapperEnricherOptions)
    (base : InspectResult) (report : EnrichmentReport) : Prop :=
  ∃ observedAt steps outcomes, observedInstant world.dates world.now = .ok observedAt ∧
    report.outcomes = outcomes.map some ∧
    ReportContract world options base observedAt steps outcomes

theorem contracted_of_enrich {report : EnrichmentReport}
    (h : enrich world options base = .ok report) : Contracted world options base report := by
  obtain ⟨observedAt, hobserved, h⟩ := bind_eq_ok.mp h
  obtain ⟨outcomes, hunwrap, h⟩ := bind_eq_ok.mp h
  obtain ⟨steps, stop, hreaches, hstop, houtcomes⟩ :=
    unwrap_eq_ok (Nat.zero_le _) (by simp) hunwrap
  rw [Nat.zero_add] at hstop
  rw [List.nil_append] at houtcomes
  cases h
  refine ⟨observedAt, steps, outcomes, hobserved, rfl, ?_⟩
  rw [houtcomes]
  exact reportContract_of_stops hreaches hstop

end

theorem observedInstant_returns_iff (dates : DateApi) (now : Except Thrown (Option Int)) :
    (∃ observedAt, observedInstant dates now = .ok observedAt) ↔ ∃ time, now = .ok time := by
  cases now <;> simp [observedInstant, Except.map]

/-- The enricher gives a report that keeps the contract exactly when the clock can be read and
every destination on the way can be inspected. -/
theorem enrich_contracted_iff (world : WrapperWorld) (options : EmbeddedWrapperEnricherOptions)
    (base : InspectResult) :
    boundedDepth options.maxDepth ≤ MAX_EMBEDDED_WRAPPER_DEPTH ∧
    ((∃ report, enrich world options base = .ok report ∧ Contracted world options base report) ↔
      (∃ time, world.now = .ok time) ∧
        ∀ found ∈ destinations world options base.input 0,
          Inspectable world.platform (options.inspectOptions found.1) found.2) := by
  refine ⟨boundedOption_le (by decide) _, ?_⟩
  rw [← observedInstant_returns_iff world.dates]
  constructor
  · rintro ⟨report, h, -⟩
    obtain ⟨observedAt, hobserved, h⟩ := bind_eq_ok.mp h
    obtain ⟨outcomes, hunwrap, -⟩ := bind_eq_ok.mp h
    exact ⟨⟨observedAt, hobserved⟩, unwrap_returns_iff.mp ⟨outcomes, hunwrap⟩⟩
  · rintro ⟨⟨observedAt, hobserved⟩, hdestinations⟩
    obtain ⟨outcomes, hunwrap⟩ : ∃ outcomes,
        unwrap world options observedAt base base.input [] 0 = .ok outcomes :=
      unwrap_returns_iff.mpr hdestinations
    have henrich : enrich world options base = .ok { outcomes := outcomes.map some } :=
      bind_eq_ok.mpr ⟨observedAt, hobserved, bind_eq_ok.mpr ⟨outcomes, hunwrap, rfl⟩⟩
    exact ⟨_, henrich, contracted_of_enrich henrich⟩

/-! ### Inspection options that throw -/

def safeLink : Text :=
  text "https://nam01.safelinks.protection.outlook.com/?url=http%3A%2F%2Fexample.com%2F"

def exampleUrl : Url where
  protocol := text "http:"
  username := []
  password := []
  hostname := text "example.com"
  port := []
  pathname := text "/"
  search := []
  hash := []

def safeLinkUrl : Url where
  protocol := text "https:"
  username := []
  password := []
  hostname := text "nam01.safelinks.protection.outlook.com"
  port := []
  pathname := text "/"
  search := text "?url=http%3A%2F%2Fexample.com%2F"
  hash := []

def safeLinkApi : UrlApi where
  parse raw :=
    if raw = safeLink then some safeLinkUrl
    else if raw = text "http://example.com/" then some exampleUrl
    else none
  resolve _ _ := none
  href url := url.origin ++ url.pathname ++ url.search

def safeLinkWorld : WrapperWorld where
  platform := .ascii
  bodies := .silent
  api := safeLinkApi
  dates := .epochSecond
  now := .ok (some 0)
  aborted _ := false

def safeLinkDecoded : EmbeddedWrapperDecoded where
  wrapperUrl := safeLink
  destinationUrl := text "http://example.com/"
  vendor := .microsoftSafeLinks
  format := text "microsoft-safe-links-standard"
  formatVersion := text "standard-2026-07"

/-- `{ inspectOptions: { get denyTlds() { throw … } } }` -/
def throwingOptions : EmbeddedWrapperEnricherOptions where
  inspectOptions _ := throwingDenyTlds

theorem safeLink_decoded :
    decodeCurrent safeLinkWorld throwingOptions safeLink = .decoded safeLinkDecoded := by
  have hparse : parseExactUrl safeLinkApi safeLink = some safeLinkUrl := by decide +kernel
  have hvendor : wrapperVendor safeLinkUrl.hostname = some .microsoftSafeLinks := by decide +kernel
  have hquery : exactQueryParameter safeLinkUrl.search (text "url") =
      some (text "http://example.com/") := by decide +kernel
  have hdestination : parseExactUrl safeLinkApi (text "http://example.com/") = some exampleUrl := by
    decide +kernel
  have hlimit : boundedUrlLength (some (.ofNat (boundedUrlLength throwingOptions.maxUrlLength))) =
      16384 := boundedUrlLength_ofNat none
  have hshort : ¬ 16384 < safeLink.length ∧ ¬ 16384 < (text "http://example.com/").length := by
    decide +kernel
  rw [decodeCurrent, decodeEmbeddedWrapper, hlimit]
  simp only [safeLinkWorld, hparse, hvendor, if_neg hshort.1]
  rw [if_neg (by decide), decodeMicrosoftSafeLinks, if_neg (by decide)]
  simp only [hquery]
  rw [validateDecoded, if_neg hshort.2, if_neg (by rw [hdestination]; decide)]
  rfl

/-- An accessor that throws on an options object takes the report of a Safe Links URL away. -/
theorem unwrap_throws_denyTlds :
    ∃ base, inspect .ascii .silent (.string safeLink) .empty = .ok base ∧
      ¬ ∃ report, enrich safeLinkWorld throwingOptions base = .ok report ∧
        Contracted safeLinkWorld throwingOptions base report := by
  refine ⟨_, rfl, ?_⟩
  rintro ⟨report, henrich, -⟩
  obtain ⟨observedAt, -, henrich⟩ := bind_eq_ok.mp henrich
  obtain ⟨outcomes, hunwrap, -⟩ := bind_eq_ok.mp henrich
  have hdestination : (1, text "http://example.com/") ∈
      destinations safeLinkWorld throwingOptions safeLink 0 := by
    rw [destinations, if_neg (by decide), safeLink_decoded]
    exact List.mem_cons_self ..
  obtain ⟨offline, hoffline⟩ :=
    inspectDestination_returns_iff.mpr (unwrap_returns_iff.mp ⟨outcomes, hunwrap⟩ _ hdestination)
  cases hoffline

end EmbeddedWrapper

end Linklint
