import Linklint.Resolution.DivergenceProbe
import Mathlib.Data.Finset.Card

/-!
# The contract of the divergence probe

For every transport, authorizer and variant set: which calls a run makes, and
what its report says about the responses it has seen.
-/

namespace Linklint

namespace DivergenceProbe

open Interaction RedirectChain

/-! ### The verdict -/

section
variable {summaries more : List DivergenceProbeVariantSummary} {dimension : DivergenceDimension}

/-- Two of the summaries differ in a dimension. -/
def Disagree (dimension : DivergenceDimension) (summaries : List DivergenceProbeVariantSummary) :
    Prop :=
  ∃ a ∈ summaries, ∃ b ∈ summaries, a.get dimension ≠ b.get dimension

theorem Disagree.mono (h : Disagree dimension summaries) (hsubset : summaries ⊆ more) :
    Disagree dimension more := by
  obtain ⟨a, ha, b, hb, hne⟩ := h
  exact ⟨a, hsubset ha, b, hsubset hb, hne⟩

theorem Disagree.two_le (h : Disagree dimension summaries) : 2 ≤ summaries.length := by
  obtain ⟨a, ha, b, hb, hne⟩ := h
  by_contra hshort
  obtain ⟨first, rest, rfl⟩ := List.exists_cons_of_ne_nil (List.ne_nil_of_mem ha)
  have hrest : rest = [] := by
    apply List.eq_nil_of_length_eq_zero
    simp only [List.length_cons] at hshort
    omega
  subst hrest
  apply hne
  rw [List.mem_singleton.mp ha, List.mem_singleton.mp hb]

theorem mem_divergentAmong : dimension ∈ divergentAmong summaries ↔ Disagree dimension summaries := by
  have hlisted : dimension ∈ DIVERGENCE_DIMENSIONS := by cases dimension <;> decide
  rw [divergentAmong, List.mem_filter, and_iff_right hlisted, decide_eq_true_eq,
    ← List.card_toFinset, Finset.one_lt_card]
  simp [Disagree]

theorem mem_divergentDimensions :
    dimension ∈ divergentDimensions summaries ↔ Disagree dimension summaries := by
  rw [divergentDimensions]
  split
  · exact mem_divergentAmong
  · rename_i hfew
    refine iff_of_false (List.not_mem_nil) fun h => hfew ?_
    exact decide_eq_true h.two_le

/-- What the last outcome claims about the sampled responses. -/
structure Verdict (summaries : List DivergenceProbeVariantSummary) : Prop where
  dimensions : ∀ dimension,
    dimension ∈ divergentDimensions summaries ↔ Disagree dimension summaries
  silent : divergent summaries = none ↔ summaries.length < 2
  claims : divergent summaries = some true ↔ ∃ dimension, Disagree dimension summaries
  agrees : divergent summaries = some false ↔
    2 ≤ summaries.length ∧ ∀ dimension, ¬ Disagree dimension summaries

theorem verdict (summaries : List DivergenceProbeVariantSummary) : Verdict summaries := by
  have hpositive : 0 < (divergentDimensions summaries).length ↔
      ∃ dimension, Disagree dimension summaries := by
    rw [List.length_pos_iff_exists_mem]
    exact exists_congr fun dimension => mem_divergentDimensions
  by_cases hfew : summaries.length < 2
  · have hnone : divergent summaries = none := by
      rw [divergent, if_neg]
      rw [comparable, decide_eq_true_eq]
      omega
    have hagree : ∀ dimension, ¬ Disagree dimension summaries := fun dimension h => by
      have := h.two_le
      omega
    constructor
    · exact fun _ => mem_divergentDimensions
    · simp [hnone, hfew]
    · simp [hnone, hagree]
    · simp only [hnone, reduceCtorEq, false_iff]
      omega
  · have hsome : divergent summaries = some (decide (0 < (divergentDimensions summaries).length)) := by
      rw [divergent, if_pos]
      rw [comparable, decide_eq_true_eq]
      omega
    constructor
    · exact fun _ => mem_divergentDimensions
    · simp [hsome, hfew]
    · rw [hsome, ← hpositive]
      simp
    · rw [hsome, ← not_exists, ← hpositive, Option.some.injEq, decide_eq_false_iff_not]
      omega

end

/-! ### Reading a trace -/

def askedOf (e : ProbeEvent) : Option DivergenceProbeAuthorizationRequest :=
  match e.op with
  | .authorize request => some request
  | _ => none

/-- The requests for authorization, in order. -/
def asked (trace : List ProbeEvent) : List DivergenceProbeAuthorizationRequest :=
  trace.filterMap askedOf

/-- A response, with what was asked for it and what was fetched. -/
structure Sample where
  asked : DivergenceProbeAuthorizationRequest
  fetch : VariantFetch
  response : SafeFetchResponse

/-- The last request while it is unanswered by a fetch, and the responses so far. -/
structure Watch where
  pending : Option DivergenceProbeAuthorizationRequest := none
  samples : List Sample := []

def Watch.observe (watch : Watch) (e : ProbeEvent) : Watch :=
  match e with
  | ⟨.authorize request, _⟩ => { watch with pending := some request }
  | ⟨.fetch _ fetch, some (.ok ⟨_, _, _, .success response⟩)⟩ =>
      { pending := none
        samples := watch.samples ++ (watch.pending.map fun asked => ⟨asked, fetch, response⟩).toList }
  | _ => { watch with pending := none }

def watched (trace : List ProbeEvent) : Watch := trace.foldl Watch.observe {}

/-- The responses of a trace, each after the request it was granted under. -/
def samples (trace : List ProbeEvent) : List Sample := (watched trace).samples

@[simp] theorem asked_append (a b : List ProbeEvent) : asked (a ++ b) = asked a ++ asked b :=
  List.filterMap_append

@[simp] theorem watched_append (a b : List ProbeEvent) :
    watched (a ++ b) = b.foldl Watch.observe (watched a) := List.foldl_append

section
variable (options : DivergenceProbeEnricherOptions) (world : ProbeWorld) (url : Text)

/-- The summary a sample has. -/
def summaryOf (sample : Sample) : Except Thrown DivergenceProbeVariantSummary :=
  summarize options world sample.asked.variant sample.fetch.sameOriginReferer sample.response url

/-- The summaries of the samples, the challenged ones left out. -/
def Sampled (samples : List Sample) (sampled : List DivergenceProbeVariantSummary) : Prop :=
  ∃ summaries, List.Forall₂ (fun sample summary => summaryOf options world url sample = .ok summary)
      samples summaries ∧
    sampled = summaries.filter fun summary => summary.challenge = none

/-- The last call was for the authorization of a variant, and it was granted. -/
def Granted (past : List ProbeEvent) (request : VariantFetch) : Prop :=
  ∃ before variant authorization,
    past = before ++ [⟨.authorize (requestFor options url ((asked before).length + 1) variant),
      some (.ok (some authorization))⟩] ∧
    options.probeVariants[(asked before).length]? = some variant ∧
    request = fetchVariant options world url authorization variant

/-- What the probe may call, given the calls so far. -/
def ProbeAllows (past : List ProbeEvent) (e : ProbeEvent) : Prop :=
  match e.op with
  | .createSession => past = []
  | .now => past ≠ []
  | .authorize request => ∃ variant,
      options.probeVariants[(asked past).length]? = some variant ∧
        request = requestFor options url ((asked past).length + 1) variant
  | .fetch session request =>
      past.head? = some ⟨.createSession, some session⟩ ∧ Granted options world url past request

/-- What an outcome says of its variant. -/
inductive Accounts (variant : DivergenceProbeVariant) : EnrichmentOutcome → Prop
  | sampled {observedAt : Text} {summary : DivergenceProbeVariantSummary}
      (label : summary.label = variant.label) (clear : summary.challenge = none) :
      Accounts variant (variantOutcome url observedAt summary)
  | challenged {observedAt : Text} {summary : DivergenceProbeVariantSummary}
      (label : summary.label = variant.label) (gated : summary.challenge ≠ none) :
      Accounts variant (challengeOutcome url observedAt summary)
  | degraded {subject observedAt : Text} {status : StopStatus} {code : Text} {retryable : Bool}
      {details : Option Value} {evidence : List EnrichmentEvidence} :
      Accounts variant
        (degradationOutcome subject observedAt status code retryable details evidence)

/-- The loop after its first `n` variants. -/
structure ProbeInv (session : Session) (past : List ProbeEvent) (n : Nat) (s : ProbeState) :
    Prop where
  started : past.head? = some ⟨.createSession, some session⟩
  count : (asked past).length = n
  told : List.Forall₂ (Accounts url) (options.probeVariants.take n) s.outcomes
  successes : s.outcomes.countP (fun outcome => outcome.status = .success)
    = s.successfulSummaries.length
  sampled : Sampled options world url (samples past) s.successfulSummaries

end

section
variable {options : DivergenceProbeEnricherOptions} {world : ProbeWorld} {url : Text}
  {session : Session} {past : List ProbeEvent} {s : ProbeState} {n : Nat}
  {variant : DivergenceProbeVariant}

theorem Accounts.quiet {outcome : EnrichmentOutcome} (h : Accounts url variant outcome) :
    outcome.findings = [] := by
  cases h <;> rfl

theorem take_succ_of_getElem? {α : Type} {l : List α} {i : Nat} {a : α} (h : l[i]? = some a) :
    l.take (i + 1) = l.take i ++ [a] := by
  rw [List.take_add_one, h, Option.toList_some]

theorem Sampled.snoc {taken : List Sample} {sampled : List DivergenceProbeVariantSummary}
    (h : Sampled options world url taken sampled) {sample : Sample}
    {summary : DivergenceProbeVariantSummary} (hread : summaryOf options world url sample = .ok summary) :
    Sampled options world url (taken ++ [sample])
      (sampled ++ if summary.challenge = none then [summary] else []) := by
  obtain ⟨summaries, hall, rfl⟩ := h
  refine ⟨summaries ++ [summary], List.rel_append hall (.cons hread .nil), ?_⟩
  rw [List.filter_append, List.filter_cons]
  simp

/-! ### One turn -/

/-- A turn that pushes one outcome without a sample. -/
theorem ProbeInv.push (inv : ProbeInv options world url session past n s) {segment : List ProbeEvent}
    (hvariant : options.probeVariants[n]? = some variant) {outcome : EnrichmentOutcome}
    (hasked : (asked segment).length = 1) (hquiet : samples (past ++ segment) = samples past)
    (hstatus : outcome.status ≠ .success) (haccounts : Accounts url variant outcome) :
    ProbeInv options world url session (past ++ segment) (n + 1) (s.push outcome) where
  started := by
    rw [List.head?_append, inv.started]
    rfl
  count := by
    rw [asked_append, List.length_append, inv.count, hasked]
  told := by
    rw [take_succ_of_getElem? hvariant]
    exact List.rel_append inv.told (.cons haccounts .nil)
  successes := by
    rw [ProbeState.push, List.countP_append, inv.successes]
    simp [hstatus]
  sampled := by
    rw [hquiet]
    exact inv.sampled

/-- The two calls of a turn whose authorization was granted. -/
def turnEvents (options : DivergenceProbeEnricherOptions) (world : ProbeWorld) (url : Text)
    (session : Session) (n : Nat) (variant : DivergenceProbeVariant)
    (authorization : DestinationFetchAuthorization) (fetched : SafeFetchOutcome) :
    List ProbeEvent :=
  [⟨.authorize (requestFor options url (n + 1) variant), some (.ok (some authorization))⟩,
    ⟨.fetch session (fetchVariant options world url authorization variant), some (.ok fetched)⟩]

theorem samples_turn (authorization : DestinationFetchAuthorization) {fetched : SafeFetchOutcome}
    {response : SafeFetchResponse} (hresult : fetched.result = .success response) :
    samples (past ++ turnEvents options world url session n variant authorization fetched)
      = samples past ++ [⟨requestFor options url (n + 1) variant,
          fetchVariant options world url authorization variant, response⟩] := by
  obtain ⟨subject, observedAt, evidence, result⟩ := fetched
  cases hresult
  rw [samples, watched_append]
  rfl

theorem samples_turn_failed (authorization : DestinationFetchAuthorization)
    {fetched : SafeFetchOutcome} (hresult : ∀ response, fetched.result ≠ .success response) :
    samples (past ++ turnEvents options world url session n variant authorization fetched)
      = samples past := by
  obtain ⟨subject, observedAt, evidence, result⟩ := fetched
  rw [samples, watched_append]
  cases result with
  | success response => exact absurd rfl (hresult response)
  | blocked cause => rfl
  | incomplete cause => rfl

theorem except_map_eq_ok {α β : Type} {f : α → β} {x : Except Thrown α} {b : β}
    (h : x.map f = .ok b) : ∃ a, x = .ok a ∧ f a = b := by
  cases x with
  | error e => cases h
  | ok a => exact ⟨a, rfl, Except.ok.inj h⟩

theorem summarize_label {label : Text} {referer : Option Text} {response : SafeFetchResponse}
    {summary : DivergenceProbeVariantSummary}
    (h : summarize options world label referer response url = .ok summary) :
    summary.label = label := by
  obtain ⟨location, -, rfl⟩ := except_map_eq_ok h
  rfl

/-- A turn whose response was summarized. -/
theorem ProbeInv.summarized (inv : ProbeInv options world url session past n s)
    (hvariant : options.probeVariants[n]? = some variant) {segment : List ProbeEvent}
    (hasked : (asked segment).length = 1) {sample : Sample}
    (hsamples : samples (past ++ segment) = samples past ++ [sample])
    {summary : DivergenceProbeVariantSummary}
    (hsummary : summaryOf options world url sample = .ok summary)
    (hlabel : summary.label = variant.label) (observedAt : Text) :
    ProbeInv options world url session (past ++ segment) (n + 1)
      (s.summarized url observedAt summary) := by
  have hsampled := inv.sampled.snoc hsummary
  rw [← hsamples] at hsampled
  have hstarted : (past ++ segment).head? = some ⟨.createSession, some session⟩ := by
    rw [List.head?_append, inv.started]
    rfl
  have hcount : (asked (past ++ segment)).length = n + 1 := by
    rw [asked_append, List.length_append, inv.count, hasked]
  unfold ProbeState.summarized
  by_cases hclear : summary.challenge = none
  · rw [if_neg (not_not.mpr hclear)]
    rw [if_pos hclear] at hsampled
    refine ⟨hstarted, hcount, ?_, ?_, hsampled⟩
    · rw [take_succ_of_getElem? hvariant]
      exact List.rel_append inv.told (.cons (.sampled hlabel hclear) .nil)
    · rw [List.countP_append, inv.successes, List.length_append]
      rfl
  · rw [if_pos hclear]
    rw [if_neg hclear, List.append_nil] at hsampled
    refine ⟨hstarted, hcount, ?_, ?_, hsampled⟩
    · rw [take_succ_of_getElem? hvariant]
      exact List.rel_append inv.told (.cons (.challenged hlabel hclear) .nil)
    · rw [ProbeState.push, List.countP_append, inv.successes]
      rfl

/-- A turn whose fetch was made. -/
theorem ProbeInv.arrived (inv : ProbeInv options world url session past n s)
    (hvariant : options.probeVariants[n]? = some variant)
    (authorization : DestinationFetchAuthorization) {fetched : SafeFetchOutcome} {s' : ProbeState}
    (h : s.arrived options world url variant fetched = .ok s') :
    ProbeInv options world url session
      (past ++ turnEvents options world url session n variant authorization fetched) (n + 1) s' := by
  rw [ProbeState.arrived] at h
  cases hresult : fetched.result with
  | blocked cause =>
      rw [hresult] at h
      cases h
      exact inv.push hvariant rfl (samples_turn_failed _ (by simp [hresult])) (fun h => by cases h)
        .degraded
  | incomplete cause =>
      rw [hresult] at h
      cases h
      exact inv.push hvariant rfl (samples_turn_failed _ (by simp [hresult])) (fun h => by cases h)
        .degraded
  | success response =>
      rw [hresult] at h
      obtain ⟨summary, hsummary, rfl⟩ := except_map_eq_ok h
      exact inv.summarized hvariant rfl (samples_turn _ hresult) hsummary (summarize_label hsummary) _

/-! ### The loop -/

/-- The postcondition of the loop. -/
def ProbePost (options : DivergenceProbeEnricherOptions) (world : ProbeWorld) (url : Text)
    (session : Session) (n : Nat) (result : Except Thrown ProbeState) (past : List ProbeEvent) :
    Prop :=
  ∀ s, result = .ok s → ProbeInv options world url session past n s

theorem wp_probeVariant (inv : ProbeInv options world url session past n s)
    (hvariant : options.probeVariants[n]? = some variant) :
    wp (Records (ProbeAllows options world url))
      (probeVariant options world url session (n + 1) variant s)
      (ProbePost options world url session (n + 1)) past := by
  unfold probeVariant
  refine wp_recorded (fun _ => ⟨variant, by rw [inv.count]; exact hvariant, by rw [inv.count]⟩) ?_
  intro authorized
  obtain error | granted := authorized
  · refine wp_recorded (fun _ => by simp [ProbeAllows]) fun (observedAt : Text) => ?_
    intro s' hs'
    cases hs'
    rw [List.append_assoc]
    refine inv.push hvariant rfl ?_ (fun h => by cases h) .degraded
    rw [samples, watched_append]
    rfl
  obtain _ | authorization := granted
  · refine wp_recorded (fun _ => by simp [ProbeAllows]) fun (observedAt : Text) => ?_
    intro s' hs'
    cases hs'
    rw [List.append_assoc]
    refine inv.push hvariant rfl ?_ (fun h => by cases h) .degraded
    rw [samples, watched_append]
    rfl
  · refine wp_recorded (fun _ => ⟨?_, past, variant, authorization, ?_, ?_, rfl⟩) ?_
    · rw [List.head?_append, inv.started]
      rfl
    · rw [inv.count]
    · rw [inv.count]
      exact hvariant
    · intro answer
      obtain error | fetched := answer
      · intro s' hs'
        cases hs'
      · intro s' hs'
        rw [List.append_assoc]
        exact inv.arrived hvariant authorization hs'

theorem wp_probeFrom (done : List DivergenceProbeVariant) {rest : List DivergenceProbeVariant}
    (hvariants : options.probeVariants = done ++ rest)
    (inv : ProbeInv options world url session past done.length s) :
    wp (Records (ProbeAllows options world url))
      (probeFrom options world url session (done.length + 1) rest s)
      (ProbePost options world url session options.probeVariants.length) past := by
  induction rest generalizing done past s with
  | nil =>
      intro s' hs'
      cases hs'
      rw [hvariants, List.append_nil]
      exact inv
  | cons variant rest ih =>
      rw [probeFrom, wp_bind]
      have hvariant : options.probeVariants[done.length]? = some variant := by
        rw [hvariants, List.getElem?_append_right (Nat.le_refl _), Nat.sub_self]
        rfl
      refine wp_mono (wp_probeVariant inv hvariant) fun result past' hpost => ?_
      obtain error | s' := result
      · intro s' hs'
        cases hs'
      · have hnext := ih (done ++ [variant]) (s := s') (by rw [hvariants, List.append_assoc]; rfl)
          (by
            rw [List.length_append]
            exact hpost s' rfl)
        rw [List.length_append] at hnext
        exact hnext

theorem probeInv_start : ProbeInv options world url session [⟨.createSession, some session⟩] 0
    ⟨[], []⟩ where
  started := rfl
  count := rfl
  told := .nil
  successes := rfl
  sampled := ⟨[], .nil, rfl⟩

end

/-! ### The enricher -/

/-- What a report is made of. -/
structure ProbeTold (options : DivergenceProbeEnricherOptions) (world : ProbeWorld)
    (base : InspectResult) (url : Text) (trace : List ProbeEvent) (made : EnrichmentReport)
    (accounts : List EnrichmentOutcome) (summaries : List DivergenceProbeVariantSummary) : Prop where
  outcomes : ∃ observedAt,
    made.outcomes = (accounts ++ [divergenceOutcome base.input observedAt summaries]).map some
  accounted : List.Forall₂ (Accounts url) options.probeVariants accounts
  evidenceOnly : ∀ outcome, some outcome ∈ made.outcomes → outcome.findings = []
  successes : accounts.countP (fun outcome => outcome.status = .success) = summaries.length
  sampled : Sampled options world url (samples trace) summaries
  verdict : Verdict summaries

section
variable {options : DivergenceProbeEnricherOptions} {world : ProbeWorld} {url : Text}
  {base : InspectResult}

theorem samples_now (past : List ProbeEvent) (observedAt : Text) :
    samples (past ++ [⟨.now, some observedAt⟩]) = samples past := by
  rw [samples, watched_append]
  rfl

theorem quiet_of_accounts {variants : List DivergenceProbeVariant} {accounts : List EnrichmentOutcome}
    (h : List.Forall₂ (Accounts url) variants accounts) {outcome : EnrichmentOutcome}
    (hmem : outcome ∈ accounts) : outcome.findings = [] := by
  induction h with
  | nil => cases hmem
  | cons head _ ih =>
      rcases List.mem_cons.mp hmem with rfl | hmem
      · exact head.quiet
      · exact ih hmem

theorem told_of_inv {session : Session} {past : List ProbeEvent} {s : ProbeState}
    (inv : ProbeInv options world url session past options.probeVariants.length s)
    (observedAt : Text) :
    ProbeTold options world base url (past ++ [⟨.now, some observedAt⟩])
      (report (s.outcomes ++ [divergenceOutcome base.input observedAt s.successfulSummaries]))
      s.outcomes s.successfulSummaries where
  outcomes := ⟨observedAt, rfl⟩
  accounted := by
    have htold := inv.told
    rwa [List.take_length] at htold
  evidenceOnly outcome hmem := by
    obtain ⟨_, hmem, hsome⟩ := List.mem_map.mp hmem
    cases hsome
    rcases List.mem_append.mp hmem with hmem | hmem
    · exact quiet_of_accounts inv.told hmem
    · rw [List.mem_singleton.mp hmem]
      rfl
  successes := inv.successes
  sampled := by
    rw [samples_now]
    exact inv.sampled
  verdict := verdict _

/-- The postcondition of the enricher. -/
def EnrichPost (options : DivergenceProbeEnricherOptions) (world : ProbeWorld)
    (base : InspectResult) (url : Text) (result : Except Thrown EnrichmentReport)
    (past : List ProbeEvent) : Prop :=
  ∀ made, result = .ok made → ∃ accounts summaries,
    ProbeTold options world base url past made accounts summaries

theorem wp_probeUrl (session : Session) :
    wp (Records (ProbeAllows options world url)) (probeUrl options world base url session)
      (EnrichPost options world base url) [⟨.createSession, some session⟩] := by
  unfold probeUrl
  rw [wp_bind]
  refine wp_mono (wp_probeFrom [] rfl probeInv_start) fun result past hpost => ?_
  obtain error | s := result
  · intro made hmade
    cases hmade
  · have inv := hpost s rfl
    refine wp_recorded (fun _ => ?_) fun (observedAt : Text) => ?_
    · intro hnil
      have hstarted := inv.started
      rw [hnil] at hstarted
      cases hstarted
    · intro made hmade
      cases hmade
      exact ⟨_, _, told_of_inv inv observedAt⟩

theorem wp_enrich (hurl : canonicalHttpUrl world base.input = some url) :
    wp (Records (ProbeAllows options world url)) (enrich options world base)
      (EnrichPost options world base url) [] := by
  unfold enrich
  rw [hurl]
  exact wp_recorded (fun _ => rfl) fun (session : Session) => wp_probeUrl session

theorem calls_probeFrom (session : Session) (hop : Nat) (rest : List DivergenceProbeVariant)
    (s : ProbeState) :
    (probeFrom options world url session hop rest s).CallsAtMost (2 * rest.length) := by
  induction rest generalizing hop s with
  | nil => exact Prog.callsAtMost_ret ..
  | cons variant rest ih =>
      rw [probeFrom, List.length_cons, Nat.mul_succ, Nat.add_comm]
      refine Prog.CallsAtMost.bind ?_ fun result => ?_
      · refine Prog.callsAtMost_call fun authorized => ?_
        obtain error | granted := authorized
        · exact Prog.callsAtMost_call fun _ => Prog.callsAtMost_ret ..
        obtain _ | authorization := granted
        · exact Prog.callsAtMost_call fun _ => Prog.callsAtMost_ret ..
        · refine Prog.callsAtMost_call fun answer => ?_
          obtain error | fetched := answer <;> exact Prog.callsAtMost_ret ..
      · obtain error | s' := result
        · exact Prog.callsAtMost_ret ..
        · exact ih _ _

theorem calls_probeUrl (session : Session) :
    (probeUrl options world base url session).CallsAtMost (2 * options.probeVariants.length + 1) := by
  refine Prog.CallsAtMost.bind (calls_probeFrom session 1 _ _) fun result => ?_
  obtain error | s := result
  · exact Prog.callsAtMost_ret ..
  · exact Prog.callsAtMost_call fun _ => Prog.callsAtMost_ret ..

theorem calls_enrich (hurl : canonicalHttpUrl world base.input = some url) :
    (enrich options world base).CallsAtMost (2 * options.probeVariants.length + 2) := by
  unfold enrich
  rw [hurl]
  exact Prog.callsAtMost_call calls_probeUrl

end

/-! ### Calls of a run -/

/-- The requests for authorization of the first `n` variants. -/
def requestsFor (options : DivergenceProbeEnricherOptions) (url : Text) (n : Nat) :
    List DivergenceProbeAuthorizationRequest :=
  ((options.probeVariants.take n).zipIdx 1).map fun entry => requestFor options url entry.2 entry.1

/-- What the calls of a run are, whether or not it has finished. -/
structure ProbeCalls (options : DivergenceProbeEnricherOptions) (world : ProbeWorld) (url : Text)
    (trace : List ProbeEvent) : Prop where
  bounded : trace.length ≤ 2 * options.probeVariants.length + 2
  inOrder : asked trace = requestsFor options url (asked trace).length
  oneSession : ∀ before session request answer after,
    trace = before ++ ⟨.fetch session request, answer⟩ :: after →
      trace.head? = some ⟨.createSession, some session⟩
  granted : ∀ before session request answer after,
    trace = before ++ ⟨.fetch session request, answer⟩ :: after →
      Granted options world url before request
  created : ∀ before answer after,
    trace = before ++ ⟨.createSession, answer⟩ :: after → before = []

section
variable {options : DivergenceProbeEnricherOptions} {world : ProbeWorld} {url : Text}

theorem asked_of_allows {trace : List ProbeEvent}
    (h : ∀ before e after, trace = before ++ e :: after → ProbeAllows options world url before e) :
    asked trace = requestsFor options url (asked trace).length := by
  induction trace using List.reverseRecOn with
  | nil => rfl
  | append_singleton trace e ih =>
      have hpast := ih fun before e' after htrace =>
        h before e' (after ++ [e]) (by rw [htrace, List.append_assoc, List.cons_append])
      have hallows := h trace e [] rfl
      obtain ⟨op, answer⟩ := e
      cases op with
      | authorize request =>
          obtain ⟨variant, hvariant, rfl⟩ := hallows
          have hsplit : asked (trace ++ [⟨.authorize (requestFor options url
              ((asked trace).length + 1) variant), answer⟩])
              = asked trace ++ [requestFor options url ((asked trace).length + 1) variant] :=
            asked_append ..
          have hlength : (options.probeVariants.take (asked trace).length).length
              = (asked trace).length := by
            rw [List.length_take, Nat.min_eq_left]
            exact (List.getElem?_eq_some_iff.mp hvariant).1.le
          rw [hsplit, List.length_append, List.length_singleton, requestsFor,
            take_succ_of_getElem? hvariant, List.zipIdx_append, List.map_append, hlength]
          nth_rewrite 1 [hpast]
          rw [requestsFor, List.zipIdx_singleton, List.map_singleton, Nat.add_comm 1]
      | createSession =>
          have hsame : asked (trace ++ [⟨.createSession, answer⟩]) = asked trace := by
            simp [asked, askedOf]
          rw [hsame]
          exact hpast
      | now =>
          have hsame : asked (trace ++ [⟨.now, answer⟩]) = asked trace := by
            simp [asked, askedOf]
          rw [hsame]
          exact hpast
      | fetch session request =>
          have hsame : asked (trace ++ [⟨.fetch session request, answer⟩]) = asked trace := by
            simp [asked, askedOf]
          rw [hsame]
          exact hpast

end

def probePage : Text := text "http://a.example/"

/-- A world of one page. -/
def pageWorld : ProbeWorld where
  urls :=
    { parse := fun raw => if raw = probePage then
        some ⟨text "http:", [], [], text "a.example", [], text "/", [], []⟩ else none
      resolve := fun _ _ => none
      href := fun _ => probePage }
  platform := .ascii
  bodies := .silent
  decodeUtf8 _ := []

def pageInspection : InspectResult :=
  inspectedResult .ascii .silent probePage [] (ReadableOptions.empty .ascii).runtime
    (ReadableOptions.empty .ascii).late

def pageResponse : SafeFetchResponse := ⟨probePage, .ofNat 200, [], [], 0, 0⟩

def pageOutcome : SafeFetchOutcome where
  subject := urlSubject probePage
  observedAt := []
  evidence := { subject := urlSubject probePage, observedAt := [], hop := 1 }
  result := .success pageResponse

def pageGrant : DestinationFetchAuthorization := ⟨text "destination-fetch", probePage⟩

def pageVariant (label : String) : DivergenceProbeVariant := { label := text label, headers := [] }

/-- One variant is fetched, the next one refused. -/
def pageOptions : DivergenceProbeEnricherOptions where
  variants := some [pageVariant "first", pageVariant "second"]

/-- The events of a refused variant. -/
def refusedEvents (request : DivergenceProbeAuthorizationRequest) : List ProbeEvent :=
  [⟨.authorize request, some (.ok none)⟩, ⟨.now, some []⟩]

def pageTurns : List ProbeEvent :=
  turnEvents pageOptions pageWorld probePage 0 0 (pageVariant "first") pageGrant pageOutcome
    ++ (refusedEvents (requestFor pageOptions probePage 2 (pageVariant "second")) ++ [])

def pageTrace : List ProbeEvent :=
  ⟨.createSession, some (0 : Session)⟩ :: (pageTurns ++ [⟨.now, some []⟩])

theorem runs_turn (s : ProbeState) :
    Runs (probeVariant pageOptions pageWorld probePage 0 1 (pageVariant "first") s)
      (turnEvents pageOptions pageWorld probePage 0 0 (pageVariant "first") pageGrant pageOutcome)
      (some (s.arrived pageOptions pageWorld probePage (pageVariant "first") pageOutcome)) := by
  unfold probeVariant
  refine .answered (.answered ?_)
  exact .ret

theorem runs_refused (s : ProbeState) :
    Runs (probeVariant pageOptions pageWorld probePage 0 2 (pageVariant "second") s)
      (refusedEvents (requestFor pageOptions probePage 2 (pageVariant "second")))
      (some (.ok (s.push (authorizationDeniedOutcome probePage [] 2 (pageVariant "second"))))) := by
  unfold probeVariant
  refine .answered (.answered ?_)
  exact .ret

theorem page_arrived (s : ProbeState) : ∃ s',
    s.arrived pageOptions pageWorld probePage (pageVariant "first") pageOutcome = .ok s' := by
  have hlocation : locationRegistrableDomain pageOptions pageWorld pageResponse probePage = .ok none :=
    rfl
  obtain ⟨summary, hsummary⟩ : ∃ summary, summarize pageOptions pageWorld (pageVariant "first").label
      (variantReferer pageWorld probePage (pageVariant "first")) pageResponse probePage
      = .ok summary := by
    unfold summarize
    simp only [hlocation, ite_self]
    exact ⟨_, rfl⟩
  refine ⟨s.summarized probePage [] summary, ?_⟩
  have harrived : s.arrived pageOptions pageWorld probePage (pageVariant "first") pageOutcome
      = (summarize pageOptions pageWorld (pageVariant "first").label
          (variantReferer pageWorld probePage (pageVariant "first")) pageResponse probePage).map
        (s.summarized probePage []) := rfl
  rw [harrived, hsummary]
  rfl

theorem pageRun : ∃ made,
    Runs (enrich pageOptions pageWorld pageInspection) pageTrace (some (.ok made)) := by
  obtain ⟨s, hfirst⟩ := page_arrived ⟨[], []⟩
  obtain ⟨s', hs'⟩ : ∃ s', s' = s.push (authorizationDeniedOutcome probePage [] 2
      (pageVariant "second")) := ⟨_, rfl⟩
  have hturn := runs_turn ⟨[], []⟩
  have hrefused := runs_refused s
  rw [hfirst] at hturn
  rw [← hs'] at hrefused
  have hend : Runs (probeFrom pageOptions pageWorld probePage 0 3 [] s') [] (some (.ok s')) := .ret
  have hloop : Runs (probeFrom pageOptions pageWorld probePage 0 1 pageOptions.probeVariants
      ⟨[], []⟩) pageTurns (some (.ok s')) := hturn.bind (hrefused.bind hend)
  have hprobe : Runs (probeUrl pageOptions pageWorld pageInspection probePage 0)
      (pageTurns ++ [⟨.now, some []⟩])
      (some (.ok (report (s'.outcomes ++ [divergenceOutcome probePage [] s'.successfulSummaries])))) := by
    refine hloop.bind (.answered ?_)
    exact .ret
  have henrich : enrich pageOptions pageWorld pageInspection = createSession >>= fun session =>
      probeUrl pageOptions pageWorld pageInspection probePage session := rfl
  rw [henrich]
  exact ⟨_, .answered hprobe⟩

end DivergenceProbe

end Linklint
