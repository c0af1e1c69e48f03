import Linklint.Inspect.Reasons
import Linklint.Resolution.ChainWalk
import Mathlib.Data.List.Induction

/-!
# The contract of the redirect-chain enricher

For every input, transport and authorizer: the walk is bounded, fetches no URL
twice and none without its own authorization, and the report says of every hop
what was fetched there.
-/

namespace Linklint

namespace RedirectChain

open Interaction

/-! ### Bounded walks -/

section
variable {world : ChainWorld} {options : RedirectChainEnricherOptions}

theorem calls_stopAt (s : WalkState) (status : StopStatus) (code : String)
    (details : List (Text × Value)) (n : Nat) : (stopAt s status code details).CallsAtMost (n + 1) :=
  Prog.callsAtMost_call fun _ => Prog.callsAtMost_ret ..

theorem calls_stopTransition (hops : List ChainHop) (s : WalkState) (status : StopStatus)
    (code : Text) (details : Option Value) (targetUrl : Option Text) (n : Nat) :
    (stopTransition options world hops s status code details targetUrl).CallsAtMost (n + 1) := by
  unfold stopTransition
  split
  · exact Prog.callsAtMost_ret ..
  · exact Prog.callsAtMost_call fun _ => Prog.callsAtMost_ret ..

/-- Three calls for every hop that is left, and two for the stop. -/
theorem calls_walk (s : WalkState) :
    (walk options world s).CallsAtMost (3 * (options.hopLimit - s.hops.length) + 2) := by
  induction hfuel : options.hopLimit - s.hops.length using Nat.strong_induction_on generalizing s with
  | _ fuel ih =>
      rw [walk]
      refine Prog.callsAtMost_call fun (aborted : Bool) => ?_
      change (if aborted = true then _ else _ : ChainProg _).CallsAtMost (3 * fuel + 1)
      split
      · exact calls_stopAt _ _ _ _ _
      split
      · exact calls_stopAt _ _ _ _ _
      split
      · exact calls_stopAt _ _ _ _ _
      rename_i hlimit
      obtain ⟨left, hleft⟩ : ∃ left, fuel = left + 1 := ⟨fuel - 1, by omega⟩
      rw [hleft]
      refine Prog.callsAtMost_call fun authorized => ?_
      obtain error | granted := authorized
      · exact calls_stopAt _ _ _ _ _
      obtain _ | authorization := granted
      · exact calls_stopAt _ _ _ _ _
      · refine Prog.callsAtMost_call fun answer => ?_
        cases answer with
          | error e => exact Prog.callsAtMost_ret ..
          | ok outcome =>
              obtain ⟨subject, observedAt, evidence, result⟩ := outcome
              dsimp only [Prog.bind]
              cases result with
              | blocked cause => exact Prog.callsAtMost_ret ..
              | incomplete cause => exact Prog.callsAtMost_ret ..
              | success response =>
                  dsimp only
                  split
                  · exact Prog.callsAtMost_ret ..
                  · exact calls_stopTransition _ _ _ _ _ _ _
                  · split
                    · exact Prog.callsAtMost_ret ..
                    · refine ih left (by omega) _ ?_
                      rw [WalkState.advance, List.length_append, List.length_singleton]
                      omega

theorem calls_enrich {base : InspectResult} {initial : Text}
    (hinitial : canonicalHttpUrl world base.input = some initial) :
    (enrich world options base).CallsAtMost (3 * options.hopLimit + 2) := by
  have hwalk : (walkFrom world options initial).CallsAtMost (3 * options.hopLimit + 2) := by
    unfold walkFrom
    split
    · exact Prog.callsAtMost_ret ..
    · exact calls_walk (startWalk initial _)
  unfold enrich
  rw [hinitial]
  exact hwalk.bind fun _ => Prog.callsAtMost_ret 0 _

/-! ### Calls of a run -/

/-- Fetches that were allowed one by one are of different URLs, and within the limit. -/
theorem fetches_of_allows {trace : List ChainEvent}
    (h : ∀ before e after, trace = before ++ e :: after → ChainAllows options before e) :
    (fetchedUrls trace).Nodup ∧ (fetched trace).length ≤ options.hopLimit := by
  induction trace using List.reverseRecOn with
  | nil => exact ⟨List.nodup_nil, Nat.zero_le _⟩
  | append_singleton trace e ih =>
      obtain ⟨hnodup, hcount⟩ := ih fun before e' after htrace =>
        h before e' (after ++ [e]) (by rw [htrace, List.append_assoc, List.cons_append])
      have hallows := h trace e [] rfl
      obtain ⟨op, answer⟩ := e
      cases op with
      | fetch request =>
          obtain ⟨-, hnew, hlimit⟩ := hallows
          refine ⟨?_, ?_⟩
          · rw [fetchedUrls_append]
            refine List.nodup_append.mpr ⟨hnodup, List.nodup_singleton _, ?_⟩
            intro url hurl other hother heq
            rw [heq, List.mem_singleton.mp hother] at hurl
            exact hnew hurl
          · rw [fetched_append, List.length_append]
            exact hlimit
      | aborted =>
          rw [fetchedUrls_quiet trace rfl, fetched_quiet trace rfl]
          exact ⟨hnodup, hcount⟩
      | now =>
          rw [fetchedUrls_quiet trace rfl, fetched_quiet trace rfl]
          exact ⟨hnodup, hcount⟩
      | authorize request =>
          rw [fetchedUrls_quiet trace rfl, fetched_quiet trace rfl]
          exact ⟨hnodup, hcount⟩

theorem walkInv_start {initial : Text} {offline : InspectResult}
    (h : inspectTarget options world initial = .ok offline) :
    WalkInv world options initial [] (startWalk initial offline) where
  linked :=
    { numbers := rfl
      first := fun _ h => by cases h
      links := fun _ _ _ h => by cases h
      targets := fun _ h => by cases h
      inspected := fun _ h => by cases h }
  current _ h := by cases h
  start _ := rfl
  inspected := h
  seen _ := by simp [startWalk, fetchedUrls, fetched]
  count := rfl
  successes := rfl
  hopUrls := rfl

/-- A report is made of a walk that is done. -/
theorem wp_enrich {base : InspectResult} {initial : Text}
    (hinitial : canonicalHttpUrl world base.input = some initial) :
    wp (Records (ChainAllows options)) (enrich world options base)
      (fun result past => ∀ made, result = .ok made → ∃ walked,
        WalkDone world options initial past walked ∧
          made = report (chainOutcomes world base walked)) [] := by
  unfold enrich
  rw [hinitial, wp_bind]
  have hwalk : wp (Records (ChainAllows options)) (walkFrom world options initial)
      (WalkPost world options initial) [] := by
    unfold walkFrom
    split
    · intro walked hwalked
      cases hwalked
    · rename_i offline hoffline
      exact wp_walk (walkInv_start hoffline)
  refine wp_mono hwalk fun result past hdone made hmade => ?_
  cases result with
  | error e => cases hmade
  | ok walked =>
      cases hmade
      exact ⟨walked, hdone walked rfl, rfl⟩

/-! ### Findings of a hop -/

theorem emittedReasons_not_excluded {excluded emitted : List ReasonCode} {reasons : List Reason}
    {reason : Reason} (h : reason ∈ emittedReasons excluded emitted reasons) :
    reason ∈ reasons ∧ reason.code ∉ excluded := by
  induction reasons generalizing emitted with
  | nil => cases h
  | cons head rest ih =>
      unfold emittedReasons at h
      split at h
      · exact ⟨List.mem_cons_of_mem _ (ih h).1, (ih h).2⟩
      · rename_i hkept
        rcases List.mem_cons.mp h with rfl | hmem
        · simp only [Bool.or_eq_true, not_or] at hkept
          exact ⟨List.mem_cons_self .., by simpa using hkept.1.2⟩
        · exact ⟨List.mem_cons_of_mem _ (ih hmem).1, (ih hmem).2⟩

theorem mem_lexicalFindings {base : InspectResult} {hops : List ChainHop} {hop : ChainHop}
    {finding : EnricherFinding} (h : finding ∈ lexicalFindings base hops hop) :
    (∃ worst, worstHop hops = some worst ∧ worst.hop = hop.hop) ∧
      finding.code ∉ baseCodes base ∧ ∃ reason ∈ hop.offline.reasons, reason.code = finding.code := by
  unfold lexicalFindings at h
  split at h
  · rename_i hworst
    obtain ⟨worst, hsome, heq⟩ := (Option.any_eq_true _ _).mp hworst
    obtain ⟨reason, hreason, rfl⟩ := List.mem_map.mp h
    obtain ⟨hmem, hnew⟩ := emittedReasons_not_excluded hreason
    exact ⟨⟨worst, hsome, by simpa using heq⟩, hnew, reason, hmem, rfl⟩
  · cases h

theorem correlation_code {base : InspectResult} {hops : List ChainHop}
    {correlated : OpenRedirectCorrelation} (h : correlateOpenRedirect world base hops = some correlated) :
    correlated.finding.code = .openRedirectObserved := by
  unfold correlateOpenRedirect at h
  split at h
  · cases h
  · simp only [] at h
    split at h
    · cases h
    · obtain ⟨hop, -, hhop⟩ := List.exists_of_findSome?_eq_some h
      obtain ⟨observed, -, hobserved⟩ := Option.bind_eq_some_iff.mp hhop
      simp only [] at hobserved
      split at hobserved
      · cases hobserved
      · obtain ⟨param, -, hparam⟩ := Option.bind_eq_some_iff.mp hobserved
        cases hparam
        rfl

theorem mime_code {hop : ChainHop} {finding : EnricherFinding}
    (h : (mimeEvidenceFor world hop).finding = some finding) : finding.code = .contentTypeMismatch := by
  unfold mimeEvidenceFor at h
  simp only [] at h
  split at h
  · cases h
  · simp only [] at h
    split at h
    · cases h
      rfl
    · cases h

/-- The recorded transition goes from https to http. -/
def GoesPlaintext (world : ChainWorld) (hop : ChainHop) : Prop :=
  ∃ transition, hop.transition = some transition ∧
    schemeOf world hop.url = some (text "https:") ∧
    schemeOf world transition.targetUrl = some (text "http:")

theorem downgrade_finding_iff {hop : ChainHop} :
    (∃ finding, (httpsDowngradeFor world hop).bind (fun downgrade => downgrade.finding) = some finding)
      ↔ GoesPlaintext world hop := by
  unfold httpsDowngradeFor GoesPlaintext
  cases hop.transition with
  | none => simp
  | some transition =>
      by_cases h : isDowngrade world hop transition = true
      · have hschemes := h
        simp only [isDowngrade, Bool.and_eq_true, beq_iff_eq] at hschemes
        simp [Option.filter, h, hschemes.1, hschemes.2]
      · have hschemes := h
        simp only [isDowngrade, Bool.and_eq_true, beq_iff_eq] at hschemes
        simpa [Option.filter, h] using hschemes

theorem downgrade_code {hop : ChainHop} {finding : EnricherFinding}
    (h : (httpsDowngradeFor world hop).bind (fun downgrade => downgrade.finding) = some finding) :
    finding.code = .httpsDowngradeObserved := by
  obtain ⟨downgrade, hdowngrade, hfinding⟩ := Option.bind_eq_some_iff.mp h
  obtain ⟨transition, -, rfl⟩ := Option.map_eq_some_iff.mp hdowngrade
  cases hfinding
  rfl

/-- The findings of a hop outcome: the lexical ones, then what was observed at the hop. -/
theorem mem_reportHop_findings {base : InspectResult} {hops : List ChainHop} {hop : ChainHop}
    {finding : EnricherFinding} (h : some finding ∈ (reportHop world base hops hop).findings) :
    finding ∈ lexicalFindings base hops hop ∨ finding.code = .openRedirectObserved ∨
      finding.code = .contentTypeMismatch ∨
      (httpsDowngradeFor world hop).bind (fun downgrade => downgrade.finding) = some finding := by
  obtain ⟨_, hmem, heq⟩ := List.mem_map.mp h
  cases heq
  rcases List.mem_append.mp hmem with hmem | hdowngrade
  · rcases List.mem_append.mp hmem with hmem | hmime
    · rcases List.mem_append.mp hmem with hlexical | hcorrelated
      · exact Or.inl hlexical
      · obtain ⟨correlated, hsome, rfl⟩ := Option.map_eq_some_iff.mp (Option.mem_toList.mp hcorrelated)
        exact Or.inr (Or.inl (correlation_code (Option.filter_eq_some_iff.mp hsome).1))
    · exact Or.inr (Or.inr (Or.inl (mime_code (Option.mem_toList.mp hmime))))
  · exact Or.inr (Or.inr (Or.inr (Option.mem_toList.mp hdowngrade)))

theorem downgrade_iff (hemits : world.bodies.EmitsDeclared) (haxes : world.bodies.AxesEmitDeclared)
    {initial : Text} {base : InspectResult} {hops : List ChainHop}
    (linked : ChainLinked world options initial hops) {hop : ChainHop} (hmem : hop ∈ hops) :
    (∃ finding, some finding ∈ (reportHop world base hops hop).findings ∧
      finding.code = .httpsDowngradeObserved) ↔ GoesPlaintext world hop := by
  rw [← downgrade_finding_iff]
  constructor
  · rintro ⟨finding, hfinding, hcode⟩
    rcases mem_reportHop_findings hfinding with hlexical | hother | hother | hdowngrade
    · obtain ⟨-, -, reason, hreason, hsame⟩ := mem_lexicalFindings hlexical
      have hlayer := (built_of_inspect (linked.inspected hop hmem)).layers hemits haxes reason hreason
      rw [hsame, hcode] at hlayer
      rcases hlayer with hlayer | hlayer <;> cases hlayer
    · rw [hcode] at hother
      cases hother
    · rw [hcode] at hother
      cases hother
    · exact ⟨finding, hdowngrade⟩
  · rintro ⟨finding, hfinding⟩
    refine ⟨finding, List.mem_map.mpr ⟨finding, ?_, rfl⟩, downgrade_code hfinding⟩
    exact List.mem_append_right _ (Option.mem_toList.mpr hfinding)

end

/-! ### The contract -/

/-- What the calls of a run are, whether or not it has finished. -/
structure ChainCalls (options : RedirectChainEnricherOptions) (trace : List ChainEvent) : Prop where
  bounded : trace.length ≤ 3 * options.hopLimit + 2
  distinct : (fetchedUrls trace).Nodup
  limited : (fetched trace).length ≤ options.hopLimit
  granted : ∀ before request answer after,
    trace = before ++ ⟨.fetch request, answer⟩ :: after → Granted before request
  numbered : ∀ before request answer after,
    trace = before ++ ⟨.authorize request, answer⟩ :: after →
      request.hop = (fetched before).length + 1

/-- What the report of a run says of the fetched hops. -/
structure ChainTold (world : ChainWorld) (options : RedirectChainEnricherOptions)
    (base : InspectResult) (initial : Text) (trace : List ChainEvent) (made : EnrichmentReport)
    (hops : List ChainHop) (stops : List EnrichmentOutcome) : Prop where
  outcomes : made.outcomes = (hops.map (reportHop world base hops) ++ stops).map some
  nonempty : made.outcomes ≠ []
  fetched : successes trace = hops.map fun hop => (hop.url, hop.response)
  linked : ChainLinked world options initial hops
  succeeded : ∀ hop ∈ hops, (reportHop world base hops hop).status = .success ∧
    (reportHop world base hops hop).subject = urlSubject hop.url
  oneStop : stops.length ≤ 1
  stopped : ∀ outcome ∈ stops, outcome.status.isCompleted = false
  lexicalOnce : ∀ a ∈ hops, ∀ b ∈ hops, lexicalFindings base hops a ≠ [] →
    lexicalFindings base hops b ≠ [] → a = b
  lexicalNew : ∀ hop ∈ hops, ∀ finding ∈ lexicalFindings base hops hop,
    finding.code ∉ baseCodes base
  otherwise : ∀ hop ∈ hops, ∀ finding, some finding ∈ (reportHop world base hops hop).findings →
    finding ∈ lexicalFindings base hops hop ∨
      finding.code ∈ [.openRedirectObserved, .contentTypeMismatch, .httpsDowngradeObserved]
  downgrade : ∀ hop ∈ hops, (∃ finding, some finding ∈ (reportHop world base hops hop).findings ∧
    finding.code = .httpsDowngradeObserved) ↔ GoesPlaintext world hop

theorem chain_unique {world : ChainWorld} {options : RedirectChainEnricherOptions} {initial : Text}
    {hops : List ChainHop} (linked : ChainLinked world options initial hops) {a b : ChainHop}
    (ha : a ∈ hops) (hb : b ∈ hops) (h : a.hop = b.hop) : a = b := by
  have hnodup : (hops.map fun hop => hop.hop).Nodup := by
    rw [linked.numbers]
    exact List.nodup_range'
  exact List.inj_on_of_nodup_map hnodup ha hb h

theorem told_of_done {world : ChainWorld} {options : RedirectChainEnricherOptions} {initial : Text}
    (hemits : world.bodies.EmitsDeclared) (haxes : world.bodies.AxesEmitDeclared)
    (base : InspectResult) {trace : List ChainEvent} {walked : WalkEnd}
    (done : WalkDone world options initial trace walked) :
    ChainTold world options base initial trace (report (chainOutcomes world base walked))
      walked.hops walked.stops where
  outcomes := rfl
  nonempty h := by
    have hnil := List.append_eq_nil_iff.mp (List.map_eq_nil_iff.mp h)
    rcases done.nonempty with hhops | hstops
    · exact hhops (List.map_eq_nil_iff.mp hnil.1)
    · exact hstops hnil.2
  fetched := done.successes
  linked := done.linked
  succeeded _ _ := ⟨rfl, rfl⟩
  oneStop := done.stops
  stopped := done.stopped
  lexicalOnce a ha b hb hna hnb := by
    obtain ⟨f, hf⟩ := List.exists_mem_of_ne_nil _ hna
    obtain ⟨g, hg⟩ := List.exists_mem_of_ne_nil _ hnb
    obtain ⟨⟨worst, hworst, hsame⟩, -⟩ := mem_lexicalFindings hf
    obtain ⟨⟨other, hother, hsame'⟩, -⟩ := mem_lexicalFindings hg
    rw [hworst] at hother
    cases hother
    exact chain_unique done.linked ha hb (hsame.symm.trans hsame')
  lexicalNew hop _ finding hfinding := (mem_lexicalFindings hfinding).2.1
  otherwise hop _ finding hfinding := by
    rcases mem_reportHop_findings hfinding with hlexical | hother | hother | hdowngrade
    · exact Or.inl hlexical
    · exact Or.inr (by simp [hother])
    · exact Or.inr (by simp [hother])
    · exact Or.inr (by simp [downgrade_code hdowngrade])
  downgrade hop hmem := downgrade_iff hemits haxes done.linked hmem

def homePage : Text := text "http://a.example/"

/-- A world of one page. -/
def oneWorld : ChainWorld where
  urls :=
    { parse := fun raw => if raw = homePage then
        some ⟨text "http:", [], [], text "a.example", [], text "/", [], []⟩ else none
      resolve := fun _ _ => none
      href := fun _ => homePage }
  platform := .ascii
  decodeText _ _ := []
  firstMetaRefreshContent _ := none
  bodies := .silent
  sniffMimeType _ _ := ⟨none, text "text/plain", text "text-plain"⟩
  openRedirectParamTargets _ _ := []

def homeInspection : InspectResult :=
  inspectedResult .ascii .silent homePage [] (ReadableOptions.empty .ascii).runtime
    (ReadableOptions.empty .ascii).late

def homeOutcome : SafeFetchOutcome where
  subject := urlSubject homePage
  observedAt := []
  evidence := { subject := urlSubject homePage, observedAt := [], hop := 1 }
  result := .success ⟨homePage, .ofNat 200, [], [], 0, 0⟩

def homeGrant : DestinationFetchAuthorization := ⟨text "destination-fetch", homePage⟩

def homeState : WalkState := startWalk homePage homeInspection

def homeTrace : List ChainEvent :=
  [⟨.aborted, some false⟩, ⟨.authorize (homeState.request {}), some (.ok (some homeGrant))⟩,
    ⟨.fetch ⟨homePage, homeGrant, .get, none⟩, some (.ok homeOutcome)⟩]

theorem homeRun : ∃ made, Runs (enrich oneWorld {} homeInspection) homeTrace (some (.ok made)) := by
  have hinspect : inspectTarget {} oneWorld homePage = .ok homeInspection := rfl
  have hwalk : Runs (walk {} oneWorld homeState) homeTrace
      (some (.ok ⟨[homeState.hop {} homeOutcome ⟨homePage, .ofNat 200, [], [], 0, 0⟩ none], []⟩)) := by
    rw [walk]
    refine .answered (.answered (.answered ?_))
    exact .ret
  have hfrom : walkFrom oneWorld {} homePage = walk {} oneWorld homeState := by
    rw [walkFrom, hinspect, homeState]
  have hinitial : canonicalHttpUrl oneWorld homeInspection.input = some homePage := rfl
  have hrun := hwalk.bind (f := fun walked => pure (walked.map fun walked =>
    report (chainOutcomes oneWorld homeInspection walked))) .ret
  have henrich : enrich oneWorld {} homeInspection = walk {} oneWorld homeState >>= fun walked =>
      pure (walked.map fun walked => report (chainOutcomes oneWorld homeInspection walked)) := by
    rw [enrich, hinitial, ← hfrom]
  exact ⟨_, henrich ▸ hrun⟩

end RedirectChain

end Linklint
