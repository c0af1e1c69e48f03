import Linklint.Resolution.ChainReport

/-!
# Runs of the redirect-chain enricher

What is fetched, in which order and under whose authorization, and how the
fetched hops are linked. The invariant of the loop ties the variables of the walk
to the calls made so far.
-/

namespace Linklint

namespace RedirectChain

open Interaction

/-! ### Reading a trace -/

def fetchOf (e : ChainEvent) : Option FetchRequest :=
  match e.op with
  | .fetch request => some request
  | _ => none

/-- The requests of a trace, in order. -/
def fetched (trace : List ChainEvent) : List FetchRequest := trace.filterMap fetchOf

/-- The URL and the response of a fetch that succeeded. -/
def successOf (e : ChainEvent) : Option (Text × SafeFetchResponse) :=
  match e with
  | ⟨.fetch request, some (.ok ⟨_, _, _, .success response⟩)⟩ => some (request.url, response)
  | _ => none

def successes (trace : List ChainEvent) : List (Text × SafeFetchResponse) :=
  trace.filterMap successOf

def fetchedUrls (trace : List ChainEvent) : List Text :=
  (fetched trace).map fun request => request.url

@[simp] theorem fetched_append (a b : List ChainEvent) : fetched (a ++ b) = fetched a ++ fetched b :=
  List.filterMap_append

@[simp] theorem successes_append (a b : List ChainEvent) :
    successes (a ++ b) = successes a ++ successes b := List.filterMap_append

@[simp] theorem fetchedUrls_append (a b : List ChainEvent) :
    fetchedUrls (a ++ b) = fetchedUrls a ++ fetchedUrls b := by
  simp [fetchedUrls]

theorem fetched_quiet (past : List ChainEvent) {e : ChainEvent} (h : fetchOf e = none) :
    fetched (past ++ [e]) = fetched past := by
  simp [fetched, h]

theorem fetchedUrls_quiet (past : List ChainEvent) {e : ChainEvent} (h : fetchOf e = none) :
    fetchedUrls (past ++ [e]) = fetchedUrls past := by
  rw [fetchedUrls, fetched_quiet past h, fetchedUrls]

section
variable (options : RedirectChainEnricherOptions)

/-- A call for authorization was the last one, and it was granted. -/
def Granted (past : List ChainEvent) (request : FetchRequest) : Prop :=
  ∃ before authorized, past = before ++
      [⟨.authorize authorized, some (.ok (some request.authorization))⟩] ∧
    authorized.url = request.url ∧ authorized.method = request.method ∧
    authorized.hop = (fetched past).length + 1

/-- What the walk may call, given the calls so far. -/
def ChainAllows (past : List ChainEvent) (e : ChainEvent) : Prop :=
  match e.op with
  | .aborted => True
  | .now => True
  | .authorize request => request.hop = (fetched past).length + 1
  | .fetch request => Granted past request ∧ request.url ∉ fetchedUrls past ∧
      (fetched past).length < options.hopLimit

end

section
variable (world : ChainWorld)

/-- The text of an absolute http(s) URL without a fragment, within the length bound. -/
def IsChainUrl (href : Text) : Prop :=
  ∃ url : Url, href = world.urls.href url ∧ isHttp url.protocol = true ∧ url.hash = [] ∧
    href.length ≤ MAX_CHAIN_URL_LENGTH

variable (options : RedirectChainEnricherOptions) (initial : Text)

/-- The fetched hops of a walk, numbered and linked by their transitions. -/
structure ChainLinked (hops : List ChainHop) : Prop where
  numbers : hops.map (fun hop => hop.hop) = List.range' 1 hops.length
  first : ∀ hop, hops[0]? = some hop → hop.url = initial
  links : ∀ i hop next, hops[i]? = some hop → hops[i + 1]? = some next →
    ∃ transition, hop.transition = some transition ∧ transition.targetUrl = next.url
  targets : ∀ hop ∈ hops, ∀ transition, hop.transition = some transition →
    IsChainUrl world transition.targetUrl
  inspected : ∀ hop ∈ hops, inspectTarget options world hop.url = .ok hop.offline

/-- The variables of the loop, after the calls of `past`. -/
structure WalkInv (past : List ChainEvent) (s : WalkState) : Prop where
  linked : ChainLinked world options initial s.hops
  current : ∀ hop, s.hops.getLast? = some hop →
    ∃ transition, hop.transition = some transition ∧ transition.targetUrl = s.currentUrl
  start : s.hops = [] → s.currentUrl = initial
  inspected : inspectTarget options world s.currentUrl = .ok s.currentOffline
  seen : ∀ url, url ∈ s.seen ↔ url ∈ fetchedUrls past
  count : (fetched past).length = s.hops.length
  successes : successes past = s.hops.map fun hop => (hop.url, hop.response)
  hopUrls : fetchedUrls past = s.hops.map fun hop => hop.url

/-- What a finished walk leaves. -/
structure WalkDone (past : List ChainEvent) (walked : WalkEnd) : Prop where
  linked : ChainLinked world options initial walked.hops
  successes : successes past = walked.hops.map fun hop => (hop.url, hop.response)
  stops : walked.stops.length ≤ 1
  stopped : ∀ outcome ∈ walked.stops, outcome.status.isCompleted = false
  nonempty : walked.hops ≠ [] ∨ walked.stops ≠ []

end

section
variable {world : ChainWorld} {options : RedirectChainEnricherOptions} {initial : Text}

/-! ### One more hop -/

theorem resolveTransition_target {api : ChainApi} {kind : TransitionKind}
    {raw current : Text} {delay : Option Rat} {transition : FollowTransition}
    (h : resolveTransition api kind raw current delay = .follow transition) :
    ∃ url : Url, transition.targetUrl = api.urls.href url ∧ isHttp url.protocol = true ∧
      url.hash = [] ∧ transition.targetUrl.length ≤ MAX_CHAIN_URL_LENGTH := by
  unfold resolveTransition at h
  split at h
  · cases h
  · rename_i resolved _
    simp only [] at h
    split at h
    · cases h
    · rename_i hrefused
      cases h
      obtain ⟨hhttp, hlength⟩ := not_or.mp hrefused
      exact ⟨resolved.withoutHash, rfl, by simpa using hhttp, rfl, Nat.le_of_not_lt hlength⟩

theorem parseRefreshTransition_target {api : ChainApi} {kind : TransitionKind}
    {value current : Text} {maxDelayMs : Rat} {transition : FollowTransition}
    (h : parseRefreshTransition api kind value current maxDelayMs = .follow transition) :
    ∃ url : Url, transition.targetUrl = api.urls.href url ∧ isHttp url.protocol = true ∧
      url.hash = [] ∧ transition.targetUrl.length ≤ MAX_CHAIN_URL_LENGTH := by
  unfold parseRefreshTransition at h
  split at h
  · cases h
  · simp only [] at h
    split at h
    · cases h
    · split at h
      · cases h
      · exact resolveTransition_target h

theorem refreshEligibility_ne_follow {api : ChainApi} {body : Bytes}
    {contentType : Option ContentType} {policy : RefreshPolicy} {transition : FollowTransition}
    (h : refreshEligibility api body contentType policy = some (.follow transition)) : False := by
  unfold refreshEligibility at h
  split at h
  · cases h
  · split at h
    · cases h
    · split at h <;> cases h

/-- Whatever made the chain go on, its target passed the one check of targets. -/
theorem isChainUrl_of_follow {response : SafeFetchResponse} {current : Text}
    {method : TransportMethod} {policy : RefreshPolicy} {transition : FollowTransition}
    (h : transitionFor world.toChainApi response current method policy = .follow transition) :
    IsChainUrl world transition.targetUrl := by
  unfold transitionFor at h
  split at h
  · split at h
    · exact resolveTransition_target h
    · cases h
    · cases h
  · simp only [] at h
    split at h
    · cases h
    · split at h
      · rename_i decision heligible
        subst h
        exact (refreshEligibility_ne_follow heligible).elim
      · exact parseRefreshTransition_target h
    · split at h
      · cases h
      · unfold metaTransition at h
        split at h
        · cases h
        · split at h
          · cases h
          · split at h
            · cases h
            · split at h
              · cases h
              · exact parseRefreshTransition_target h

theorem ChainLinked.snoc {hops : List ChainHop} (linked : ChainLinked world options initial hops)
    {hop : ChainHop} (hnumber : hop.hop = hops.length + 1) (hstart : hops = [] → hop.url = initial)
    (hlink : ∀ last, hops.getLast? = some last →
      ∃ transition, last.transition = some transition ∧ transition.targetUrl = hop.url)
    (htarget : ∀ transition, hop.transition = some transition → IsChainUrl world transition.targetUrl)
    (hinspected : inspectTarget options world hop.url = .ok hop.offline) :
    ChainLinked world options initial (hops ++ [hop]) := by
  refine ⟨?_, ?_, ?_, ?_, ?_⟩
  · rw [List.map_append, linked.numbers, List.length_append, List.range'_append_1.symm]
    simp [hnumber, Nat.add_comm]
  · intro other hother
    cases hops with
    | nil =>
        cases hother
        exact hstart rfl
    | cons a rest => exact linked.first other (by simpa using hother)
  · intro i a b ha hb
    rcases Nat.lt_trichotomy (i + 1) hops.length with hlt | heq | hgt
    · rw [List.getElem?_append_left (by omega)] at ha
      rw [List.getElem?_append_left hlt] at hb
      exact linked.links i a b ha hb
    · rw [List.getElem?_append_left (by omega)] at ha
      rw [List.getElem?_append_right (by omega), heq] at hb
      simp only [Nat.sub_self, List.getElem?_cons_zero, Option.some.injEq] at hb
      subst hb
      refine hlink a ?_
      rw [List.getLast?_eq_getElem?, ← heq]
      exact ha
    · rw [List.getElem?_eq_none (by simpa using by omega)] at hb
      cases hb
  · intro other hother
    rcases List.mem_append.mp hother with hmem | hmem
    · exact linked.targets other hmem
    · rw [List.mem_singleton.mp hmem]
      exact htarget
  · intro other hother
    rcases List.mem_append.mp hother with hmem | hmem
    · exact linked.inspected other hmem
    · rw [List.mem_singleton.mp hmem]
      exact hinspected

/-! ### The loop -/

/-- The postcondition of a walk. -/
def WalkPost (world : ChainWorld) (options : RedirectChainEnricherOptions) (initial : Text)
    (result : Except Thrown WalkEnd) (past : List ChainEvent) : Prop :=
  ∀ walked, result = .ok walked → WalkDone world options initial past walked

variable {past : List ChainEvent} {s : WalkState}

/-- Calls that fetch nothing leave the invariant as it is. -/
theorem walkInv_quiet (inv : WalkInv world options initial past s) {e : ChainEvent}
    (hfetch : fetchOf e = none) (hsuccess : successOf e = none) :
    WalkInv world options initial (past ++ [e]) s := by
  have hfetched := fetched_quiet past hfetch
  have hurls := fetchedUrls_quiet past hfetch
  have hsuccesses : successes (past ++ [e]) = successes past := by
    simp [successes, hsuccess]
  exact { inv with
    seen := by rw [hurls]; exact inv.seen
    count := by rw [hfetched]; exact inv.count
    successes := by rw [hsuccesses]; exact inv.successes
    hopUrls := by rw [hurls]; exact inv.hopUrls }

/-- A walk that stops in front of its current target. -/
theorem walkDone_stop (inv : WalkInv world options initial past s) (url observedAt : Text)
    (status : StopStatus) (code : Text) (retryable : Bool) (details : Option Value)
    (offline : Option InspectResult) (evidence : List EnrichmentEvidence) :
    WalkDone world options initial past ⟨s.hops, [degradationOutcome url observedAt status code
      retryable details offline evidence]⟩ where
  linked := inv.linked
  successes := inv.successes
  stops := by simp
  stopped outcome h := by
    rw [List.mem_singleton.mp h]
    cases status <;> rfl
  nonempty := Or.inr (by simp)

theorem wp_stopAt (inv : WalkInv world options initial past s) (status : StopStatus)
    (code : String) (details : List (Text × Value)) :
    wp (Records (ChainAllows options)) (stopAt s status code details)
      (WalkPost world options initial) past := by
  refine wp_recorded (fun _ => trivial) fun (observedAt : Text) => ?_
  intro walked hwalked
  cases hwalked
  exact walkDone_stop (walkInv_quiet inv rfl rfl) ..

/-- The event of a fetch of the current target that succeeded. -/
def fetchedEvent (options : RedirectChainEnricherOptions) (s : WalkState)
    (authorization : DestinationFetchAuthorization) (outcome : SafeFetchOutcome) : ChainEvent :=
  ⟨.fetch ⟨s.currentUrl, authorization, options.requestMethod, options.headers⟩,
    some (Except.ok outcome)⟩

section
variable {authorization : DestinationFetchAuthorization} {outcome : SafeFetchOutcome}
  {response : SafeFetchResponse} {transition : Option FollowTransition}

theorem hop_linked (inv : WalkInv world options initial past s)
    (htarget : ∀ t, transition = some t → IsChainUrl world t.targetUrl) :
    ChainLinked world options initial (s.hops ++ [s.hop options outcome response transition]) :=
  inv.linked.snoc rfl inv.start inv.current htarget inv.inspected

theorem successes_fetched (inv : WalkInv world options initial past s)
    (hresult : outcome.result = .success response) :
    successes (past ++ [fetchedEvent options s authorization outcome])
      = s.hops.map (fun hop => (hop.url, hop.response)) ++ [(s.currentUrl, response)] := by
  obtain ⟨subject, observedAt, evidence, result⟩ := outcome
  cases hresult
  rw [successes_append, inv.successes]
  rfl

/-- A walk that ends at a fetched hop. -/
theorem walkDone_fetched (inv : WalkInv world options initial past s)
    (hresult : outcome.result = .success response) {stops : List EnrichmentOutcome}
    (hstops : stops.length ≤ 1)
    (hstopped : ∀ outcome ∈ stops, outcome.status.isCompleted = false) :
    WalkDone world options initial (past ++ [fetchedEvent options s authorization outcome])
      ⟨s.hops ++ [s.hop options outcome response none], stops⟩ where
  linked := hop_linked inv fun t ht => by cases ht
  successes := by
    rw [successes_fetched inv hresult, List.map_append]
    rfl
  stops := hstops
  stopped := hstopped
  nonempty := Or.inl (by simp)

/-- A walk that goes on from a fetched hop. -/
theorem walkInv_advance (inv : WalkInv world options initial past s)
    (hresult : outcome.result = .success response) {t : FollowTransition}
    (htarget : IsChainUrl world t.targetUrl) {offline : InspectResult}
    (hinspected : inspectTarget options world t.targetUrl = .ok offline) :
    WalkInv world options initial (past ++ [fetchedEvent options s authorization outcome])
      (s.advance (s.hop options outcome response (some t)) t offline) where
  linked := hop_linked inv fun t' ht' => by
    cases ht'
    exact htarget
  current hop hhop := by
    rw [WalkState.advance, List.getLast?_append_of_ne_nil _ (by simp)] at hhop
    cases hhop
    exact ⟨t, rfl, rfl⟩
  start hnil := by simp [WalkState.advance] at hnil
  inspected := hinspected
  seen url := by
    rw [fetchedUrls_append, List.mem_append, ← inv.seen]
    simp [WalkState.advance, fetchedEvent, fetchedUrls, fetched, fetchOf, or_comm]
  count := by
    rw [fetched_append, List.length_append, inv.count]
    simp [WalkState.advance, fetchedEvent, fetched, fetchOf]
  successes := by
    rw [successes_fetched inv hresult, WalkState.advance, List.map_append]
    rfl
  hopUrls := by
    rw [fetchedUrls_append, inv.hopUrls]
    simp [WalkState.advance, fetchedEvent, fetchedUrls, fetched, fetchOf, WalkState.hop]

theorem successes_unsuccessful (inv : WalkInv world options initial past s)
    (hresult : ∀ response, outcome.result ≠ .success response) :
    successes (past ++ [fetchedEvent options s authorization outcome])
      = s.hops.map fun hop => (hop.url, hop.response) := by
  obtain ⟨subject, observedAt, evidence, result⟩ := outcome
  rw [successes_append, inv.successes]
  cases result with
  | success response => exact absurd rfl (hresult response)
  | blocked cause => simp [successes, fetchedEvent, successOf]
  | incomplete cause => simp [successes, fetchedEvent, successOf]

/-- A walk that ends at a fetch the transport cut short. -/
theorem walkDone_cut (inv : WalkInv world options initial past s)
    (hresult : ∀ response, outcome.result ≠ .success response) (status : StopStatus)
    (cause : TransportCause) :
    WalkDone world options initial (past ++ [fetchedEvent options s authorization outcome])
      (s.cutByTransport outcome status cause) where
  linked := inv.linked
  successes := successes_unsuccessful inv hresult
  stops := by simp [WalkState.cutByTransport]
  stopped other h := by
    rw [List.mem_singleton.mp h]
    cases status <;> rfl
  nonempty := Or.inr (by simp [WalkState.cutByTransport])

theorem wp_stopTransition (inv : WalkInv world options initial past s)
    (hresult : outcome.result = .success response) (status : StopStatus) (code : Text)
    (details : Option Value) (targetUrl : Option Text) :
    wp (Records (ChainAllows options))
      (stopTransition options world (s.hops ++ [s.hop options outcome response none]) s status code
        details targetUrl) (WalkPost world options initial)
      (past ++ [fetchedEvent options s authorization outcome]) := by
  unfold stopTransition
  split
  · intro walked hwalked
    cases hwalked
  · refine wp_recorded (fun _ => trivial) fun (observedAt : Text) => ?_
    intro walked hwalked
    cases hwalked
    refine ⟨hop_linked inv (fun t ht => by cases ht), ?_, by simp, ?_, Or.inl (by simp)⟩
    · rw [successes_append, successes_fetched inv hresult, List.map_append]
      simp [successes, successOf, WalkState.hop]
    · intro other h
      rw [List.mem_singleton.mp h]
      cases status <;> rfl

end

/-- What the walk does with the outcome of a fetch. -/
theorem wp_arrived {authorization : DestinationFetchAuthorization} {outcome : SafeFetchOutcome}
    (inv : WalkInv world options initial past s)
    (ih : ∀ {t : FollowTransition} {offline : InspectResult} {hop : ChainHop} {past : List ChainEvent},
      WalkInv world options initial past (s.advance hop t offline) →
      wp (Records (ChainAllows options)) (walk options world (s.advance hop t offline))
        (WalkPost world options initial) past) :
    wp (Records (ChainAllows options)) (match outcome.result with
      | .blocked cause => return .ok (s.cutByTransport outcome .skipped cause)
      | .incomplete cause => return .ok (s.cutByTransport outcome .failure cause)
      | .success response =>
          match transitionFor world.toChainApi response s.currentUrl options.requestMethod
              options.refreshPolicy with
          | .terminal => return .ok ⟨s.hops ++ [s.hop options outcome response none], []⟩
          | .stop status code details targetUrl =>
              stopTransition options world (s.hops ++ [s.hop options outcome response none]) s
                status code details targetUrl
          | .follow transition =>
              match inspectTarget options world transition.targetUrl with
              | .error e => return .error e
              | .ok offline =>
                  walk options world (s.advance (s.hop options outcome response (some transition))
                    transition offline)) (WalkPost world options initial)
      (past ++ [fetchedEvent options s authorization outcome]) := by
  cases hresult : outcome.result with
  | blocked cause =>
      intro walked hwalked
      cases hwalked
      exact walkDone_cut inv (by simp [hresult]) ..
  | incomplete cause =>
      intro walked hwalked
      cases hwalked
      exact walkDone_cut inv (by simp [hresult]) ..
  | success response =>
      simp only []
      cases hdecision : transitionFor world.toChainApi response s.currentUrl options.requestMethod
          options.refreshPolicy with
      | terminal =>
          intro walked hwalked
          cases hwalked
          exact walkDone_fetched inv hresult (by simp) (by simp)
      | stop status code details targetUrl => exact wp_stopTransition inv hresult ..
      | follow transition =>
          simp only []
          cases hinspected : inspectTarget options world transition.targetUrl with
          | error e =>
              intro walked hwalked
              cases hwalked
          | ok offline =>
              exact ih (walkInv_advance inv hresult (isChainUrl_of_follow hdecision) hinspected)

/-- Every call of the walk is allowed, and what it leaves is a linked chain. -/
theorem wp_walk (inv : WalkInv world options initial past s) :
    wp (Records (ChainAllows options)) (walk options world s) (WalkPost world options initial)
      past := by
  induction hfuel : options.hopLimit - s.hops.length using Nat.strong_induction_on
    generalizing s past with
  | _ fuel ih =>
      rw [walk]
      refine wp_recorded (fun _ => trivial) fun (aborted : Bool) => ?_
      have inv := walkInv_quiet inv (e := ⟨.aborted, some aborted⟩) rfl rfl
      change wp _ (if aborted = true then _ else _) _ _
      split
      · exact wp_stopAt inv ..
      split
      · exact wp_stopAt inv ..
      rename_i hseen
      split
      · exact wp_stopAt inv ..
      rename_i hlimit
      have hnumber : s.nextHop = (fetched _).length + 1 := congrArg Nat.succ inv.count.symm
      refine wp_recorded (fun _ => hnumber) fun authorized => ?_
      have inv := walkInv_quiet inv (e := ⟨.authorize (s.request options), some authorized⟩) rfl rfl
      match authorized with
      | .error _ => exact wp_stopAt inv ..
      | .ok none => exact wp_stopAt inv ..
      | .ok (some authorization) =>
          refine wp_recorded (fun _ => ⟨⟨_, _, rfl, rfl, rfl, congrArg Nat.succ inv.count.symm⟩, ?_,
            ?_⟩) fun (answer : Except Thrown SafeFetchOutcome) => ?_
          · rw [← inv.seen]
            simpa using hseen
          · rw [inv.count]
            omega
          · match answer with
            | .error e =>
                intro walked hwalked
                cases hwalked
            | .ok outcome =>
                refine wp_arrived inv fun {t offline hop past} hinv => ?_
                refine ih _ ?_ hinv rfl
                rw [WalkState.advance, List.length_append, List.length_singleton]
                omega

end

end RedirectChain

end Linklint
