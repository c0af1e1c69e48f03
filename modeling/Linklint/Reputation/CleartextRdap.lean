import Linklint.Reputation.RdapClient
import Linklint.Mirrors.SnapshotHistory

/-!
# Cleartext in RDAP lookups

The scheme policy is applied once, when a registry is stored. It decides the
first URL of a lookup; the URLs after it are the ones the servers redirect to.
-/

namespace Linklint

open Interaction

abbrev LookupEvent (Record : Type) := Event (LookupOp Record) LookupAns

section
variable {Record : Type}

def requestedBy : LookupEvent Record → Option Text
  | ⟨.request url, _⟩ => some url
  | _ => none

/-- The URLs a lookup hands to its client, in order. -/
def requestedOf (trace : List (LookupEvent Record)) : List Text := trace.filterMap requestedBy

theorem eq_of_requestedBy {e : LookupEvent Record} {url : Text} (h : requestedBy e = some url) :
    ∃ answer, e = ⟨.request url, answer⟩ := by
  obtain ⟨op, answer⟩ := e
  cases op with
  | request other =>
      cases h
      exact ⟨answer, rfl⟩
  | _ => cases h

@[simp] theorem requestedOf_append (a b : List (LookupEvent Record)) :
    requestedOf (a ++ b) = requestedOf a ++ requestedOf b := List.filterMap_append

section
variable (P : Platform) (api : UrlApi)

/-- Whatever URL the text denotes, its scheme is `https`. -/
def HasHttps (raw : Text) : Prop := ∀ url, api.parse raw = some url → url.protocol = text "https:"

/-- A text that starts with `https://` in any case denotes an HTTPS URL or none. -/
def HttpsUrls : Prop := ∀ raw rest, isHttpsUrl P raw = true → HasHttps api (raw ++ rest)

/-- A registry as the updater stores it without `allowInsecureRdapBases`. -/
def StoredStrictly (registry : RdapBootstrapRegistry) : Prop :=
  ∃ parsed, registry = (applyBaseUrlSchemePolicy P parsed false).1

def NoCleartext (trace : List (LookupEvent Record)) : Prop :=
  ∀ url ∈ requestedOf trace, HasHttps api url

/-- Every redirect that leads to a further request resolves to an HTTPS URL. -/
def RedirectsSecure (trace : List (LookupEvent Record)) : Prop :=
  ∀ before url response after location,
    trace = before ++ ⟨.request url, some (.ok response)⟩ :: after →
    RdapClient.REDIRECT_STATUSES.contains response.status = true →
    locationHeader P response = some location →
    requestedOf after ≠ [] → HasHttps api (resolveLocation api url location)

/-- The first URL of a lookup through a registry. -/
def StartsAt (registry : RdapBootstrapRegistry) (url : Text) : Prop :=
  ∃ baseUrl tld aLabel, resolveRdapBase P registry aLabel = .routed baseUrl tld ∧
    url = domainUrl baseUrl aLabel

/-- The URL a lookup turns to: its first, or the one it has just been redirected to. -/
def TurnsTo (registry : RdapBootstrapRegistry) (past : List (LookupEvent Record)) (url : Text) :
    Prop :=
  (requestedOf past = [] ∧ StartsAt P registry url) ∨
  ∃ before previous response location,
    past = before ++ [⟨.request previous, some (.ok response)⟩] ∧
    RdapClient.REDIRECT_STATUSES.contains response.status = true ∧
    locationHeader P response = some location ∧
    url = resolveLocation api previous location

/-- A request goes to the URL the lookup turned to before it read the signal. -/
def RequestAllowed (registry : RdapBootstrapRegistry) (past : List (LookupEvent Record))
    (e : LookupEvent Record) : Prop :=
  match e.op with
  | .request url => ∃ turned, past = turned ++ [⟨.aborted, some false⟩] ∧
      TurnsTo P api registry turned url
  | _ => True

end

/-! ### Routing -/

section
variable {P : Platform} {api : UrlApi}

/-- A strictly stored registry holds HTTPS base URLs only. -/
theorem https_of_stored {registry : RdapBootstrapRegistry} (h : StoredStrictly P registry)
    {service : List Text × List Text} (hservice : service ∈ registry.services) {url : Text}
    (hurl : url ∈ service.2) : isHttpsUrl P url = true := by
  obtain ⟨parsed, rfl⟩ := h
  obtain ⟨hmem, -⟩ := List.mem_filter.mp hservice
  obtain ⟨source, -, rfl⟩ := List.mem_map.mp hmem
  exact (List.mem_filter.mp hurl).2

theorem mem_of_preferHttpsBase {urls : List Text} {base : Text}
    (h : preferHttpsBase P urls = some base) : ∃ url ∈ urls, ∃ rest, base = url ++ rest := by
  obtain ⟨chosen, hchosen, hbase⟩ := Option.map_eq_some_iff.mp h
  have hmem : chosen ∈ urls := by
    cases hfind : urls.find? (isHttpsUrl P) with
    | some url =>
        rw [hfind] at hchosen
        cases hchosen
        exact List.mem_of_find?_eq_some hfind
    | none =>
        rw [hfind] at hchosen
        exact List.mem_of_mem_head? hchosen
  refine ⟨chosen, hmem, ?_⟩
  split at hbase
  · exact ⟨[], by rw [List.append_nil, hbase]⟩
  · exact ⟨[unit '/'], hbase.symm⟩

/-- A lookup through a strictly stored registry starts at an HTTPS URL. -/
theorem https_of_startsAt (hhttps : HttpsUrls P api) {registry : RdapBootstrapRegistry}
    (hstored : StoredStrictly P registry) {url : Text} (h : StartsAt P registry url) :
    HasHttps api url := by
  obtain ⟨baseUrl, tld, aLabel, hrouted, rfl⟩ := h
  have hbase : ∃ service ∈ registry.services, preferHttpsBase P service.2 = some baseUrl := by
    rw [resolveRdapBase] at hrouted
    simp only [] at hrouted
    split at hrouted
    · rename_i found hfound
      cases hrouted
      obtain ⟨service, hservice, hprefer⟩ := List.exists_of_findSome?_eq_some hfound
      refine ⟨service, hservice, ?_⟩
      split at hprefer
      · exact hprefer
      · cases hprefer
    · cases hrouted
  obtain ⟨service, hservice, hprefer⟩ := hbase
  obtain ⟨base, hmem, rest, rfl⟩ := mem_of_preferHttpsBase hprefer
  rw [domainUrl, List.append_assoc, List.append_assoc]
  exact hhttps base _ (https_of_stored hstored hservice hmem)

end

/-! ### The loop -/

section
variable {P : Platform} {api : UrlApi} {dates : DateApi} {parseJson : Text → Option Value}
  {domainToASCII : Text → Text} {records : RdapRecords Record} {options : FetchRdapDomainOptions}
  {past : List (LookupEvent Record)}

/-- The automaton of the allowed requests. -/
def Requesting (P : Platform) (api : UrlApi) (registry : RdapBootstrapRegistry) :
    List (LookupEvent Record) → LookupEvent Record → List (LookupEvent Record) → Prop :=
  Records (RequestAllowed P api registry)

/-- The calls of the loop while requests are left. -/
theorem followRedirects_succ (aLabel : Text) (remaining : Nat) (url : Text) (seen : List Text) :
    followRedirects P dates api parseJson records options aLabel (remaining + 1) url seen =
      .call LookupOp.aborted fun (fired : Bool) =>
        if fired = true then
          .ret (some (skipLookup .callerAborted (text "lookup cancelled") false none))
        else if seen.contains url = true then
          .ret (some (failLookup .tooManyRedirects (text "redirect loop at " ++ url) none))
        else .call (LookupOp.request url) fun (answer : Except FeedError FeedResponse) =>
          match answer with
          | .error error => .call LookupOp.aborted fun (fired : Bool) =>
              if fired = true then
                .ret (some (skipLookup .callerAborted (text "lookup cancelled") false none))
              else .ret (some (failLookup .networkError (describeRdapError error) none))
          | .ok response =>
              if RdapClient.REDIRECT_STATUSES.contains response.status = true then
                match locationHeader P response with
                | none =>
                    .ret (some (failLookup .httpError (text "redirect without Location from " ++ url)
                      none))
                | some location =>
                    followRedirects P dates api parseJson records options aLabel remaining
                      (resolveLocation api url location) (url :: seen)
              else terminalResult P dates parseJson records options response aLabel :=
  rfl

/-- The calls of a lookup. -/
theorem fetchRdapDomain_eq : fetchRdapDomain P dates api parseJson domainToASCII records options =
    .call LookupOp.aborted fun (fired : Bool) =>
      if fired = true then
        .ret (some (skipLookup .callerAborted (text "lookup cancelled before start") false none))
      else
        match toALabel P domainToASCII options.registrableDomain with
        | none =>
            .ret (some (skipLookup .invalidDomain
              (text "not a routable domain: " ++ options.registrableDomain) false none))
        | some aLabel =>
            readThrough dates records options aLabel >>= fun stored =>
              match stored with
              | some record => .ret (some (.found record true))
              | none =>
                  match resolveRdapBase P options.registry aLabel with
                  | .unsupportedTld tld =>
                      .ret (some (skipLookup .unsupportedTld (text "no RDAP service for ." ++ tld)
                        false (some [(text "tld", .text (some tld))])))
                  | .routed baseUrl _ =>
                      followRedirects P dates api parseJson records options aLabel
                        (boundedRedirects options.maxRedirects + 1) (domainUrl baseUrl aLabel) [] :=
  rfl

/-- The calls of a reply that parses. -/
theorem terminalResult_parsed {response : FeedResponse} (aLabel : Text) {parsed : Value}
    (hfound : response.status ≠ 404) (hfree : response.status ≠ 429)
    (hok : ¬(response.status < 200 ∨ 300 ≤ response.status))
    (hparsed : parseJson response.body = some parsed) :
    terminalResult P dates parseJson records options response aLabel =
      .call LookupOp.now fun (observedAt : Int) =>
        match newRecord dates records options aLabel parsed observedAt with
        | none => .ret none
        | some record =>
            if options.hasCache = true then
              .call (LookupOp.cacheSet aLabel record) fun _ => .ret (some (.found record false))
            else .ret (some (.found record false)) := by
  rw [terminalResult, if_neg hfound, if_neg hfree, if_neg hok, hparsed]
  rfl

theorem wp_terminalResult_requests (response : FeedResponse) (aLabel : Text) :
    wp (Requesting P api options.registry)
      (terminalResult P dates parseJson records options response aLabel) (fun _ _ => True) past := by
  by_cases hfound : response.status = 404
  · rw [terminalResult, if_pos hfound]
    trivial
  by_cases hfree : response.status = 429
  · rw [terminalResult, if_neg hfound, if_pos hfree]
    trivial
  by_cases hok : response.status < 200 ∨ 300 ≤ response.status
  · rw [terminalResult, if_neg hfound, if_neg hfree, if_pos hok]
    trivial
  cases hparsed : parseJson response.body with
  | none =>
      rw [terminalResult, if_neg hfound, if_neg hfree, if_neg hok, hparsed]
      trivial
  | some parsed =>
      rw [terminalResult_parsed aLabel hfound hfree hok hparsed]
      refine wp_recorded (fun _ => trivial) fun (observedAt : Int) => ?_
      cases newRecord dates records options aLabel parsed observedAt with
      | none => trivial
      | some record =>
          by_cases hcache : options.hasCache = true
          · simp only [hcache]
            exact wp_recorded (fun _ => trivial) fun _ => trivial
          · simp only [hcache]
            trivial

/-- Every request of the loop goes where the lookup has just turned to. -/
theorem wp_followRedirects_requests (aLabel : Text) (remaining : Nat) {url : Text}
    (seen : List Text) (hturns : TurnsTo P api options.registry past url) :
    wp (Requesting P api options.registry)
      (followRedirects P dates api parseJson records options aLabel remaining url seen)
      (fun _ _ => True) past := by
  induction remaining generalizing url seen past with
  | zero => trivial
  | succ remaining ih =>
      rw [followRedirects_succ]
      refine wp_recorded (fun _ => trivial) fun (fired : Bool) => ?_
      cases fired with
      | true => trivial
      | false =>
          rw [if_neg Bool.false_ne_true]
          by_cases hseen : seen.contains url = true
          · rw [if_pos hseen]
            trivial
          · rw [if_neg hseen]
            refine wp_recorded (fun _ => ⟨past, rfl, hturns⟩) fun answer => ?_
            cases answer with
            | error error =>
                refine wp_recorded (fun _ => trivial) fun (fired : Bool) => ?_
                cases fired <;> trivial
            | ok response =>
                dsimp only
                by_cases hredirect : RdapClient.REDIRECT_STATUSES.contains response.status = true
                · rw [if_pos hredirect]
                  cases hlocation : locationHeader P response with
                  | none => trivial
                  | some location =>
                      exact ih _ (Or.inr ⟨_, url, response, location, rfl, hredirect, hlocation, rfl⟩)
                · rw [if_neg hredirect]
                  exact wp_terminalResult_requests response aLabel

theorem wp_readThrough_requests (aLabel : Text) (hnone : requestedOf past = []) :
    wp (Requesting P api options.registry) (readThrough dates records options aLabel)
      (fun _ past' => requestedOf past' = []) past := by
  rw [readThrough]
  by_cases hcache : options.hasCache = true
  · rw [if_pos hcache]
    refine wp_recorded (fun _ => trivial) fun (cached : Option Record) => ?_
    have hread : requestedOf (past ++ [⟨.cacheGet aLabel, some cached⟩]) = [] := by
      rw [requestedOf_append, hnone]
      rfl
    cases cached with
    | none => exact hread
    | some record =>
        change wp _ (isFresh dates records record >>= _) _ _
        rw [wp_bind, isFresh]
        cases (records.expiresAt record).bind dates.parse with
        | none => exact hread
        | some expiry =>
            refine wp_recorded (fun _ => trivial) fun (now : Int) => ?_
            change requestedOf (past ++ [⟨.cacheGet aLabel, some (some record)⟩] ++
              [⟨.now, some now⟩]) = []
            rw [requestedOf_append, hread]
            rfl
  · rw [if_neg hcache]
    exact hnone

theorem wp_fetchRdapDomain_requests :
    wp (Requesting P api options.registry)
      (fetchRdapDomain P dates api parseJson domainToASCII records options) (fun _ _ => True) [] := by
  rw [fetchRdapDomain_eq]
  refine wp_recorded (fun _ => trivial) fun (fired : Bool) => ?_
  cases fired with
  | true => trivial
  | false =>
      rw [if_neg Bool.false_ne_true]
      cases toALabel P domainToASCII options.registrableDomain with
      | none => trivial
      | some aLabel =>
          dsimp only
          rw [wp_bind]
          refine wp_mono (wp_readThrough_requests aLabel rfl) ?_
          rintro (_ | record) past' hnone
          · dsimp only
            cases hrouted : resolveRdapBase P options.registry aLabel with
            | unsupportedTld tld => trivial
            | routed baseUrl tld =>
                exact wp_followRedirects_requests aLabel _ []
                  (Or.inl ⟨hnone, baseUrl, tld, aLabel, hrouted, rfl⟩)
          · trivial

/-- The requests of a run, each with the past that allows it. -/
theorem requests_of_run {trace : List (LookupEvent Record)}
    {result : Option (Option (RdapFetchResult Record))}
    (run : Runs (fetchRdapDomain P dates api parseJson domainToASCII records options) trace result)
    {before after : List (LookupEvent Record)} {url : Text}
    {answer : Option (Except FeedError FeedResponse)}
    (hsplit : trace = before ++ ⟨.request url, answer⟩ :: after) :
    ∃ turned, before = turned ++ [⟨.aborted, some false⟩] ∧
      TurnsTo P api options.registry turned url := by
  obtain ⟨past', hfollows, -⟩ := run.follows wp_fetchRdapDomain_requests
  obtain ⟨-, hallowed⟩ := hfollows.recorded
  exact hallowed before _ after hsplit

/-! ### Cleartext -/

theorem requestedOf_eq_nil_of_mem {mid : List (LookupEvent Record)} (hnone : requestedOf mid = [])
    {e : LookupEvent Record} (hmem : e ∈ mid) : requestedBy e = none :=
  List.filterMap_eq_nil_iff.mp hnone e hmem

/-- The first request of a trace that has one. -/
theorem first_request {trace : List (LookupEvent Record)} (h : requestedOf trace ≠ []) :
    ∃ mid url answer after, trace = mid ++ ⟨.request url, answer⟩ :: after ∧
      requestedOf mid = [] := by
  induction trace with
  | nil => exact absurd rfl h
  | cons e trace ih =>
      cases hrequested : requestedBy e with
      | some url =>
          obtain ⟨answer, rfl⟩ := eq_of_requestedBy hrequested
          exact ⟨[], url, answer, trace, rfl, rfl⟩
      | none =>
          have hskip : ∀ rest, requestedOf (e :: rest) = requestedOf rest := fun rest =>
            List.filterMap_cons_none hrequested
          obtain ⟨mid, url, answer, after, rfl, hmid⟩ := ih (by rwa [hskip] at h)
          exact ⟨e :: mid, url, answer, after, rfl, by rw [hskip, hmid]⟩

/-- The next request after a redirect is the one to its location. -/
theorem turnsTo_of_redirect {registry : RdapBootstrapRegistry}
    {before mid turned : List (LookupEvent Record)} {url next : Text} {response : FeedResponse}
    (hpast : before ++ ⟨.request url, some (.ok response)⟩ :: mid =
      turned ++ [⟨.aborted, some false⟩])
    (hmid : requestedOf mid = []) (hturns : TurnsTo P api registry turned next) :
    ∃ location, locationHeader P response = some location ∧
      next = resolveLocation api url location := by
  rcases List.eq_nil_or_concat mid with rfl | ⟨mid', last, rfl⟩
  · have hlast := (List.append_inj' hpast rfl).2
    cases hlast
  · rw [List.concat_eq_append, ← List.cons_append, ← List.append_assoc] at hpast
    obtain ⟨rfl, -⟩ := List.append_inj' hpast rfl
    rcases hturns with ⟨hnone, -⟩ | ⟨before', previous, answered, location, hturned, -, hlocation,
      rfl⟩
    · have hrequest := requestedOf_eq_nil_of_mem hnone
        (List.mem_append_right before (List.mem_cons_self ..))
      cases hrequest
    · rcases List.eq_nil_or_concat mid' with rfl | ⟨mid'', e, rfl⟩
      · cases (List.append_inj' hturned rfl).2
        exact ⟨location, hlocation, rfl⟩
      · rw [List.concat_eq_append, ← List.cons_append, ← List.append_assoc] at hturned
        cases (List.append_inj' hturned rfl).2
        have hrequest := requestedOf_eq_nil_of_mem hmid
          (e := ⟨.request previous, some (.ok answered)⟩) (by simp)
        cases hrequest

/-- The strict policy keeps a lookup off cleartext exactly when the redirects it follows do. -/
theorem noCleartext_iff (hhttps : HttpsUrls P api) (hstored : StoredStrictly P options.registry)
    {trace : List (LookupEvent Record)} {result : Option (Option (RdapFetchResult Record))}
    (run : Runs (fetchRdapDomain P dates api parseJson domainToASCII records options) trace
      result) :
    NoCleartext api trace ↔ RedirectsSecure P api trace := by
  constructor
  · intro hclear before url response after location hsplit hredirect hlocation hmore
    obtain ⟨mid, next, answer, rest, rfl, hmid⟩ := first_request hmore
    rw [← List.cons_append, ← List.append_assoc] at hsplit
    obtain ⟨turned, hpast, hturns⟩ := requests_of_run run hsplit
    obtain ⟨location', hlocation', rfl⟩ := turnsTo_of_redirect hpast hmid hturns
    obtain rfl : location' = location := Option.some.inj (hlocation'.symm.trans hlocation)
    refine hclear _ (List.mem_filterMap.mpr ⟨⟨.request _, answer⟩, ?_, rfl⟩)
    rw [hsplit]
    exact List.mem_append_right _ (List.mem_cons_self ..)
  · intro hsecure url hmem
    obtain ⟨e, he, hrequested⟩ := List.mem_filterMap.mp hmem
    obtain ⟨answer, rfl⟩ := eq_of_requestedBy hrequested
    obtain ⟨before, after, hsplit⟩ := List.append_of_mem he
    obtain ⟨turned, rfl, hturns⟩ := requests_of_run run hsplit
    rcases hturns with ⟨-, hstarts⟩ | ⟨before', previous, response, location, rfl, hredirect,
      hlocation, rfl⟩
    · exact https_of_startsAt hhttps hstored hstarts
    · rw [List.append_assoc, List.append_assoc] at hsplit
      refine hsecure before' previous response _ location hsplit hredirect hlocation ?_
      simp [requestedOf, requestedBy]

end

end

/-! ### What the stores hold -/

section
variable {P : Platform} {dates : DateApi} {api : UrlApi} {parseJson : Text → Option Value}

/-- A call that may store a registry leaves `allowInsecureRdapBases` off. -/
def StrictCall : UpdateCall → Prop
  | .rdap options _ _ => options.allowInsecureRdapBases = false
  | _ => True

theorem storedStrictly_step {stores stores' : Stores} {call : UpdateCall}
    (step : CallStep P dates api parseJson stores call stores') (hstrict : StrictCall call)
    (h : ∀ snapshot, stores.rdap = some snapshot → StoredStrictly P snapshot.registry) :
    ∀ snapshot, stores'.rdap = some snapshot → StoredStrictly P snapshot.registry := by
  have hatomic := atomicStep step
  cases call with
  | urlhaus options trace result => exact hatomic.2.1 ▸ h
  | phishtank options trace result => exact hatomic.2.1 ▸ h
  | rdap options trace result =>
      refine stored_of_atomicCall hatomic.2.2 ?_ h
      rintro now response snapshot ⟨⟨parsed, -, hregistry⟩, -⟩
      exact ⟨parsed, by rw [hregistry, show options.allowInsecureRdapBases = false from hstrict]⟩

/-- Strict calls only ever leave a strictly stored registry. -/
theorem storedStrictly_history {stores stores' : Stores} {calls : List UpdateCall}
    (history : UpdateHistory P dates api parseJson stores calls stores')
    (hstrict : ∀ call ∈ calls, StrictCall call) (hempty : stores.rdap = none) :
    ∀ snapshot, stores'.rdap = some snapshot → StoredStrictly P snapshot.registry := by
  have hfirst : ∀ snapshot, stores.rdap = some snapshot → StoredStrictly P snapshot.registry := by
    simp [hempty]
  clear hempty
  induction history with
  | nil => exact hfirst
  | cons head _ ih =>
      have hcall := hstrict _ (List.mem_cons_self ..)
      exact ih (fun call hmem => hstrict call (List.mem_cons_of_mem _ hmem))
        (storedStrictly_step head hcall hfirst)

end

/-! ### A downgraded lookup -/

/-- The `http` and `https` URLs of a host name and a path. -/
def plainUrl (protocol rest : Text) : Url :=
  { protocol, username := [], password := []
    hostname := (rest.takeWhile (· != unit '/')).map asciiLower
    port := []
    pathname := if rest.contains (unit '/') then rest.dropWhile (· != unit '/') else [unit '/']
    search := [], hash := [] }

def parsePlain (raw : Text) : Option Url :=
  if Text.startsWith (raw.map asciiLower) (text "https://") then
    some (plainUrl (text "https:") (raw.drop 8))
  else if Text.startsWith (raw.map asciiLower) (text "http://") then
    some (plainUrl (text "http:") (raw.drop 7))
  else none

/-- A platform that knows no other URL, and no relative one. -/
def UrlApi.plain : UrlApi where
  parse := parsePlain
  resolve location _ := parsePlain location
  href url := url.protocol ++ text "//" ++ url.host ++ url.pathname

theorem httpsUrls_plain : HttpsUrls Platform.ascii UrlApi.plain := by
  intro raw rest hhttps url hparse
  have hprefix : text "https://" <+: (raw ++ rest).map asciiLower := by
    rw [List.map_append]
    exact (List.isPrefixOf_iff_prefix.mp hhttps).trans (List.prefix_append ..)
  have hparsed : parsePlain (raw ++ rest) =
      some (plainUrl (text "https:") ((raw ++ rest).drop 8)) :=
    if_pos (List.isPrefixOf_iff_prefix.mpr hprefix)
  cases hparsed.symm.trans hparse
  rfl

section
variable {Record : Type} {P : Platform} {api : UrlApi} {dates : DateApi}
  {parseJson : Text → Option Value} {domainToASCII : Text → Text} {records : RdapRecords Record}
  {options : FetchRdapDomainOptions} {trace : List (LookupEvent Record)}
  {result : Option (Option (RdapFetchResult Record))}

theorem runs_redirected {aLabel url location : Text} {remaining : Nat} {seen : List Text}
    {response : FeedResponse} (hseen : seen.contains url = false)
    (hredirect : RdapClient.REDIRECT_STATUSES.contains response.status = true)
    (hlocation : locationHeader P response = some location)
    (run : Runs (followRedirects P dates api parseJson records options aLabel remaining
      (resolveLocation api url location) (url :: seen)) trace result) :
    Runs (followRedirects P dates api parseJson records options aLabel (remaining + 1) url seen)
      (⟨.aborted, some false⟩ :: ⟨.request url, some (.ok response)⟩ :: trace) result := by
  rw [followRedirects_succ]
  refine .answered ?_
  rw [if_neg Bool.false_ne_true, if_neg (by rw [hseen]; exact Bool.false_ne_true)]
  refine .answered ?_
  dsimp only
  rw [if_pos hredirect, hlocation]
  exact run

theorem runs_requested {aLabel url : Text} {remaining : Nat} {seen : List Text}
    (hseen : seen.contains url = false) :
    Runs (followRedirects P dates api parseJson records options aLabel (remaining + 1) url seen)
      [⟨.aborted, some false⟩, ⟨.request url, none⟩] none := by
  refine .answered ?_
  change Runs (if seen.contains url = true then Prog.ret _ else _) _ _
  rw [if_neg (by rw [hseen]; exact Bool.false_ne_true)]
  exact .waiting

/-- A lookup without a cache goes straight to its base URL. -/
theorem runs_routed {baseUrl tld : Text} (aLabel : Text)
    (hlabel : toALabel P domainToASCII options.registrableDomain = some aLabel)
    (hcache : options.hasCache = false)
    (hrouted : resolveRdapBase P options.registry aLabel = .routed baseUrl tld)
    (run : Runs (followRedirects P dates api parseJson records options aLabel
      (boundedRedirects options.maxRedirects + 1) (domainUrl baseUrl aLabel) []) trace result) :
    Runs (fetchRdapDomain P dates api parseJson domainToASCII records options)
      (⟨.aborted, some false⟩ :: trace) result := by
  have hread : readThrough dates records options aLabel = Prog.ret none := by
    rw [readThrough, if_neg (by rw [hcache]; exact Bool.false_ne_true)]
    rfl
  rw [fetchRdapDomain_eq]
  refine .answered ?_
  rw [if_neg Bool.false_ne_true, hlabel]
  dsimp only
  rw [hread, Prog.ret_bind, hrouted]
  exact run

end

/-- A registry whose one base URL is HTTPS. -/
def secureLookup : FetchRdapDomainOptions :=
  { registry :=
      { version := text "1.0", publication := text "2026-01-01T00:00:00Z"
        services := [([text "com"], [text "https://rdap.example/"])] }
    registrableDomain := text "example.com"
    cacheTtlMs := none
    hasCache := false
    maxRedirects := none }

def SECURE_URL : Text := text "https://rdap.example/domain/example.com"
def CLEARTEXT_URL : Text := text "http://rdap.example/domain/example.com"

def downgrade : FeedResponse :=
  { status := 302, headers := [(text "location", CLEARTEXT_URL)], body := [] }

/-- The server of an HTTPS base URL redirects to its own cleartext URL. -/
def downgradedTrace : List (LookupEvent Unit) :=
  [⟨.aborted, some false⟩, ⟨.aborted, some false⟩, ⟨.request SECURE_URL, some (.ok downgrade)⟩,
    ⟨.aborted, some false⟩, ⟨.request CLEARTEXT_URL, none⟩]

def unitRecords : RdapRecords Unit := { normalize := fun _ _ _ _ => (), expiresAt := fun _ => none }

theorem storedStrictly_secureLookup : StoredStrictly Platform.ascii secureLookup.registry := by
  have hservices :
      (applyBaseUrlSchemePolicy Platform.ascii secureLookup.registry false).1.services =
        secureLookup.registry.services := by decide +kernel
  exact ⟨secureLookup.registry,
    congrArg (fun services => { secureLookup.registry with services }) hservices.symm⟩

theorem base_secureLookup :
    (secureLookup.registry.services.findSome? fun (tlds, urls) =>
      if tlds.any fun entry => Platform.ascii.toLowerCase entry == text "com" then
        preferHttpsBase Platform.ascii urls else none) = some (text "https://rdap.example/") := by
  decide +kernel

theorem routed_secureLookup :
    resolveRdapBase Platform.ascii secureLookup.registry (text "example.com") =
      .routed (text "https://rdap.example/") (text "com") := by
  have htld : tldLabel Platform.ascii (text "example.com") = text "com" := by decide +kernel
  simp only [resolveRdapBase, htld, base_secureLookup]

theorem runs_downgraded :
    Runs (fetchRdapDomain Platform.ascii DateApi.epochSecond UrlApi.plain (fun _ => none) id
      unitRecords secureLookup) downgradedTrace none := by
  have hurl : domainUrl (text "https://rdap.example/") (text "example.com") = SECURE_URL := by
    decide +kernel
  have hlocation : locationHeader Platform.ascii downgrade = some CLEARTEXT_URL := by decide +kernel
  have hresolved : resolveLocation UrlApi.plain SECURE_URL CLEARTEXT_URL = CLEARTEXT_URL := by
    decide +kernel
  refine runs_routed (text "example.com") (by decide +kernel) rfl routed_secureLookup ?_
  rw [hurl]
  refine runs_redirected rfl rfl hlocation ?_
  rw [hresolved]
  exact runs_requested (by decide +kernel)

theorem noCleartext_downgraded : NoCleartext UrlApi.plain downgradedTrace ↔
    RedirectsSecure Platform.ascii UrlApi.plain downgradedTrace :=
  noCleartext_iff httpsUrls_plain storedStrictly_secureLookup runs_downgraded

theorem redirected_to_cleartext : ¬ ∀ (P : Platform) (dates : DateApi) (api : UrlApi)
    (parseJson : Text → Option Value) (domainToASCII : Text → Text) (records : RdapRecords Unit)
    (options : FetchRdapDomainOptions) (trace : List (LookupEvent Unit))
    (result : Option (Option (RdapFetchResult Unit))),
    HttpsUrls P api → StoredStrictly P options.registry →
      Runs (fetchRdapDomain P dates api parseJson domainToASCII records options) trace result →
        NoCleartext api trace := by
  intro h
  have hclear := h _ _ _ _ _ _ _ _ _ httpsUrls_plain storedStrictly_secureLookup runs_downgraded
    CLEARTEXT_URL (by decide +kernel)
  have hprotocol := hclear (plainUrl (text "http:") (CLEARTEXT_URL.drop 7)) (by decide +kernel)
  revert hprotocol
  decide +kernel

end Linklint
