import Linklint.Mirrors.MirrorHttp

/-!
# The credential boundary of a download

Every request of a download has a policed URL, and carries the caller's own
headers only while the chain has not left the origin it started at.
-/

namespace Linklint

open Interaction

theorem crossOriginHeaders_idem (headers : Headers) :
    crossOriginHeaders (crossOriginHeaders headers) = crossOriginHeaders headers := by
  simp [crossOriginHeaders]

/-- The request an event sends. -/
def sentBy : MirrorEvent → Option (Url × Headers)
  | ⟨.send url headers, _⟩ => some (url, headers)
  | _ => none

/-- The requests of a trace, in order. -/
def requestsOf (trace : List MirrorEvent) : List (Url × Headers) := trace.filterMap sentBy

/-- The chain has not left the origin of its first URL. -/
def StaysAt (start : Url) (urls : List Url) : Prop := ∀ url ∈ urls, url.origin = start.origin

instance (start : Url) (urls : List Url) : Decidable (StaysAt start urls) := by
  unfold StaysAt
  infer_instance

/-- The headers of the request that ends a chain. -/
def carriedHeaders (start : Url) (headers : Headers) (urls : List Url) : Headers :=
  if StaysAt start urls then headers else crossOriginHeaders headers

section
variable (api : UrlApi) (client : NodeMirrorHttpClient)

/-- A URL that may reach a socket. -/
structure Provided (url : Url) : Prop where
  passed : ∃ raw, providerUrl api client raw = .ok url
  scheme : url.protocol = text "https:" ∨
    url.protocol = text "http:" ∧ client.allowInsecureUrl = true
  username : url.username = []
  password : url.password = []
  hash : url.hash = []

theorem provided_of_providerUrl {raw : Text} {url : Url} (h : providerUrl api client raw = .ok url) :
    Provided api client url := by
  have hpassed := h
  rw [providerUrl] at h
  cases hparse : api.parse raw with
  | none =>
      rw [hparse] at h
      cases h
  | some parsed =>
      rw [hparse] at h
      simp only [] at h
      split at h
      · cases h
      · rename_i hscheme
        split at h
        · cases h
        · rename_i hcredentials
          cases h
          simp only [not_or, not_not] at hcredentials
          refine ⟨⟨raw, hpassed⟩, ?_, hcredentials.1, hcredentials.2, rfl⟩
          by_cases hhttps : parsed.protocol = text "https:"
          · exact Or.inl hhttps
          · refine Or.inr ?_
            by_contra hhttp
            exact hscheme ⟨hhttps, hhttp⟩

theorem provided_of_hopUrl {base url : Url} {location : Text}
    (h : hopUrl api client base location = .ok url) : Provided api client url := by
  rw [hopUrl] at h
  cases hresolve : api.resolve location base with
  | none =>
      rw [hresolve] at h
      cases h
  | some resolved =>
      rw [hresolve] at h
      exact provided_of_providerUrl api client h

/-- What a request may be after the requests already sent. -/
structure MaySend (start : Url) (headers : Headers) (sent : List (Url × Headers)) (url : Url)
    (carried : Headers) : Prop where
  first : sent = [] → url = start
  within : sent.length ≤ MIRROR_MAX_REDIRECT_HOPS
  provided : Provided api client url
  carried : carried = carriedHeaders start headers (sent.map Prod.fst ++ [url])

/-- The automaton of the requests sent. -/
def Sending (start : Url) (headers : Headers) (sent : List (Url × Headers)) (e : MirrorEvent)
    (sent' : List (Url × Headers)) : Prop :=
  sent' = sent ++ (sentBy e).toList ∧
    ∀ url carried, sentBy e = some (url, carried) → MaySend api client start headers sent url carried

end

section
variable {api : UrlApi} {client : NodeMirrorHttpClient} {start : Url} {headers : Headers}

theorem follows_sending {sent sent' : List (Url × Headers)} {trace : List MirrorEvent}
    (h : Follows (Sending api client start headers) sent trace sent') :
    sent' = sent ++ requestsOf trace := by
  induction h with
  | nil => simp [requestsOf]
  | @cons s s₁ s' e trace head _ ih =>
      rw [ih, head.1]
      cases he : sentBy e <;> simp [requestsOf, he]

/-- The headers of the next hop. -/
theorem carriedHeaders_snoc {urls : List Url} {url next : Url} :
    (if next.origin ≠ url.origin then crossOriginHeaders (carriedHeaders start headers (urls ++ [url]))
      else carriedHeaders start headers (urls ++ [url]))
        = carriedHeaders start headers (urls ++ [url] ++ [next]) := by
  by_cases hstays : StaysAt start (urls ++ [url])
  · have hurl : url.origin = start.origin := hstays url (by simp)
    have hnext : StaysAt start (urls ++ [url] ++ [next]) ↔ next.origin = url.origin := by
      constructor
      · intro h
        rw [hurl]
        exact h next (by simp)
      · intro h u hu
        rcases List.mem_append.mp hu with hu | hu
        · exact hstays u hu
        · rw [List.mem_singleton.mp hu, h, hurl]
    by_cases hsame : next.origin = url.origin
    · rw [if_neg (not_not.mpr hsame), carriedHeaders, carriedHeaders, if_pos hstays,
        if_pos (hnext.mpr hsame)]
    · rw [if_pos hsame, carriedHeaders, carriedHeaders, if_pos hstays,
        if_neg fun h => hsame (hnext.mp h)]
  · have hleft : ¬StaysAt start (urls ++ [url] ++ [next]) := fun h =>
      hstays fun u hu => h u (List.mem_append_left _ hu)
    rw [carriedHeaders, carriedHeaders, if_neg hstays, if_neg hleft, crossOriginHeaders_idem]
    split <;> rfl

/-- What a finished walk has reported. -/
def Ledgered (result : Except MirrorError MirrorHttpResponse) (sent : List (Url × Headers)) : Prop :=
  ∀ response, result = .ok response → response.hopOrigins = sent.map fun request => request.1.origin

section
variable (api client)

/-- What follows the outcome of a hop. -/
def hopSettled (url : Url) (headers : Headers) (hopOrigins : List Text) (followed : Nat) :
    Except MirrorError HopOutcome → MirrorProg (Except MirrorError MirrorHttpResponse)
  | .error error => .ret (.error error)
  | .ok (.final status headers body) => .ret (.ok { status, headers, body, hopOrigins })
  | .ok (.redirect location) =>
      if MIRROR_MAX_REDIRECT_HOPS ≤ followed then
        .ret (.error (.failure .hopLimit (some (text "3"))))
      else
        match hopUrl api client url location with
        | .error error => .ret (.error error)
        | .ok next => follow api client next
            (if next.origin ≠ url.origin then crossOriginHeaders headers else headers) hopOrigins
            (followed + 1)

theorem follow_eq (url : Url) (headers : Headers) (hopOrigins : List Text) (followed : Nat) :
    follow api client url headers hopOrigins followed = send client url headers >>=
      hopSettled api client url headers (hopOrigins ++ [url.origin]) followed := by
  rw [follow]
  rfl

end

theorem send_eq {url : Url} {headers : Headers} (h : literalRefusal client url = none) :
    send client url headers = .call (.send url headers) fun answer => .ret (readResponse client answer) := by
  rw [send, h]
  rfl

theorem wp_follow {url : Url} {sent : List (Url × Headers)}
    (hfirst : sent = [] → url = start) (hwithin : sent.length ≤ MIRROR_MAX_REDIRECT_HOPS)
    (hurl : Provided api client url) :
    wp (Sending api client start headers)
      (follow api client url (carriedHeaders start headers (sent.map Prod.fst ++ [url]))
        (sent.map fun request => request.1.origin) sent.length) Ledgered sent := by
  induction hn : MIRROR_MAX_REDIRECT_HOPS - sent.length using Nat.strong_induction_on
    generalizing url sent with
  | h n ih =>
      rw [follow_eq]
      set carried := carriedHeaders start headers (sent.map Prod.fst ++ [url]) with hcarried
      have hmay : MaySend api client start headers sent url carried :=
        ⟨hfirst, hwithin, hurl, rfl⟩
      cases hliteral : literalRefusal client url with
      | some error =>
          rw [send, hliteral]
          exact fun response h => by cases h
      | none =>
          rw [send_eq hliteral]
          refine wp_call_of (fun _ => sent ++ [(url, carried)]) (fun answer => ⟨rfl, ?_⟩)
            fun answer => ?_
          · rintro u c hsent
            cases hsent
            exact hmay
          · change wp _ (hopSettled api client url carried _ sent.length (readResponse client answer))
              _ _
            rcases readResponse client answer with error | ⟨status, fields, body⟩ | location
            · exact fun response h => by cases h
            · intro response h
              cases h
              simp
            · rw [hopSettled]
              by_cases hcap : MIRROR_MAX_REDIRECT_HOPS ≤ sent.length
              · rw [if_pos hcap]
                exact fun response h => by cases h
              · rw [if_neg hcap]
                cases hhop : hopUrl api client url location with
                | error error => exact fun response h => by cases h
                | ok next =>
                    have hlength : (sent ++ [(url, carried)]).length = sent.length + 1 := by simp
                    have hnext := @ih _ (by omega) next (sent ++ [(url, carried)]) (by simp)
                      (by omega) (provided_of_hopUrl api client hhop) rfl
                    simp only [hcarried, carriedHeaders_snoc]
                    simpa using hnext

/-! ### The calls of a walk -/

/-- The runs of a walk: a refused literal, a request without an answer, or what its answer gives. -/
theorem follow_cases {url : Url} {fields : Headers} {hopOrigins : List Text} {followed : Nat}
    {trace : List MirrorEvent} {result : Option (Except MirrorError MirrorHttpResponse)}
    (run : Runs (follow api client url fields hopOrigins followed) trace result) :
    (∃ error, literalRefusal client url = some error ∧ trace = [] ∧ result = some (.error error)) ∨
    (literalRefusal client url = none ∧ trace = [⟨.send url fields, none⟩] ∧ result = none) ∨
    ∃ answer rest, literalRefusal client url = none ∧
      trace = ⟨.send url fields, some answer⟩ :: rest ∧
      Runs (hopSettled api client url fields (hopOrigins ++ [url.origin]) followed
        (readResponse client answer)) rest result := by
  rw [follow_eq] at run
  cases hliteral : literalRefusal client url with
  | some error =>
      rw [send, hliteral] at run
      cases run
      exact Or.inl ⟨error, rfl, rfl, rfl⟩
  | none =>
      rw [send_eq hliteral] at run
      cases run with
      | waiting => exact Or.inr (Or.inl ⟨rfl, rfl, rfl⟩)
      | @answered _ _ answer rest _ hrest => exact Or.inr (Or.inr ⟨answer, rest, rfl, rfl, hrest⟩)

/-- After a hop the walk is over, or it goes on under the cap. -/
theorem hopSettled_cases (api : UrlApi) (client : NodeMirrorHttpClient) (url : Url) (hopOrigins : List Text)
    (followed : Nat) (outcome : Except MirrorError HopOutcome) :
    (∃ result, ∀ fields, hopSettled api client url fields hopOrigins followed outcome = .ret result) ∨
    ∃ next, ∀ fields, hopSettled api client url fields hopOrigins followed outcome =
      follow api client next (if next.origin ≠ url.origin then crossOriginHeaders fields else fields)
        hopOrigins (followed + 1) := by
  rcases outcome with error | ⟨status, head, body⟩ | location
  · exact Or.inl ⟨_, fun fields => rfl⟩
  · exact Or.inl ⟨_, fun fields => rfl⟩
  · simp only [hopSettled]
    split
    · exact Or.inl ⟨_, fun fields => rfl⟩
    · cases hopUrl api client url location with
      | error error => exact Or.inl ⟨_, fun fields => rfl⟩
      | ok next => exact Or.inr ⟨next, fun fields => rfl⟩

/-- The redirect that would make a further request is refused, and nothing follows it. -/
theorem follow_refuses {url : Url} {fields : Headers} {hopOrigins : List Text} {followed : Nat}
    {before after : List MirrorEvent} {target : Url} {carried : Headers} {answer : Exchange}
    {location : Text} {result : Option (Except MirrorError MirrorHttpResponse)}
    (run : Runs (follow api client url fields hopOrigins followed)
      (before ++ ⟨.send target carried, some answer⟩ :: after) result)
    (hredirect : readResponse client answer = .ok (.redirect location))
    (hlast : MIRROR_MAX_REDIRECT_HOPS ≤ (requestsOf before).length + followed) :
    after = [] ∧ result = some (.error (.failure .hopLimit (some (text "3")))) := by
  induction before generalizing url fields hopOrigins followed with
  | nil =>
      rcases follow_cases run with ⟨_, _, htrace, _⟩ | ⟨_, htrace, _⟩ | ⟨_, rest, _, htrace, hrun⟩
      · cases htrace
      · cases htrace
      · cases htrace
        rw [hredirect, hopSettled, if_pos (by simpa [requestsOf] using hlast)] at hrun
        cases hrun
        exact ⟨rfl, rfl⟩
  | cons e before ih =>
      rcases follow_cases run with ⟨_, _, htrace, _⟩ | ⟨_, htrace, _⟩ |
        ⟨first, rest, _, htrace, hrun⟩
      · cases htrace
      · cases before <;> cases htrace
      · obtain ⟨rfl, htail⟩ := List.cons.inj htrace
        rw [← htail] at hrun
        rcases hopSettled_cases api client url (hopOrigins ++ [url.origin]) followed
          (readResponse client first) with ⟨final, hfinal⟩ | ⟨next, hnext⟩
        · rw [hfinal] at hrun
          cases before <;> cases hrun
        · rw [hnext] at hrun
          refine ih hrun ?_
          have hlength : (requestsOf before).length + 1 + followed =
              (requestsOf before).length + (followed + 1) := by omega
          exact hlength ▸ hlast

/-- Two calls that differ at most in the headers of a request. -/
inductive SameCall : MirrorEvent → MirrorEvent → Prop
  | same {e : MirrorEvent} : SameCall e e
  | request {url : Url} {fields fields' : Headers} {answer : Option Exchange} :
      SameCall ⟨.send url fields, answer⟩ ⟨.send url fields', answer⟩

/-- A walk with other headers, of which the same may leave the origin: it can go the same way, and
its requests are the same from the first that leaves the origin on. -/
theorem follow_agrees {url : Url} {fields fields' : Headers} {hopOrigins : List Text}
    {followed : Nat} {trace : List MirrorEvent}
    {result : Option (Except MirrorError MirrorHttpResponse)}
    (run : Runs (follow api client url fields hopOrigins followed) trace result)
    (hsafe : crossOriginHeaders fields = crossOriginHeaders fields')
    (hurl : url.origin = start.origin) :
    ∃ before before' after, trace = before ++ after ∧
      StaysAt start ((requestsOf before).map Prod.fst) ∧ List.Forall₂ SameCall before before' ∧
      Runs (follow api client url fields' hopOrigins followed) (before' ++ after) result := by
  induction trace generalizing url hopOrigins followed with
  | nil =>
      rcases follow_cases run with ⟨error, hliteral, _, hresult⟩ | ⟨_, htrace, _⟩ | ⟨_, _, _, htrace, _⟩
      · refine ⟨[], [], [], rfl, by simp [requestsOf, StaysAt], .nil, ?_⟩
        rw [follow_eq, send, hliteral, hresult]
        exact .ret
      · cases htrace
      · cases htrace
  | cons e trace ih =>
      rcases follow_cases run with ⟨_, _, htrace, _⟩ | ⟨hliteral, htrace, hresult⟩ |
        ⟨answer, rest, hliteral, htrace, hrun⟩
      · cases htrace
      · cases htrace
        refine ⟨[⟨.send url fields, none⟩], [⟨.send url fields', none⟩], [], rfl, ?_,
          .cons .request .nil, ?_⟩
        · intro u hu
          rw [List.mem_singleton.mp hu, hurl]
        · rw [follow_eq, send_eq hliteral, hresult]
          exact .waiting
      · cases htrace
        have hgo : ∀ before before' after, trace = before ++ after →
            StaysAt start ((requestsOf before).map Prod.fst) → List.Forall₂ SameCall before before' →
            Runs (hopSettled api client url fields' (hopOrigins ++ [url.origin]) followed
              (readResponse client answer)) (before' ++ after) result →
            ∃ before before' after, ⟨.send url fields, some answer⟩ :: trace = before ++ after ∧
              StaysAt start ((requestsOf before).map Prod.fst) ∧
              List.Forall₂ SameCall before before' ∧
              Runs (follow api client url fields' hopOrigins followed) (before' ++ after) result := by
          intro before before' after htrace hstays hsame hrun'
          refine ⟨⟨.send url fields, some answer⟩ :: before, ⟨.send url fields', some answer⟩ :: before',
            after, by rw [htrace]; rfl, ?_, .cons .request hsame, ?_⟩
          · intro u hu
            rcases List.mem_cons.mp hu with hu | hu
            · rw [hu, hurl]
            · exact hstays u hu
          · rw [follow_eq, send_eq hliteral]
            exact .answered hrun'
        have hstays : StaysAt start ((requestsOf []).map Prod.fst) := by simp [requestsOf, StaysAt]
        rcases hopSettled_cases api client url (hopOrigins ++ [url.origin]) followed
          (readResponse client answer) with ⟨final, hfinal⟩ | ⟨next, hnext⟩
        · rw [hfinal] at hrun
          refine hgo [] [] trace rfl hstays .nil ?_
          rw [hfinal]
          exact hrun
        · rw [hnext] at hrun
          by_cases hleaves : next.origin ≠ url.origin
          · refine hgo [] [] trace rfl hstays .nil ?_
            rw [if_pos hleaves, hsafe] at hrun
            rw [hnext, if_pos hleaves]
            exact hrun
          · rw [if_neg hleaves] at hrun
            obtain ⟨before, before', after, htrace, hstays, hsame, hrun'⟩ :=
              ih hrun ((not_not.mp hleaves).trans hurl)
            refine hgo before before' after htrace hstays hsame ?_
            rw [hnext, if_neg hleaves]
            exact hrun'

theorem maySend_of_follows {sent sent' : List (Url × Headers)} {trace : List MirrorEvent}
    (h : Follows (Sending api client start headers) sent trace sent') {before after : List (Url × Headers)}
    {request : Url × Headers} (hrequests : requestsOf trace = before ++ request :: after) :
    MaySend api client start headers (sent ++ before) request.1 request.2 := by
  induction h generalizing before with
  | nil => cases before <;> cases hrequests
  | @cons s s₁ s' e trace head _ ih =>
      cases he : sentBy e with
      | none =>
          have hrest : requestsOf trace = before ++ request :: after := by
            simpa [requestsOf, he] using hrequests
          have hmay := ih hrest
          rw [head.1, he] at hmay
          simpa using hmay
      | some sentNow =>
          have hcons : sentNow :: requestsOf trace = before ++ request :: after := by
            simpa [requestsOf, he] using hrequests
          cases before with
          | nil =>
              obtain ⟨rfl, _⟩ := List.cons.inj hcons
              simpa using head.2 sentNow.1 sentNow.2 he
          | cons first before =>
              obtain ⟨rfl, hrest⟩ := List.cons.inj hcons
              have hmay := ih hrest
              rw [head.1, he] at hmay
              simpa using hmay

/-! ### Downloads -/

/-- What a download does with the end of its walk. -/
def walkEnded : Except MirrorError MirrorHttpResponse →
    MirrorProg (Except MirrorError MirrorHttpResponse)
  | .ok response => .ret (.ok response)
  | .error error => requestError error

/-- The calls of a request. -/
theorem request_call (raw : Text) (caller : List (Text × Text)) : request api client raw caller =
    .call MirrorOp.aborted fun (aborted : Bool) => if aborted = true then .ret (.error .abort) else
      match providerUrl api client raw, requestHeaders caller with
      | .error error, _ => .ret (.error error)
      | .ok _, .error error => .ret (.error error)
      | .ok url, .ok headers => follow api client url headers [] 0 >>= walkEnded :=
  rfl

theorem request_cases {raw : Text} {caller : List (Text × Text)} {trace : List MirrorEvent}
    {result : Option (Except MirrorError MirrorHttpResponse)}
    (run : Runs (request api client raw caller) trace result) :
    (requestsOf trace = [] ∧ ∀ response, result ≠ some (.ok response)) ∨
    ∃ start headers rest, providerUrl api client raw = .ok start ∧
      requestHeaders caller = .ok headers ∧ trace = ⟨.aborted, some false⟩ :: rest ∧
      Runs (follow api client start headers [] 0 >>= walkEnded) rest result := by
  rw [request_call] at run
  cases run with
  | waiting => exact Or.inl ⟨rfl, fun response h => by cases h⟩
  | @answered _ _ aborted rest _ hrest =>
      cases aborted with
      | true =>
          cases hrest
          exact Or.inl ⟨rfl, fun response h => by cases h⟩
      | false =>
          cases hurl : providerUrl api client raw with
          | error error =>
              rw [hurl] at hrest
              cases hrest
              exact Or.inl ⟨rfl, fun response h => by cases h⟩
          | ok url =>
              cases hheaders : requestHeaders caller with
              | error error =>
                  rw [hurl, hheaders] at hrest
                  cases hrest
                  exact Or.inl ⟨rfl, fun response h => by cases h⟩
              | ok headers =>
                  rw [hurl, hheaders] at hrest
                  exact Or.inr ⟨url, headers, rest, rfl, rfl, rfl, hrest⟩

theorem request_eq {raw : Text} {caller : List (Text × Text)} {start : Url} {headers : Headers}
    (hstart : providerUrl api client raw = .ok start) (hheaders : requestHeaders caller = .ok headers) :
    request api client raw caller = .call MirrorOp.aborted fun (aborted : Bool) => if aborted = true then
      .ret (.error .abort) else follow api client start headers [] 0 >>= walkEnded := by
  rw [request, hstart, hheaders]
  rfl

theorem requestError_cases {error : MirrorError} {trace : List MirrorEvent}
    {result : Option (Except MirrorError MirrorHttpResponse)}
    (run : Runs (requestError error) trace result) :
    requestsOf trace = [] ∧ ∀ settled, result = some settled → settled = .error .abort ∨
      settled = .error (.failure .httpTimeout none) ∨ settled = .error error := by
  change Runs (.call MirrorOp.aborted fun (aborted : Bool) => if aborted = true then .ret (.error .abort) else
    .call MirrorOp.timedOut fun (passed : Bool) =>
      if passed = true then .ret (.error (.failure .httpTimeout none)) else .ret (.error error))
    trace result at run
  cases run with
  | waiting => exact ⟨rfl, fun settled h => by cases h⟩
  | @answered _ _ aborted _ _ hrest =>
      cases aborted with
      | true =>
          cases hrest
          exact ⟨rfl, fun settled h => Or.inl (Option.some.inj h).symm⟩
      | false =>
          cases hrest with
          | waiting => exact ⟨rfl, fun settled h => by cases h⟩
          | @answered _ _ passed _ _ hlast =>
              cases passed with
              | true =>
                  cases hlast
                  exact ⟨rfl, fun settled h => Or.inr (Or.inl (Option.some.inj h).symm)⟩
              | false =>
                  cases hlast
                  exact ⟨rfl, fun settled h => Or.inr (Or.inr (Option.some.inj h).symm)⟩

/-- How a download can end once its walk has. -/
def EndsWith (hop result : Option (Except MirrorError MirrorHttpResponse)) : Prop :=
  (∀ response, result = some (.ok response) → hop = some (.ok response)) ∧
    ∀ error, hop = some (.error error) → ∀ settled, result = some settled →
      settled = .error .abort ∨ settled = .error (.failure .httpTimeout none) ∨
        settled = .error error

theorem walk_cases {p : MirrorProg (Except MirrorError MirrorHttpResponse)}
    {trace : List MirrorEvent} {result : Option (Except MirrorError MirrorHttpResponse)}
    (run : Runs (p >>= walkEnded) trace result) :
    ∃ hop walk tail, trace = walk ++ tail ∧ Runs p walk hop ∧ requestsOf tail = [] ∧
      EndsWith hop result := by
  rcases run.of_bind with ⟨rfl, hrun⟩ | ⟨hop, walk, tail, rfl, hrun, hend⟩
  · exact ⟨none, trace, [], by simp, hrun, rfl, (fun _ h => by cases h), fun _ h => by cases h⟩
  · cases hop with
    | ok response =>
        cases hend
        exact ⟨_, walk, [], rfl, hrun, rfl, (fun _ h => h), fun _ h => by cases h⟩
    | error error =>
        obtain ⟨hrequests, hsettled⟩ := requestError_cases hend
        refine ⟨_, walk, tail, rfl, hrun, hrequests, fun response hresult => ?_, fun e he => ?_⟩
        · rcases hsettled _ hresult with h | h | h <;> cases h
        · cases he
          exact hsettled

end

theorem requestsOf_append (before after : List MirrorEvent) :
    requestsOf (before ++ after) = requestsOf before ++ requestsOf after :=
  List.filterMap_append

section
variable (api : UrlApi) (client : NodeMirrorHttpClient)

/-- The requests of a download and the origins it reports. -/
structure Policed (raw : Text) (caller : List (Text × Text)) (requests : List (Url × Headers))
    (result : Option (Except MirrorError MirrorHttpResponse)) : Prop where
  count : requests.length ≤ MIRROR_MAX_REDIRECT_HOPS + 1
  provided : ∀ request ∈ requests, Provided api client request.1
  carried : requests ≠ [] → ∃ start headers, providerUrl api client raw = .ok start ∧
    requestHeaders caller = .ok headers ∧ (requests.map Prod.fst).head? = some start ∧
    ∀ before url fields after, requests = before ++ (url, fields) :: after →
      fields = carriedHeaders start headers (before.map Prod.fst ++ [url])
  /-- a header of the caller is sent only while every URL has the origin of the first -/
  credential : ∀ before url fields after, requests = before ++ (url, fields) :: after →
    ∀ field ∈ fields, field.1 ∉ CROSS_ORIGIN_SAFE_HEADERS →
      ∀ earlier ∈ before ++ [(url, fields)], some earlier.1.origin =
        (requests.map fun request => request.1.origin).head?
  /-- what one request leaves behind no later request has -/
  dropped : ∀ before url fields between url' fields' after,
    requests = before ++ (url, fields) :: between ++ (url', fields') :: after →
      ∀ field ∈ fields', field ∈ fields
  ledger : ∀ response, result = some (.ok response) →
    response.hopOrigins = requests.map fun request => request.1.origin

/-- The boundary of the downloads of one URL. -/
structure CredentialBoundary (raw : Text) : Prop where
  policed : ∀ caller trace result, Runs (request api client raw caller) trace result →
    Policed api client raw caller (requestsOf trace) result
  /-- the redirect after the last request is not followed -/
  refused : ∀ caller before target fields answer after location result,
    Runs (request api client raw caller) (before ++ ⟨.send target fields, some answer⟩ :: after) result →
      (requestsOf before).length = MIRROR_MAX_REDIRECT_HOPS →
      readResponse client answer = .ok (.redirect location) →
      requestsOf after = [] ∧ ∀ settled, result = some settled → settled = .error .abort ∨
        settled = .error (.failure .httpTimeout none) ∨
        settled = .error (.failure .hopLimit (some (text "3")))
  /-- callers whose headers agree on what may leave the origin get the same download, up to what
  was sent and answered before the chain left it -/
  agrees : ∀ start caller caller' headers headers' trace result,
    providerUrl api client raw = .ok start → requestHeaders caller = .ok headers →
      requestHeaders caller' = .ok headers' →
      crossOriginHeaders headers = crossOriginHeaders headers' →
      Runs (request api client raw caller) trace result →
      ∃ before before' after, trace = before ++ after ∧
        StaysAt start ((requestsOf before).map Prod.fst) ∧ List.Forall₂ SameCall before before' ∧
        Runs (request api client raw caller') (before' ++ after) result

theorem crossOriginHeaders_safe {headers : Headers} {field : Text × Text}
    (h : field ∈ crossOriginHeaders headers) : field.1 ∈ CROSS_ORIGIN_SAFE_HEADERS := by
  have hsafe := (List.mem_filter.mp h).2
  simpa using hsafe

theorem policed_of_maySend {raw : Text} {caller : List (Text × Text)} {start : Url}
    {headers : Headers} {requests : List (Url × Headers)}
    {result : Option (Except MirrorError MirrorHttpResponse)}
    (hstart : providerUrl api client raw = .ok start) (hheaders : requestHeaders caller = .ok headers)
    (hmay : ∀ before request after, requests = before ++ request :: after →
      MaySend api client start headers before request.1 request.2)
    (hledger : ∀ response, result = some (.ok response) →
      response.hopOrigins = requests.map fun request => request.1.origin) :
    Policed api client raw caller requests result := by
  have hcarried : ∀ before url fields after, requests = before ++ (url, fields) :: after →
      fields = carriedHeaders start headers (before.map Prod.fst ++ [url]) :=
    fun before url fields after h => (hmay before (url, fields) after h).carried
  have hhead : requests ≠ [] → (requests.map Prod.fst).head? = some start := by
    intro hne
    cases requests with
    | nil => exact absurd rfl hne
    | cons first rest =>
        have hfirst := (hmay [] first rest rfl).first rfl
        rw [List.map_cons, List.head?_cons, hfirst]
  refine ⟨?_, ?_, ?_, ?_, ?_, hledger⟩
  · rcases List.eq_nil_or_concat requests with rfl | ⟨before, last, hlast⟩
    · simp
    · rw [List.concat_eq_append] at hlast
      have hwithin := (hmay before last [] hlast).within
      rw [hlast, List.length_append, List.length_singleton]
      omega
  · intro request hrequest
    obtain ⟨before, after, hsplit⟩ := List.append_of_mem hrequest
    exact (hmay before request after hsplit).provided
  · exact fun hne => ⟨start, headers, hstart, hheaders, hhead hne, hcarried⟩
  · intro before url fields after hsplit field hfield hunsafe earlier hearlier
    have hne : requests ≠ [] := by
      rw [hsplit]
      simp
    have hfields := hcarried before url fields after hsplit
    have hstays : StaysAt start (before.map Prod.fst ++ [url]) := by
      by_contra hleft
      rw [carriedHeaders, if_neg hleft] at hfields
      rw [hfields] at hfield
      exact hunsafe (crossOriginHeaders_safe hfield)
    have horigin : earlier.1.origin = start.origin := by
      refine hstays earlier.1 ?_
      have hmap : earlier.1 ∈ (before ++ [(url, fields)]).map Prod.fst :=
        List.mem_map.mpr ⟨earlier, hearlier, rfl⟩
      simpa using hmap
    have hheadOrigin : (requests.map fun request => request.1.origin).head? = some start.origin := by
      have hmapped := congrArg (Option.map Url.origin) (hhead hne)
      simpa using hmapped
    rw [hheadOrigin, horigin]
  · intro before url fields between url' fields' after hsplit field hfield
    have hfields := hcarried before url fields (between ++ (url', fields') :: after)
      (by rw [hsplit]; simp)
    have hfields' := hcarried (before ++ (url, fields) :: between) url' fields' after hsplit
    rw [hfields'] at hfield
    rw [hfields]
    by_cases hstays : StaysAt start ((before ++ (url, fields) :: between).map Prod.fst ++ [url'])
    · have hearlier : StaysAt start (before.map Prod.fst ++ [url]) := by
        intro u hu
        refine hstays u ?_
        simp only [List.map_append, List.map_cons, List.mem_append, List.mem_cons,
          List.not_mem_nil, or_false] at hu ⊢
        rcases hu with hu | hu
        · exact Or.inl (Or.inl hu)
        · exact Or.inl (Or.inr (Or.inl hu))
      rw [carriedHeaders, if_pos hstays] at hfield
      rw [carriedHeaders, if_pos hearlier]
      exact hfield
    · rw [carriedHeaders, if_neg hstays] at hfield
      rw [carriedHeaders]
      split
      · exact (List.mem_filter.mp hfield).1
      · exact hfield

theorem credential_boundary (raw : Text) : CredentialBoundary api client raw := by
  refine ⟨?_, ?_, ?_⟩
  · intro caller trace result run
    rcases request_cases run with ⟨hnone, hresult⟩ | ⟨start, headers, rest, hstart, hheaders, rfl, hrest⟩
    · rw [hnone]
      exact ⟨by simp, (fun _ h => by cases h), (fun h => absurd rfl h),
        (fun before _ _ _ h => by cases before <;> cases h),
        (fun before _ _ _ _ _ _ h => by cases before <;> cases h),
        fun response h => absurd h (hresult response)⟩
    · obtain ⟨hop, walk, tail, rfl, hwalk, htail, hends⟩ := walk_cases hrest
      have hrequests : requestsOf (⟨.aborted, some false⟩ :: (walk ++ tail)) = requestsOf walk := by
        have happend := requestsOf_append walk tail
        rw [htail, List.append_nil] at happend
        exact happend
      have hwp := @wp_follow api client start headers start [] (fun _ => rfl) (Nat.zero_le _)
        (provided_of_providerUrl api client hstart)
      have hcarried : carriedHeaders start headers [start] = headers :=
        if_pos fun u hu => by rw [List.mem_singleton.mp hu]
      rw [List.map_nil, List.nil_append, hcarried] at hwp
      obtain ⟨sent, hfollows, hledgered⟩ := hwalk.follows hwp
      rw [hrequests]
      refine policed_of_maySend api client hstart hheaders (fun before request after hsplit => ?_)
        fun response hresult => ?_
      · exact maySend_of_follows hfollows hsplit
      · have hledger := hledgered _ (hends.1 response hresult) response rfl
        have hsent := follows_sending hfollows
        rw [hsent] at hledger
        simpa using hledger
  · intro caller before target fields answer after location result run hlength hredirect
    rcases request_cases run with ⟨hnone, _⟩ | ⟨start, headers, rest, hstart, hheaders, htrace, hrest⟩
    · rw [requestsOf_append] at hnone
      have hlast := (List.append_eq_nil_iff.mp hnone).2
      cases hlast
    · obtain ⟨hop, walk, tail, rfl, hwalk, htail, hends⟩ := walk_cases hrest
      cases before with
      | nil => cases htrace
      | cons first before =>
          have hsplit := (List.cons.inj htrace).2
          obtain ⟨rfl, _⟩ := List.cons.inj htrace
          rcases List.append_eq_append_iff.mp hsplit with ⟨inner, hwalk', hafter⟩ | ⟨inner, _, hafter⟩
          · cases inner with
            | nil =>
                rw [List.nil_append] at hafter
                rw [← hafter] at htail
                cases htail
            | cons e inner =>
                obtain ⟨rfl, rfl⟩ := List.cons.inj hafter
                rw [hwalk'] at hwalk
                obtain ⟨rfl, hhop⟩ := follow_refuses hwalk hredirect (by
                  have hcount : (requestsOf before).length = MIRROR_MAX_REDIRECT_HOPS := hlength
                  omega)
                exact ⟨htail, hends.2 _ hhop⟩
          · rw [hafter, requestsOf_append] at htail
            have hlast := (List.append_eq_nil_iff.mp htail).2
            cases hlast
  · intro start caller caller' headers headers' trace result hstart hheaders hheaders' hsafe run
    have hnone : StaysAt start ((requestsOf []).map Prod.fst) := by simp [requestsOf, StaysAt]
    rw [request_eq hstart hheaders] at run
    cases run with
    | waiting =>
        refine ⟨[], [], [⟨.aborted, none⟩], rfl, hnone, .nil, ?_⟩
        rw [request_eq hstart hheaders']
        exact .waiting
    | @answered _ _ aborted rest _ hrest =>
        cases aborted with
        | true =>
            refine ⟨[], [], ⟨.aborted, some true⟩ :: rest, rfl, hnone, .nil, ?_⟩
            rw [request_eq hstart hheaders']
            exact .answered hrest
        | false =>
            rw [request_eq hstart hheaders']
            change Runs (follow api client start headers [] 0 >>= walkEnded) rest result at hrest
            rcases hrest.of_bind with ⟨rfl, hwalk⟩ | ⟨hop, walk, tail, rfl, hwalk, hend⟩
            · obtain ⟨before, before', after, rfl, hstays, hsame, hwalk'⟩ :=
                follow_agrees hwalk hsafe rfl
              exact ⟨⟨.aborted, some false⟩ :: before, ⟨.aborted, some false⟩ :: before', after, rfl,
                hstays, .cons .same hsame, .answered hwalk'.bind_waiting⟩
            · obtain ⟨before, before', after, rfl, hstays, hsame, hwalk'⟩ :=
                follow_agrees hwalk hsafe rfl
              refine ⟨⟨.aborted, some false⟩ :: before, ⟨.aborted, some false⟩ :: before',
                after ++ tail, by simp, hstays, .cons .same hsame, .answered ?_⟩
              have hall := hwalk'.bind hend
              rw [List.append_assoc] at hall
              exact hall

end

end Linklint
