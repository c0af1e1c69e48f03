import Linklint.Reputation.RdapAge

/-!
# The young-domain finding

What one run of the age enricher says is read off its calls: the record it was
supplied with decides the outcome, and only a young record beside a brand signal
raises a finding.
-/

namespace Linklint

open Interaction

/-! ### What a lookup comes to -/

section
variable {Record : Type} (P : Platform) (dates : DateApi) (api : UrlApi)
  (parseJson : Text → Option Value) (domainToASCII : Text → Text) (records : RdapRecords Record)
  (options : FetchRdapDomainOptions)

/-- What is left of a trace without the readings of the signal. -/
def isSignal (e : LookupEvent Record) : Bool :=
  match e.op with
  | .aborted => true
  | _ => false

def quietCalls (trace : List (LookupEvent Record)) : List (LookupEvent Record) :=
  trace.filter fun e => !isSignal e

def storeCalls (aLabel : Text) (record : Record) : List (LookupEvent Record) :=
  if options.hasCache then [⟨.cacheSet aLabel record, some ()⟩] else []

/-- A record the cache still vouches for, or the one made of the last answer. -/
inductive Supplied (record : Record) : List (LookupEvent Record) → Prop
  | cached {before : List (LookupEvent Record)} {aLabel : Text} {expiry now : Int}
      (hlabel : toALabel P domainToASCII options.registrableDomain = some aLabel)
      (hexpiry : (records.expiresAt record).bind dates.parse = some expiry) (hfresh : now < expiry) :
      Supplied record (before ++ [⟨.cacheGet aLabel, some (some record)⟩, ⟨.now, some now⟩])
  | fetched {before : List (LookupEvent Record)} {aLabel url : Text} {response : FeedResponse}
      {parsed : Value} {now : Int}
      (hlabel : toALabel P domainToASCII options.registrableDomain = some aLabel)
      (hok : 200 ≤ response.status ∧ response.status < 300)
      (hparsed : parseJson response.body = some parsed)
      (hrecord : newRecord dates records options aLabel parsed now = some record) :
      Supplied record (before ++ ⟨.request url, some (.ok response)⟩ :: ⟨.now, some now⟩ ::
        storeCalls options aLabel record)

/-- The last answer is that the domain is not registered. -/
def NotFound (trace : List (LookupEvent Record)) : Prop :=
  ∃ before url response, trace = before ++ [⟨.request url, some (.ok response)⟩] ∧
    response.status = 404

/-- Nothing in the calls settles the lookup. -/
structure Undecided (trace : List (LookupEvent Record)) : Prop where
  supplied : ∀ record, ¬ Supplied P dates parseJson domainToASCII records options record trace
  notFound : ¬ NotFound trace

/-- What the calls say of a result; `none` is a date out of range. -/
def Comes (trace : List (LookupEvent Record)) : Option (RdapFetchResult Record) → Prop
  | some (.found record _) => Supplied P dates parseJson domainToASCII records options record trace
  | some (.noHit _) => NotFound trace
  | some (.skipped _) => Undecided P dates parseJson domainToASCII records options trace
  | some (.failure _) => Undecided P dates parseJson domainToASCII records options trace
  | none => ∃ now aLabel parsed, ⟨.now, some now⟩ ∈ trace ∧
      newRecord dates records options aLabel parsed now = none

/-- What the calls say of a read of the cache. -/
def Reads (trace : List (LookupEvent Record)) : Option Record → Prop
  | some record => Supplied P dates parseJson domainToASCII records options record trace
  | none => Undecided P dates parseJson domainToASCII records options trace

/-- A request goes to the registry's URL for the domain first, and there are only so many. -/
def AskAllowed (past : List (LookupEvent Record)) (e : LookupEvent Record) : Prop :=
  match e.op with
  | .request url =>
      (requestedOf past).length ≤ boundedRedirects options.maxRedirects ∧
        (requestedOf past = [] → ∃ baseUrl tld aLabel,
          toALabel P domainToASCII options.registrableDomain = some aLabel ∧
          resolveRdapBase P options.registry aLabel = .routed baseUrl tld ∧
          url = domainUrl baseUrl aLabel)
  | _ => True

end

section
variable {Record : Type} {P : Platform} {dates : DateApi} {api : UrlApi}
  {parseJson : Text → Option Value} {domainToASCII : Text → Text} {records : RdapRecords Record}
  {options : FetchRdapDomainOptions} {past before : List (LookupEvent Record)} {record : Record}

theorem quietCalls_append (a b : List (LookupEvent Record)) :
    quietCalls (a ++ b) = quietCalls a ++ quietCalls b := List.filter_append ..

@[simp] theorem quietCalls_signal (past : List (LookupEvent Record))
    (answer : Option (LookupAns (LookupOp.aborted : LookupOp Record))) :
    quietCalls (past ++ [⟨.aborted, answer⟩]) = quietCalls past := by
  rw [quietCalls_append]
  exact List.append_nil _

/-- A call of its own stays at the end. -/
theorem quietCalls_snoc (past : List (LookupEvent Record)) {e : LookupEvent Record}
    (h : isSignal e = false) : quietCalls (past ++ [e]) = quietCalls past ++ [e] := by
  rw [quietCalls_append, quietCalls, quietCalls, List.filter_cons_of_pos (by simp [h]),
    List.filter_nil]

/-- A supply ends in a reading of the clock, or in the store after it. -/
theorem Supplied.last {trace : List (LookupEvent Record)}
    (h : Supplied P dates parseJson domainToASCII records options record trace) :
    ∃ before e, trace = before ++ [e] ∧
      ((∃ now, e = ⟨.now, some now⟩) ∨ ∃ key, e = ⟨.cacheSet key record, some ()⟩) := by
  cases h with
  | @cached before aLabel expiry now =>
      refine ⟨before ++ [⟨.cacheGet aLabel, some (some record)⟩], ⟨.now, some now⟩, ?_, ?_⟩
      · simp
      · exact Or.inl ⟨now, rfl⟩
  | @fetched before aLabel url response parsed now =>
      by_cases hcache : options.hasCache = true
      · refine ⟨before ++ [⟨.request url, some (.ok response)⟩, ⟨.now, some now⟩],
          ⟨.cacheSet aLabel record, some ()⟩, ?_, ?_⟩
        · simp [storeCalls, hcache]
        · exact Or.inr ⟨aLabel, rfl⟩
      · refine ⟨before ++ [⟨.request url, some (.ok response)⟩], ⟨.now, some now⟩, ?_, ?_⟩
        · simp [storeCalls, hcache]
        · exact Or.inl ⟨now, rfl⟩

theorem not_supplied_nil :
    ¬ Supplied P dates parseJson domainToASCII records options record [] := fun h => by
  obtain ⟨before, e, htrace, -⟩ := h.last
  exact List.append_ne_nil_of_right_ne_nil before (List.cons_ne_nil e []) htrace.symm

theorem not_supplied_request {url : Text}
    {answer : Option (Except FeedError FeedResponse)} :
    ¬ Supplied P dates parseJson domainToASCII records options record
      (before ++ [⟨.request url, answer⟩]) := fun h => by
  obtain ⟨before', e, htrace, hlast⟩ := h.last
  obtain ⟨-, hevent⟩ := List.append_inj' htrace rfl
  rcases hlast with ⟨now, rfl⟩ | ⟨key, rfl⟩ <;> cases hevent

theorem not_supplied_read (before : List (LookupEvent Record)) {key : Text}
    {answer : Option (Option Record)} :
    ¬ Supplied P dates parseJson domainToASCII records options record
      (before ++ [⟨.cacheGet key, answer⟩]) := fun h => by
  obtain ⟨before', e, htrace, hlast⟩ := h.last
  obtain ⟨-, hevent⟩ := List.append_inj' htrace rfl
  rcases hlast with ⟨now, rfl⟩ | ⟨key, rfl⟩ <;> cases hevent

/-- A supply whose last call reads the clock. -/
theorem Supplied.before_now {e : LookupEvent Record} {now : Int}
    (h : Supplied P dates parseJson domainToASCII records options record
      (before ++ [e, ⟨.now, some now⟩])) :
    (∃ key expiry, e = ⟨.cacheGet key, some (some record)⟩ ∧
      (records.expiresAt record).bind dates.parse = some expiry ∧ now < expiry) ∨
    ∃ url response parsed aLabel, e = ⟨.request url, some (.ok response)⟩ ∧
      toALabel P domainToASCII options.registrableDomain = some aLabel ∧
      parseJson response.body = some parsed ∧
      newRecord dates records options aLabel parsed now = some record := by
  generalize htrace : before ++ [e, ⟨.now, some now⟩] = trace at h
  cases h with
  | @cached before' aLabel expiry now' hlabel hexpiry hfresh =>
      obtain ⟨-, hevents⟩ := List.append_inj' htrace rfl
      cases hevents
      exact Or.inl ⟨aLabel, expiry, rfl, hexpiry, hfresh⟩
  | @fetched before' aLabel url response parsed now' hlabel hok hparsed hrecord =>
      by_cases hcache : options.hasCache = true
      · have hlast := congrArg List.getLast? htrace
        simp [storeCalls, hcache] at hlast
      · rw [storeCalls, if_neg hcache] at htrace
        obtain ⟨-, hevents⟩ := List.append_inj' htrace rfl
        cases hevents
        exact Or.inr ⟨url, response, parsed, aLabel, rfl, hlabel, hparsed, hrecord⟩

/-- The calls decide which record was supplied. -/
theorem Supplied.unique {record' : Record} {trace : List (LookupEvent Record)}
    (h : Supplied P dates parseJson domainToASCII records options record trace)
    (h' : Supplied P dates parseJson domainToASCII records options record' trace) :
    record' = record := by
  cases h with
  | @cached before aLabel expiry now hlabel hexpiry hfresh =>
      rcases h'.before_now with ⟨key, expiry', hevent, -⟩ |
        ⟨url, response, parsed, aLabel', hevent, -⟩
      · cases hevent
        rfl
      · cases hevent
  | @fetched before aLabel url response parsed now hlabel hok hparsed hrecord =>
      by_cases hcache : options.hasCache = true
      · rw [storeCalls, if_pos hcache] at h'
        obtain ⟨before', e, htrace, hlast⟩ := h'.last
        have hlast' := congrArg List.getLast? htrace
        rcases hlast with ⟨now', rfl⟩ | ⟨key, rfl⟩
        · simp at hlast'
        · simp at hlast'
          exact hlast'.1.2.symm
      · rw [storeCalls, if_neg hcache] at h'
        rcases h'.before_now with ⟨key, expiry', hevent, -⟩ |
          ⟨url', response', parsed', aLabel', hevent, hlabel', hparsed', hrecord'⟩
        · cases hevent
        · cases hevent
          cases hlabel.symm.trans hlabel'
          cases hparsed.symm.trans hparsed'
          exact Option.some.inj (hrecord'.symm.trans hrecord)

theorem not_notFound_of_last (before : List (LookupEvent Record)) {e : LookupEvent Record}
    (h : ∀ url response, e = ⟨.request url, some (.ok response)⟩ → response.status ≠ 404) :
    ¬ NotFound (before ++ [e]) := by
  rintro ⟨before', url, response, htrace, hstatus⟩
  obtain ⟨-, hevent⟩ := List.append_inj' htrace rfl
  exact h url response (List.cons.inj hevent).1 hstatus

theorem not_notFound_nil : ¬ NotFound ([] : List (LookupEvent Record)) := by
  rintro ⟨before, url, response, htrace, -⟩
  exact List.append_ne_nil_of_right_ne_nil before (List.cons_ne_nil _ []) htrace.symm

theorem undecided_nil : Undecided P dates parseJson domainToASCII records options [] :=
  ⟨fun _ => not_supplied_nil, not_notFound_nil⟩

/-- An answer that is neither a 404 nor followed by a record leaves the lookup undecided. -/
theorem undecided_request {url : Text}
    {answer : Option (Except FeedError FeedResponse)}
    (h : ∀ response, answer = some (.ok response) → response.status ≠ 404) :
    Undecided P dates parseJson domainToASCII records options
      (before ++ [⟨.request url, answer⟩]) where
  supplied _ := not_supplied_request
  notFound := not_notFound_of_last _ fun url' response hevent => by
    cases hevent
    exact h response rfl

theorem Supplied.not_notFound {trace : List (LookupEvent Record)}
    (h : Supplied P dates parseJson domainToASCII records options record trace) :
    ¬ NotFound trace := by
  rintro ⟨before, url, response, rfl, -⟩
  exact not_supplied_request h

/-! ### The lookup -/

theorem requestedOf_quietCalls (past : List (LookupEvent Record)) :
    requestedOf (quietCalls past) = requestedOf past := by
  induction past with
  | nil => rfl
  | cons e past ih =>
      obtain ⟨op, answer⟩ := e
      cases op with
      | request url => exact congrArg (url :: ·) ih
      | _ => exact ih

/-- Calls that request nothing are allowed. -/
theorem wp_asking {α : Type} {op : LookupOp Record} {rest : LookupAns op → LookupProg Record α}
    {post : α → List (LookupEvent Record) → Prop} (hop : ∀ url, op ≠ .request url)
    (h : ∀ answer, wp (Records (AskAllowed P domainToASCII options)) (rest answer) post
      (past ++ [⟨op, some answer⟩])) :
    wp (Records (AskAllowed P domainToASCII options)) (.call op rest) post past := by
  refine wp_recorded (fun answer => ?_) h
  cases op with
  | request url => exact absurd rfl (hop url)
  | _ => trivial

theorem wp_terminalResult_comes {response : FeedResponse} {aLabel url : Text}
    (hlabel : toALabel P domainToASCII options.registrableDomain = some aLabel)
    (hpast : quietCalls past = before ++ [⟨.request url, some (.ok response)⟩]) :
    wp (Records (AskAllowed P domainToASCII options))
      (terminalResult P dates parseJson records options response aLabel)
      (fun result past' =>
        Comes P dates parseJson domainToASCII records options (quietCalls past') result) past := by
  by_cases hmissing : response.status = 404
  · rw [terminalResult, if_pos hmissing]
    exact ⟨before, url, response, hpast, hmissing⟩
  have hundecided : Undecided P dates parseJson domainToASCII records options (quietCalls past) := by
    rw [hpast]
    refine undecided_request fun response' h => ?_
    cases h
    exact hmissing
  by_cases hthrottled : response.status = 429
  · rw [terminalResult, if_neg hmissing, if_pos hthrottled]
    exact hundecided
  by_cases hok : response.status < 200 ∨ 300 ≤ response.status
  · rw [terminalResult, if_neg hmissing, if_neg hthrottled, if_pos hok]
    exact hundecided
  cases hparsed : parseJson response.body with
  | none =>
      rw [terminalResult, if_neg hmissing, if_neg hthrottled, if_neg hok, hparsed]
      exact hundecided
  | some parsed =>
      rw [terminalResult_parsed aLabel hmissing hthrottled hok hparsed]
      refine wp_asking (fun _ h => by cases h) fun (now : Int) => ?_
      have hread : quietCalls (past ++ [⟨.now, some now⟩]) =
          before ++ [⟨.request url, some (.ok response)⟩, ⟨.now, some now⟩] := by
        rw [quietCalls_snoc past rfl, hpast]
        simp
      cases hrecord : newRecord dates records options aLabel parsed now with
      | none =>
          refine ⟨now, aLabel, parsed, ?_, hrecord⟩
          rw [hread]
          simp
      | some record =>
          have hsupplied : Supplied P dates parseJson domainToASCII records options record
              (before ++ ⟨.request url, some (.ok response)⟩ :: ⟨.now, some now⟩ ::
                storeCalls options aLabel record) :=
            .fetched hlabel (by omega) hparsed hrecord
          by_cases hcache : options.hasCache = true
          · simp only [hcache]
            refine wp_asking (fun _ h => by cases h) fun _ => ?_
            change Supplied P dates parseJson domainToASCII records options record
              (quietCalls (past ++ [⟨.now, some now⟩] ++ [⟨.cacheSet aLabel record, some ()⟩]))
            rw [quietCalls_snoc _ rfl, hread]
            simpa [storeCalls, hcache] using hsupplied
          · simp only [hcache]
            change Supplied P dates parseJson domainToASCII records options record
              (quietCalls (past ++ [⟨.now, some now⟩]))
            rw [hread]
            simpa [storeCalls, hcache] using hsupplied

/-- Whatever the loop ends in is read off its calls. -/
theorem wp_followRedirects_comes {aLabel : Text} (remaining : Nat) {url : Text} (seen : List Text)
    (hlabel : toALabel P domainToASCII options.registrableDomain = some aLabel)
    (hundecided : Undecided P dates parseJson domainToASCII records options (quietCalls past))
    (hcount : (requestedOf past).length + remaining ≤ boundedRedirects options.maxRedirects + 1)
    (hstart : requestedOf past = [] → ∃ baseUrl tld,
      resolveRdapBase P options.registry aLabel = .routed baseUrl tld ∧
        url = domainUrl baseUrl aLabel) :
    wp (Records (AskAllowed P domainToASCII options))
      (followRedirects P dates api parseJson records options aLabel remaining url seen)
      (fun result past' =>
        Comes P dates parseJson domainToASCII records options (quietCalls past') result) past := by
  induction remaining generalizing url seen past with
  | zero => exact hundecided
  | succ remaining ih =>
      rw [followRedirects_succ]
      refine wp_asking (fun _ h => by cases h) fun (fired : Bool) => ?_
      have hquiet := quietCalls_signal past (some fired)
      have hkept : Undecided P dates parseJson domainToASCII records options
          (quietCalls (past ++ [⟨.aborted, some fired⟩])) := by
        rw [hquiet]
        exact hundecided
      cases fired with
      | true => exact hkept
      | false =>
          rw [if_neg Bool.false_ne_true]
          by_cases hseen : seen.contains url = true
          · rw [if_pos hseen]
            exact hkept
          · rw [if_neg hseen]
            have hrequested : requestedOf (past ++ [⟨.aborted, some false⟩]) = requestedOf past := by
              rw [requestedOf_append]
              exact List.append_nil _
            refine wp_recorded (fun _ => ?_) fun answer => ?_
            · refine ⟨?_, fun hnone => ?_⟩
              · rw [hrequested]
                omega
              · obtain ⟨baseUrl, tld, hrouted, hurl⟩ := hstart (hrequested ▸ hnone)
                exact ⟨baseUrl, tld, aLabel, hlabel, hrouted, hurl⟩
            have hasked : quietCalls (past ++ [⟨.aborted, some false⟩] ++
                [⟨.request url, some answer⟩]) =
                quietCalls past ++ [⟨.request url, some answer⟩] := by
              rw [quietCalls_snoc _ rfl, hquiet]
            cases answer with
            | error error =>
                have hfailed : Undecided P dates parseJson domainToASCII records options
                    (quietCalls (past ++ [⟨.aborted, some false⟩] ++
                      [⟨.request url, some (.error error)⟩])) := by
                  rw [hasked]
                  exact undecided_request fun _ h => by cases h
                refine wp_asking (fun _ h => by cases h) fun (fired : Bool) => ?_
                rw [← quietCalls_signal _ (some fired)] at hfailed
                cases fired <;> exact hfailed
            | ok response =>
                dsimp only
                by_cases hredirect : RdapClient.REDIRECT_STATUSES.contains response.status = true
                · rw [if_pos hredirect]
                  have hmoved : Undecided P dates parseJson domainToASCII records options
                      (quietCalls (past ++ [⟨.aborted, some false⟩] ++
                        [⟨.request url, some (.ok response)⟩])) := by
                    rw [hasked]
                    refine undecided_request fun response' h => ?_
                    cases h
                    intro hstatus
                    rw [hstatus] at hredirect
                    exact absurd hredirect (by decide)
                  cases hlocation : locationHeader P response with
                  | none => exact hmoved
                  | some location =>
                      have hlength : requestedOf (past ++ [⟨.aborted, some false⟩] ++
                          [⟨.request url, some (.ok response)⟩]) = requestedOf past ++ [url] := by
                        rw [requestedOf_append, hrequested]
                        rfl
                      refine ih _ hmoved ?_ fun hnone => ?_
                      · rw [hlength, List.length_append, List.length_singleton]
                        omega
                      · rw [hlength] at hnone
                        exact absurd hnone (by simp)
                · rw [if_neg hredirect]
                  exact wp_terminalResult_comes hlabel hasked

/-- The cache hands over a record that is fresh, or leaves the lookup undecided. -/
theorem wp_readThrough_comes (parseJson : Text → Option Value) {aLabel : Text}
    (hlabel : toALabel P domainToASCII options.registrableDomain = some aLabel)
    (hquiet : quietCalls past = []) (hnone : requestedOf past = []) :
    wp (Records (AskAllowed P domainToASCII options)) (readThrough dates records options aLabel)
      (fun stored past' => requestedOf past' = [] ∧
        Reads P dates parseJson domainToASCII records options (quietCalls past') stored) past := by
  have hstart : Undecided P dates parseJson domainToASCII records options (quietCalls past) := by
    rw [hquiet]
    exact undecided_nil
  rw [readThrough]
  by_cases hcache : options.hasCache = true
  · rw [if_pos hcache]
    refine wp_asking (fun _ h => by cases h) fun (cached : Option Record) => ?_
    have hread : requestedOf (past ++ [⟨.cacheGet aLabel, some cached⟩]) = [] := by
      rw [requestedOf_append, hnone]
      rfl
    have hcalls : quietCalls (past ++ [⟨.cacheGet aLabel, some cached⟩]) =
        [⟨.cacheGet aLabel, some cached⟩] := by
      rw [quietCalls_snoc _ rfl, hquiet]
      rfl
    have hmissed : Undecided P dates parseJson domainToASCII records options
        (quietCalls (past ++ [⟨.cacheGet aLabel, some cached⟩])) := by
      rw [hcalls]
      exact ⟨fun _ => not_supplied_read [], not_notFound_of_last [] fun _ _ h => by cases h⟩
    cases cached with
    | none => exact ⟨hread, hmissed⟩
    | some record =>
        change wp _ (isFresh dates records record >>= _) _ _
        rw [wp_bind, isFresh]
        cases hexpiry : (records.expiresAt record).bind dates.parse with
        | none => exact ⟨hread, hmissed⟩
        | some expiry =>
            refine wp_asking (fun _ h => by cases h) fun (now : Int) => ?_
            have hnow : requestedOf (past ++ [⟨.cacheGet aLabel, some (some record)⟩] ++
                [⟨.now, some now⟩]) = [] := by
              rw [requestedOf_append, hread]
              rfl
            have htimed : quietCalls (past ++ [⟨.cacheGet aLabel, some (some record)⟩] ++
                [⟨.now, some now⟩]) =
                [] ++ [⟨.cacheGet aLabel, some (some record)⟩, ⟨.now, some now⟩] := by
              rw [quietCalls_snoc _ rfl, hcalls]
              rfl
            change requestedOf (past ++ [⟨.cacheGet aLabel, some (some record)⟩] ++
              [⟨.now, some now⟩]) = [] ∧ _
            refine ⟨hnow, ?_⟩
            by_cases hfresh : now < expiry
            · rw [decide_eq_true hfresh]
              change Supplied P dates parseJson domainToASCII records options record
                (quietCalls (past ++ [⟨.cacheGet aLabel, some (some record)⟩] ++
                  [⟨.now, some now⟩]))
              rw [htimed]
              exact .cached hlabel hexpiry hfresh
            · rw [decide_eq_false hfresh]
              change Undecided P dates parseJson domainToASCII records options
                (quietCalls (past ++ [⟨.cacheGet aLabel, some (some record)⟩] ++
                  [⟨.now, some now⟩]))
              rw [htimed]
              refine ⟨fun record' h => ?_, not_notFound_of_last
                [⟨.cacheGet aLabel, some (some record)⟩] fun _ _ h => by cases h⟩
              rcases h.before_now with ⟨key, expiry', hevent, hexpiry', hfresh'⟩ |
                ⟨url, response, parsed, aLabel', hevent, -⟩
              · cases hevent
                cases hexpiry.symm.trans hexpiry'
                exact hfresh hfresh'
              · cases hevent
  · rw [if_neg hcache]
    exact ⟨hnone, hstart⟩

theorem wp_fetchRdapDomain_comes :
    wp (Records (AskAllowed P domainToASCII options))
      (fetchRdapDomain P dates api parseJson domainToASCII records options)
      (fun result past' =>
        Comes P dates parseJson domainToASCII records options (quietCalls past') result) [] := by
  rw [fetchRdapDomain_eq]
  refine wp_asking (fun _ h => by cases h) fun (fired : Bool) => ?_
  have hundecided : Undecided P dates parseJson domainToASCII records options
      (quietCalls ([] ++ [⟨.aborted, some fired⟩])) := by
    rw [quietCalls_signal]
    exact undecided_nil
  cases fired with
  | true => exact hundecided
  | false =>
      rw [if_neg Bool.false_ne_true]
      cases hlabel : toALabel P domainToASCII options.registrableDomain with
      | none => exact hundecided
      | some aLabel =>
          dsimp only
          rw [wp_bind]
          refine wp_mono (wp_readThrough_comes parseJson hlabel rfl rfl) fun stored past' hstored => ?_
          obtain ⟨hnone, hread⟩ := hstored
          cases stored with
          | some record => exact hread
          | none =>
              dsimp only
              cases hrouted : resolveRdapBase P options.registry aLabel with
              | unsupportedTld tld => exact hread
              | routed baseUrl tld =>
                  refine wp_followRedirects_comes _ [] hlabel hread ?_ fun _ => ?_
                  · rw [hnone, List.length_nil]
                    omega
                  · exact ⟨baseUrl, tld, hrouted, rfl⟩

/-! ### The record of an answer -/

theorem newRecord_eq_some {aLabel : Text} {parsed : Value} {now : Int}
    (h : newRecord dates records options aLabel parsed now = some record) :
    ∃ observedText expiresAt, dates.toISOString now = some observedText ∧
      record = records.normalize parsed aLabel observedText expiresAt ∧
      ∀ s, expiresAt = some s → ∃ ms, dates.toISOString ms = some s := by
  rw [newRecord] at h
  cases httl : positiveMs options.cacheTtlMs with
  | none =>
      rw [httl] at h
      obtain ⟨expiresAt, hexpires, h⟩ := Option.bind_eq_some_iff.mp h
      obtain ⟨observedText, hobserved, hrecord⟩ := Option.bind_eq_some_iff.mp h
      cases hexpires
      exact ⟨observedText, none, hobserved, (Option.some.inj hrecord).symm, fun _ h => by cases h⟩
  | some ttl =>
      rw [httl] at h
      obtain ⟨expiresAt, hexpires, h⟩ := Option.bind_eq_some_iff.mp h
      obtain ⟨observedText, hobserved, hrecord⟩ := Option.bind_eq_some_iff.mp h
      obtain ⟨written, hwritten, rfl⟩ := Option.map_eq_some_iff.mp hexpires
      refine ⟨observedText, some written, hobserved, (Option.some.inj hrecord).symm, fun s h => ?_⟩
      cases h
      exact ⟨_, hwritten⟩

/-- No record is made where a date to write is out of range. -/
theorem newRecord_eq_none {aLabel : Text} {parsed : Value} {now : Int}
    (h : newRecord dates records options aLabel parsed now = none) :
    timeClip now = none ∨
      ∃ ttl, positiveMs options.cacheTtlMs = some ttl ∧ timeClip (now + ttl) = none := by
  rw [newRecord] at h
  by_cases hnow : timeClip now = none
  · exact Or.inl hnow
  obtain ⟨instant, hinstant⟩ := Option.ne_none_iff_exists'.mp hnow
  cases httl : positiveMs options.cacheTtlMs with
  | none =>
      rw [httl] at h
      simp [DateApi.toISOString, hinstant] at h
  | some ttl =>
      rw [httl] at h
      refine Or.inr ⟨ttl, rfl, ?_⟩
      by_contra hexpiry
      obtain ⟨instant', hinstant'⟩ := Option.ne_none_iff_exists'.mp hexpiry
      simp [DateApi.toISOString, hinstant, hinstant'] at h

/-! ### The requests of a lookup -/

theorem requestedOf_length_le {n : Nat} {trace : List (LookupEvent Record)}
    (h : ∀ before url answer after, trace = before ++ ⟨.request url, answer⟩ :: after →
      (requestedOf before).length ≤ n) : (requestedOf trace).length ≤ n + 1 := by
  induction trace using List.reverseRecOn with
  | nil => exact Nat.zero_le _
  | append_singleton trace e ih =>
      have hbefore : (requestedOf trace).length ≤ n + 1 :=
        ih fun before url answer after htrace => h before url answer (after ++ [e]) (by simp [htrace])
      rw [requestedOf_append, List.length_append]
      cases hrequested : requestedBy e with
      | none =>
          have hsingle : requestedOf [e] = [] := List.filterMap_cons_none hrequested
          rw [hsingle, List.length_nil]
          omega
      | some url =>
          obtain ⟨answer, rfl⟩ := eq_of_requestedBy hrequested
          have hlast := h trace url answer [] rfl
          have hsingle : requestedOf [(⟨.request url, answer⟩ : LookupEvent Record)] = [url] := rfl
          rw [hsingle, List.length_singleton]
          omega

/-- What a lookup hands to its client. -/
structure Asks (P : Platform) (domainToASCII : Text → Text) (options : FetchRdapDomainOptions)
    (trace : List (LookupEvent Record)) : Prop where
  bounded : (requestedOf trace).length ≤ MAX_RDAP_REDIRECTS + 1
  first : ∀ url, (requestedOf trace).head? = some url → ∃ baseUrl tld aLabel,
    toALabel P domainToASCII options.registrableDomain = some aLabel ∧
    resolveRdapBase P options.registry aLabel = .routed baseUrl tld ∧
    url = domainUrl baseUrl aLabel

theorem boundedRedirects_le (value : Option JsNum) : boundedRedirects value ≤ MAX_RDAP_REDIRECTS := by
  rw [boundedRedirects]
  split
  · exact Nat.min_le_right _ _
  · decide

theorem asks_of_recorded {trace : List (LookupEvent Record)}
    (h : ∀ before e after, trace = before ++ e :: after → AskAllowed P domainToASCII options before e) :
    Asks P domainToASCII options trace where
  bounded := by
    have hlength : (requestedOf trace).length ≤ boundedRedirects options.maxRedirects + 1 :=
      requestedOf_length_le fun before url answer after htrace =>
        (h before ⟨.request url, answer⟩ after htrace).1
    have hbound := boundedRedirects_le options.maxRedirects
    omega
  first := by
    intro url hfirst
    have hsome : requestedOf trace ≠ [] := by
      intro hnone
      rw [hnone] at hfirst
      cases hfirst
    obtain ⟨before, url', answer, after, rfl, hnone⟩ := first_request hsome
    obtain rfl : url' = url := by
      rw [requestedOf_append, hnone] at hfirst
      exact Option.some.inj hfirst
    exact (h before ⟨.request url', answer⟩ after rfl).2 hnone

/-- What every run of a lookup asks and comes to. -/
theorem fetchRdapDomain_comes {trace : List (LookupEvent Record)}
    {result : Option (Option (RdapFetchResult Record))}
    (run : Runs (fetchRdapDomain P dates api parseJson domainToASCII records options) trace
      result) :
    Asks P domainToASCII options trace ∧ ∀ r, result = some r →
      Comes P dates parseJson domainToASCII records options (quietCalls trace) r := by
  obtain ⟨past', hfollows, hpost⟩ := run.follows wp_fetchRdapDomain_comes
  obtain ⟨rfl, hallowed⟩ := hfollows.recorded
  exact ⟨asks_of_recorded hallowed, hpost⟩

end

namespace RdapAge

section
variable {options : RdapAgeEnricherOptions} {dates : DateApi} {P : Platform} {api : UrlApi}
  {parseJson : Text → Option Value} {domainToASCII : Text → Text} {result : InspectResult}

theorem unknownCalls_noSignal (trace : List (LookupEvent RdapDomainRecord)) :
    unknownCalls noSignal trace = quietCalls trace := by
  refine List.filter_congr fun e _ => ?_
  obtain ⟨op, answer⟩ := e
  cases op <;> rfl

/-- Every run of the enricher's lookup. -/
theorem lookUp_comes {registry : RdapBootstrapRegistry} {domain : Text}
    {trace : List (LookupEvent RdapDomainRecord)}
    {answer : Option (Option (RdapFetchResult RdapDomainRecord))}
    (run : Runs (lookUp options dates P api parseJson domainToASCII registry domain) trace answer) :
    Asks P domainToASCII (fetchOptions options registry domain) trace ∧ ∀ r, answer = some r →
      Comes P dates parseJson domainToASCII (rdapRecords dates)
        (fetchOptions options registry domain) trace r := by
  obtain ⟨full, hrun, rfl⟩ := run.of_answering
  obtain ⟨hasks, hcomes⟩ := fetchRdapDomain_comes hrun
  rw [unknownCalls_noSignal]
  refine ⟨⟨?_, ?_⟩, hcomes⟩
  · rw [requestedOf_quietCalls]
    exact hasks.bounded
  · rw [requestedOf_quietCalls]
    exact hasks.first

end

/-! ### The age of a record -/

section
variable (dates : DateApi)

/-- The record is of a registration less than so many days before the observation. -/
def YoungerThan (days : Nat) (record : RdapDomainRecord) (observedAt : Int) : Prop :=
  ∃ registered, record.registrationDate.bind dates.parse = some registered ∧
    max (observedAt - registered) 0 < days * MS_PER_DAY

theorem ageInDays_lt_iff {registrationDate : Option Text} {observedAt : Int} {days : Nat} :
    (∃ age, ageInDays dates registrationDate observedAt = some age ∧ age < days) ↔
      ∃ registered, registrationDate.bind dates.parse = some registered ∧
        max (observedAt - registered) 0 < days * MS_PER_DAY := by
  rw [ageInDays]
  cases registrationDate.bind dates.parse with
  | none => simp
  | some registered =>
      have hday : MS_PER_DAY = 86400000 := rfl
      simp only [Option.map_some, Option.some.injEq, exists_eq_left', hday]
      by_cases hfuture : observedAt - registered < 0
      · rw [if_pos hfuture]
        omega
      · rw [if_neg hfuture]
        omega

theorem youngAge_isSome_iff {record : RdapDomainRecord} {ctx : FoundContext} :
    (youngAge dates record ctx).isSome = true ↔
      YoungerThan dates ctx.thresholdDays record ctx.observedAt := by
  rw [YoungerThan, ← ageInDays_lt_iff, youngAge]
  cases ageInDays dates record.registrationDate ctx.observedAt with
  | none => simp
  | some age => simp [Option.filter]

/-- A finding is raised exactly when both signals agree. -/
theorem foundFindings_ne_nil_iff (record : RdapDomainRecord) (ctx : FoundContext) :
    foundFindings dates record ctx ≠ [] ↔
      ctx.corroborated = true ∧ YoungerThan dates ctx.thresholdDays record ctx.observedAt := by
  rw [← youngAge_isSome_iff, foundFindings]
  cases youngAge dates record ctx with
  | none => simp
  | some days => cases hcorroborated : ctx.corroborated <;> simp

theorem foundFindings_single (record : RdapDomainRecord) (ctx : FoundContext) :
    foundFindings dates record ctx = [] ∨ ∃ days < ctx.thresholdDays,
      foundFindings dates record ctx = [youngFinding record.domain days ctx.thresholdDays] := by
  rw [foundFindings]
  cases hyoung : youngAge dates record ctx with
  | none => exact Or.inl rfl
  | some days =>
      obtain ⟨-, hdays⟩ := Option.filter_eq_some_iff.mp hyoung
      dsimp only
      split
      · exact Or.inr ⟨days, by simpa using hdays, rfl⟩
      · exact Or.inl rfl

end

/-! ### What a run reports -/

section
variable (options : RdapAgeEnricherOptions) (dates : DateApi) (P : Platform)
  (parseJson : Text → Option Value) (domainToASCII : Text → Text) (result : InspectResult)

/-- The lookup the enricher makes, when it makes one. -/
def Routes (observedAt : TimeValue) (lookup : FetchRdapDomainOptions) : Prop :=
  ∃ domain registry, registrableDomainOf result = some domain ∧
    resolveBootstrap dates observedAt options.registry = .usable registry ∧
    lookup = fetchOptions options registry domain

/-- The calls supplied the record of the result's registrable domain. -/
def Supplies (observedAt : TimeValue) (record : RdapDomainRecord)
    (rest : List (LookupEvent RdapDomainRecord)) : Prop :=
  ∃ lookup, Routes options dates result observedAt lookup ∧
    Supplied P dates parseJson domainToASCII (rdapRecords dates) lookup record rest

/-- An outcome, against the calls made after the observation. -/
structure Reports (observedAt : Int) (rest : List (LookupEvent RdapDomainRecord))
    (outcome : EnrichmentOutcome) : Prop where
  success : outcome.status = .success ↔
    ∃ record, Supplies options dates P parseJson domainToASCII result (some observedAt) record rest
  noHit : outcome.status = .noHit ↔ NotFound rest
  evidence : ∀ record,
    Supplies options dates P parseJson domainToASCII result (some observedAt) record rest →
      outcome.evidence.map (Option.map EnrichmentEvidence.payload) =
        [some (domainPayload record (ageInDays dates record.registrationDate observedAt))]
  bare : outcome.status ≠ .success → outcome.evidence = []
  finding : outcome.findings ≠ [] ↔
    hasCorroboratingBrandSignal result options.corroborating = true ∧ ∃ record,
      Supplies options dates P parseJson domainToASCII result (some observedAt) record rest ∧
      YoungerThan dates options.thresholdDays record observedAt
  single : outcome.findings = [] ∨ ∃ domain, ∃ days < options.thresholdDays,
    outcome.findings = [some (youngFinding domain days options.thresholdDays)]

/-- An instant that no `Date` stands for. -/
def OutOfRange (now : Int) : Prop :=
  timeClip now = none ∨
    ∃ ttl, positiveMs options.cacheTtlMs = some ttl ∧ timeClip (now + ttl) = none

/-- One run of the enricher, finished or not. -/
structure AgeRun (trace : List (LookupEvent RdapDomainRecord))
    (answer : Option (Option EnrichmentReport)) (first : Option Int)
    (rest : List (LookupEvent RdapDomainRecord)) : Prop where
  observed : trace = ⟨.now, first⟩ :: rest
  asks : rest = [] ∨ ∃ now lookup, first = some now ∧
    Routes options dates result (timeClip now) lookup ∧ Asks P domainToASCII lookup rest
  rejects : answer = some none → ∃ now, ⟨.now, some now⟩ ∈ trace ∧ OutOfRange options now
  reports : ∀ report, answer = some (some report) → ∃ now observedAt outcome,
    first = some now ∧ timeClip now = some observedAt ∧ report.outcomes = [some outcome] ∧
      Reports options dates P parseJson domainToASCII result observedAt rest outcome

end

section
variable {options : RdapAgeEnricherOptions} {dates : DateApi} {P : Platform} {api : UrlApi}
  {parseJson : Text → Option Value} {domainToASCII : Text → Text} {result : InspectResult}
  {observedAt : Int} {rest : List (LookupEvent RdapDomainRecord)} {record : RdapDomainRecord}

theorem Routes.unique {now : TimeValue} {lookup lookup' : FetchRdapDomainOptions}
    (h : Routes options dates result now lookup) (h' : Routes options dates result now lookup') :
    lookup' = lookup := by
  obtain ⟨domain, registry, hdomain, hregistry, rfl⟩ := h
  obtain ⟨domain', registry', hdomain', hregistry', rfl⟩ := h'
  cases hdomain.symm.trans hdomain'
  cases hregistry.symm.trans hregistry'
  rfl

/-- Nothing is supplied where the calls leave the lookup undecided. -/
theorem not_supplies {now : TimeValue}
    (h : ∀ lookup, Routes options dates result now lookup → ∀ record,
      ¬ Supplied P dates parseJson domainToASCII (rdapRecords dates) lookup record rest) :
    ¬ ∃ record, Supplies options dates P parseJson domainToASCII result now record rest := by
  rintro ⟨record, lookup, hroutes, hsupplied⟩
  exact h lookup hroutes record hsupplied

/-- An outcome without evidence reports that nothing was supplied. -/
theorem reports_empty {status : OutcomeStatus} {cause : Option EnrichmentCause}
    {subject : EnrichmentSubject} (hstatus : status ≠ .success)
    (hnone : ¬ ∃ record,
      Supplies options dates P parseJson domainToASCII result (some observedAt) record rest)
    (hmissing : status = .noHit ↔ NotFound rest) :
    Reports options dates P parseJson domainToASCII result observedAt rest
      (emptyOutcome dates status subject observedAt cause) where
  success := iff_of_false hstatus hnone
  noHit := hmissing
  evidence record h := absurd ⟨record, h⟩ hnone
  bare _ := rfl
  finding := by
    refine iff_of_false (fun h => h rfl) ?_
    rintro ⟨-, record, h, -⟩
    exact hnone ⟨record, h⟩
  single := Or.inl rfl

/-- A supplied record has an expiry that reads as a date, or none. -/
theorem expiry_of_supplied {lookup : FetchRdapDomainOptions}
    (h : Supplied P dates parseJson domainToASCII (rdapRecords dates) lookup record rest)
    {expiresAt : Text} (hexpires : record.expiresAt = some expiresAt) :
    ∃ expiry, dates.parse expiresAt = some expiry := by
  cases h with
  | @cached before aLabel expiry now hlabel hexpiry hfresh =>
      have hread : (record.expiresAt).bind dates.parse = some expiry := hexpiry
      rw [hexpires] at hread
      exact ⟨expiry, hread⟩
  | @fetched before aLabel url response parsed now hlabel hok hparsed hrecord =>
      obtain ⟨observedText, expiry, -, rfl, hwritten⟩ := newRecord_eq_some hrecord
      obtain ⟨ms, hms⟩ := hwritten expiresAt hexpires
      obtain ⟨instant, -, hparse⟩ := dates.parse_toISOString hms
      exact ⟨instant, hparse⟩

theorem freshnessFor_isSome (observedAt : Int) (hexpiry : ∀ expiresAt, record.expiresAt = some expiresAt →
    ∃ expiry, dates.parse expiresAt = some expiry) :
    ∃ freshness, freshnessFor dates FRESHNESS (some observedAt)
      (record.expiresAt.map dates.parse) = some freshness := by
  cases hexpires : record.expiresAt with
  | none => exact ⟨_, rfl⟩
  | some expiresAt =>
      obtain ⟨expiry, hparse⟩ := hexpiry expiresAt hexpires
      rw [Option.map_some, hparse]
      exact ⟨_, rfl⟩

/-- The outcome of a supplied record. -/
theorem reports_found {lookup : FetchRdapDomainOptions}
    (hroutes : Routes options dates result (some observedAt) lookup)
    (h : Supplied P dates parseJson domainToASCII (rdapRecords dates) lookup record rest) :
    ∃ outcome, foundOutcome dates (subjectFor result) record
        (foundContext options result observedAt) = some outcome ∧
      Reports options dates P parseJson domainToASCII result observedAt rest outcome := by
  obtain ⟨freshness, hfreshness⟩ := freshnessFor_isSome observedAt
    fun expiresAt => expiry_of_supplied h
  have hunique : ∀ record',
      Supplies options dates P parseJson domainToASCII result (some observedAt) record' rest →
        record' = record := by
    rintro record' ⟨lookup', hroutes', h'⟩
    cases hroutes.unique hroutes'
    exact h.unique h'
  have hsupplies : Supplies options dates P parseJson domainToASCII result (some observedAt) record
      rest := ⟨lookup, hroutes, h⟩
  refine ⟨_, by rw [foundOutcome, foundContext, hfreshness]; rfl, ?_⟩
  constructor
  · exact iff_of_true rfl ⟨record, hsupplies⟩
  · exact iff_of_false (fun h => by cases h) h.not_notFound
  · intro record' h'
    cases hunique record' h'
    rfl
  · intro hstatus
    exact absurd rfl hstatus
  · have hne := foundFindings_ne_nil_iff dates record (foundContext options result observedAt)
    rw [ne_eq, List.map_eq_nil_iff]
    refine hne.trans (and_congr_right fun _ => ?_)
    constructor
    · intro hyoung
      exact ⟨record, hsupplies, hyoung⟩
    · rintro ⟨record', h', hyoung⟩
      cases hunique record' h'
      exact hyoung
  · rcases foundFindings_single dates record (foundContext options result observedAt) with
      hnone | ⟨days, hdays, hfindings⟩
    · exact Or.inl (List.map_eq_nil_iff.mpr hnone)
    · exact Or.inr ⟨record.domain, days, hdays, congrArg (List.map some) hfindings⟩

/-- What the answer of a lookup reports. -/
theorem reports_lookup {lookup : FetchRdapDomainOptions}
    (hroutes : Routes options dates result (some observedAt) lookup)
    {fetched : RdapFetchResult RdapDomainRecord}
    (hcomes : Comes P dates parseJson domainToASCII (rdapRecords dates) lookup rest (some fetched)) :
    ∃ outcome, lookupOutcome dates (subjectFor result) (foundContext options result observedAt)
        fetched = some outcome ∧
      Reports options dates P parseJson domainToASCII result observedAt rest outcome := by
  have hundecided (h : ∀ record,
      ¬ Supplied P dates parseJson domainToASCII (rdapRecords dates) lookup record rest) :
      ¬ ∃ record,
        Supplies options dates P parseJson domainToASCII result (some observedAt) record rest :=
    not_supplies fun lookup' hroutes' => by
      cases hroutes.unique hroutes'
      exact h
  cases fetched with
  | found record fromCache => exact reports_found hroutes hcomes
  | noHit domain =>
      refine ⟨_, rfl, reports_empty (fun h => by cases h) (hundecided fun record h => ?_) ?_⟩
      · exact h.not_notFound hcomes
      · exact iff_of_true rfl hcomes
  | skipped cause =>
      exact ⟨_, rfl, reports_empty (fun h => by cases h) (hundecided hcomes.supplied)
        (iff_of_false (fun h => by cases h) hcomes.notFound)⟩
  | failure cause =>
      exact ⟨_, rfl, reports_empty (fun h => by cases h) (hundecided hcomes.supplied)
        (iff_of_false (fun h => by cases h) hcomes.notFound)⟩

/-- A run that makes no lookup. -/
theorem ageRun_skipped {now : Int} {cause : EnrichmentCause}
    {trace : List (LookupEvent RdapDomainRecord)} {answer : Option (Option EnrichmentReport)}
    (run : Runs (Prog.ret (report (timeClip now) fun observedAt =>
      some (skippedOutcome dates (subjectFor result) observedAt cause)) :
        LookupProg RdapDomainRecord (Option EnrichmentReport)) trace answer) :
    AgeRun options dates P parseJson domainToASCII result (⟨.now, some now⟩ :: trace) answer
      (some now) trace := by
  cases run
  have hnone : ¬ ∃ record, Supplies options dates P parseJson domainToASCII result
      (timeClip now) record [] := not_supplies fun _ _ _ => not_supplied_nil
  refine ⟨rfl, Or.inl rfl, fun hanswer => ?_, fun made hanswer => ?_⟩
  · refine ⟨now, List.mem_cons_self .., Or.inl ?_⟩
    cases hclip : timeClip now with
    | none => rfl
    | some observedAt =>
        rw [hclip] at hanswer
        cases hanswer
  · cases hclip : timeClip now with
    | none =>
        rw [hclip] at hanswer
        cases hanswer
    | some observedAt =>
        rw [hclip] at hanswer hnone
        cases hanswer
        refine ⟨now, observedAt, _, rfl, hclip, rfl, ?_⟩
        exact reports_empty (fun h => by cases h) hnone
          (iff_of_false (fun h => by cases h) not_notFound_nil)

/-- A run that makes its lookup. -/
theorem ageRun_lookup {now : Int} {lookup : FetchRdapDomainOptions}
    {trace : List (LookupEvent RdapDomainRecord)} {answer : Option (Option EnrichmentReport)}
    (hroutes : Routes options dates result (timeClip now) lookup)
    (hasks : Asks P domainToASCII lookup trace)
    (hcomes : ∀ made, answer = some made → ∃ fetched,
      Comes P dates parseJson domainToASCII (rdapRecords dates) lookup trace fetched ∧
        made = fetched.bind fun fetched => report (timeClip now) fun observedAt =>
          lookupOutcome dates (subjectFor result) (foundContext options result observedAt) fetched) :
    AgeRun options dates P parseJson domainToASCII result (⟨.now, some now⟩ :: trace) answer
      (some now) trace := by
  refine ⟨rfl, Or.inr ⟨now, lookup, rfl, hroutes, hasks⟩, fun hanswer => ?_, fun made hanswer => ?_⟩
  · obtain ⟨fetched, hfetched, hmade⟩ := hcomes none hanswer
    cases fetched with
    | none =>
        obtain ⟨read, aLabel, parsed, hread, hnone⟩ := hfetched
        obtain ⟨domain, registry, -, -, rfl⟩ := hroutes
        exact ⟨read, List.mem_cons_of_mem _ hread, newRecord_eq_none hnone⟩
    | some fetched =>
        refine ⟨now, List.mem_cons_self .., Or.inl ?_⟩
        cases hclip : timeClip now with
        | none => rfl
        | some observedAt =>
            rw [hclip] at hroutes hmade
            obtain ⟨outcome, houtcome, -⟩ := reports_lookup hroutes hfetched
            rw [Option.bind_some, report, Option.bind_some, houtcome] at hmade
            cases hmade
  · obtain ⟨fetched, hfetched, hmade⟩ := hcomes (some made) hanswer
    cases fetched with
    | none => cases hmade
    | some fetched =>
        cases hclip : timeClip now with
        | none =>
            rw [hclip] at hmade
            cases hmade
        | some observedAt =>
            rw [hclip] at hroutes hmade
            obtain ⟨outcome, houtcome, hreports⟩ := reports_lookup hroutes hfetched
            rw [Option.bind_some, report, Option.bind_some, houtcome] at hmade
            cases hmade
            exact ⟨now, observedAt, outcome, rfl, hclip, rfl, hreports⟩

theorem enrichAt_runs {now : Int} {trace : List (LookupEvent RdapDomainRecord)}
    {answer : Option (Option EnrichmentReport)}
    (run : Runs (enrichAt options dates P api parseJson domainToASCII result now) trace answer) :
    AgeRun options dates P parseJson domainToASCII result (⟨.now, some now⟩ :: trace) answer
      (some now) trace := by
  rw [enrichAt] at run
  cases hdomain : registrableDomainOf result with
  | none =>
      simp only [hdomain] at run
      exact ageRun_skipped run
  | some domain =>
      simp only [hdomain] at run
      cases hbootstrap : resolveBootstrap dates (timeClip now) options.registry with
      | unusable cause =>
          simp only [hbootstrap] at run
          exact ageRun_skipped run
      | usable registry =>
          simp only [hbootstrap] at run
          have hroutes : Routes options dates result (timeClip now)
              (fetchOptions options registry domain) := ⟨domain, registry, hdomain, hbootstrap, rfl⟩
          rcases run.of_bind with ⟨rfl, hlookup⟩ | ⟨fetched, before, after, rfl, hlookup, hrest⟩
          · exact ageRun_lookup hroutes (lookUp_comes hlookup).1 fun _ h => by cases h
          · obtain ⟨hasks, hcomes⟩ := lookUp_comes hlookup
            have hfetched := hcomes fetched rfl
            cases fetched with
            | none =>
                cases hrest
                rw [List.append_nil]
                exact ageRun_lookup hroutes hasks fun made h => ⟨none, hfetched, by cases h; rfl⟩
            | some lookup =>
                cases hrest
                rw [List.append_nil]
                exact ageRun_lookup hroutes hasks fun made h =>
                  ⟨some lookup, hfetched, by cases h; rfl⟩

/-- Every run of the enricher: what it asks, what it concludes, and what raises the finding. -/
theorem young_domain_finding {trace : List (LookupEvent RdapDomainRecord)}
    {answer : Option (Option EnrichmentReport)}
    (run : Runs (enrich options dates P api parseJson domainToASCII result) trace answer) :
    ∃ first rest,
      AgeRun options dates P parseJson domainToASCII result trace answer first rest := by
  cases run with
  | waiting =>
      exact ⟨none, [], rfl, Or.inl rfl, (fun h => by cases h), (fun _ h => by cases h)⟩
  | @answered _ _ now rest answer run => exact ⟨some now, rest, enrichAt_runs run⟩

end

/-- A registry that says the domain was registered 400 milliseconds before. -/
def youngAnswer (_ : Text) : Option Value :=
  some (.obj [(text "events", .arr [some (.obj
    [(text "eventAction", .str (text "registration")),
      (text "eventDate", .str (DateApi.epochSecond.iso 100))])])])

def youngOptions : RdapAgeEnricherOptions where
  registry := some (.registry secureLookup.registry)
  hasCache := false
  cacheTtlMs := none
  youngThresholdDays := none
  corroboratingCodes := none
  maxRedirects := none

def brandResult : InspectResult where
  status := .ok
  input := text "https://example.com/"
  parsed := some
    { scheme := some (text "https"), userinfo := none, effectiveHost := some (text "example.com")
      registrableDomain := some (text "example.com"), publicSuffix := some (text "com")
      subdomain := none, hostLabels := [text "example", text "com"], port := none
      path := text "/", query := none, fragment := none, isIp := false }
  score := some (1 / 2)
  severity := some .medium
  confidence := 1
  reasons := [{ code := .brandHomoglyph, layer := .lexical, detail := [], weight := 1 / 2 }]
  confusables := []
  checksRun := []
  checksSkipped := []
  dataVersions := DATA_VERSIONS
  pslSnapshot := currentPslSnapshot 0

def youngRecord : RdapDomainRecord :=
  { domain := text "example.com", ldhName := none, unicodeName := none
    registrationDate := some (DateApi.epochSecond.iso 100), lastChangedDate := none
    expirationDate := none, registrar := none, nameservers := [], delegationSigned := none
    statuses := [], redacted := [], observedAt := DateApi.epochSecond.iso 600, expiresAt := none }

def registeredAnswer : FeedResponse := { status := 200, headers := [], body := [] }

def youngLookup : List (LookupEvent RdapDomainRecord) :=
  [⟨.aborted, some false⟩, ⟨.aborted, some false⟩,
    ⟨.request SECURE_URL, some (.ok registeredAnswer)⟩, ⟨.now, some (600 : Int)⟩]

theorem newRecord_young : newRecord DateApi.epochSecond (rdapRecords DateApi.epochSecond)
    (fetchOptions youngOptions secureLookup.registry (text "example.com")) (text "example.com")
    (.obj [(text "events", .arr [some (.obj
      [(text "eventAction", .str (text "registration")),
        (text "eventDate", .str (DateApi.epochSecond.iso 100))])])]) 600 = some youngRecord := by
  decide +kernel

theorem runs_youngLookup :
    Runs (fetchRdapDomain Platform.ascii DateApi.epochSecond UrlApi.plain youngAnswer id
      (rdapRecords DateApi.epochSecond)
      (fetchOptions youngOptions secureLookup.registry (text "example.com")))
      youngLookup (some (some (.found youngRecord false))) := by
  have hurl : domainUrl (text "https://rdap.example/") (text "example.com") = SECURE_URL := by
    decide +kernel
  refine runs_routed (text "example.com") (by decide +kernel) rfl routed_secureLookup ?_
  rw [hurl, followRedirects_succ]
  refine .answered ?_
  rw [if_neg Bool.false_ne_true, if_neg (by decide +kernel)]
  refine .answered ?_
  dsimp only
  rw [if_neg (by decide), terminalResult_parsed (text "example.com") (by decide) (by decide)
    (by decide) rfl]
  refine .answered ?_
  rw [newRecord_young]
  exact .ret

def youngReport : Option EnrichmentReport :=
  report (timeClip (500 : Int)) fun observedAt =>
    lookupOutcome DateApi.epochSecond (subjectFor brandResult)
      (foundContext youngOptions brandResult observedAt) (.found youngRecord false)

theorem lookUp_young :
    Runs (lookUp youngOptions DateApi.epochSecond Platform.ascii UrlApi.plain youngAnswer id
      secureLookup.registry (text "example.com"))
      [⟨.request SECURE_URL, some (.ok registeredAnswer)⟩, ⟨.now, some (600 : Int)⟩]
      (some (some (.found youngRecord false))) := by
  refine runs_youngLookup.answering fun e hmem answer hknown => ?_
  simp only [youngLookup, List.mem_cons, List.not_mem_nil, or_false] at hmem
  rcases hmem with rfl | rfl | rfl | rfl <;> cases hknown <;> rfl

theorem runs_young :
    Runs (enrich youngOptions DateApi.epochSecond Platform.ascii UrlApi.plain youngAnswer id
      brandResult)
      [⟨.now, some (500 : Int)⟩, ⟨.request SECURE_URL, some (.ok registeredAnswer)⟩,
        ⟨.now, some (600 : Int)⟩] (some youngReport) := by
  refine .answered ?_
  exact lookUp_young.bind .ret

theorem young_domain_finding_page : ∃ first rest,
    AgeRun youngOptions DateApi.epochSecond Platform.ascii youngAnswer id brandResult
      [⟨.now, some (500 : Int)⟩, ⟨.request SECURE_URL, some (.ok registeredAnswer)⟩,
        ⟨.now, some (600 : Int)⟩] (some youngReport) first rest :=
  young_domain_finding runs_young

end RdapAge

end Linklint
