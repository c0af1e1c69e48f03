import Linklint.Lib.StableSort
import Linklint.Reputation.DnsEvidence

/-!
# The contract of the DNS source

One batch of queries at most, and what the report says of it: a description of
what DNS told, or the reason that it told nothing.
-/

namespace Linklint

open Interaction

namespace DnsState

/-! ### Mail -/

/-- A null MX: the root alone, however the resolver spells it, at preference 0. -/
def IsNullMx (rows : List MxRow) : Prop :=
  ∃ row, rows = [row] ∧ (row.exchange = [] ∨ row.exchange = text ".") ∧ row.priority = 0

/-- Where DNS says that the mail of a zone goes. -/
inductive MailSays (mx : Option (List MxRow)) (resolvable : Prop) : DnsMailSemantic → Prop
  | nullMx {rows : List MxRow} (h : mx = some rows) (hnull : IsNullMx rows) :
      MailSays mx resolvable .nullMx
  | explicitMx {rows : List MxRow} (h : mx = some rows) (hne : rows ≠ []) (hnull : ¬ IsNullMx rows) :
      MailSays mx resolvable .explicitMx
  | implicitAFallback (h : mx = some []) (haddress : resolvable) :
      MailSays mx resolvable .implicitAFallback
  | noMailTarget (h : mx = some []) (haddress : ¬ resolvable) : MailSays mx resolvable .noMailTarget
  | unknown (h : mx = none) : MailSays mx resolvable .unknown

theorem mxExchange_eq_root {exchange : Text} :
    mxExchange exchange = text "." ↔ exchange = [] ∨ exchange = text "." := by
  rw [mxExchange]
  constructor
  · intro h
    by_cases hempty : exchange = []
    · exact Or.inl hempty
    · exact Or.inr (by rwa [if_neg hempty] at h)
  · rintro (rfl | rfl)
    · rfl
    · exact if_neg (by decide)

theorem insertionSort_eq_singleton {α : Type} {r : α → α → Prop} [DecidableRel r] {l : List α}
    {a : α} : l.insertionSort r = [a] ↔ l = [a] := by
  constructor
  · intro h
    have hperm := List.perm_insertionSort r l
    rw [h] at hperm
    exact List.perm_singleton.mp hperm.symm
  · rintro rfl
    rfl

theorem isNullMx_iff {rows : Option (List MxRow)} {mx : NormalizedMxAnswer} (h : MxView rows mx) :
    isNullMx mx = true ↔ ∃ told, rows = some told ∧ IsNullMx told := by
  rw [isNullMx, Bool.and_eq_true, decide_eq_true_eq, decide_eq_true_eq, h.ok, h.exchanges,
    insertionSort_eq_singleton]
  constructor
  · rintro ⟨⟨told, rfl, -⟩, hmap⟩
    obtain ⟨row, hrow, hexchange⟩ := List.map_eq_singleton_iff.mp hmap
    refine ⟨told, rfl, row, hrow, mxExchange_eq_root.mp ?_, ?_⟩
    · exact congrArg NormalizedMxExchange.exchange hexchange
    · exact congrArg NormalizedMxExchange.preference hexchange
  · rintro ⟨told, rfl, row, rfl, hexchange, hpriority⟩
    refine ⟨⟨[row], rfl, List.cons_ne_nil row []⟩, ?_⟩
    simp [exchangeOf, mxExchange_eq_root.mpr hexchange, hpriority]

theorem mailSays {rows : Option (List MxRow)} {mx : NormalizedMxAnswer} (h : MxView rows mx)
    {resolvable : Bool} {addresses : Prop} (hresolvable : resolvable = true ↔ addresses) :
    MailSays rows addresses (deriveMailSemantic mx resolvable) := by
  have hauthoritative := h.authoritative
  rw [deriveMailSemantic]
  by_cases hnull : isNullMx mx = true
  · rw [if_pos hnull]
    obtain ⟨told, htold, hnull'⟩ := (isNullMx_iff h).mp hnull
    exact .nullMx htold hnull'
  · rw [if_neg hnull]
    cases hrows : rows with
    | none =>
        have hok : mx.state ≠ .ok := by simp [h.ok, hrows]
        rw [hrows] at hauthoritative
        rw [if_neg fun hmx => hok hmx.1, if_neg]
        · exact .unknown rfl
        · rintro (hstate | hstate) <;> simp [hstate, isAuthoritative] at hauthoritative
    | some told =>
        by_cases hempty : told = []
        · have hok : mx.state ≠ .ok := by simp [h.ok, hrows, hempty]
          rw [hrows] at hauthoritative
          rw [if_neg fun hmx => hok hmx.1, if_pos]
          · rw [hempty]
            by_cases haddress : resolvable = true
            · rw [if_pos haddress]
              exact .implicitAFallback rfl (hresolvable.mp haddress)
            · rw [if_neg haddress]
              exact .noMailTarget rfl fun hyes => haddress (hresolvable.mpr hyes)
          · cases hstate : mx.state with
            | ok => exact absurd hstate hok
            | negative state =>
                cases state with
                | nodata => exact Or.inl rfl
                | nxdomain => exact Or.inr rfl
                | unresolved reason => simp [hstate, isAuthoritative] at hauthoritative
        · have hok : mx.state = .ok := h.ok.mpr ⟨told, hrows, hempty⟩
          have hexchanges : mx.exchanges ≠ [] := by
            rw [h.exchanges, hrows]
            intro hnil
            have hlength := congrArg List.length hnil
            simp at hlength
            exact hempty hlength
          rw [if_pos ⟨hok, hexchanges⟩]
          exact .explicitMx rfl hempty fun hnull' => hnull ((isNullMx_iff h).mpr ⟨told, hrows, hnull'⟩)

/-! ### The description -/

/-- The addresses DNS told of a host. -/
def BatchRun.addressRows (runs : BatchRun) (host : Text) : List AddressRow :=
  (runs.aRows host).getD [] ++ (runs.aaaaRows host).getD []

/-- The least of the lifetimes of rows, the negative ones left out. -/
def Lifetime (rows : List AddressRow) (ttlSeconds : Option Int) : Prop :=
  ∀ ttl, ttlSeconds = some ttl ↔ IsLeast {t | 0 ≤ t ∧ ∃ row ∈ rows, row.ttl = t} ttl

/-- The state of the answer to a query. -/
def BatchRun.StateOf (runs : BatchRun) (request : DnsQuery) (state : DnsAnswerState) : Prop :=
  StateSays request (runs.query request) state

/-- What a state says of a batch. -/
structure Describes (runs : BatchRun) (host zone : Text) (state : NormalizedDnsState) : Prop where
  ofHost : state.host = host
  ofZone : state.zone = zone
  states : runs.StateOf (A host) state.a.state ∧ runs.StateOf (AAAA host) state.aaaa.state ∧
    runs.StateOf (NS zone) state.ns.state ∧ runs.StateOf (MX zone) state.mx.state
  a : state.a.addresses = ((runs.aRows host).getD []).map fun row => row.address
  aaaa : state.aaaa.addresses = ((runs.aaaaRows host).getD []).map fun row => row.address
  hosts : state.ns.hosts = (runs.nsRows zone).getD []
  ordered : state.mx.exchanges.Pairwise fun x y => x.preference ≤ y.preference
  exchanges : ∀ preference, state.mx.exchanges.filter (fun e => e.preference = preference) =
    (((runs.mxRows zone).getD []).map exchangeOf).filter fun e => e.preference = preference
  resolvable : state.resolvable = true ↔ runs.addressRows host ≠ []
  mail : MailSays (runs.mxRows zone) (runs.addressRows host ≠ []) state.mailSemantic
  lifetimes : Lifetime ((runs.aRows host).getD []) state.a.ttlSeconds ∧
    Lifetime ((runs.aaaaRows host).getD []) state.aaaa.ttlSeconds ∧
    state.ns.ttlSeconds = none ∧ state.mx.ttlSeconds = none
  lifetime : Lifetime (runs.addressRows host) state.minTtlSeconds

/-- Whether DNS told anything of a query. -/
def BatchRun.Told (runs : BatchRun) (request : DnsQuery) : Prop :=
  (told request (runs.query request)).isSome

instance preferenceTrans : IsTrans NormalizedMxExchange fun x y => x.preference ≤ y.preference :=
  ⟨fun _ _ _ => Nat.le_trans⟩

instance preferenceTotal :
    Std.Total fun x y : NormalizedMxExchange => x.preference ≤ y.preference :=
  ⟨fun x y => Nat.le_total x.preference y.preference⟩

theorem sorted_exchanges (l : List NormalizedMxExchange) :
    (l.insertionSort fun x y => x.preference ≤ y.preference).Pairwise
      fun x y => x.preference ≤ y.preference := List.pairwise_insertionSort _ l

theorem filter_sorted (l : List NormalizedMxExchange) (preference : Nat) :
    (l.insertionSort fun x y => x.preference ≤ y.preference).filter
      (fun e => e.preference = preference) = l.filter fun e => e.preference = preference := by
  rw [StableSort.filter_insertionSort]
  refine List.Pairwise.insertionSort_eq (List.pairwise_of_forall_mem_list fun x hx y hy => ?_)
  have hx' : x.preference = preference := by simpa using (List.mem_filter.mp hx).2
  have hy' : y.preference = preference := by simpa using (List.mem_filter.mp hy).2
  omega

section
variable (runs : BatchRun) (host zone : Text)

theorem tells_answer (request : DnsQuery) :
    Tells request (runs.query request) (runs.answer request) := tells_query request (runs.query request)

theorem aView : AddressView (runs.aRows host) (normalizeAddress (runs.answer (A host))) :=
  addressView_of_says (says_of_tells (tells_answer runs (A host)))

theorem aaaaView : AddressView (runs.aaaaRows host) (normalizeAddress (runs.answer (AAAA host))) :=
  addressView_of_says (says_of_tells (tells_answer runs (AAAA host)))

theorem nsView : NsView (runs.nsRows zone) (normalizeNs (runs.answer (NS zone))) :=
  nsView_of_says (says_of_tells (tells_answer runs (NS zone)))

theorem mxView : MxView (runs.mxRows zone) (normalizeMx (runs.answer (MX zone))) :=
  mxView_of_says (says_of_tells (tells_answer runs (MX zone)))

theorem resolvable_iff :
    (normalizeDnsState (runs.input host zone)).resolvable = true ↔ runs.addressRows host ≠ [] := by
  change (!(normalizeAddress (runs.answer (A host))).addresses.isEmpty ||
    !(normalizeAddress (runs.answer (AAAA host))).addresses.isEmpty) = true ↔ _
  rw [(aView runs host).addresses, (aaaaView runs host).addresses]
  simp only [List.isEmpty_map, Bool.or_eq_true, Bool.not_eq_true', List.isEmpty_eq_false_iff,
    BatchRun.addressRows, ne_eq, List.append_eq_nil_iff, not_and_or]

theorem lifetime_minTtl (rows : List AddressRow) :
    Lifetime rows (minTtl (rows.map fun row => some row.ttl)) := by
  intro ttl
  rw [minTtl_eq_some_iff]
  refine iff_of_eq (congrArg (IsLeast · ttl) (Set.ext fun t => ?_))
  simp only [Set.mem_ofPred_eq, List.mem_map, Option.some.injEq]
  exact and_comm

theorem lifetime_state :
    Lifetime (runs.addressRows host) (normalizeDnsState (runs.input host zone)).minTtlSeconds := by
  change Lifetime _ (minTtl [(normalizeAddress (runs.answer (A host))).ttlSeconds,
    (normalizeAddress (runs.answer (AAAA host))).ttlSeconds,
    (normalizeNs (runs.answer (NS zone))).ttlSeconds,
    (normalizeMx (runs.answer (MX zone))).ttlSeconds])
  rw [(aView runs host).ttl, (aaaaView runs host).ttl, (nsView runs zone).ttl,
    (mxView runs zone).ttl, minTtl_nested, ← List.map_append]
  exact lifetime_minTtl _

/-! A normalized answer keeps the state of the answer. -/

theorem normalizeAddress_state (answer : DnsAnswer) :
    (normalizeAddress answer).state = answer.state := by
  cases answer <;> rfl

theorem normalizeNs_state (answer : DnsAnswer) : (normalizeNs answer).state = answer.state := by
  cases answer <;> rfl

theorem normalizeMx_state (answer : DnsAnswer) : (normalizeMx answer).state = answer.state := by
  cases answer <;> rfl

theorem stateOf_answer (request : DnsQuery) : runs.StateOf request (runs.answer request).state :=
  stateSays_of_tells (tells_answer runs request)

theorem states_normalized :
    let state := normalizeDnsState (runs.input host zone)
    runs.StateOf (A host) state.a.state ∧ runs.StateOf (AAAA host) state.aaaa.state ∧
      runs.StateOf (NS zone) state.ns.state ∧ runs.StateOf (MX zone) state.mx.state := by
  change runs.StateOf _ (normalizeAddress _).state ∧ runs.StateOf _ (normalizeAddress _).state ∧
    runs.StateOf _ (normalizeNs _).state ∧ runs.StateOf _ (normalizeMx _).state
  rw [normalizeAddress_state, normalizeAddress_state, normalizeNs_state, normalizeMx_state]
  exact ⟨stateOf_answer runs _, stateOf_answer runs _, stateOf_answer runs _, stateOf_answer runs _⟩

theorem lifetimes_normalized :
    let state := normalizeDnsState (runs.input host zone)
    Lifetime ((runs.aRows host).getD []) state.a.ttlSeconds ∧
      Lifetime ((runs.aaaaRows host).getD []) state.aaaa.ttlSeconds ∧
      state.ns.ttlSeconds = none ∧ state.mx.ttlSeconds = none := by
  refine ⟨?_, ?_, (nsView runs zone).ttl, (mxView runs zone).ttl⟩
  · change Lifetime _ (normalizeAddress (runs.answer (A host))).ttlSeconds
    rw [(aView runs host).ttl]
    exact lifetime_minTtl _
  · change Lifetime _ (normalizeAddress (runs.answer (AAAA host))).ttlSeconds
    rw [(aaaaView runs host).ttl]
    exact lifetime_minTtl _

theorem describes_normalized : Describes runs host zone (normalizeDnsState (runs.input host zone)) where
  ofHost := rfl
  ofZone := rfl
  states := states_normalized runs host zone
  a := (aView runs host).addresses
  aaaa := (aaaaView runs host).addresses
  hosts := (nsView runs zone).hosts
  ordered := by
    change (normalizeMx (runs.answer (MX zone))).exchanges.Pairwise _
    rw [(mxView runs zone).exchanges]
    exact sorted_exchanges _
  exchanges preference := by
    change (normalizeMx (runs.answer (MX zone))).exchanges.filter _ = _
    rw [(mxView runs zone).exchanges]
    exact filter_sorted _ preference
  resolvable := resolvable_iff runs host zone
  mail := mailSays (mxView runs zone) (resolvable_iff runs host zone)
  lifetimes := lifetimes_normalized runs host zone
  lifetime := lifetime_state runs host zone

theorem authoritative_iff :
    (normalizeDnsState (runs.input host zone)).authoritative = true ↔
      ∃ request ∈ (batchOf host zone).queries, runs.Told request := by
  change (isAuthoritative (normalizeAddress (runs.answer (A host))).state ||
    isAuthoritative (normalizeAddress (runs.answer (AAAA host))).state ||
    isAuthoritative (normalizeNs (runs.answer (NS zone))).state ||
    isAuthoritative (normalizeMx (runs.answer (MX zone))).state) = true ↔ _
  rw [(aView runs host).authoritative, (aaaaView runs host).authoritative,
    (nsView runs zone).authoritative, (mxView runs zone).authoritative]
  simp only [batchOf, List.mem_cons, List.not_mem_nil, or_false, exists_eq_or_imp, exists_eq_left,
    Bool.or_eq_true, or_assoc]
  exact Iff.rfl

end

/-! ### Why nothing was told -/

/-- The most actionable of the reasons for which queries fail. -/
structure Dominant (runs : BatchRun) (queries : List DnsQuery) (reason : DnsUnresolvedState) :
    Prop where
  fails : ∃ request ∈ queries, FailsFor request (runs.query request) reason
  first : ∀ request ∈ queries, ∀ other, FailsFor request (runs.query request) other →
    UNRESOLVED_PRIORITY.idxOf reason ≤ UNRESOLVED_PRIORITY.idxOf other

theorem mem_UNRESOLVED_PRIORITY (reason : DnsUnresolvedState) : reason ∈ UNRESOLVED_PRIORITY := by
  cases reason <;> decide

section
variable {runs : BatchRun} {queries : List DnsQuery}

theorem answer_of_untold {request : DnsQuery} (h : ¬ runs.Told request) :
    ∃ reason, runs.answer request = .negative request.type (.unresolved reason) ∧
      ∀ other, FailsFor request (runs.query request) other ↔ other = reason := by
  have htells := tells_answer runs request
  rw [BatchRun.Told] at h
  generalize runs.answer request = answer at htells ⊢
  cases htells with
  | nothing _ hreason => exact ⟨_, rfl, hreason⟩
  | noRecords htold _ => simp [htold] at h
  | records htold _ => simp [htold] at h

theorem seen_iff (h : ∀ request ∈ queries, ¬ runs.Told request) {reason : DnsUnresolvedState} :
    seen (queries.map runs.answer) reason = true ↔
      ∃ request ∈ queries, FailsFor request (runs.query request) reason := by
  rw [seen, List.any_map, List.any_eq_true]
  refine exists_congr fun request => and_congr_right fun hmem => ?_
  obtain ⟨found, hanswer, hfails⟩ := answer_of_untold (h request hmem)
  rw [hfails, Function.comp_apply, decide_eq_true_eq, hanswer]
  constructor
  · intro heq
    cases heq
    rfl
  · rintro rfl
    rfl

theorem dominantFailure_of_untold {request : DnsQuery} (hmem : request ∈ queries)
    (h : ∀ request ∈ queries, ¬ runs.Told request) :
    ∃ reason, Dominant runs queries reason ∧
      dominantFailure (queries.map runs.answer) = dispositionOf reason := by
  obtain ⟨found, -, hfound⟩ := answer_of_untold (h request hmem)
  have hseen := (seen_iff h).mpr ⟨request, hmem, (hfound found).mpr rfl⟩
  cases hfind : UNRESOLVED_PRIORITY.find? (seen (queries.map runs.answer)) with
  | none =>
      have hnone := List.find?_eq_none.mp hfind found (mem_UNRESOLVED_PRIORITY found)
      exact absurd hseen hnone
  | some reason =>
      obtain ⟨hreason, before, after, hsplit, hbefore⟩ := List.find?_eq_some_iff_append.mp hfind
      have hunseen : ∀ other, seen (queries.map runs.answer) other = true → other ∉ before := by
        intro other hother hmem'
        simpa [hother] using hbefore other hmem'
      refine ⟨reason, ⟨(seen_iff h).mp hreason, fun request' hmem' other hother => ?_⟩, ?_⟩
      · have hother' := hunseen other ((seen_iff h).mpr ⟨request', hmem', hother⟩)
        rw [hsplit, List.idxOf_append_of_notMem (hunseen reason hreason),
          List.idxOf_append_of_notMem hother', List.idxOf_cons_self]
        omega
      · rw [dominantFailure, hfind, Option.getD_some]

end

/-! ### The report -/

/-- An outcome of nothing but its cause. -/
structure Degraded (outcome : EnrichmentOutcome) (status : OutcomeStatus)
    (subject : EnrichmentSubject) (cause : EnrichmentCause) : Prop where
  status : outcome.status = status
  subject : outcome.subject = subject
  evidence : outcome.evidence = []
  findings : outcome.findings = []
  cause : outcome.cause = some cause

/-- An outcome with the two pieces of evidence of a batch. -/
structure Observes (dates : DateApi) (observedAt : Int) (runs : BatchRun) (host zone : Text)
    (outcome : EnrichmentOutcome) : Prop where
  status : outcome.status = .success
  subject : outcome.subject = ⟨.host, host⟩
  findings : outcome.findings = []
  cause : outcome.cause = none
  evidence : ∃ state expireAt records dnssec, Describes runs host zone state ∧
    recordsExpireAt dates observedAt state.minTtlSeconds = some expireAt ∧
    outcome.evidence = [some records, some dnssec] ∧
    records.type = DNS_RECORDS_EVIDENCE_TYPE ∧ records.payload = recordsPayload state expireAt ∧
    dnssec.type = DNS_DNSSEC_EVIDENCE_TYPE ∧
    dnssec.payload = dnssecPayload (validateDnssec zone runs.dnssecAborted)

/-- A run of the enricher and its answer; `none` is a rejection. -/
inductive DnsRun (dates : DateApi) (result : InspectResult) :
    List DnsEvent → Option EnrichmentReport → Prop
  | hostless {now observedAt : Int} {outcome : EnrichmentOutcome}
      (hdate : timeClip now = some observedAt) (hhost : hostOf result = none)
      (h : Degraded outcome .skipped ⟨.url, result.input⟩ noHost) :
      DnsRun dates result [⟨.now, some now⟩] (some { outcomes := [some outcome] })
  | literal {now observedAt : Int} {host : Text} {outcome : EnrichmentOutcome}
      (hdate : timeClip now = some observedAt) (hhost : hostOf result = some host)
      (hip : isIp result = true) (h : Degraded outcome .skipped ⟨.host, host⟩ notAHostname) :
      DnsRun dates result [⟨.now, some now⟩] (some { outcomes := [some outcome] })
  | observed {now observedAt : Int} {host : Text} {runs : BatchRun} {outcome : EnrichmentOutcome}
      (hdate : timeClip now = some observedAt) (hhost : hostOf result = some host)
      (hip : isIp result = false)
      (htold : ∃ request ∈ (batchOf host (zoneOf result host)).queries, runs.Told request)
      (h : Observes dates observedAt runs host (zoneOf result host) outcome) :
      DnsRun dates result [⟨.now, some now⟩, ⟨.all (batchOf host (zoneOf result host)), some runs⟩]
        (some { outcomes := [some outcome] })
  | unanswered {now observedAt : Int} {host : Text} {runs : BatchRun}
      {reason : DnsUnresolvedState} {outcome : EnrichmentOutcome}
      (hdate : timeClip now = some observedAt) (hhost : hostOf result = some host)
      (hip : isIp result = false)
      (huntold : ∀ request ∈ (batchOf host (zoneOf result host)).queries, ¬ runs.Told request)
      (hreason : Dominant runs (batchOf host (zoneOf result host)).queries reason)
      (h : Degraded outcome (dispositionOf reason).status ⟨.host, host⟩
        (unansweredCause (dispositionOf reason))) :
      DnsRun dates result [⟨.now, some now⟩, ⟨.all (batchOf host (zoneOf result host)), some runs⟩]
        (some { outcomes := [some outcome] })
  | undated {now : Int} {asked : List DnsEvent} (hdate : timeClip now = none) :
      DnsRun dates result (⟨.now, some now⟩ :: asked) none
  | outlived {now observedAt : Int} {host : Text} {runs : BatchRun} {state : NormalizedDnsState}
      (hdate : timeClip now = some observedAt) (hhost : hostOf result = some host)
      (hip : isIp result = false)
      (htold : ∃ request ∈ (batchOf host (zoneOf result host)).queries, runs.Told request)
      (hstate : Describes runs host (zoneOf result host) state)
      (h : recordsExpireAt dates observedAt state.minTtlSeconds = none) :
      DnsRun dates result [⟨.now, some now⟩, ⟨.all (batchOf host (zoneOf result host)), some runs⟩]
        none

section
variable {dates : DateApi} {result : InspectResult} {trace : List DnsEvent}
  {answer : Option EnrichmentReport}

theorem degraded_degradedOutcome (status : OutcomeStatus) (subject : EnrichmentSubject)
    (observedAt : Int) (cause : EnrichmentCause) :
    Degraded (degradedOutcome dates status subject observedAt cause) status subject cause :=
  ⟨rfl, rfl, rfl, rfl, rfl⟩

theorem dnsRun_asked {now : Int} {host : Text} {runs : BatchRun} (hhost : hostOf result = some host)
    (hip : isIp result = false) :
    DnsRun dates result [⟨.now, some now⟩, ⟨.all (batchOf host (zoneOf result host)), some runs⟩]
      (report (timeClip now) fun at' =>
        answeredOutcome dates host (zoneOf result host) at' runs) := by
  cases hdate : timeClip (now : Rat) with
  | none => exact .undated hdate
  | some observedAt =>
      have hdescribes := describes_normalized runs host (zoneOf result host)
      rw [report, Option.bind_some, answeredOutcome]
      by_cases htold : ∃ request ∈ (batchOf host (zoneOf result host)).queries, runs.Told request
      · rw [if_pos ((authoritative_iff runs host (zoneOf result host)).mpr htold), observedOutcome]
        cases hexpires : recordsExpireAt dates observedAt
            (normalizeDnsState (runs.input host (zoneOf result host))).minTtlSeconds with
        | none => exact .outlived hdate hhost hip htold hdescribes hexpires
        | some expireAt =>
            exact .observed hdate hhost hip htold
              ⟨rfl, rfl, rfl, rfl, _, expireAt, _, _, hdescribes, hexpires, rfl, rfl, rfl, rfl, rfl⟩
      · have huntold : ∀ request ∈ (batchOf host (zoneOf result host)).queries,
            ¬ runs.Told request := fun request hmem hyes => htold ⟨request, hmem, hyes⟩
        have hmem : A host ∈ (batchOf host (zoneOf result host)).queries := List.mem_cons_self ..
        obtain ⟨reason, hdominant, hdisposition⟩ := dominantFailure_of_untold hmem huntold
        rw [if_neg fun hyes => htold ((authoritative_iff runs host (zoneOf result host)).mp hyes),
          hdisposition]
        exact .unanswered hdate hhost hip huntold hdominant
          (degraded_degradedOutcome _ _ observedAt _)

theorem dnsRun_unasked {now : Int} {status : OutcomeStatus} {subject : EnrichmentSubject}
    {cause : EnrichmentCause}
    (h : ∀ observedAt outcome, timeClip now = some observedAt →
      Degraded outcome status subject cause →
      DnsRun dates result [⟨.now, some now⟩] (some { outcomes := [some outcome] })) :
    DnsRun dates result [⟨.now, some now⟩]
      (report (timeClip now) fun at' => some (degradedOutcome dates status subject at' cause)) := by
  cases hdate : timeClip (now : Rat) with
  | none => exact .undated hdate
  | some observedAt => exact h observedAt _ hdate (degraded_degradedOutcome status subject observedAt cause)

/-! The enricher in its three cases. -/

theorem enrichAt_hostless (hhost : hostOf result = none) (now : Int) :
    enrichAt dates result now = .ret (report (timeClip now) fun at' =>
      some (degradedOutcome dates .skipped ⟨.url, result.input⟩ at' noHost)) := by
  simp only [enrichAt, hhost]
  rfl

theorem enrichAt_literal {host : Text} (hhost : hostOf result = some host)
    (hip : isIp result = true) (now : Int) :
    enrichAt dates result now = .ret (report (timeClip now) fun at' =>
      some (degradedOutcome dates .skipped ⟨.host, host⟩ at' notAHostname)) := by
  simp only [enrichAt, hhost, if_pos hip]
  rfl

theorem enrichAt_asked {host : Text} (hhost : hostOf result = some host)
    (hip : ¬ isIp result = true) (now : Int) :
    enrichAt dates result now = dnsAll (batchOf host (zoneOf result host)) >>= fun runs =>
      .ret (report (timeClip now) fun at' =>
        answeredOutcome dates host (zoneOf result host) at' runs) := by
  simp only [enrichAt, hhost, if_neg hip]
  rfl

theorem runs_enrich (run : Runs (enrich dates result) trace (some answer)) :
    ∃ (now : Int) (rest : List DnsEvent), trace = ⟨.now, some now⟩ :: rest ∧
      Runs (enrichAt dates result now) rest (some answer) := by
  cases run with
  | @answered _ _ now rest _ run => exact ⟨now, rest, rfl, run⟩

theorem runs_dnsAll {batch : DnsBatch} {next : BatchRun → Option EnrichmentReport}
    (run : Runs (dnsAll batch >>= fun runs => Prog.ret (next runs)) trace (some answer)) :
    ∃ runs, trace = [⟨.all batch, some runs⟩] ∧ answer = next runs := by
  cases run with
  | @answered _ _ runs rest _ run =>
      cases run
      exact ⟨runs, rfl, rfl⟩

theorem runs_ret {value : Option EnrichmentReport}
    (run : Runs (Prog.ret value : DnsProg (Option EnrichmentReport)) trace (some answer)) :
    trace = [] ∧ answer = value := by
  cases run
  exact ⟨rfl, rfl⟩

end

/-! A zone that accepts no mail, on a network that loses a datagram. -/

def mailResult : InspectResult where
  status := .ok
  input := text "https://www.example.com/"
  parsed := some
    { scheme := some (text "https"), userinfo := none
      effectiveHost := some (text "www.example.com")
      registrableDomain := some (text "example.com"), publicSuffix := some (text "com")
      subdomain := some (text "www"), hostLabels := [text "www", text "example", text "com"]
      port := none, path := text "/", query := none, fragment := none, isIp := false }
  score := some 0
  severity := some .info
  confidence := 1
  reasons := []
  confusables := []
  checksRun := []
  checksSkipped := []
  dataVersions := DATA_VERSIONS
  pslSnapshot := currentPslSnapshot 0

def answered {type : DnsQueryType} (rows : List (Row type)) : QueryRun type where
  abortedBefore := false
  settled := .ok rows
  abortedAfter := false

def rejected {type : DnsQueryType} (code : Text) : QueryRun type where
  abortedBefore := false
  settled := .error (some code)
  abortedAfter := false

def mailRun : (type : DnsQueryType) → QueryRun type
  | .a => answered [(⟨text "192.0.2.1", 300⟩ : AddressRow), ⟨text "192.0.2.2", 60⟩]
  | .aaaa => rejected (text "ETIMEOUT")
  | .ns => rejected (text "ESERVFAIL")
  | .mx => answered [(⟨[], 0⟩ : MxRow)]

def mailRuns : BatchRun where
  query request := mailRun request.type
  dnssecAborted := false

def mailReport : Option EnrichmentReport :=
  report (timeClip (500 : Int)) fun at' =>
    answeredOutcome DateApi.epochSecond (text "www.example.com") (text "example.com") at' mailRuns

def mailTrace : List DnsEvent :=
  [⟨.now, some (500 : Int)⟩,
    ⟨.all (batchOf (text "www.example.com") (text "example.com")), some mailRuns⟩]

theorem runs_mail : Runs (enrich DateApi.epochSecond mailResult) mailTrace (some mailReport) :=
  .answered (.answered .ret)

end DnsState

end Linklint
