import Linklint.Lib.Interaction
import Linklint.Resolution.OfflineEvidence
import Linklint.Sources.Contract
import Mathlib.Data.List.Sort

/-!
# The DNS state source

Four record queries and a DNSSEC verdict, asked of a resolver port over
`node:dns`, reduced to one record of what DNS said and reported as evidence.
The observation an answer carries is left out, since nothing reads it, and so are
the options of the resolver.
-/

namespace Linklint

open Interaction

namespace DnsState

/-! ### The resolver port -/

inductive DnsQueryType where
  | a | aaaa | ns | mx
deriving DecidableEq

structure DnsQuery where
  name : Text
  type : DnsQueryType
deriving DecidableEq

inductive DnsUnresolvedState where
  | servfail | refused | timeout | aborted | invalidName | error
deriving DecidableEq

/-- `Exclude<DnsAnswerState, "ok">` -/
inductive DnsNegativeState where
  | nodata
  | nxdomain
  | unresolved (reason : DnsUnresolvedState)
deriving DecidableEq

inductive DnsAnswerState where
  | ok
  | negative (state : DnsNegativeState)
deriving DecidableEq

def DnsUnresolvedState.name : DnsUnresolvedState → Text
  | .servfail => text "servfail"
  | .refused => text "refused"
  | .timeout => text "timeout"
  | .aborted => text "aborted"
  | .invalidName => text "invalid-name"
  | .error => text "error"

def DnsAnswerState.name : DnsAnswerState → Text
  | .ok => text "ok"
  | .negative .nodata => text "nodata"
  | .negative .nxdomain => text "nxdomain"
  | .negative (.unresolved reason) => reason.name

structure DnsAddressRecord where
  address : Text
  family : Nat
  ttlSeconds : Int
deriving DecidableEq

structure DnsNsRecord where
  host : Text
  ttlSeconds : Int
deriving DecidableEq

structure DnsMxRecord where
  exchange : Text
  preference : Nat
  ttlSeconds : Int
deriving DecidableEq

inductive DnsAnswer where
  | addresses (type : DnsQueryType) (records : List DnsAddressRecord)
  | nameservers (records : List DnsNsRecord)
  | exchanges (records : List DnsMxRecord)
  | negative (type : DnsQueryType) (state : DnsNegativeState)
deriving DecidableEq

def DnsAnswer.state : DnsAnswer → DnsAnswerState
  | .negative _ state => .negative state
  | _ => .ok

/-! ### The port over `node:dns` -/

structure AddressRow where
  address : Text
  ttl : Int
deriving DecidableEq

structure MxRow where
  exchange : Text
  priority : Nat
deriving DecidableEq

/-- What `node:dns` resolves a query of a type with. -/
def Row : DnsQueryType → Type
  | .a => AddressRow
  | .aaaa => AddressRow
  | .ns => Text
  | .mx => MxRow

/-- How one query goes: what its signal says before it, the rows or the error code the resolver
settles with, and what the signal says then. -/
structure QueryRun (type : DnsQueryType) where
  abortedBefore : Bool
  settled : Except (Option Text) (List (Row type))
  abortedAfter : Bool

def negative (state : DnsNegativeState) (request : DnsQuery) : DnsAnswer :=
  .negative request.type state

/-- c-ares renders the root label as the empty string. -/
def mxExchange (exchange : Text) : Text := if exchange = [] then text "." else exchange

def addressRecords (rows : List AddressRow) (family : Nat) : List DnsAddressRecord :=
  rows.map fun row => { address := row.address, family, ttlSeconds := row.ttl }

def okOrNodata (type : DnsQueryType) (request : DnsQuery) (addresses : List DnsAddressRecord) :
    DnsAnswer :=
  if addresses = [] then negative .nodata request else .addresses type addresses

def nsRecords (rows : List Text) : List DnsNsRecord :=
  rows.map fun host => { host, ttlSeconds := -1 }

def mxRecords (rows : List MxRow) : List DnsMxRecord :=
  rows.map fun row =>
    { exchange := mxExchange row.exchange, preference := row.priority, ttlSeconds := -1 }

/-- `runQuery`, once the rows are there. -/
def answerRows (request : DnsQuery) : (type : DnsQueryType) → List (Row type) → DnsAnswer
  | .a, rows => okOrNodata .a request (addressRecords rows 4)
  | .aaaa, rows => okOrNodata .aaaa request (addressRecords rows 6)
  | .ns, rows =>
      if nsRecords rows = [] then negative .nodata request else .nameservers (nsRecords rows)
  | .mx, rows =>
      if mxRecords rows = [] then negative .nodata request else .exchanges (mxRecords rows)

/-- The codes of c-ares with a state of their own, cancellation apart. -/
def CODE_STATES : List (Text × DnsNegativeState) :=
  [(text "ENODATA", .nodata), (text "ENOTFOUND", .nxdomain), (text "ENONAME", .nxdomain),
    (text "ESERVFAIL", .unresolved .servfail), (text "EBADRESP", .unresolved .servfail),
    (text "EFORMERR", .unresolved .servfail), (text "EREFUSED", .unresolved .refused),
    (text "ECONNREFUSED", .unresolved .refused), (text "ETIMEOUT", .unresolved .timeout),
    (text "EBADNAME", .unresolved .invalidName), (text "EBADSTR", .unresolved .invalidName)]

def ECANCELLED : Text := text "ECANCELLED"

/-- `stateForError` of a rejection with such a `code`; `none` is one without a code. -/
def stateForError (code : Option Text) (aborted : Bool) : DnsNegativeState :=
  match code with
  | none => .unresolved .error
  | some code =>
      if code = ECANCELLED then .unresolved (if aborted then .aborted else .timeout)
      else (CODE_STATES.lookup code).getD (.unresolved .error)

/-- `query`: the answer of the port, once the query is over. -/
def query (request : DnsQuery) (run : QueryRun request.type) : DnsAnswer :=
  if run.abortedBefore then negative (.unresolved .aborted) request
  else if request.name = [] then negative (.unresolved .invalidName) request
  else
    match run.settled with
    | .ok rows => answerRows request request.type rows
    | .error code => negative (stateForError code run.abortedAfter) request

inductive DnssecValidationState where
  | secure | insecure | bogus | indeterminate
deriving DecidableEq

def DnssecValidationState.name : DnssecValidationState → Text
  | .secure => text "secure"
  | .insecure => text "insecure"
  | .bogus => text "bogus"
  | .indeterminate => text "indeterminate"

structure DnssecAnswer where
  state : DnssecValidationState
  name : Text
  resolverValidates : Bool
  unresolved : Option DnsUnresolvedState
deriving DecidableEq

/-- A stub resolver does not validate. -/
def validateDnssec (name : Text) (aborted : Bool) : DnssecAnswer where
  state := .indeterminate
  name
  resolverValidates := false
  unresolved := if aborted then some .aborted else none

/-! ### Normalization -/

/-- One round of `minTtl`: a TTL is a whole number, so every one is finite. -/
def lower (least value : Option Int) : Option Int :=
  match value with
  | none => least
  | some value =>
      if value < 0 then least else some (least.elim value fun least => min least value)

def minTtl (values : List (Option Int)) : Option Int := values.foldl lower none

structure NormalizedAddressAnswer where
  state : DnsAnswerState
  addresses : List Text
  ttlSeconds : Option Int

structure NormalizedNsAnswer where
  state : DnsAnswerState
  hosts : List Text
  ttlSeconds : Option Int

structure NormalizedMxExchange where
  exchange : Text
  preference : Nat
deriving DecidableEq

structure NormalizedMxAnswer where
  state : DnsAnswerState
  exchanges : List NormalizedMxExchange
  ttlSeconds : Option Int

inductive DnsMailSemantic where
  | explicitMx | nullMx | implicitAFallback | noMailTarget | unknown
deriving DecidableEq

def DnsMailSemantic.name : DnsMailSemantic → Text
  | .explicitMx => text "explicit-mx"
  | .nullMx => text "null-mx"
  | .implicitAFallback => text "implicit-a-fallback"
  | .noMailTarget => text "no-mail-target"
  | .unknown => text "unknown"

structure NormalizedDnsState where
  host : Text
  zone : Text
  a : NormalizedAddressAnswer
  aaaa : NormalizedAddressAnswer
  ns : NormalizedNsAnswer
  mx : NormalizedMxAnswer
  mailSemantic : DnsMailSemantic
  resolvable : Bool
  authoritative : Bool
  minTtlSeconds : Option Int

def isAuthoritative : DnsAnswerState → Bool
  | .ok => true
  | .negative .nodata => true
  | .negative .nxdomain => true
  | .negative (.unresolved _) => false

def normalizeAddress (answer : DnsAnswer) : NormalizedAddressAnswer :=
  match answer with
  | .addresses _ records =>
      { state := .ok
        addresses := records.map fun r => r.address
        ttlSeconds := minTtl (records.map fun r => some r.ttlSeconds) }
  | _ => { state := answer.state, addresses := [], ttlSeconds := none }

def normalizeNs (answer : DnsAnswer) : NormalizedNsAnswer :=
  match answer with
  | .nameservers records =>
      { state := .ok
        hosts := records.map fun r => r.host
        ttlSeconds := minTtl (records.map fun r => some r.ttlSeconds) }
  | _ => { state := answer.state, hosts := [], ttlSeconds := none }

/-- The sort of `exchanges`: stable, by preference. -/
def sortExchanges (records : List DnsMxRecord) : List DnsMxRecord :=
  records.insertionSort fun x y => x.preference ≤ y.preference

def normalizeMx (answer : DnsAnswer) : NormalizedMxAnswer :=
  match answer with
  | .exchanges records =>
      { state := .ok
        exchanges := (sortExchanges records).map fun r =>
          { exchange := r.exchange, preference := r.preference }
        ttlSeconds := minTtl (records.map fun r => some r.ttlSeconds) }
  | _ => { state := answer.state, exchanges := [], ttlSeconds := none }

/-- RFC 7505: exactly one exchange, the root at preference 0. -/
def isNullMx (mx : NormalizedMxAnswer) : Bool :=
  mx.state = .ok && mx.exchanges = [{ exchange := text ".", preference := 0 }]

def deriveMailSemantic (mx : NormalizedMxAnswer) (resolvable : Bool) : DnsMailSemantic :=
  if isNullMx mx then .nullMx
  else if mx.state = .ok ∧ mx.exchanges ≠ [] then .explicitMx
  else if mx.state = .negative .nodata ∨ mx.state = .negative .nxdomain then
    if resolvable then .implicitAFallback else .noMailTarget
  else .unknown

structure NormalizeDnsInput where
  host : Text
  zone : Text
  a : DnsAnswer
  aaaa : DnsAnswer
  ns : DnsAnswer
  mx : DnsAnswer

def normalizeDnsState (input : NormalizeDnsInput) : NormalizedDnsState :=
  let a := normalizeAddress input.a
  let aaaa := normalizeAddress input.aaaa
  let ns := normalizeNs input.ns
  let mx := normalizeMx input.mx
  let resolvable := !a.addresses.isEmpty || !aaaa.addresses.isEmpty
  { host := input.host, zone := input.zone, a, aaaa, ns, mx
    mailSemantic := deriveMailSemantic mx resolvable
    resolvable
    authoritative := isAuthoritative a.state || isAuthoritative aaaa.state ||
      isAuthoritative ns.state || isAuthoritative mx.state
    minTtlSeconds := minTtl [a.ttlSeconds, aaaa.ttlSeconds, ns.ttlSeconds, mx.ttlSeconds] }

/-! ### The enricher -/

def DNS_SOURCE_ID : Text := text "dns.state"
def DNS_SOURCE_VERSION : Text := text "1.0.0"
def DNS_RECORDS_EVIDENCE_TYPE : Text := text "dns.records"
def DNS_DNSSEC_EVIDENCE_TYPE : Text := text "dns.dnssec"

/-- `DNS_SOURCE_DESCRIPTOR.freshness` -/
def FRESHNESS : FreshnessCapability := ⟨false, false⟩

def provenance : EnrichmentProvenance :=
  .declared ⟨DNS_SOURCE_ID, some DNS_SOURCE_VERSION, none⟩ (some ⟨text "dns.resolver", none, none⟩)

def seconds (ttl : Int) : Value := .num (.fin ttl)

def addressPayload (answer : NormalizedAddressAnswer) : Value :=
  .obj
    [(text "state", .str answer.state.name),
      (text "addresses", textsValue answer.addresses),
      (text "ttlSeconds", nullable seconds answer.ttlSeconds)]

def nsPayload (answer : NormalizedNsAnswer) : Value :=
  .obj
    [(text "state", .str answer.state.name),
      (text "hosts", textsValue answer.hosts),
      (text "ttlSeconds", nullable seconds answer.ttlSeconds)]

def exchangeValue (e : NormalizedMxExchange) : Value :=
  .obj [(text "exchange", .str e.exchange), (text "preference", .num (JsNum.ofNat e.preference))]

def mxPayload (answer : NormalizedMxAnswer) : Value :=
  .obj
    [(text "state", .str answer.state.name),
      (text "exchanges", .arr (answer.exchanges.map fun e => some (exchangeValue e))),
      (text "ttlSeconds", nullable seconds answer.ttlSeconds)]

def recordsPayload (state : NormalizedDnsState) (recordsExpireAt : Option Text) : Value :=
  .obj
    [(text "host", .str state.host),
      (text "zone", .str state.zone),
      (text "resolvable", .bool state.resolvable),
      (text "mailSemantic", .str state.mailSemantic.name),
      (text "a", addressPayload state.a),
      (text "aaaa", addressPayload state.aaaa),
      (text "ns", nsPayload state.ns),
      (text "mx", mxPayload state.mx),
      (text "minTtlSeconds", nullable seconds state.minTtlSeconds),
      (text "recordsExpireAt", nullable Value.str recordsExpireAt)]

def dnssecPayload (dnssec : DnssecAnswer) : Value :=
  .obj
    ([(text "name", .str dnssec.name),
      (text "validationState", .str dnssec.state.name),
      (text "resolverValidates", .bool dnssec.resolverValidates)] ++
      (dnssec.unresolved.map fun reason => (text "unresolved", Value.str reason.name)).toList)

section
variable (dates : DateApi)

/-- The instant the first record runs out; the inner `none` is that there is none, the outer one a
RangeError. -/
def recordsExpireAt (observedAt : Int) (minTtlSeconds : Option Int) : Option (Option Text) :=
  match minTtlSeconds with
  | none => some none
  | some ttl => (dates.toISOString ((observedAt + ttl * 1000 : Int) : Rat)).map some

def evidenceOf (type : Text) (subject : EnrichmentSubject) (observedAt : Int)
    (freshness : EnrichmentFreshness) (payload : Value) : EnrichmentEvidence where
  type
  subject
  observedAt := dates.iso observedAt
  provenance
  freshness
  payload

/-- `none` is a RangeError. -/
def observedOutcome (subject : EnrichmentSubject) (observedAt : Int) (state : NormalizedDnsState)
    (dnssec : DnssecAnswer) : Option EnrichmentOutcome :=
  (freshnessFor dates FRESHNESS (some observedAt) none).bind fun freshness =>
    (recordsExpireAt dates observedAt state.minTtlSeconds).map fun expireAt =>
      { sourceId := DNS_SOURCE_ID, layer := .reputation, status := .success, subject
        observedAt := dates.iso observedAt, provenance, freshness
        evidence :=
          [some (evidenceOf dates DNS_RECORDS_EVIDENCE_TYPE subject observedAt freshness
              (recordsPayload state expireAt)),
            some (evidenceOf dates DNS_DNSSEC_EVIDENCE_TYPE subject observedAt freshness
              (dnssecPayload dnssec))]
        findings := []
        cause := none }

structure Disposition where
  status : OutcomeStatus
  code : Text
  reason : DnsUnresolvedState
  retryable : Bool

def UNRESOLVED_PRIORITY : List DnsUnresolvedState :=
  [.aborted, .timeout, .invalidName, .refused, .servfail, .error]

def dispositionOf (reason : DnsUnresolvedState) : Disposition :=
  match reason with
  | .aborted => ⟨.skipped, text "dns-caller-aborted", reason, true⟩
  | .timeout => ⟨.skipped, text "dns-timeout", reason, true⟩
  | .refused => ⟨.failure, text "dns-refused", reason, true⟩
  | .servfail => ⟨.failure, text "dns-servfail", reason, true⟩
  | .invalidName => ⟨.failure, text "dns-invalid-name", reason, false⟩
  | .error => ⟨.failure, text "dns-resolver-error", reason, true⟩

/-- `seen.has(candidate)` over the states of the answers -/
def seen (answers : List DnsAnswer) (reason : DnsUnresolvedState) : Bool :=
  answers.any fun answer => answer.state = .negative (.unresolved reason)

def dominantFailure (answers : List DnsAnswer) : Disposition :=
  dispositionOf ((UNRESOLVED_PRIORITY.find? (seen answers)).getD .error)

def degradedOutcome (status : OutcomeStatus) (subject : EnrichmentSubject) (observedAt : Int)
    (cause : EnrichmentCause) : EnrichmentOutcome where
  sourceId := DNS_SOURCE_ID
  layer := .reputation
  status
  subject
  observedAt := dates.iso observedAt
  provenance
  freshness := { status := .unknown, expiresAt := none }
  evidence := []
  findings := []
  cause := some cause

def noHost : EnrichmentCause where
  code := text "dns-no-host"
  message := some (text "input has no host to resolve")
  retryable := some false

def notAHostname : EnrichmentCause where
  code := text "dns-not-a-hostname"
  message := some (text "input host is an IP literal; nothing to resolve")
  retryable := some false

def unansweredCause (disposition : Disposition) : EnrichmentCause where
  code := disposition.code
  message := some (text "no DNS query could be answered (" ++ disposition.reason.name ++ text ")")
  retryable := some disposition.retryable

/-- The five calls `Promise.all` makes at once. -/
structure DnsBatch where
  queries : List DnsQuery
  dnssec : Text
deriving DecidableEq

inductive DnsOp where
  | now
  | all (batch : DnsBatch)

/-- How the calls of a batch go. -/
structure BatchRun where
  query : (request : DnsQuery) → QueryRun request.type
  dnssecAborted : Bool

def DnsAns : DnsOp → Type
  | .now => Int
  | .all _ => BatchRun

abbrev DnsProg := Prog DnsOp DnsAns
abbrev DnsEvent := Event DnsOp DnsAns

def dnsNow : DnsProg Int := Prog.perform DnsOp.now
def dnsAll (batch : DnsBatch) : DnsProg BatchRun := Prog.perform (DnsOp.all batch)

def A (host : Text) : DnsQuery := ⟨host, .a⟩
def AAAA (host : Text) : DnsQuery := ⟨host, .aaaa⟩
def NS (zone : Text) : DnsQuery := ⟨zone, .ns⟩
def MX (zone : Text) : DnsQuery := ⟨zone, .mx⟩

def batchOf (host zone : Text) : DnsBatch where
  queries := [A host, AAAA host, NS zone, MX zone]
  dnssec := zone

def BatchRun.answer (runs : BatchRun) (request : DnsQuery) : DnsAnswer :=
  DnsState.query request (runs.query request)

def BatchRun.input (runs : BatchRun) (host zone : Text) : NormalizeDnsInput where
  host
  zone
  a := runs.answer (A host)
  aaaa := runs.answer (AAAA host)
  ns := runs.answer (NS zone)
  mx := runs.answer (MX zone)

/-- The outcome of the enricher over the answers it got. -/
def answeredOutcome (host zone : Text) (observedAt : Int) (runs : BatchRun) :
    Option EnrichmentOutcome :=
  let state := normalizeDnsState (runs.input host zone)
  if state.authoritative then
    observedOutcome dates ⟨.host, host⟩ observedAt state (validateDnssec zone runs.dnssecAborted)
  else
    let disposition := dominantFailure ((batchOf host zone).queries.map runs.answer)
    some (degradedOutcome dates disposition.status ⟨.host, host⟩ observedAt
      (unansweredCause disposition))

/-- `none` is the RangeError of an observation out of range. -/
def report (observedAt : TimeValue) (outcome : Int → Option EnrichmentOutcome) :
    Option EnrichmentReport :=
  (observedAt.bind outcome).map fun outcome => { outcomes := [some outcome] }

/-- The effective host, when there is one to resolve. -/
def hostOf (result : InspectResult) : Option Text :=
  (result.parsed.bind fun parsed => parsed.effectiveHost).filter fun host => host ≠ []

def isIp (result : InspectResult) : Bool := result.parsed.any fun parsed => parsed.isIp

def zoneOf (result : InspectResult) (host : Text) : Text :=
  (result.parsed.bind fun parsed => parsed.registrableDomain).getD host

/-- The enricher after its observation. -/
def enrichAt (result : InspectResult) (now : Int) : DnsProg (Option EnrichmentReport) :=
  let observedAt := timeClip now
  match hostOf result with
  | none =>
      return report observedAt fun at' =>
        some (degradedOutcome dates .skipped ⟨.url, result.input⟩ at' noHost)
  | some host =>
      if isIp result then
        return report observedAt fun at' =>
          some (degradedOutcome dates .skipped ⟨.host, host⟩ at' notAHostname)
      else do
        let runs ← dnsAll (batchOf host (zoneOf result host))
        return report observedAt fun at' =>
          answeredOutcome dates host (zoneOf result host) at' runs

/-- The enricher; `none` is a promise that rejects. -/
def enrich (result : InspectResult) : DnsProg (Option EnrichmentReport) := do
  enrichAt dates result (← dnsNow)

end

end DnsState

end Linklint
