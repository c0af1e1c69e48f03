import Linklint.Lib.Interleaving
import Linklint.Transport.FetchState
import Linklint.Transport.TlsCertificate

/-!
# The observational TLS inspector

An inspection pins its destination as a fetch does, observes one handshake at the
pinned address and normalizes what was presented. The code between two awaits is
one turn: the answer of a port, the deadline or the caller goes in.
-/

namespace Linklint

namespace TlsInspect

open Interleaving SafeSession

inductive TlsObservationCauseCode where
  | invalidUrl | unsupportedScheme | urlCredentials | prohibitedAddress
  | dnsNotFound | dnsTimeout | dnsMalformed | dnsError
  | connectRefused | connectTimeout | connectError | connectionAddressMismatch
  | tlsHandshake | certificateMalformed | certificateTooLarge | chainTooDeep
  | timeout | callerAborted
deriving DecidableEq

def TlsObservationCauseCode.name : TlsObservationCauseCode → Text
  | .invalidUrl => text "invalid-url"
  | .unsupportedScheme => text "unsupported-scheme"
  | .urlCredentials => text "url-credentials"
  | .prohibitedAddress => text "prohibited-address"
  | .dnsNotFound => text "dns-not-found"
  | .dnsTimeout => text "dns-timeout"
  | .dnsMalformed => text "dns-malformed"
  | .dnsError => text "dns-error"
  | .connectRefused => text "connect-refused"
  | .connectTimeout => text "connect-timeout"
  | .connectError => text "connect-error"
  | .connectionAddressMismatch => text "connection-address-mismatch"
  | .tlsHandshake => text "tls-handshake"
  | .certificateMalformed => text "certificate-malformed"
  | .certificateTooLarge => text "certificate-too-large"
  | .chainTooDeep => text "chain-too-deep"
  | .timeout => text "timeout"
  | .callerAborted => text "caller-aborted"

/-- The codes an adapter may assert through `error.code`. -/
def STABLE_OBSERVE_CODES : List TlsObservationCauseCode :=
  [.dnsNotFound, .dnsTimeout, .dnsMalformed, .connectRefused, .connectTimeout,
    .connectionAddressMismatch, .tlsHandshake]

def analysisCause : TlsCertificateAnalysisCode → TlsObservationCauseCode
  | .certificateMalformed => .certificateMalformed
  | .certificateTooLarge => .certificateTooLarge
  | .chainTooDeep => .chainTooDeep

inductive ObservePhase where
  | dns | connect
deriving DecidableEq

/-- What is read of an error: its code, when it has one of the registry. -/
abbrev ObserveOriginal := Option TlsObservationCauseCode

inductive InspectFault where
  | observe (phase : ObservePhase) (original : ObserveOriginal)
  | analysis (code : TlsCertificateAnalysisCode)
  | deadline
  | other
deriving DecidableEq

def stableCode (original : ObserveOriginal) : Option TlsObservationCauseCode :=
  original.filter STABLE_OBSERVE_CODES.contains

def observeCause (phase : ObservePhase) (original : ObserveOriginal) : TlsObservationCauseCode :=
  (stableCode original).getD
    (match phase with
      | .dns => .dnsError
      | .connect => .connectError)

structure TlsObservationCause where
  code : TlsObservationCauseCode
  details : Option Value := none

structure InspectState where
  subject : Text
  hostname : Option Text := none
  port : Option Nat := none
  resolvedAddresses : Option (List Text) := none
  selectedAddress : Option Text := none

structure TlsObservationEvidence where
  subject : Text
  observedAt : Text
  hostname : Option Text
  port : Option Nat
  resolvedAddresses : Option (List Text)
  selectedAddress : Option Text

inductive TlsObservationResult where
  | observed (observation : NormalizedTlsObservation)
  | blocked (cause : TlsObservationCause)
  | incomplete (cause : TlsObservationCause)

structure TlsObservationOutcome where
  subject : Text
  observedAt : Text
  evidence : TlsObservationEvidence
  result : TlsObservationResult

def evidenceOf (state : InspectState) (observedAt : Text) : TlsObservationEvidence where
  subject := state.subject
  observedAt
  hostname := state.hostname
  port := state.port
  resolvedAddresses := state.resolvedAddresses
  selectedAddress := state.selectedAddress

structure TlsObserveConnectRequest where
  hostname : Text
  address : Text
  port : Nat
  serverName : Text

/-- What passed between an inspection and its ports. -/
inductive TlsPortEvent where
  | resolve (hostname : Text)
  | sleep (ms : Nat)
  | resolved (addresses : List DnsAddress)
  | observe (request : TlsObserveConnectRequest)
  | observed (observation : TlsHandshakeObservation)

/-- The observer throws at once, or its promise rejects. -/
inductive ObserveFailure where
  | threw
  | rejected (error : ObserveOriginal)

/-- `resolvedTimeoutMs()` -/
def resolvedTimeoutMs (options : TlsInspectionOptions) : Nat :=
  match options.maxTotalTimeMs.bind positiveSafeInteger with
  | some configured => min configured MAX_TIMER_MS
  | none => 10000

section
variable (api : TlsApi)

def outcomeOf (state : InspectState) (result : TlsObservationResult) (now : ClockReading) :
    Except Thrown TlsObservationOutcome :=
  (now.toISOString api.toTransportApi).map fun observedAt =>
    { subject := state.subject, observedAt, evidence := evidenceOf state observedAt, result }

/-! ### Destinations -/

/-- A destination of an inspection: https, without credentials. -/
structure TlsDestination (raw : Text) where
  /-- without its fragment -/
  url : Url
  parsed : ∃ written, api.urls.parse raw = some written ∧ url = written.withoutHash
  scheme : url.protocol = text "https:"
  noUsername : url.username = []
  noPassword : url.password = []

namespace TlsDestination
variable {api} {raw : Text} (destination : TlsDestination api raw)

def href : Text := api.urls.href destination.url
def hostname : Text := unbracket destination.url.hostname
def port : Nat := effectivePort destination.url

end TlsDestination

theorem username_eq_nil (url : Url) (h : ¬(url.username ≠ [] ∨ url.password ≠ [])) :
    url.username = [] := not_not.mp (not_or.mp h).1

theorem password_eq_nil (url : Url) (h : ¬(url.username ≠ [] ∨ url.password ≠ [])) :
    url.password = [] := not_not.mp (not_or.mp h).2

def inspectDestination (raw : Text) : Except TlsObservationCause (TlsDestination api raw) :=
  match parsed : api.urls.parse raw with
  | none => .error { code := .invalidUrl }
  | some url =>
      if scheme : url.protocol ≠ text "https:" then
        .error { code := .unsupportedScheme
                 details := some (.obj [(text "scheme", .str url.protocol)]) }
      else if userinfo : url.username ≠ [] ∨ url.password ≠ [] then
        .error { code := .urlCredentials }
      else
        .ok
          { url := url.withoutHash
            parsed := ⟨url, parsed, rfl⟩
            scheme := not_not.mp scheme
            noUsername := username_eq_nil url userinfo
            noPassword := password_eq_nil url userinfo }

def observeRequest {raw : Text} (destination : TlsDestination api raw) (pin : PinnedDestination) :
    TlsObserveConnectRequest where
  hostname := destination.hostname
  address := pin.selected.address
  port := destination.port
  serverName := destination.hostname

/-- The observed peer is the pinned one. -/
def SamePeer {raw : Text} (destination : TlsDestination api raw) (pin : PinnedDestination)
    (observation : TlsHandshakeObservation) : Prop :=
  observation.remotePort = .ofNat destination.port
    ∧ addressesEqual pin.selected.address observation.remoteAddress = true

instance {raw : Text} (destination : TlsDestination api raw) (pin : PinnedDestination) :
    DecidablePred (SamePeer api destination pin) := fun _ => by
  unfold SamePeer
  infer_instance

/-! ### States -/

abbrev WorkResult := Except InspectFault TlsObservationOutcome

/-- A raw exception inside `execute` is an error of no kind. -/
def workResult : Except Thrown TlsObservationOutcome → WorkResult
  | .ok outcome => .ok outcome
  | .error _ => .error .other

/-- Where `execute` is suspended. -/
inductive Work (raw : Text) where
  /-- the inspection ended before `execute` was called -/
  | unstarted
  | resolving (destination : TlsDestination api raw)
  | observing (destination : TlsDestination api raw) (pin : PinnedDestination)
  | settled (result : WorkResult)

structure Inspection where
  url : Text
  attempt : InspectState
  work : Work api url
  log : List TlsPortEvent := []
  /-- what settled the race between the work and the deadline -/
  race : Option WorkResult := none
  deadlineSettled : Bool := false
  timedOut : Bool := false
  /-- `request.signal?.aborted` -/
  callerAborted : Bool
  /-- the abort listener is installed -/
  listening : Bool := false
  /-- `operationController.signal.aborted` -/
  aborted : Bool := false
  outcome : Option (Except Thrown TlsObservationOutcome) := none

structure InspectCall where
  url : Text
  callerAborted : Bool
  /-- the reading for `observedAt` -/
  observed : ClockReading
  sleepThrows : Bool

inductive InspectEvent where
  | resolved (answer : Except ObserveOriginal (List DnsAddress)) (observed : ClockReading)
  /-- the handshake, and the readings for its normalization and for the outcome -/
  | observed (answer : Except ObserveFailure TlsHandshakeObservation) (now observed : ClockReading)
  | deadline (fired : Bool)
  | callerAbort
  /-- the continuation of the race -/
  | settle (observed : ClockReading)

end

section
variable {api : TlsApi}

/-- `execute` settles. -/
def Inspection.settleWork (inspection : Inspection api) (result : WorkResult) : Inspection api :=
  { inspection with work := .settled result, race := inspection.race.or (some result) }

def dnsFault (code : TlsObservationCauseCode) : InspectFault := .observe .dns (some code)

def prohibitedCause (answer : DnsAddress) (category : TransportAddressCategory) :
    TlsObservationCause where
  code := .prohibitedAddress
  details := some (.obj [(text "address", .str answer.address),
    (text "category", .str category.name)])

/-- The answers the pin is decided on: a literal's own, or the resolver's. -/
def pinAnswers (hostname : Text) (answer : Except ObserveOriginal (List DnsAddress)) :
    Except ObserveOriginal (List DnsAddress) :=
  match literalAddresses hostname with
  | some literal => .ok literal
  | none => answer

def onResolved (inspection : Inspection api) (destination : TlsDestination api inspection.url)
    (answer : Except ObserveOriginal (List DnsAddress)) (observed : ClockReading) :
    Inspection api :=
  match pinAnswers destination.hostname answer with
  | .error error => inspection.settleWork (.error (.observe .dns error))
  | .ok addresses =>
      let log := inspection.log ++ [.resolved addresses]
      if inspection.aborted then
        { inspection with log }.settleWork (.error (dnsFault .dnsTimeout))
      else
        let attempt :=
          { inspection.attempt with resolvedAddresses := some (resolvedTexts addresses) }
        match pinDestination addresses with
        | .dnsNotFound =>
            { inspection with log, attempt }.settleWork (.error (dnsFault .dnsNotFound))
        | .dnsMalformed =>
            { inspection with log, attempt }.settleWork (.error (dnsFault .dnsMalformed))
        | .prohibited answer category =>
            { inspection with log, attempt }.settleWork
              (workResult (outcomeOf api attempt (.blocked (prohibitedCause answer category))
                observed))
        | .pinned pin =>
            { inspection with
              log := log ++ [.observe (observeRequest api destination pin)]
              attempt := { attempt with selectedAddress := some pin.selected.address }
              work := .observing destination pin }

section
variable (options : TlsInspectionOptions)

/-- The rest of `execute` once the handshake was observed at the pinned peer. -/
def finish (inspection : Inspection api) (hostname : Text)
    (observation : TlsHandshakeObservation) (now observed : ClockReading) : WorkResult :=
  match now.getTime with
  | .error _ => .error .other
  | .ok observedMs =>
      match normalizeTlsCertificate api observation hostname observedMs options with
      | .error (.analysis code) => .error (.analysis code)
      | .error .other => .error .other
      | .ok normalized =>
          workResult (outcomeOf api inspection.attempt (.observed normalized) observed)

def onObserved (inspection : Inspection api) (destination : TlsDestination api inspection.url)
    (pin : PinnedDestination) (answer : Except ObserveFailure TlsHandshakeObservation)
    (now observed : ClockReading) : Inspection api :=
  match answer with
  | .error .threw => inspection.settleWork (.error .other)
  | .error (.rejected error) => inspection.settleWork (.error (.observe .connect error))
  | .ok observation =>
      let log := inspection.log ++ [.observed observation]
      if inspection.aborted then
        { inspection with log }.settleWork (.error (.observe .connect (some .connectTimeout)))
      else if SamePeer api destination pin observation then
        { inspection with log }.settleWork
          (finish options inspection destination.hostname observation now observed)
      else
        { inspection with log }.settleWork
          (.error (.observe .connect (some .connectionAddressMismatch)))

/-! ### The race of an inspection -/

/-- The cause a fault leaves an inspection with: the deadline first, then the caller. -/
def failureCause (inspection : Inspection api) (fault : InspectFault) : TlsObservationCauseCode :=
  if inspection.timedOut = true ∨ fault = .deadline then .timeout
  else if inspection.callerAborted then .callerAborted
  else
    match fault with
    | .observe phase original => observeCause phase original
    | .analysis code => analysisCause code
    | _ => .tlsHandshake

def onSettle (inspection : Inspection api) (result : WorkResult) (observed : ClockReading) :
    Inspection api :=
  let settled :=
    match result with
    | .ok outcome => .ok outcome
    | .error fault =>
        outcomeOf api inspection.attempt (.incomplete { code := failureCause inspection fault })
          observed
  { inspection with outcome := some settled, listening := false }

def onDeadline (inspection : Inspection api) (fired : Bool) : Inspection api :=
  if fired then
    { inspection with
      deadlineSettled := true, timedOut := true, aborted := true
      race := inspection.race.or (some (.error .deadline)) }
  else
    { inspection with deadlineSettled := true, race := inspection.race.or (some (.error .other)) }

def onCallerAbort (inspection : Inspection api) : Inspection api :=
  { inspection with
    callerAborted := true, aborted := inspection.aborted || inspection.listening }

/-- One turn of an inspection; `none` where it does not await that event. -/
def turn (inspection : Inspection api) (event : InspectEvent) : Option (Inspection api) :=
  match inspection.work, event with
  | .resolving destination, .resolved answer observed =>
      some (onResolved inspection destination answer observed)
  | .observing destination pin, .observed answer now observed =>
      some (onObserved options inspection destination pin answer now observed)
  | _, .callerAbort => some (onCallerAbort inspection)
  | .unstarted, _ => none
  | _, .deadline fired =>
      if inspection.deadlineSettled then none else some (onDeadline inspection fired)
  | _, .settle observed =>
      match inspection.outcome, inspection.race with
      | none, some result => some (onSettle inspection result observed)
      | _, _ => none
  | _, _ => none

/-! ### The start of an inspection -/

def newInspection (call : InspectCall) : Inspection api where
  url := call.url
  attempt := { subject := call.url }
  work := .unstarted
  callerAborted := call.callerAborted

/-- What asking for the answers of a host sends: nothing for a literal. -/
def resolveEvents (hostname : Text) : List TlsPortEvent :=
  match literalAddresses hostname with
  | some _ => []
  | none => [.resolve hostname]

/-- `execute` up to its first await. -/
def execute (inspection : Inspection api) (observed : ClockReading) : Inspection api :=
  match inspectDestination api inspection.url with
  | .error cause =>
      inspection.settleWork (workResult (outcomeOf api inspection.attempt (.incomplete cause) observed))
  | .ok destination =>
      { inspection with
        attempt :=
          { inspection.attempt with
            subject := destination.href
            hostname := some destination.hostname
            port := some destination.port }
        log := inspection.log ++ resolveEvents destination.hostname
        work := .resolving destination }

def start (call : InspectCall) : Inspection api :=
  let inspection : Inspection api := newInspection call
  if call.callerAborted then
    { inspection with
      outcome := some (outcomeOf api inspection.attempt (.incomplete { code := .callerAborted })
        call.observed) }
  else
    let inspection := execute { inspection with listening := true } call.observed
    let inspection :=
      { inspection with log := inspection.log ++ [.sleep (resolvedTimeoutMs options)] }
    if call.sleepThrows then
      { inspection with outcome := some (.error .thrown), deadlineSettled := true }
    else inspection

variable (api)

/-- An inspector and the inspections it was asked for; nothing is shared between them. -/
def inspector : Machine Unit (Inspection api) InspectCall InspectEvent where
  start _ call := ((), start options call)
  turn _ inspection event := (turn options inspection event).map fun next => ((), next)

/-- An inspector no inspection was asked of yet. -/
def created : State Unit (Inspection api) where
  shared := ()
  components := []

end

end

end TlsInspect

end Linklint
