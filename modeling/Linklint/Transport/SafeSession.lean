import Linklint.Lib.Interleaving
import Linklint.Transport.FetchState

/-!
# The safe session

A session and its fetches. The code between two awaits is one turn of a fetch: the
answer of a port, the deadline or the caller goes in, the next request to a port
comes out. The counters belong to the session and every fetch writes them.
-/

namespace Linklint

namespace SafeSession

open Interleaving

section
variable {api : TransportApi} {policy : TransportPolicy}

/-- `this.remainingTimeMs()` of a reading, `none` for NaN. -/
def remainingTimeMs (policy : TransportPolicy) (startedAtMs : Option Int) (now : ClockReading) :
    Except Thrown (Option Int) :=
  now.getTime.map fun time => do
    let started ← startedAtMs
    let time ← time
    return policy.maxTotalTimeMs - max 0 (time - started)

/-- `remaining <= 0`, which NaN is not. -/
def timeIsUp : Option Int → Bool
  | none => false
  | some remaining => decide (remaining ≤ 0)

def dnsError (code : TransportCauseCode) : TransportError := .operation .dns (.coded code)

def prohibitedCause (answer : DnsAddress) (category : TransportAddressCategory) : TransportCause :=
  { code := .prohibitedAddress
    details := some (.obj [(text "address", .str answer.address),
      (text "category", .str category.name)]) }

/-- The answers the pin is decided on: a literal's own, or the resolver's. -/
def answers (hostname : Text) (answer : Except OriginalError (List DnsAddress)) :
    Except OriginalError (List DnsAddress) :=
  match literalAddresses hostname with
  | some literal => .ok literal
  | none => answer

def onResolved (fetch : Fetch api policy) (destination : Destination api fetch.request)
    (answer : Except OriginalError (List DnsAddress)) (observed : ClockReading) :
    Fetch api policy :=
  match answers destination.hostname answer with
  | .error error => fetch.settleWork (.error (.operation .dns error))
  | .ok addresses =>
      let log := fetch.log ++ [.resolved addresses]
      if fetch.aborted then
        { fetch with log }.settleWork (.error (dnsError .dnsTimeout))
      else
        let attempt :=
          { fetch.attempt with resolvedAddresses := some (resolvedTexts addresses) }
        match pinDestination addresses with
        | .dnsNotFound => { fetch with log, attempt }.settleWork (.error (dnsError .dnsNotFound))
        | .dnsMalformed => { fetch with log, attempt }.settleWork (.error (dnsError .dnsMalformed))
        | .prohibited answer category =>
            { fetch with log, attempt }.settleWork
              (workResult (outcome api attempt (.blocked (prohibitedCause answer category)) observed))
        | .pinned pin =>
            { fetch with
              log := log ++ [.connect (connectRequest api destination pin)]
              attempt := { attempt with selectedAddress := some pin.selected.address }
              work := .connecting destination pin }

def onConnected (fetch : Fetch api policy) (destination : Destination api fetch.request)
    (pin : PinnedDestination) (answer : Except PortFailure TransportConnection) :
    Fetch api policy :=
  match answer with
  | .error .threw => fetch.settleWork (.error .other)
  | .error (.rejected error) => fetch.settleWork (.error (.operation .connect error))
  | .ok connection =>
      let log := fetch.log ++ [.connected connection]
      let fail (error : TransportError) : Fetch api policy :=
        { fetch with log }.leave connection.id (.error error)
      if fetch.aborted then fail (.operation .connect (.coded .connectTimeout))
      else if peer : PeerMatches api destination pin connection then
        if identity : destination.isHttps →
            identityMatches connection destination.hostname = true then
          let exchange : Exchange api fetch.request :=
            { destination, pin, connection, peer, identity }
          { fetch with
            log := log ++ [.request (httpRequest api exchange)]
            attempt := { fetch.attempt with tls := connection.tls }
            work := .requesting exchange }
        else fail (.operation .tls (.coded .tlsCertificate))
      else fail (.operation .connect (.coded .connectionAddressMismatch))

def onResponded (fetch : Fetch api policy) (exchange : Exchange api fetch.request)
    (answer : Except PortFailure HttpResponse) (start now : ClockReading) : Fetch api policy :=
  let connectionId := exchange.connection.id
  match answer with
  | .error .threw => fetch.leave connectionId (.error .other)
  | .error (.rejected error) => fetch.leave connectionId (.error (.operation .http error))
  | .ok response =>
      let log := fetch.log ++ [.responded response]
      let fail (error : TransportError) : Fetch api policy :=
        { fetch with log }.leave connectionId (.error error)
      if fetch.aborted then fail (.operation .http (.coded .httpTimeout))
      else if status : isHttpStatus response.status = true then
        if headerBudget : exceedsHeaderBudget response.headers policy = false then
          match openBody policy start now with
          | .error _ => fail (.operation .http .uncoded)
          | .ok body =>
              { fetch with log, work := .reading exchange { response, status, headerBudget } body }
        else fail (.budget .responseHeadersTooLarge)
      else fail (.operation .http (.coded .httpMalformed))

/-- The head of the loop once more; a clock that throws ends the body. -/
def continueReading (fetch : Fetch api policy) (exchange : Exchange api fetch.request)
    (accepted : AcceptedResponse policy) (body : BodyState) (now : ClockReading) :
    Fetch api policy :=
  match awaitChunk policy body now with
  | .error _ => fetch.leave exchange.connection.id (.error (.operation .http .uncoded))
  | .ok body => { fetch with work := .reading exchange accepted body }

def onRead (counters : Counters) (fetch : Fetch api policy) (exchange : Exchange api fetch.request)
    (accepted : AcceptedResponse policy) (body : BodyState) (answer : ReadAnswer)
    (now : ClockReading) : Counters × Fetch api policy :=
  let connectionId := exchange.connection.id
  match answer with
  | .failed error => (counters, fetch.leave connectionId (.error (.operation .http error)))
  | .malformed =>
      (counters, fetch.leave connectionId (.error (.operation .http (.coded .httpMalformed))))
  | .done =>
      (counters,
        { fetch with
          log := fetch.log ++ [.bodyEnd]
          work := .received exchange accepted (joinChunks body.responseBytes body.chunks) })
  | .chunk chunk =>
      let log := fetch.log ++ [.chunk chunk]
      let encodedBytes := counters.encodedBytes + chunk.length
      if policy.maxResponseBytes < encodedBytes then
        ({ counters with encodedBytes := policy.maxResponseBytes },
          { fetch with log }.leave connectionId (.error (.budget .responseTooLarge)))
      else
        let body :=
          { body with
            chunks := body.chunks ++ [chunk]
            responseBytes := body.responseBytes + chunk.length
            windowBytes := body.windowBytes + chunk.length }
        ({ counters with encodedBytes },
          continueReading { fetch with log } exchange accepted body now)

def onWindowClosed (fetch : Fetch api policy) (exchange : Exchange api fetch.request)
    (accepted : AcceptedResponse policy) (body : BodyState) (firedAt : Int) (now : ClockReading) :
    Fetch api policy :=
  let log := fetch.log ++ [.windowClosed firedAt]
  if body.windowBytes < policy.minThroughputBytes then
    { fetch with log }.leave exchange.connection.id (.error (.budget .responseTooSlow))
  else
    let body :=
      { body with
        windowStartMs := body.windowStartMs.map (· + policy.minThroughputWindowMs)
        windowBytes := 0 }
    continueReading { fetch with log } exchange accepted body now

def decodeError : DecodeError → TransportError
  | .decompressedLimit => .budget .decompressedResponseTooLarge
  | .unsupportedContentEncoding _ => .operation .decompression .unsupportedContentEncoding
  | .contentDecompression => .operation .decompression .uncoded

section
variable (zlib : Zlib) (startedAtMs : Option Int)

/-- The end of `execute` once the body is decoded. -/
def finish (fetch : Fetch api policy) (exchange : Exchange api fetch.request)
    (accepted : AcceptedResponse policy) (encoded body : Bytes) (now observed : ClockReading) :
    WorkResult :=
  match remainingTimeMs policy startedAtMs now with
  | .error _ => .error .other
  | .ok remaining =>
      if timeIsUp remaining then .error .deadline
      else
        workResult (outcome api fetch.attempt
          (.success
            { url := exchange.destination.href
              status := accepted.response.status
              headers := accepted.response.headers
              body
              encodedBytes := encoded.length
              decompressedBytes := body.length })
          observed)

def onReceived (counters : Counters) (fetch : Fetch api policy)
    (exchange : Exchange api fetch.request) (accepted : AcceptedResponse policy)
    (encoded : Bytes) (now observed : ClockReading) : Counters × Fetch api policy :=
  let connectionId := exchange.connection.id
  if fetch.aborted then
    (counters, fetch.leave connectionId (.error (.operation .http (.coded .httpTimeout))))
  else
    let remainingDecoded := policy.maxDecompressedBytes - counters.decompressedBytes
    match decodeResponseBody api.platform zlib encoded accepted.response.headers
        remainingDecoded with
    | .error .decompressedLimit =>
        ({ counters with decompressedBytes := policy.maxDecompressedBytes },
          fetch.leave connectionId (.error (decodeError .decompressedLimit)))
    | .error error => (counters, fetch.leave connectionId (.error (decodeError error)))
    | .ok body =>
        ({ counters with decompressedBytes := counters.decompressedBytes + body.length },
          fetch.leave connectionId
            (finish startedAtMs fetch exchange accepted encoded body now observed))

/-! ### The race of a fetch -/

/-- The cause an error leaves a fetch with: the deadline first, then the caller. -/
def failureCause (fetch : Fetch api policy) (error : TransportError) : TransportCause :=
  if fetch.timedOut = true ∨ error = .deadline then { code := .timeout }
  else if fetch.callerAborted then { code := .callerAborted }
  else
    match error with
    | .budget code => { code, details := budgetDetails code policy }
    | .operation phase original =>
        let code := operationCause phase original
        { code, details := budgetDetails code policy }
    | _ => { code := .httpError }

def onSettle (fetch : Fetch api policy) (result : WorkResult) (observed : ClockReading) :
    Fetch api policy :=
  let settled :=
    match result with
    | .ok outcome => .ok outcome
    | .error error => outcome api fetch.attempt (.incomplete (failureCause fetch error)) observed
  { fetch with outcome := some settled, listening := false }

def onDeadline (fetch : Fetch api policy) (fired : Bool) : Fetch api policy :=
  if fired then
    { fetch with
      deadlineSettled := true, timedOut := true, aborted := true
      race := fetch.race.or (some (.error .deadline)) }
  else
    { fetch with deadlineSettled := true, race := fetch.race.or (some (.error .other)) }

def onCallerAbort (fetch : Fetch api policy) : Fetch api policy :=
  { fetch with callerAborted := true, aborted := fetch.aborted || fetch.listening }

/-- One turn of a fetch; `none` where the fetch does not await that event. -/
def turn (counters : Counters) (fetch : Fetch api policy) (event : FetchEvent) :
    Option (Counters × Fetch api policy) :=
  match fetch.work, event with
  | .resolving destination, .resolved answer observed =>
      some (counters, onResolved fetch destination answer observed)
  | .connecting destination pin, .connected answer =>
      some (counters, onConnected fetch destination pin answer)
  | .requesting exchange, .responded answer start now =>
      some (counters, onResponded fetch exchange answer start now)
  | .reading exchange accepted body, .read answer now =>
      some (onRead counters fetch exchange accepted body answer now)
  | .reading exchange accepted body, .windowClosed firedAt now =>
      some (counters, onWindowClosed fetch exchange accepted body firedAt now)
  | .received exchange accepted encoded, .resumed now observed =>
      some (onReceived zlib startedAtMs counters fetch exchange accepted encoded now observed)
  | .closing _ result, .closed => some (counters, fetch.settleWork result)
  | .unstarted, .callerAbort => some (counters, onCallerAbort fetch)
  | .unstarted, _ => none
  | _, .callerAbort => some (counters, onCallerAbort fetch)
  | _, .deadline fired =>
      if fetch.deadlineSettled then none else some (counters, onDeadline fetch fired)
  | _, .settle observed =>
      match fetch.outcome, fetch.race with
      | none, some result => some (counters, onSettle fetch result observed)
      | _, _ => none
  | _, _ => none

/-! ### The start of a fetch -/

def newFetch (counters : Counters) (call : FetchCall) : Fetch api policy where
  request := call.request
  attempt := { subject := call.request.url, hop := counters.hops + 1 }
  work := .unstarted
  callerAborted := call.callerAborted

/-- A fetch that ends before its first await. -/
def refuse (fetch : Fetch api policy) (result : FetchResult) (observed : ClockReading) :
    Fetch api policy :=
  { fetch with outcome := some (outcome api fetch.attempt result observed) }

/-- `execute` up to its first await. -/
def execute (fetch : Fetch api policy) (observed : ClockReading) : Fetch api policy :=
  match requestDestination api fetch.request with
  | .error cause =>
      fetch.settleWork (workResult (outcome api fetch.attempt (.blocked cause) observed))
  | .ok destination =>
      { fetch with
        attempt :=
          { fetch.attempt with
            subject := destination.href
            protocol := some destination.protocol
            hostname := some destination.hostname
            port := some destination.port }
        log :=
          match literalAddresses destination.hostname with
          | some _ => fetch.log
          | none => fetch.log ++ [.resolve destination.hostname]
        work := .resolving destination }

def Authorized (request : SafeFetchRequest) : Prop :=
  request.authorization = some ⟨text "destination-fetch", request.url⟩

instance : DecidablePred Authorized := fun _ => by
  unfold Authorized
  infer_instance

def start (counters : Counters) (call : FetchCall) : Counters × Fetch api policy :=
  let fetch := newFetch counters call
  let nextHop := counters.hops + 1
  if ¬Authorized call.request then
    (counters, refuse fetch (.blocked (blockedCause .authorizationRequired)) call.observed)
  else if policy.maxHops < nextHop then
    (counters, refuse fetch
      (.incomplete
        { code := .hopLimit, details := some (.obj [limit "maxHops" policy.maxHops]) })
      call.observed)
  else if call.callerAborted then
    (counters, refuse fetch (.incomplete { code := .callerAborted }) call.observed)
  else
    match remainingTimeMs policy startedAtMs call.now with
    | .error error => (counters, { fetch with outcome := some (.error error) })
    | .ok remaining =>
        if timeIsUp remaining then
          (counters, refuse fetch (.incomplete { code := .timeout }) call.observed)
        else
          let fetch := execute { fetch with listening := true } call.observed
          ({ counters with hops := nextHop },
            if call.sleepThrows then { fetch with outcome := some (.error .thrown) } else fetch)

variable (api policy)

/-- The session as interleaved fetches over its counters. -/
def session : Machine Counters (Fetch api policy) FetchCall FetchEvent where
  start := start startedAtMs
  turn := turn zlib startedAtMs

/-- A session no fetch was asked of yet. -/
def created : State Counters (Fetch api policy) where
  shared := { hops := 0, encodedBytes := 0, decompressedBytes := 0 }
  components := []

end

end

end SafeSession

end Linklint
