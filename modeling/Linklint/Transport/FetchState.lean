import Linklint.Transport.Decompression
import Linklint.Transport.Pin

/-!
# The state of a fetch

What a fetch of a safe session meets at its ports, the gates it puts before them,
and where it is suspended between two of its turns.
-/

namespace Linklint

namespace SafeSession

/-! ### Ports -/

structure ConnectRequest where
  protocol : Text
  hostname : Text
  address : Text
  port : Nat
  serverName : Option Text

/-- A connection as a connector outside the types may report it. -/
structure TransportConnection where
  id : Text
  protocol : Text
  remoteAddress : Text
  remotePort : JsNum
  tls : Option TlsEvidence

structure HttpRequest where
  connectionId : Text
  url : Text
  method : TransportMethod
  headers : Headers

/-- A response, without the body that follows it. -/
structure HttpResponse where
  status : JsNum
  headers : ResponseHeaders

/-- `clock.now()`: it throws, or gives an invalid date, or an instant. -/
inductive ClockReading where
  | threw
  | invalid
  | date (ms : Int)

/-- `getTime()`, with `none` for NaN. -/
def ClockReading.getTime : ClockReading → Except Thrown (Option Int)
  | .threw => .error .thrown
  | .invalid => .ok none
  | .date ms => .ok (some ms)

/-- `toISOString()`, a RangeError on an invalid date. -/
def ClockReading.toISOString (api : TransportApi) : ClockReading → Except Thrown Text
  | .date ms => .ok (api.iso ms)
  | _ => .error .thrown

/-- What is read of an error: its code, when it has one of the registry. -/
inductive OriginalError where
  | coded (code : TransportCauseCode)
  | uncoded
  | unsupportedContentEncoding
deriving DecidableEq

/-- A port throws at once or answers no object, or its promise rejects. -/
inductive PortFailure where
  | threw
  | rejected (error : OriginalError)

inductive ReadAnswer where
  | chunk (bytes : Bytes)
  /-- a chunk that is no `Uint8Array` -/
  | malformed
  | done
  | failed (error : OriginalError)

/-- What passed between a fetch and its ports. -/
inductive PortEvent where
  | resolve (hostname : Text)
  | resolved (addresses : List DnsAddress)
  | connect (request : ConnectRequest)
  | connected (connection : TransportConnection)
  | request (request : HttpRequest)
  | responded (response : HttpResponse)
  | chunk (bytes : Bytes)
  | windowClosed (firedAt : Int)
  | bodyEnd
  | close (connectionId : Text)

/-! ### Errors and outcomes -/

inductive OperationPhase where
  | dns | connect | tls | http | decompression
deriving DecidableEq

inductive TransportError where
  | operation (phase : OperationPhase) (original : OriginalError)
  | budget (code : TransportCauseCode)
  | deadline
  | other
deriving DecidableEq

/-- The codes an adapter may assert. -/
def STABLE_OPERATION_CODES : List TransportCauseCode :=
  [.dnsNotFound, .dnsTimeout, .dnsMalformed, .connectRefused, .connectTimeout,
   .connectionAddressMismatch, .tlsHandshake, .tlsCertificate, .httpMalformed, .httpReset,
   .httpTimeout, .responseHeadersTooLarge, .decompressionError]

def errorCode : OriginalError → Option TransportCauseCode
  | .coded code => if code ∈ STABLE_OPERATION_CODES then some code else none
  | _ => none

def phaseCause (phase : OperationPhase) (original : OriginalError) : TransportCauseCode :=
  match phase with
  | .dns => .dnsError
  | .connect => .connectError
  | .tls => .tlsHandshake
  | .decompression =>
      if original = .unsupportedContentEncoding then .unsupportedContentEncoding
      else .decompressionError
  | .http => .httpError

def operationCause (phase : OperationPhase) (original : OriginalError) : TransportCauseCode :=
  (errorCode original).getD (phaseCause phase original)

def limit (name : String) (value : Nat) : Text × Value := (text name, .num (.ofNat value))

def budgetDetails (code : TransportCauseCode) (policy : TransportPolicy) : Option Value :=
  match code with
  | .responseTooLarge => some (.obj [limit "maxResponseBytes" policy.maxResponseBytes])
  | .responseTooSlow =>
      some (.obj [limit "minThroughputBytes" policy.minThroughputBytes,
        limit "minThroughputWindowMs" policy.minThroughputWindowMs])
  | .decompressedResponseTooLarge =>
      some (.obj [limit "maxDecompressedBytes" policy.maxDecompressedBytes])
  | .responseHeadersTooLarge =>
      some (.obj [limit "maxResponseHeaderBytes" policy.maxResponseHeaderBytes,
        limit "maxResponseHeaderFields" policy.maxResponseHeaderFields])
  | _ => none

structure AttemptState where
  subject : Text
  hop : Nat
  protocol : Option Text := none
  hostname : Option Text := none
  port : Option Nat := none
  resolvedAddresses : Option (List Text) := none
  selectedAddress : Option Text := none
  tls : Option TlsEvidence := none

def evidence (state : AttemptState) (observedAt : Text) : TransportEvidence :=
  { subject := ⟨.url, state.subject⟩, observedAt, hop := state.hop
    protocol := state.protocol, hostname := state.hostname, port := state.port
    resolvedAddresses := state.resolvedAddresses, selectedAddress := state.selectedAddress
    tls := state.tls }

def outcome (api : TransportApi) (state : AttemptState) (result : FetchResult)
    (now : ClockReading) : Except Thrown SafeFetchOutcome :=
  (now.toISOString api).map fun observedAt =>
    { subject := ⟨.url, state.subject⟩, observedAt, evidence := evidence state observedAt, result }

abbrev WorkResult := Except TransportError SafeFetchOutcome

/-- A raw exception inside `execute` is an error of no kind. -/
def workResult : Except Thrown SafeFetchOutcome → WorkResult
  | .ok outcome => .ok outcome
  | .error _ => .error .other

/-! ### Gates -/

/-- `Number.isInteger(status) && 100 <= status <= 599` -/
def isHttpStatus : JsNum → Bool
  | .fin q => q.den == 1 && decide (100 ≤ q) && decide (q ≤ 599)
  | _ => false

/-- The field occurrences of a header block. -/
def headerFields (headers : ResponseHeaders) : List (Text × Text) :=
  headers.flatMap fun field => field.2.map fun value => (field.1, value)

def headerFieldBytes (field : Text × Text) : Nat := field.1.length + field.2.length + 4

/-- The loop over the occurrences, with the fields and bytes counted so far. -/
def exceedsFrom (policy : TransportPolicy) : List (Text × Text) → Nat → Nat → Bool
  | [], _, _ => false
  | field :: rest, fields, bytes =>
      if policy.maxResponseHeaderFields < fields + 1 then true
      else if policy.maxResponseHeaderBytes < bytes + headerFieldBytes field then true
      else exceedsFrom policy rest (fields + 1) (bytes + headerFieldBytes field)

def exceedsHeaderBudget (headers : ResponseHeaders) (policy : TransportPolicy) : Bool :=
  exceedsFrom policy (headerFields headers) 0 0

section
variable (api : TransportApi)

def connectRequest {request : SafeFetchRequest} (destination : Destination api request)
    (pin : PinnedDestination) : ConnectRequest where
  protocol := destination.protocol
  hostname := destination.hostname
  address := pin.selected.address
  port := destination.port
  serverName := if destination.isHttps then some destination.hostname else none

def PeerMatches {request : SafeFetchRequest} (destination : Destination api request)
    (pin : PinnedDestination) (connection : TransportConnection) : Prop :=
  connection.protocol = destination.protocol ∧ connection.remotePort = .ofNat destination.port
    ∧ addressesEqual pin.selected.address connection.remoteAddress = true

instance {request : SafeFetchRequest} (destination : Destination api request)
    (pin : PinnedDestination) : DecidablePred (PeerMatches api destination pin) := fun _ => by
  unfold PeerMatches
  infer_instance

/-- `connection.tls?.authorized && connection.tls.serverName === hostname` -/
def identityMatches (connection : TransportConnection) (hostname : Text) : Bool :=
  match connection.tls with
  | none => false
  | some tls => tls.authorized && tls.serverName == hostname

/-- A connection to the pinned peer; over TLS, with the identity of the destination. -/
structure Exchange (request : SafeFetchRequest) where
  destination : Destination api request
  pin : PinnedDestination
  connection : TransportConnection
  peer : PeerMatches api destination pin connection
  identity : destination.isHttps → identityMatches connection destination.hostname = true

def httpRequest {request : SafeFetchRequest} (exchange : Exchange api request) : HttpRequest where
  connectionId := exchange.connection.id
  url := exchange.destination.href
  method := exchange.destination.method
  headers := destinationHeaders api exchange.destination.url.host request.headers
    exchange.destination.referer

/-- A response whose status and header block passed. -/
structure AcceptedResponse (policy : TransportPolicy) where
  response : HttpResponse
  status : isHttpStatus response.status = true
  headerBudget : exceedsHeaderBudget response.headers policy = false

end

/-! ### Reading a body -/

/-- The state of `readEncodedBody` at its race: what it read, and what it asked the clock for. -/
structure BodyState where
  chunks : List Bytes
  responseBytes : Nat
  windowStartMs : Option Int
  windowBytes : Nat
  /-- when the timer of the race was asked for, and for how long -/
  askedAt : Option Int
  delay : Option Int

/-- `Math.max(0, windowMs - (now - windowStartMs))` -/
def remainingWindow (policy : TransportPolicy) (windowStartMs now : Option Int) : Option Int := do
  let start ← windowStartMs
  let now ← now
  return max 0 (policy.minThroughputWindowMs - (now - start))

/-- The head of the loop, up to the race it awaits. -/
def awaitChunk (policy : TransportPolicy) (body : BodyState) (now : ClockReading) :
    Except Thrown BodyState :=
  now.getTime.map fun askedAt =>
    { body with askedAt, delay := remainingWindow policy body.windowStartMs askedAt }

def openBody (policy : TransportPolicy) (start now : ClockReading) : Except Thrown BodyState := do
  let windowStartMs ← start.getTime
  awaitChunk policy
    { chunks := [], responseBytes := 0, windowStartMs, windowBytes := 0, askedAt := none
      delay := none } now

/-- `joined.set(chunk, offset)` -/
def setBytes (joined : Bytes) (offset : Nat) (chunk : Bytes) : Bytes :=
  joined.take offset ++ chunk ++ joined.drop (offset + chunk.length)

def joinFrom (joined : Bytes) (offset : Nat) : List Bytes → Bytes
  | [] => joined
  | chunk :: rest => joinFrom (setBytes joined offset chunk) (offset + chunk.length) rest

/-- The chunks, copied one after the other into a buffer of `responseBytes` zeros. -/
def joinChunks (responseBytes : Nat) (chunks : List Bytes) : Bytes :=
  joinFrom (List.replicate responseBytes 0) 0 chunks

/-! ### States -/

/-- The counters of the session. -/
structure Counters where
  hops : Nat
  encodedBytes : Nat
  decompressedBytes : Nat

/-- Where `execute` is suspended. -/
inductive Work (api : TransportApi) (policy : TransportPolicy) (request : SafeFetchRequest) where
  /-- the fetch ended before `execute` was called -/
  | unstarted
  | resolving (destination : Destination api request)
  | connecting (destination : Destination api request) (pin : PinnedDestination)
  | requesting (exchange : Exchange api request)
  | reading (exchange : Exchange api request) (accepted : AcceptedResponse policy)
      (body : BodyState)
  | received (exchange : Exchange api request) (accepted : AcceptedResponse policy)
      (encoded : Bytes)
  /-- in the `finally` block -/
  | closing (connectionId : Text) (result : WorkResult)
  | settled (result : WorkResult)

structure Fetch (api : TransportApi) (policy : TransportPolicy) where
  request : SafeFetchRequest
  attempt : AttemptState
  work : Work api policy request
  log : List PortEvent := []
  /-- what settled the race between the work and the deadline -/
  race : Option WorkResult := none
  deadlineSettled : Bool := false
  timedOut : Bool := false
  /-- `request.signal?.aborted` -/
  callerAborted : Bool
  /-- the abort listener is installed -/
  listening : Bool := false
  /-- `operationController.signal.aborted` -/
  aborted : Bool := false
  outcome : Option (Except Thrown SafeFetchOutcome) := none

/-- What a call of `fetch` meets before its first await. -/
structure FetchCall where
  request : SafeFetchRequest
  callerAborted : Bool
  /-- the reading for the remaining time -/
  now : ClockReading
  /-- the reading for `observedAt` -/
  observed : ClockReading
  sleepThrows : Bool

inductive FetchEvent where
  | resolved (answer : Except OriginalError (List DnsAddress)) (observed : ClockReading)
  | connected (answer : Except PortFailure TransportConnection)
  /-- the head of a response, and the two readings of the clock before its body is awaited -/
  | responded (answer : Except PortFailure HttpResponse) (start now : ClockReading)
  | read (answer : ReadAnswer) (now : ClockReading)
  /-- the timer of the race fired, at that time -/
  | windowClosed (firedAt : Int) (now : ClockReading)
  | resumed (now observed : ClockReading)
  | closed
  | deadline (fired : Bool)
  | callerAbort
  /-- the continuation of the race -/
  | settle (observed : ClockReading)

section
variable {api : TransportApi} {policy : TransportPolicy}

namespace Fetch

/-- `execute` settles. -/
def settleWork (fetch : Fetch api policy) (result : WorkResult) : Fetch api policy :=
  { fetch with work := .settled result, race := fetch.race.or (some result) }

/-- `execute` leaves the guarded part: the `finally` block closes the connection. -/
def leave (fetch : Fetch api policy) (connectionId : Text) (result : WorkResult) :
    Fetch api policy :=
  { fetch with work := .closing connectionId result, log := fetch.log ++ [.close connectionId] }

end Fetch

end

end SafeSession

end Linklint
