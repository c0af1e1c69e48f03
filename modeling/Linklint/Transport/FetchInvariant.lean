import Linklint.Transport.SafeSession

/-!
# What a fetch keeps

The log of a fetch tells where its work stands: at every await it is the sequence of
the gates passed so far, and once the work is over every connection in it was closed.
-/

namespace Linklint

namespace SafeSession

open Interleaving

/-! ### Logs -/

def connectionOf : PortEvent → Option Text
  | .connected connection => some connection.id
  | _ => none

def closeOf : PortEvent → Option Text
  | .close connectionId => some connectionId
  | _ => none

def chunkOf : PortEvent → Option Bytes
  | .chunk bytes => some bytes
  | _ => none

/-- The connections the connector returned. -/
def connections (log : List PortEvent) : List Text := log.filterMap connectionOf

def closes (log : List PortEvent) : List Text := log.filterMap closeOf

def chunks (log : List PortEvent) : List Bytes := log.filterMap chunkOf

/-- The bytes read since the last window closed. -/
def windowBytes (log : List PortEvent) : Nat :=
  log.foldl
    (fun (bytes : Nat) (event : PortEvent) =>
      match event with
      | .chunk chunk => bytes + chunk.length
      | .windowClosed _ => 0
      | _ => bytes) 0

def isConnect : PortEvent → Bool
  | .connect _ => true
  | _ => false

@[simp] theorem connections_append (log events : List PortEvent) :
    connections (log ++ events) = connections log ++ connections events :=
  List.filterMap_append

@[simp] theorem closes_append (log events : List PortEvent) :
    closes (log ++ events) = closes log ++ closes events :=
  List.filterMap_append

@[simp] theorem chunks_append (log events : List PortEvent) :
    chunks (log ++ events) = chunks log ++ chunks events :=
  List.filterMap_append

@[simp] theorem chunks_chunk (chunk : Bytes) : chunks [.chunk chunk] = [chunk] := rfl

@[simp] theorem chunks_windowClosed (firedAt : Int) : chunks [.windowClosed firedAt] = [] := rfl

@[simp] theorem windowBytes_chunk (log : List PortEvent) (chunk : Bytes) :
    windowBytes (log ++ [.chunk chunk]) = windowBytes log + chunk.length := by
  simp [windowBytes]

@[simp] theorem windowBytes_windowClosed (log : List PortEvent) (firedAt : Int) :
    windowBytes (log ++ [.windowClosed firedAt]) = 0 := by
  simp [windowBytes]

/-! ### Joining -/

theorem joinFrom_eq (before joined : Bytes) (chunks : List Bytes)
    (h : joined.length = chunks.flatten.length) :
    joinFrom (before ++ joined) before.length chunks = before ++ chunks.flatten := by
  induction chunks generalizing before joined with
  | nil =>
      have empty : joined = [] := by simpa using h
      simp [joinFrom, empty]
  | cons chunk rest ih =>
      have set : setBytes (before ++ joined) before.length chunk
          = before ++ chunk ++ joined.drop chunk.length := by
        simp [setBytes, List.drop_append]
      have room : (joined.drop chunk.length).length = rest.flatten.length := by
        simp only [List.flatten_cons, List.length_append] at h
        simp only [List.length_drop]
        omega
      have next := ih (before ++ chunk) (joined.drop chunk.length) room
      rw [joinFrom, set]
      simpa using next

/-- Chunks copied into a buffer of their total length are their concatenation. -/
theorem joinChunks_eq {responseBytes : Nat} {chunks : List Bytes}
    (h : responseBytes = chunks.flatten.length) : joinChunks responseBytes chunks = chunks.flatten := by
  have joined := joinFrom_eq [] (List.replicate responseBytes 0) chunks (by simpa using h)
  simpa [joinChunks] using joined

/-! ### Header budget -/

theorem exceedsFrom_false {policy : TransportPolicy} {fields : List (Text × Text)}
    {count bytes : Nat} (h : exceedsFrom policy fields count bytes = false)
    (hcount : count ≤ policy.maxResponseHeaderFields)
    (hbytes : bytes ≤ policy.maxResponseHeaderBytes) :
    count + fields.length ≤ policy.maxResponseHeaderFields ∧
      bytes + (fields.map headerFieldBytes).sum ≤ policy.maxResponseHeaderBytes := by
  induction fields generalizing count bytes with
  | nil => exact ⟨by simpa using hcount, by simpa using hbytes⟩
  | cons field rest ih =>
      unfold exceedsFrom at h
      split at h
      · cases h
      · rename_i countFits
        split at h
        · cases h
        · rename_i bytesFit
          obtain ⟨total, totalBytes⟩ := ih h (by omega) (by omega)
          simp only [List.length_cons, List.map_cons, List.sum_cons]
          omega

theorem headerBudget_holds {headers : ResponseHeaders} {policy : TransportPolicy}
    (h : exceedsHeaderBudget headers policy = false) :
    (headerFields headers).length ≤ policy.maxResponseHeaderFields ∧
      ((headerFields headers).map headerFieldBytes).sum ≤ policy.maxResponseHeaderBytes := by
  simpa using exceedsFrom_false h (Nat.zero_le _) (Nat.zero_le _)

/-! ### Where the work stands -/

section
variable {api : TransportApi} {policy : TransportPolicy} {request : SafeFetchRequest}

def resolveLog (destination : Destination api request) : List PortEvent :=
  match literalAddresses destination.hostname with
  | some _ => []
  | none => [.resolve destination.hostname]

def connectLog (destination : Destination api request) (pin : PinnedDestination) :
    List PortEvent :=
  resolveLog destination ++
    [.resolved pin.addresses, .connect (connectRequest api destination pin)]

def exchangeLog (exchange : Exchange api request) : List PortEvent :=
  connectLog exchange.destination exchange.pin ++
    [.connected exchange.connection, .request (httpRequest api exchange)]

def isBodyEvent : PortEvent → Bool
  | .chunk _ | .windowClosed _ => true
  | _ => false

def bodyLog (exchange : Exchange api request) (accepted : AcceptedResponse policy)
    (events : List PortEvent) : List PortEvent :=
  exchangeLog exchange ++ .responded accepted.response :: events

/-- The counters are within the budgets of the session. -/
structure Within (policy : TransportPolicy) (counters : Counters) : Prop where
  hops : counters.hops ≤ policy.maxHops
  encodedBytes : counters.encodedBytes ≤ policy.maxResponseBytes
  decompressedBytes : counters.decompressedBytes ≤ policy.maxDecompressedBytes

/-- No counter is lower. -/
structure Counters.Le (before after : Counters) : Prop where
  hops : before.hops ≤ after.hops
  encodedBytes : before.encodedBytes ≤ after.encodedBytes
  decompressedBytes : before.decompressedBytes ≤ after.decompressedBytes

theorem Counters.Le.refl (counters : Counters) : Counters.Le counters counters :=
  ⟨le_rfl, le_rfl, le_rfl⟩

theorem Counters.Le.trans {a b c : Counters} (ab : Counters.Le a b) (bc : Counters.Le b c) :
    Counters.Le a c :=
  ⟨ab.hops.trans bc.hops, ab.encodedBytes.trans bc.encodedBytes,
    ab.decompressedBytes.trans bc.decompressedBytes⟩

/-- A body being read, and the events since its head. -/
structure Reading (policy : TransportPolicy) (counters : Counters) (body : BodyState)
    (events : List PortEvent) : Prop where
  only : ∀ event ∈ events, isBodyEvent event = true
  chunks : chunks events = body.chunks
  bytes : body.responseBytes = body.chunks.flatten.length
  charged : body.responseBytes ≤ counters.encodedBytes
  window : windowBytes events = body.windowBytes
  delay : body.delay = remainingWindow policy body.windowStartMs body.askedAt

/-- The response of a fetch that passed every gate, and the whole log that led to it. -/
structure Delivered (policy : TransportPolicy) (zlib : Zlib) (log : List PortEvent)
    (response : SafeFetchResponse) (exchange : Exchange api request)
    (accepted : AcceptedResponse policy) (events : List PortEvent) : Prop where
  only : ∀ event ∈ events, isBodyEvent event = true
  log_eq : log = bodyLog exchange accepted (events ++ [.bodyEnd, .close exchange.connection.id])
  url : response.url = exchange.destination.href
  status : response.status = accepted.response.status
  headers : response.headers = accepted.response.headers
  encoded : response.encodedBytes = (SafeSession.chunks events).flatten.length
  decoded : ∃ limit ≤ policy.maxDecompressedBytes,
    decodeResponseBody api.platform zlib (SafeSession.chunks events).flatten response.headers limit
      = .ok response.body
  decompressed : response.decompressedBytes = response.body.length
  encodedBudget : response.encodedBytes ≤ policy.maxResponseBytes
  decompressedBudget : response.decompressedBytes ≤ policy.maxDecompressedBytes

/-- What the work returns: a refusal, or a success that was delivered over that log. -/
structure Honest (api : TransportApi) (policy : TransportPolicy) (zlib : Zlib)
    (request : SafeFetchRequest) (log : List PortEvent) (result : WorkResult) : Prop where
  success : ∀ outcome response, result = .ok outcome → outcome.result = .success response →
    ∃ (exchange : Exchange api request) (accepted : AcceptedResponse policy)
      (events : List PortEvent), Delivered policy zlib log response exchange accepted events
  complete : ∀ outcome cause, result = .ok outcome → outcome.result ≠ .incomplete cause

/-- A log past its connect request: every connection in it was closed. -/
structure Closed (log : List PortEvent) (destination : Destination api request)
    (pin : PinnedDestination) (events : List PortEvent) : Prop where
  log_eq : log = connectLog destination pin ++ events
  quiet : ∀ event ∈ events, isConnect event = false
  closed : closes events = connections events
  once : (connections events).length ≤ 1

/-- A log that never came to a connect request. -/
structure Unconnected (log : List PortEvent) : Prop where
  quiet : ∀ event ∈ log, isConnect event = false
  connections : connections log = []
  closes : closes log = []

def Finished (api : TransportApi) (request : SafeFetchRequest) (log : List PortEvent) : Prop :=
  Unconnected log ∨ ∃ (destination : Destination api request) (pin : PinnedDestination)
    (events : List PortEvent), Closed log destination pin events

def WorkInv (zlib : Zlib) (counters : Counters) (log : List PortEvent) :
    Work api policy request → Prop
  | .unstarted => log = []
  | .resolving destination => log = resolveLog destination
  | .connecting destination pin => log = connectLog destination pin
  | .requesting exchange => log = exchangeLog exchange
  | .reading exchange accepted body =>
      ∃ events, log = bodyLog exchange accepted events ∧ Reading policy counters body events
  | .received exchange accepted encoded =>
      ∃ events, log = bodyLog exchange accepted (events ++ [.bodyEnd])
        ∧ (∀ event ∈ events, isBodyEvent event = true)
        ∧ encoded = (chunks events).flatten ∧ encoded.length ≤ counters.encodedBytes
  | .closing _ result => Finished api request log ∧ Honest api policy zlib request log result
  | .settled result => Finished api request log ∧ Honest api policy zlib request log result

/-- A log goes on without a connect request. -/
def Quiet (log log' : List PortEvent) : Prop :=
  ∃ events, log' = log ++ events ∧ ∀ event ∈ events, isConnect event = false

theorem Quiet.refl (log : List PortEvent) : Quiet log log :=
  ⟨[], (List.append_nil log).symm, fun _ h => absurd h List.not_mem_nil⟩

theorem Quiet.snoc {log log' : List PortEvent} (quiet : Quiet log log') {event : PortEvent}
    (h : isConnect event = false) : Quiet log (log' ++ [event]) := by
  obtain ⟨events, rfl, only⟩ := quiet
  refine ⟨events ++ [event], List.append_assoc .., fun e he => ?_⟩
  rcases List.mem_append.mp he with early | last
  · exact only e early
  · exact List.mem_singleton.mp last ▸ h

theorem Quiet.one (log : List PortEvent) {event : PortEvent} (h : isConnect event = false) :
    Quiet log (log ++ [event]) :=
  (Quiet.refl log).snoc h

/-- What a turn of the work leaves of the fetch, and the race it settles when it is over. -/
structure WorkTurn (fetch fetch' : Fetch api policy) : Prop where
  request : fetch'.request = fetch.request
  hop : fetch'.attempt.hop = fetch.attempt.hop
  outcome : fetch'.outcome = fetch.outcome
  started : fetch'.work ≠ .unstarted
  connects : fetch.aborted = true → Quiet fetch.log fetch'.log
  race : fetch'.race = fetch.race ∨
    ∃ result, fetch'.work = .settled result ∧ fetch'.race = fetch.race.or (some result)

/-- A turn of the work and what it establishes. -/
structure Works (zlib : Zlib) (counters : Counters) (fetch fetch' : Fetch api policy) : Prop where
  turn : WorkTurn fetch fetch'
  kept : WorkInv zlib counters fetch'.log fetch'.work

theorem Honest.error {zlib : Zlib} {log : List PortEvent} {error : TransportError} :
    Honest api policy zlib request log (.error error) :=
  ⟨fun _ _ isOk => (nomatch isOk), fun _ _ isOk => (nomatch isOk)⟩

/-- A refusal is no success, and neither is what a clock throws instead. -/
theorem Honest.blocked {zlib : Zlib} {log : List PortEvent} {state : AttemptState}
    {cause : TransportCause} {now : ClockReading} :
    Honest api policy zlib request log
      (workResult (outcome api state (.blocked cause) now)) := by
  cases now with
  | threw => exact .error
  | invalid => exact .error
  | date ms => exact ⟨by rintro _ _ ⟨⟩ ⟨⟩, by rintro _ _ ⟨⟩ ⟨⟩⟩

@[simp] theorem resolveLog_facts (destination : Destination api request) :
    connections (resolveLog destination) = [] ∧ closes (resolveLog destination) = []
      ∧ ∀ event ∈ resolveLog destination, isConnect event = false := by
  unfold resolveLog
  split <;> simp [connections, closes, connectionOf, closeOf, isConnect]

end

end SafeSession

end Linklint
