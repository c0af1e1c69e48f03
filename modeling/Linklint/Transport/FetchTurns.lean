import Linklint.Transport.FetchInvariant

/-!
# The turns of a fetch

Every turn of the work keeps what its log says: the turns are taken one by one, each
between the await it starts from and the await it ends at.
-/

namespace Linklint

namespace SafeSession

section
variable {api : TransportApi} {policy : TransportPolicy} {zlib : Zlib} {counters : Counters}

/-! ### Ways to leave -/

theorem Works.settle {fetch : Fetch api policy} {log : List PortEvent} {attempt : AttemptState}
    {result : WorkResult} (quiet : Quiet fetch.log log) (hop : attempt.hop = fetch.attempt.hop)
    (finished : Finished api fetch.request log)
    (honest : Honest api policy zlib fetch.request log result) :
    Works zlib counters fetch ({ fetch with log, attempt }.settleWork result) where
  turn :=
    { request := rfl, hop, outcome := rfl, started := nofun, connects := fun _ => quiet
      race := .inr ⟨result, rfl, rfl⟩ }
  kept := ⟨finished, honest⟩

theorem Works.leave {fetch : Fetch api policy} {log : List PortEvent} {connectionId : Text}
    {result : WorkResult} (quiet : Quiet fetch.log log)
    (finished : Finished api fetch.request (log ++ [.close connectionId]))
    (honest : Honest api policy zlib fetch.request (log ++ [.close connectionId]) result) :
    Works zlib counters fetch ({ fetch with log }.leave connectionId result) where
  turn :=
    { request := rfl, hop := rfl, outcome := rfl, started := nofun
      connects := fun _ => quiet.snoc rfl
      race := .inl rfl }
  kept := ⟨finished, honest⟩

variable {request : SafeFetchRequest}

theorem finished_resolved (destination : Destination api request) (events : List PortEvent)
    (quiet : ∀ event ∈ events, isConnect event = false) (none : connections events = [])
    (unclosed : closes events = []) : Finished api request (resolveLog destination ++ events) := by
  obtain ⟨noConnection, noClose, resolveQuiet⟩ := resolveLog_facts destination
  refine .inl ⟨fun event hevent => ?_, by simp [noConnection, none], by simp [noClose, unclosed]⟩
  rcases List.mem_append.mp hevent with early | late
  · exact resolveQuiet event early
  · exact quiet event late

theorem finished_connect (destination : Destination api request) (pin : PinnedDestination) :
    Finished api request (connectLog destination pin) :=
  .inr ⟨destination, pin, [], ⟨by simp, nofun, rfl, Nat.zero_le _⟩⟩

/-- Events between a connection and its close. -/
structure Between (events : List PortEvent) : Prop where
  quiet : ∀ event ∈ events, isConnect event = false
  connections : connections events = []
  closes : closes events = []

theorem Between.nil : Between [] := ⟨nofun, rfl, rfl⟩

theorem Between.append {events later : List PortEvent} (first : Between events)
    (second : Between later) : Between (events ++ later) where
  quiet := by
    intro event hevent
    rcases List.mem_append.mp hevent with h | h
    · exact first.quiet event h
    · exact second.quiet event h
  connections := by simp [first.connections, second.connections]
  closes := by simp [first.closes, second.closes]

theorem Between.body {events : List PortEvent}
    (only : ∀ event ∈ events, isBodyEvent event = true) : Between events := by
  induction events with
  | nil => exact .nil
  | cons event rest ih =>
      have first : Between [event] := by
        have body := only event (List.mem_cons_self ..)
        cases event <;> simp only [isBodyEvent, Bool.false_eq_true] at body
        · exact ⟨by simp [isConnect], rfl, rfl⟩
        · exact ⟨by simp [isConnect], rfl, rfl⟩
      exact first.append (ih fun e he => only e (List.mem_cons_of_mem _ he))

theorem Between.exchange (exchange : HttpRequest) : Between [.request exchange] :=
  ⟨by simp [isConnect], rfl, rfl⟩

theorem Between.responded (response : HttpResponse) : Between [.responded response] :=
  ⟨by simp [isConnect], rfl, rfl⟩

theorem Between.bodyEnd : Between [.bodyEnd] := ⟨by simp [isConnect], rfl, rfl⟩

theorem finished_close (destination : Destination api request) (pin : PinnedDestination)
    (connection : TransportConnection) {events : List PortEvent} (between : Between events) :
    Finished api request
      (connectLog destination pin ++ .connected connection :: events ++ [.close connection.id]) := by
  refine .inr ⟨destination, pin, .connected connection :: (events ++ [.close connection.id]), ?_⟩
  refine ⟨by simp, fun event hevent => ?_, ?_, ?_⟩
  · rcases List.mem_cons.mp hevent with rfl | later
    · rfl
    · rcases List.mem_append.mp later with h | h
      · exact between.quiet event h
      · exact List.mem_singleton.mp h ▸ rfl
  · have hc := between.connections
    have hs := between.closes
    simp only [connections, closes] at hc hs
    simp [connections, closes, List.filterMap_cons, connectionOf, closeOf, hc, hs]
  · have hc := between.connections
    simp only [connections] at hc
    simp [connections, List.filterMap_cons, connectionOf, hc]

/-- The log of an exchange that is left after some events. -/
theorem finished_exchange (exchange : Exchange api request) {events : List PortEvent}
    (between : Between events) :
    Finished api request (exchangeLog exchange ++ events ++ [.close exchange.connection.id]) := by
  have closed := finished_close exchange.destination exchange.pin exchange.connection
    ((Between.exchange (httpRequest api exchange)).append between)
  simpa [exchangeLog] using closed

theorem finished_body (exchange : Exchange api request) (accepted : AcceptedResponse policy)
    {events : List PortEvent} (between : Between events) :
    Finished api request
      (bodyLog exchange accepted events ++ [.close exchange.connection.id]) := by
  have closed := finished_exchange exchange ((Between.responded accepted.response).append between)
  simpa [bodyLog] using closed

/-! ### Name and connection -/

theorem onResolved_works (fetch : Fetch api policy) (destination : Destination api fetch.request)
    (answer : Except OriginalError (List DnsAddress)) (observed : ClockReading)
    (log : fetch.log = resolveLog destination) :
    Works zlib counters fetch (onResolved fetch destination answer observed) := by
  have ended (addresses : List DnsAddress) :
      Finished api fetch.request (fetch.log ++ [.resolved addresses]) := by
    rw [log]
    exact finished_resolved destination _ (by simp [isConnect]) rfl rfl
  unfold onResolved
  split
  · refine Works.settle (.refl _) rfl ?_ .error
    have early := finished_resolved destination [] (by simp) rfl rfl
    simpa [log] using early
  · rename_i addresses _
    split
    · exact .settle (.one _ rfl) rfl (ended addresses) .error
    · dsimp only
      split
      · exact .settle (.one _ rfl) rfl (ended addresses) .error
      · exact .settle (.one _ rfl) rfl (ended addresses) .error
      · exact .settle (.one _ rfl) rfl (ended addresses) .blocked
      · rename_i live _ pin pinned
        have own := pinDestination_addresses pinned
        refine ⟨⟨rfl, rfl, rfl, (fun h => by cases h), fun aborted => absurd aborted live, .inl rfl⟩, ?_⟩
        simp [WorkInv, connectLog, log, own]

theorem onConnected_works (fetch : Fetch api policy) (destination : Destination api fetch.request)
    (pin : PinnedDestination) (answer : Except PortFailure TransportConnection)
    (log : fetch.log = connectLog destination pin) :
    Works zlib counters fetch (onConnected fetch destination pin answer) := by
  have unanswered (error : TransportError) :
      Works zlib counters fetch (fetch.settleWork (.error error)) :=
    .settle (.refl _) rfl (log ▸ finished_connect destination pin) .error
  have closed (connection : TransportConnection) (error : TransportError) :
      Works zlib counters fetch
        (Fetch.leave { fetch with log := fetch.log ++ [.connected connection] } connection.id
          (.error error)) := by
    refine .leave (.one _ rfl) ?_ .error
    have left := finished_close destination pin connection .nil
    simpa [log] using left
  unfold onConnected
  split
  · exact unanswered _
  · exact unanswered _
  · rename_i connection
    dsimp only
    split
    · exact closed connection _
    · split
      · split
        · refine ⟨⟨rfl, rfl, rfl, nofun, fun _ => (Quiet.one _ rfl).snoc rfl, .inl rfl⟩, ?_⟩
          simp [WorkInv, exchangeLog, log]
        · exact closed connection _
      · exact closed connection _

/-! ### Response and body -/

theorem openBody_reading {start now : ClockReading} {body : BodyState}
    (h : openBody policy start now = .ok body) : Reading policy counters body [] := by
  unfold openBody awaitChunk at h
  cases start <;> cases now <;> cases h <;>
    exact ⟨nofun, rfl, rfl, Nat.zero_le _, rfl, rfl⟩

theorem onResponded_works (fetch : Fetch api policy) (exchange : Exchange api fetch.request)
    (answer : Except PortFailure HttpResponse) (start now : ClockReading)
    (log : fetch.log = exchangeLog exchange) :
    Works zlib counters fetch (onResponded fetch exchange answer start now) := by
  have unanswered (error : TransportError) :
      Works zlib counters fetch (fetch.leave exchange.connection.id (.error error)) := by
    refine .leave (.refl _) ?_ .error
    have left := finished_exchange exchange .nil
    simpa [log] using left
  have refused (response : HttpResponse) (error : TransportError) :
      Works zlib counters fetch
        (Fetch.leave { fetch with log := fetch.log ++ [.responded response] }
          exchange.connection.id (.error error)) := by
    refine .leave (.one _ rfl) ?_ .error
    have left := finished_exchange exchange (.responded response)
    simpa [log] using left
  unfold onResponded
  dsimp only
  split
  · exact unanswered _
  · exact unanswered _
  · rename_i response
    split
    · exact refused response _
    · split
      · split
        · split
          · exact refused response _
          · rename_i body opened
            refine ⟨⟨rfl, rfl, rfl, nofun, fun _ => .one _ rfl, .inl rfl⟩, ?_⟩
            exact ⟨[], by simp [bodyLog, log], openBody_reading opened⟩
        · exact refused response _
      · exact refused response _

theorem leaveBody_works (fetch : Fetch api policy) {exchange : Exchange api fetch.request}
    {accepted : AcceptedResponse policy} {events : List PortEvent} {log : List PortEvent}
    (quiet : Quiet fetch.log log) (logged : log = bodyLog exchange accepted events)
    (between : Between events) (error : TransportError) :
    Works zlib counters fetch
      (Fetch.leave { fetch with log } exchange.connection.id (.error error)) := by
  refine .leave quiet ?_ .error
  rw [logged]
  exact finished_body exchange accepted between

theorem continueReading_works (fetch : Fetch api policy) {exchange : Exchange api fetch.request}
    {accepted : AcceptedResponse policy} {body : BodyState} {now : ClockReading}
    {events log : List PortEvent} (quiet : Quiet fetch.log log) (logged : log = bodyLog exchange accepted events)
    (reading : ∀ askedAt,
      Reading policy counters
        { body with askedAt, delay := remainingWindow policy body.windowStartMs askedAt } events) :
    Works zlib counters fetch
      (continueReading { fetch with log } exchange accepted body now) := by
  have only := (reading none).only
  unfold continueReading awaitChunk
  cases time : now.getTime with
  | error _ => exact leaveBody_works fetch quiet logged (.body only) _
  | ok askedAt =>
      exact ⟨⟨rfl, rfl, rfl, nofun, fun _ => quiet, .inl rfl⟩, events, logged, reading askedAt⟩

theorem bodyLog_append (exchange : Exchange api request) (accepted : AcceptedResponse policy)
    (events later : List PortEvent) :
    bodyLog exchange accepted (events ++ later) = bodyLog exchange accepted events ++ later := by
  simp [bodyLog]

theorem only_append {events : List PortEvent} {event : PortEvent}
    (only : ∀ e ∈ events, isBodyEvent e = true) (last : isBodyEvent event = true) :
    ∀ e ∈ events ++ [event], isBodyEvent e = true := by
  intro e he
  rcases List.mem_append.mp he with h | h
  · exact only e h
  · exact List.mem_singleton.mp h ▸ last

theorem onRead_works (fetch : Fetch api policy) (exchange : Exchange api fetch.request)
    (accepted : AcceptedResponse policy) (body : BodyState) (answer : ReadAnswer)
    (now : ClockReading) {events : List PortEvent}
    (log : fetch.log = bodyLog exchange accepted events)
    (reading : Reading policy counters body events) :
    Works zlib (onRead counters fetch exchange accepted body answer now).1 fetch
      (onRead counters fetch exchange accepted body answer now).2 := by
  unfold onRead
  cases answer with
  | failed error => exact leaveBody_works fetch (.refl _) log (.body reading.only) _
  | malformed => exact leaveBody_works fetch (.refl _) log (.body reading.only) _
  | done =>
      refine ⟨⟨rfl, rfl, rfl, nofun, fun _ => .one _ rfl, .inl rfl⟩, events, ?_, reading.only, ?_, ?_⟩
      · simp [log, bodyLog_append]
      · rw [joinChunks_eq reading.bytes, reading.chunks]
      · rw [joinChunks_eq reading.bytes, ← reading.bytes]
        exact reading.charged
  | chunk chunk =>
      have logged : fetch.log ++ [.chunk chunk]
          = bodyLog exchange accepted (events ++ [.chunk chunk]) := by
        rw [bodyLog_append, log]
      have only := @only_append events (.chunk chunk) reading.only rfl
      dsimp only
      split
      · exact leaveBody_works fetch (.one _ rfl) logged (.body only) _
      · refine continueReading_works fetch (.one _ rfl) logged fun askedAt => ⟨only, ?_, ?_, ?_, ?_, rfl⟩
        · simp [reading.chunks]
        · simp [reading.bytes]
        · have charged := reading.charged
          dsimp only
          omega
        · simp [reading.window]

theorem onWindowClosed_works (fetch : Fetch api policy) (exchange : Exchange api fetch.request)
    (accepted : AcceptedResponse policy) (body : BodyState) (firedAt : Int)
    (now : ClockReading) {events : List PortEvent}
    (log : fetch.log = bodyLog exchange accepted events)
    (reading : Reading policy counters body events) :
    Works zlib counters fetch
      (onWindowClosed fetch exchange accepted body firedAt now) := by
  have logged : fetch.log ++ [.windowClosed firedAt]
      = bodyLog exchange accepted (events ++ [.windowClosed firedAt]) := by
    rw [bodyLog_append, log]
  have only := @only_append events (.windowClosed firedAt) reading.only rfl
  unfold onWindowClosed
  dsimp only
  split
  · exact leaveBody_works fetch (.one _ rfl) logged (.body only) _
  · refine continueReading_works fetch (.one _ rfl) logged fun askedAt => ⟨only, ?_, reading.bytes,
      reading.charged, by simp, rfl⟩
    simp [reading.chunks]

/-! ### The end of the work -/

/-- What `execute` returns once the body is decoded. -/
theorem finish_ok {startedAtMs : Option Int} {fetch : Fetch api policy}
    {exchange : Exchange api fetch.request} {accepted : AcceptedResponse policy}
    {encoded body : Bytes} {now observed : ClockReading} {outcome : SafeFetchOutcome}
    (h : finish startedAtMs fetch exchange accepted encoded body now observed = .ok outcome) :
    outcome.result = .success
      ⟨exchange.destination.href, accepted.response.status, accepted.response.headers, body,
        encoded.length, body.length⟩ := by
  unfold finish at h
  split at h
  · cases h
  · split at h
    · cases h
    · unfold SafeSession.outcome at h
      cases observed <;> cases h
      rfl

theorem onReceived_works (startedAtMs : Option Int) (fetch : Fetch api policy)
    (exchange : Exchange api fetch.request) (accepted : AcceptedResponse policy)
    (encoded : Bytes) (now observed : ClockReading) {events : List PortEvent}
    (within : Within policy counters)
    (log : fetch.log = bodyLog exchange accepted (events ++ [.bodyEnd]))
    (only : ∀ event ∈ events, isBodyEvent event = true)
    (joined : encoded = (chunks events).flatten)
    (charged : encoded.length ≤ counters.encodedBytes) :
    Works zlib (onReceived zlib startedAtMs counters fetch exchange accepted encoded now observed).1
      fetch
      (onReceived zlib startedAtMs counters fetch exchange accepted encoded now observed).2 := by
  have between : Between (events ++ [.bodyEnd]) := (Between.body only).append .bodyEnd
  have failed (counters' : Counters) (error : TransportError) :
      Works zlib counters' fetch (fetch.leave exchange.connection.id (.error error)) :=
    leaveBody_works fetch (.refl _) log between error
  unfold onReceived
  dsimp only
  split
  · exact failed _ _
  · split
    · exact failed _ _
    · exact failed _ _
    · rename_i body decoded
      refine .leave (.refl _) ?_ ?_
      · rw [log]
        exact finished_body exchange accepted between
      · refine ⟨fun outcome response isOk isSuccess => ?_, fun outcome cause isOk isIncomplete => ?_⟩
        · have fields := FetchResult.success.inj (isSuccess.symm.trans (finish_ok isOk))
          subst fields
          have fits := decodeResponseBody_length_le decoded
          exact ⟨exchange, accepted, events,
            { only
              log_eq := by simp [log, bodyLog]
              url := rfl, status := rfl, headers := rfl
              encoded := by rw [joined]
              decoded := ⟨_, Nat.sub_le _ _, by rw [← joined]; exact decoded⟩
              decompressed := rfl
              encodedBudget := charged.trans within.encodedBytes
              decompressedBudget := fits.trans (Nat.sub_le _ _) }⟩
        · exact nomatch isIncomplete.symm.trans (finish_ok isOk)

/-! ### The counters -/

theorem onRead_counters (fetch : Fetch api policy) (exchange : Exchange api fetch.request)
    (accepted : AcceptedResponse policy) (body : BodyState) (answer : ReadAnswer)
    (now : ClockReading) (within : Within policy counters) :
    Counters.Le counters (onRead counters fetch exchange accepted body answer now).1 ∧
      Within policy (onRead counters fetch exchange accepted body answer now).1 := by
  unfold onRead
  cases answer with
  | failed error => exact ⟨.refl _, within⟩
  | malformed => exact ⟨.refl _, within⟩
  | done => exact ⟨.refl _, within⟩
  | chunk chunk =>
      dsimp only
      split
      · exact ⟨⟨le_rfl, within.encodedBytes, le_rfl⟩,
          ⟨within.hops, le_rfl, within.decompressedBytes⟩⟩
      · rename_i fits
        exact ⟨⟨le_rfl, Nat.le_add_right _ _, le_rfl⟩,
          ⟨within.hops, Nat.not_lt.mp fits, within.decompressedBytes⟩⟩

theorem onReceived_counters (startedAtMs : Option Int) (fetch : Fetch api policy)
    (exchange : Exchange api fetch.request) (accepted : AcceptedResponse policy)
    (encoded : Bytes) (now observed : ClockReading) (within : Within policy counters) :
    Counters.Le counters
        (onReceived zlib startedAtMs counters fetch exchange accepted encoded now observed).1 ∧
      Within policy
        (onReceived zlib startedAtMs counters fetch exchange accepted encoded now observed).1 := by
  unfold onReceived
  dsimp only
  split
  · exact ⟨.refl _, within⟩
  · split
    · exact ⟨⟨le_rfl, le_rfl, within.decompressedBytes⟩,
        ⟨within.hops, within.encodedBytes, le_rfl⟩⟩
    · exact ⟨.refl _, within⟩
    · rename_i body decoded
      have fits := decodeResponseBody_length_le decoded
      have room := within.decompressedBytes
      refine ⟨⟨le_rfl, le_rfl, Nat.le_add_right _ _⟩, ⟨within.hops, within.encodedBytes, ?_⟩⟩
      dsimp only
      omega

/-! ### Any turn -/

/-- The work was begun and is not over. -/
def Live {request : SafeFetchRequest} : Work api policy request → Prop
  | .unstarted | .settled _ => False
  | _ => True

theorem Live.started {request : SafeFetchRequest} {work : Work api policy request}
    (live : Live work) : work ≠ .unstarted := by
  rintro rfl
  exact live

theorem Live.not_settled {request : SafeFetchRequest} {work : Work api policy request}
    (live : Live work) (result : WorkResult) : work ≠ .settled result := by
  rintro rfl
  exact live

/-- What one turn of a fetch does: a step of the work, or a step of the race around it. -/
inductive Turned (zlib : Zlib) (counters : Counters) (fetch : Fetch api policy) :
    Counters × Fetch api policy → Prop
  | work {next : Counters × Fetch api policy} (live : Live fetch.work) (works : Works zlib next.1 fetch next.2)
      (up : Counters.Le counters next.1) (within : Within policy next.1) :
      Turned zlib counters fetch next
  | callerAbort : Turned zlib counters fetch (counters, onCallerAbort fetch)
  | deadline (fired : Bool) (started : fetch.work ≠ .unstarted) :
      Turned zlib counters fetch (counters, onDeadline fetch fired)
  | settle {result : WorkResult} (observed : ClockReading) (open_ : fetch.outcome = none)
      (race : fetch.race = some result) :
      Turned zlib counters fetch (counters, onSettle fetch result observed)

end

end SafeSession

end Linklint
