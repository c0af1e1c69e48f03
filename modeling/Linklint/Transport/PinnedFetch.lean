import Linklint.Transport.SessionBudgets

/-!
# Pinned fetches

A success was read off a connection to an address every gate had passed; the
connector is called with such an address only, and what it returns is closed once.
-/

namespace Linklint

namespace SafeSession

open Interleaving

section
variable {api : TransportApi} {policy : TransportPolicy} {zlib : Zlib} {startedAtMs : Option Int}

/-- The gates on a request and on the answers to its name. -/
structure GatesPassed (api : TransportApi) (request : SafeFetchRequest) (log : List PortEvent)
    (url : Url) (answers : List DnsAddress) (selected : DnsAddress) : Prop where
  authorized : request.authorization = some ⟨text "destination-fetch", request.url⟩
  parsed : ∃ written, api.urls.parse request.url = some written ∧ url = written.withoutHash
  scheme : url.protocol = text "http:" ∨ url.protocol = text "https:"
  noUsername : url.username = []
  noPassword : url.password = []
  resolved : .resolved answers ∈ log
  wellFormed : ∀ answer ∈ answers, malformedAddress answer = false
  allowed : ∀ answer ∈ answers, (classifyTransportAddress answer.address).allowed = true
  selected : selected ∈ answers

/-- A response off a connection to the selected address, within every budget. -/
structure PinnedSuccess (policy : TransportPolicy) (log : List PortEvent)
    (response : SafeFetchResponse) (url : Url) (selected : DnsAddress)
    (connection : TransportConnection) : Prop where
  connected : .connected connection ∈ log
  address : ∃ bits, readAddress selected.address = some bits
    ∧ readAddress connection.remoteAddress = some bits
  port : connection.remotePort = .ofNat (effectivePort url)
  protocol : connection.protocol = url.protocol
  tls : url.protocol = text "https:" → ∃ tls, connection.tls = some tls
    ∧ tls.authorized = true ∧ tls.serverName = unbracket url.hostname
  status : ∃ code : Nat, response.status = .ofNat code ∧ 100 ≤ code ∧ code ≤ 599
  headerFields : (headerFields response.headers).length ≤ policy.maxResponseHeaderFields
  headerBytes : ((SafeSession.headerFields response.headers).map headerFieldBytes).sum
    ≤ policy.maxResponseHeaderBytes
  encodedBytes : response.encodedBytes ≤ policy.maxResponseBytes
  decompressedBytes : response.decompressedBytes ≤ policy.maxDecompressedBytes
  body : response.body.length = response.decompressedBytes

/-- What holds of a fetch in any state of its session. -/
structure PinnedFetch (zlib : Zlib) (startedAtMs : Option Int) (counters : Counters)
    (fetch : Fetch api policy) : Prop where
  success : ∀ outcome response, fetch.outcome = some (.ok outcome) →
    outcome.result = .success response → ∃ url answers selected connection,
      GatesPassed api fetch.request fetch.log url answers selected
        ∧ PinnedSuccess policy fetch.log response url selected connection
  /-- before the connector is called, every earlier gate has passed -/
  connect : ∀ before request after, fetch.log = before ++ .connect request :: after →
    fetch.attempt.hop ≤ policy.maxHops ∧ ∃ url answers selected,
      GatesPassed api fetch.request before url answers selected
        ∧ request.address = selected.address ∧ request.port = effectivePort url
        ∧ request.hostname = unbracket url.hostname ∧ request.protocol = url.protocol
  /-- and the fetch is not aborted -/
  live : ∀ event next request, turn zlib startedAtMs counters fetch event = some next →
    .connect request ∈ next.2.log → .connect request ∉ fetch.log → fetch.aborted = false
  /-- once the work is over, what the connector returned was closed, and once -/
  closed : ∀ result, fetch.work = .settled result →
    closes fetch.log = connections fetch.log ∧ (connections fetch.log).length ≤ 1

theorem isHttpStatus_nat {status : JsNum} (h : isHttpStatus status = true) :
    ∃ code : Nat, status = .ofNat code ∧ 100 ≤ code ∧ code ≤ 599 := by
  unfold isHttpStatus at h
  split at h
  · rename_i q
    simp only [Bool.and_eq_true, beq_iff_eq, decide_eq_true_eq] at h
    obtain ⟨⟨whole, low⟩, high⟩ := h
    have own : ((q.num : Int) : Rat) = q := Rat.den_eq_one_iff q |>.mp whole
    have low' : (100 : Int) ≤ q.num := by
      rw [← own] at low
      exact_mod_cast low
    have high' : q.num ≤ 599 := by
      rw [← own] at high
      exact_mod_cast high
    refine ⟨q.num.toNat, ?_, by omega, by omega⟩
    have cast : ((q.num.toNat : Nat) : Int) = q.num := Int.toNat_of_nonneg (by omega)
    rw [JsNum.ofNat]
    congr 1
    rw [← own, ← cast]
    norm_cast
  · cases h

theorem addressesEqual_bits {left right : Text} (h : addressesEqual left right = true) :
    ∃ bits, readAddress left = some bits ∧ readAddress right = some bits := by
  unfold addressesEqual at h
  split at h
  · rename_i l r readLeft readRight
    have same : l = r := by simpa using h
    exact ⟨l, readLeft, same ▸ readRight⟩
  · cases h

theorem identityMatches_tls {connection : TransportConnection} {hostname : Text}
    (h : identityMatches connection hostname = true) : ∃ tls, connection.tls = some tls
      ∧ tls.authorized = true ∧ tls.serverName = hostname := by
  unfold identityMatches at h
  split at h
  · cases h
  · rename_i tls own
    simp only [Bool.and_eq_true, beq_iff_eq] at h
    exact ⟨tls, own, h.1, h.2⟩

variable {request : SafeFetchRequest}

/-- The gates a destination and a pin were built through. -/
theorem gates_of (authorized : Authorized request) (destination : Destination api request)
    (pin : PinnedDestination) {log : List PortEvent} (resolved : .resolved pin.addresses ∈ log) :
    GatesPassed api request log destination.url pin.addresses pin.selected where
  authorized := authorized
  parsed := destination.parsed
  scheme := destination.scheme
  noUsername := destination.noUsername
  noPassword := destination.noPassword
  resolved := resolved
  wellFormed := by simpa using pin.wellFormed
  allowed := pin.allowed
  selected := pin.selected_mem

theorem Delivered.pinned {log : List PortEvent} {response : SafeFetchResponse}
    {exchange : Exchange api request} {accepted : AcceptedResponse policy}
    {events : List PortEvent}
    (delivered : Delivered policy zlib log response exchange accepted events) :
    PinnedSuccess policy log response exchange.destination.url exchange.pin.selected
      exchange.connection where
  connected := by
    rw [delivered.log_eq]
    simp [bodyLog, exchangeLog]
  address := addressesEqual_bits exchange.peer.2.2
  port := exchange.peer.2.1
  protocol := exchange.peer.1
  tls := fun secure => identityMatches_tls (exchange.identity secure)
  status := by
    rw [delivered.status]
    exact isHttpStatus_nat accepted.status
  headerFields := by
    rw [delivered.headers]
    exact (headerBudget_holds accepted.headerBudget).1
  headerBytes := by
    rw [delivered.headers]
    exact (headerBudget_holds accepted.headerBudget).2
  encodedBytes := delivered.encodedBudget
  decompressedBytes := delivered.decompressedBudget
  body := delivered.decompressed.symm

/-! ### Connect requests in a log -/

/-- The only event of a kind in a list stands where it stands. -/
theorem split_unique {α : Type*} {p : α → Bool} {pre post before after : List α} {x y : α}
    (h : pre ++ x :: post = before ++ y :: after) (hy : p y = true)
    (hpre : ∀ e ∈ pre, p e = false) (hpost : ∀ e ∈ post, p e = false) :
    before = pre ∧ y = x := by
  induction pre generalizing before with
  | nil =>
      cases before with
      | nil =>
          rw [List.nil_append, List.nil_append] at h
          exact ⟨rfl, (List.cons.inj h).1.symm⟩
      | cons b rest =>
          rw [List.nil_append, List.cons_append] at h
          have inPost : y ∈ post := by
            rw [(List.cons.inj h).2]
            simp
          rw [hpost y inPost] at hy
          cases hy
  | cons a pre ih =>
      cases before with
      | nil =>
          rw [List.cons_append, List.nil_append] at h
          have first : p a = false := hpre a (List.mem_cons_self ..)
          rw [(List.cons.inj h).1, hy] at first
          cases first
      | cons b rest =>
          rw [List.cons_append, List.cons_append] at h
          obtain ⟨rfl, tail⟩ := List.cons.inj h
          obtain ⟨rfl, same⟩ := ih tail fun e he => hpre e (List.mem_cons_of_mem _ he)
          exact ⟨rfl, same⟩

/-- A log with no connect request, or with one and nothing like it after it. -/
def Gated (api : TransportApi) (request : SafeFetchRequest) (log : List PortEvent) : Prop :=
  (∀ event ∈ log, isConnect event = false) ∨
    ∃ (destination : Destination api request) (pin : PinnedDestination) (events : List PortEvent),
      log = connectLog destination pin ++ events ∧ ∀ event ∈ events, isConnect event = false

theorem Finished.gated {log : List PortEvent} (finished : Finished api request log) :
    Gated api request log := by
  rcases finished with early | ⟨destination, pin, events, late⟩
  · exact .inl early.quiet
  · exact .inr ⟨destination, pin, events, late.log_eq, late.quiet⟩

theorem exchange_gated (exchange : Exchange api request) {events : List PortEvent}
    (quiet : ∀ event ∈ events, isConnect event = false) :
    Gated api request (exchangeLog exchange ++ events) := by
  refine .inr ⟨exchange.destination, exchange.pin,
    .connected exchange.connection :: .request (httpRequest api exchange) :: events, ?_, ?_⟩
  · simp [exchangeLog]
  · intro event hevent
    rcases List.mem_cons.mp hevent with rfl | later
    · rfl
    · rcases List.mem_cons.mp later with rfl | last
      · rfl
      · exact quiet event last

theorem WorkInv.gated {counters : Counters} {log : List PortEvent}
    {work : Work api policy request} (inv : WorkInv zlib counters log work) :
    Gated api request log := by
  cases work with
  | unstarted =>
      have empty : log = [] := inv
      rw [empty]
      exact .inl fun _ h => absurd h List.not_mem_nil
  | resolving destination =>
      have early : log = resolveLog destination := inv
      rw [early]
      exact .inl (resolveLog_facts destination).2.2
  | connecting destination pin =>
      have called : log = connectLog destination pin := inv
      exact .inr ⟨destination, pin, [], by simpa using called, fun _ h => absurd h List.not_mem_nil⟩
  | requesting exchange =>
      have asked : log = exchangeLog exchange := inv
      have gated := exchange_gated exchange Between.nil.quiet
      rwa [List.append_nil, ← asked] at gated
  | reading exchange accepted body =>
      obtain ⟨events, rfl, reading⟩ := inv
      exact exchange_gated exchange
        ((Between.responded accepted.response).append (.body reading.only)).quiet
  | received exchange accepted encoded =>
      obtain ⟨events, rfl, only, _⟩ := inv
      exact exchange_gated exchange
        ((Between.responded accepted.response).append ((Between.body only).append .bodyEnd)).quiet
  | closing connectionId result => exact inv.1.gated
  | settled result => exact inv.1.gated

/-- A connect request in a gated log comes from a destination and a pin, right after the answers. -/
theorem Gated.connect {log before after : List PortEvent} {connect : ConnectRequest}
    (gated : Gated api request log) (log_eq : log = before ++ .connect connect :: after) :
    ∃ (destination : Destination api request) (pin : PinnedDestination),
      connect = connectRequest api destination pin ∧ .resolved pin.addresses ∈ before := by
  rcases gated with none | ⟨destination, pin, events, shape, quiet⟩
  · have absent := none (.connect connect) (by rw [log_eq]; simp)
    cases absent
  · have split : (resolveLog destination ++ [.resolved pin.addresses])
        ++ .connect (connectRequest api destination pin) :: events
        = before ++ .connect connect :: after := by
      rw [← log_eq, shape]
      simp [connectLog]
    have pre : ∀ event ∈ resolveLog destination ++ [.resolved pin.addresses],
        isConnect event = false := by
      intro event hevent
      rcases List.mem_append.mp hevent with early | last
      · exact (resolveLog_facts destination).2.2 event early
      · exact List.mem_singleton.mp last ▸ rfl
    obtain ⟨rfl, same⟩ := split_unique (p := isConnect) split rfl pre quiet
    exact ⟨destination, pin, PortEvent.connect.inj same, by simp⟩

/-! ### The contract -/

theorem connect_live {counters : Counters} {fetch : Fetch api policy} {event : FetchEvent}
    {next : Counters × Fetch api policy} {connect : ConnectRequest}
    (within : Within policy counters) (inv : FetchInv zlib counters fetch)
    (taken : turn zlib startedAtMs counters fetch event = some next)
    (called : .connect connect ∈ next.2.log) (fresh : .connect connect ∉ fetch.log) :
    fetch.aborted = false := by
  cases turn_turned within inv.work taken with
  | work live works up within' =>
      by_contra aborted
      obtain ⟨events, log, quiet⟩ := works.turn.connects (by simpa using aborted)
      rw [log] at called
      rcases List.mem_append.mp called with old | new
      · exact fresh old
      · cases quiet _ new
  | callerAbort => exact absurd called fresh
  | deadline fired started =>
      cases fired <;> exact absurd called fresh
  | settle observed unreported race => exact absurd called fresh

end

end SafeSession

end Linklint
