import Linklint.Transport.SessionInvariant

/-!
# Session-wide budgets

The counters stay within the budgets and never go down, whatever fetches interleave;
and the two failures of a body are raised exactly where its reading meets a limit.
-/

namespace Linklint

namespace SafeSession

open Interleaving

section
variable {api : TransportApi} {policy : TransportPolicy} {zlib : Zlib} {startedAtMs : Option Int}

def raisedBy : WorkResult → Option TransportCauseCode
  | .error (.budget code) => some code
  | _ => none

/-- The budget a work failed by. -/
def Work.raised {request : SafeFetchRequest} : Work api policy request → Option TransportCauseCode
  | .closing _ result | .settled result => raisedBy result
  | _ => none

def Fetch.raised (fetch : Fetch api policy) : Option TransportCauseCode := fetch.work.raised

/-- A turn in which the work comes to fail by a budget. -/
def Raises (code : TransportCauseCode) (fetch fetch' : Fetch api policy) : Prop :=
  fetch.raised ≠ some code ∧ fetch'.raised = some code

/-- The clock gave a date when the timer was asked for, and the sleep took its delay. -/
def SleptFor (body : BodyState) (firedAt : Int) : Prop :=
  ∃ askedAt delay, body.askedAt = some askedAt ∧ body.delay = some delay
    ∧ askedAt + delay ≤ firedAt

/-! ### Where a budget is raised -/

@[simp] theorem raisedBy_workResult (outcome : Except Thrown SafeFetchOutcome) :
    raisedBy (workResult outcome) = none := by
  cases outcome <;> rfl

theorem onResolved_raised (fetch : Fetch api policy) (destination : Destination api fetch.request)
    (answer : Except OriginalError (List DnsAddress)) (observed : ClockReading) :
    (onResolved fetch destination answer observed).raised = none := by
  unfold onResolved
  split
  · rfl
  · dsimp only
    split
    · rfl
    · split
      · rfl
      · rfl
      · exact raisedBy_workResult _
      · rfl

theorem onConnected_raised (fetch : Fetch api policy) (destination : Destination api fetch.request)
    (pin : PinnedDestination) (answer : Except PortFailure TransportConnection) :
    (onConnected fetch destination pin answer).raised = none := by
  unfold onConnected
  split
  · rfl
  · rfl
  · dsimp only
    split
    · rfl
    · split
      · split
        · rfl
        · rfl
      · rfl

theorem onResponded_raised (fetch : Fetch api policy) (exchange : Exchange api fetch.request)
    (answer : Except PortFailure HttpResponse) (start now : ClockReading) {code : TransportCauseCode}
    (raised : (onResponded fetch exchange answer start now).raised = some code) :
    code = .responseHeadersTooLarge := by
  unfold onResponded at raised
  dsimp only at raised
  split at raised
  · cases raised
  · cases raised
  · split at raised
    · cases raised
    · split at raised
      · split at raised
        · split at raised
          · cases raised
          · cases raised
        · cases raised
          rfl
      · cases raised

theorem continueReading_raised (fetch : Fetch api policy) (exchange : Exchange api fetch.request)
    (accepted : AcceptedResponse policy) (body : BodyState) (now : ClockReading) :
    (continueReading fetch exchange accepted body now).raised = none := by
  unfold continueReading
  split <;> rfl

theorem onRead_raised (counters : Counters) (fetch : Fetch api policy)
    (exchange : Exchange api fetch.request) (accepted : AcceptedResponse policy)
    (body : BodyState) (answer : ReadAnswer) (now : ClockReading) {code : TransportCauseCode} :
    (onRead counters fetch exchange accepted body answer now).2.raised = some code ↔
      code = .responseTooLarge ∧ ∃ chunk, answer = .chunk chunk ∧
        policy.maxResponseBytes < counters.encodedBytes + chunk.length := by
  unfold onRead
  cases answer with
  | chunk chunk =>
      dsimp only
      split
      · rename_i past
        constructor
        · rintro ⟨⟩
          exact ⟨rfl, chunk, rfl, past⟩
        · rintro ⟨rfl, _⟩
          rfl
      · rename_i fits
        rw [continueReading_raised]
        constructor
        · rintro ⟨⟩
        · rintro ⟨_, _, ⟨⟩, past⟩
          exact absurd past fits
  | malformed => exact ⟨nofun, by rintro ⟨_, _, ⟨⟩, _⟩⟩
  | done => exact ⟨nofun, by rintro ⟨_, _, ⟨⟩, _⟩⟩
  | failed error => exact ⟨nofun, by rintro ⟨_, _, ⟨⟩, _⟩⟩

theorem onWindowClosed_raised (fetch : Fetch api policy) (exchange : Exchange api fetch.request)
    (accepted : AcceptedResponse policy) (body : BodyState) (firedAt : Int) (now : ClockReading)
    {code : TransportCauseCode}
    (raised : (onWindowClosed fetch exchange accepted body firedAt now).raised = some code) :
    code = .responseTooSlow ∧ body.windowBytes < policy.minThroughputBytes := by
  unfold onWindowClosed at raised
  dsimp only at raised
  split at raised
  · rename_i slow
    cases raised
    exact ⟨rfl, slow⟩
  · rw [continueReading_raised] at raised
    cases raised

theorem onReceived_raised (counters : Counters) (fetch : Fetch api policy)
    (exchange : Exchange api fetch.request) (accepted : AcceptedResponse policy)
    (encoded : Bytes) (now observed : ClockReading) {code : TransportCauseCode}
    (raised : (onReceived zlib startedAtMs counters fetch exchange accepted encoded now
      observed).2.raised = some code) : code = .decompressedResponseTooLarge := by
  unfold onReceived at raised
  dsimp only at raised
  split at raised
  · cases raised
  · split at raised
    · cases raised
      rfl
    · rename_i error _ _
      cases error <;> cases raised
      rfl
    · unfold finish Fetch.leave Fetch.raised Work.raised at raised
      dsimp only at raised
      split at raised
      · cases raised
      · split at raised
        · cases raised
        · rw [raisedBy_workResult] at raised
          cases raised

/-- A turn that comes to fail by a body budget is a turn of a body being read. -/
theorem raises_cases {counters : Counters} {fetch : Fetch api policy} {event : FetchEvent}
    {next : Counters × Fetch api policy} {code : TransportCauseCode} (body : IsBodyBudget code)
    (taken : turn zlib startedAtMs counters fetch event = some next)
    (raises : Raises code fetch next.2) :
    ∃ (exchange : Exchange api fetch.request) (accepted : AcceptedResponse policy)
      (reading : BodyState), fetch.work = .reading exchange accepted reading ∧
      ((∃ answer now, event = .read answer now
          ∧ next = onRead counters fetch exchange accepted reading answer now) ∨
        ∃ firedAt now, event = .windowClosed firedAt now
          ∧ next = (counters, onWindowClosed fetch exchange accepted reading firedAt now)) := by
  obtain ⟨before, after⟩ := raises
  unfold turn at taken
  split at taken
  · cases taken
    rw [onResolved_raised] at after
    cases after
  · cases taken
    rw [onConnected_raised] at after
    cases after
  · cases taken
    have headers := onResponded_raised fetch _ _ _ _ after
    rw [headers] at body
    simp [IsBodyBudget] at body
  · rename_i standing
    cases taken
    exact ⟨_, _, _, standing, .inl ⟨_, _, rfl, rfl⟩⟩
  · rename_i standing
    cases taken
    exact ⟨_, _, _, standing, .inr ⟨_, _, rfl, rfl⟩⟩
  · cases taken
    have decompressed := onReceived_raised counters fetch _ _ _ _ _ after
    rw [decompressed] at body
    simp [IsBodyBudget] at body
  · rename_i standing
    cases taken
    have already : fetch.raised = some code := by
      unfold Fetch.raised
      rw [standing]
      exact after
    exact absurd already before
  · cases taken
    exact absurd (show fetch.raised = some code from after) before
  · cases taken
  · cases taken
    exact absurd (show fetch.raised = some code from after) before
  · split at taken
    · cases taken
    · cases taken
      unfold onDeadline at after
      split at after <;> exact absurd (show fetch.raised = some code from after) before
  · split at taken
    · cases taken
      exact absurd (show fetch.raised = some code from after) before
    · cases taken
  · cases taken

/-! ### The contract -/

@[simp] theorem chunks_resolveLog {request : SafeFetchRequest}
    (destination : Destination api request) : chunks (resolveLog destination) = [] := by
  unfold resolveLog
  split <;> rfl

/-- The chunks of a body are the only chunks of its log. -/
@[simp] theorem chunks_bodyLog {request : SafeFetchRequest} (exchange : Exchange api request)
    (accepted : AcceptedResponse policy) (events : List PortEvent) :
    chunks (bodyLog exchange accepted events) = chunks events := by
  have head : chunks (exchangeLog exchange) = [] := by
    unfold exchangeLog connectLog
    rw [chunks_append, chunks_append, chunks_resolveLog]
    rfl
  unfold bodyLog
  rw [chunks_append, head]
  rfl

@[simp] theorem windowBytes_bodyLog {request : SafeFetchRequest} (exchange : Exchange api request)
    (accepted : AcceptedResponse policy) (events : List PortEvent) :
    windowBytes (bodyLog exchange accepted events) = windowBytes events := by
  have head : windowBytes (exchangeLog exchange) = 0 := by
    unfold exchangeLog connectLog resolveLog
    split <;> rfl
  unfold windowBytes at head ⊢
  rw [bodyLog, List.foldl_append, head]
  rfl

/-- The body of a success: its chunks in order, decoded under the response's headers. -/
def BodyOf (api : TransportApi) (zlib : Zlib) (log : List PortEvent)
    (response : SafeFetchResponse) : Prop :=
  response.encodedBytes = (chunks log).flatten.length ∧
    ∃ limit, decodeResponseBody api.platform zlib (chunks log).flatten response.headers limit
      = .ok response.body

/-- Accepting `chunk` takes the session past its encoded budget. -/
def Overflows (policy : TransportPolicy) (counters : Counters) (chunk : Bytes) : Prop :=
  policy.maxResponseBytes < counters.encodedBytes + chunk.length

/-- The budgets of a session, in one of its states. -/
structure SessionBudgets (policy : TransportPolicy) (zlib : Zlib) (startedAtMs : Option Int)
    (state : State Counters (Fetch api policy)) : Prop where
  within : Within policy state.shared
  monotone : ∀ later, (session api policy zlib startedAtMs).Run state later →
    Counters.Le state.shared later.shared
  /-- what `readEncodedBody` returns -/
  encoded : ∀ fetch ∈ state.components, ∀ exchange accepted encoded,
    fetch.work = .received exchange accepted encoded → encoded = (chunks fetch.log).flatten
  success : ∀ fetch ∈ state.components, ∀ outcome response, fetch.outcome = some (.ok outcome) →
    outcome.result = .success response → BodyOf api zlib fetch.log response
  /-- a reported body budget was raised by the work -/
  reported : ∀ fetch ∈ state.components, ∀ outcome code, fetch.outcome = some (.ok outcome) →
    failureCode outcome = some code → IsBodyBudget code → fetch.raised = some code
  tooLarge : ∀ fetch ∈ state.components, ∀ event next,
    turn zlib startedAtMs state.shared fetch event = some next →
    (Raises .responseTooLarge fetch next.2 ↔ ∃ exchange accepted body chunk now,
      fetch.work = .reading exchange accepted body ∧ event = .read (.chunk chunk) now
        ∧ Overflows policy state.shared chunk)
  tooSlow : ∀ fetch ∈ state.components, ∀ event next,
    turn zlib startedAtMs state.shared fetch event = some next →
    Raises .responseTooSlow fetch next.2 →
    ∃ exchange accepted body firedAt now, fetch.work = .reading exchange accepted body
      ∧ event = .windowClosed firedAt now ∧ windowBytes fetch.log = body.windowBytes
      ∧ body.windowBytes < policy.minThroughputBytes
      ∧ (SleptFor body firedAt → ∃ windowStartMs, body.windowStartMs = some windowStartMs
          ∧ windowStartMs + policy.minThroughputWindowMs ≤ firedAt)

theorem success_body {counters : Counters} {fetch : Fetch api policy}
    (inv : FetchInv zlib counters fetch) {outcome : SafeFetchOutcome} {response : SafeFetchResponse}
    (reported : fetch.outcome = some (.ok outcome)) (success : outcome.result = .success response) :
    ∃ (exchange : Exchange api fetch.request) (accepted : AcceptedResponse policy)
      (events : List PortEvent), Delivered policy zlib fetch.log response exchange accepted events := by
  have work := inv.work
  rw [inv.success outcome response reported success] at work
  exact work.2.success outcome response rfl success

theorem received_chunks {counters : Counters} {fetch : Fetch api policy}
    (inv : FetchInv zlib counters fetch) {exchange : Exchange api fetch.request}
    {accepted : AcceptedResponse policy} {encoded : Bytes}
    (received : fetch.work = .received exchange accepted encoded) :
    encoded = (chunks fetch.log).flatten := by
  have work := inv.work
  rw [received] at work
  obtain ⟨events, log, _, joined, _⟩ := work
  rw [log, chunks_bodyLog, chunks_append, joined]
  simp [chunks, chunkOf]

/-- Over a log of a delivered response, the chunks are those of its body. -/
theorem Delivered.body {log : List PortEvent} {response : SafeFetchResponse}
    {request : SafeFetchRequest} {exchange : Exchange api request}
    {accepted : AcceptedResponse policy} {events : List PortEvent}
    (delivered : Delivered policy zlib log response exchange accepted events) :
    BodyOf api zlib log response := by
  have own : chunks log = chunks events := by
    rw [delivered.log_eq, chunks_bodyLog, chunks_append]
    simp [chunks, chunkOf]
  obtain ⟨limit, _, decoded⟩ := delivered.decoded
  exact ⟨own ▸ delivered.encoded, limit, own ▸ decoded⟩

theorem tooLarge_iff {counters : Counters} {fetch : Fetch api policy} {event : FetchEvent}
    {next : Counters × Fetch api policy}
    (taken : turn zlib startedAtMs counters fetch event = some next) :
    Raises .responseTooLarge fetch next.2 ↔ ∃ exchange accepted body chunk now,
      fetch.work = .reading exchange accepted body ∧ event = .read (.chunk chunk) now
        ∧ Overflows policy counters chunk := by
  constructor
  · intro raises
    obtain ⟨exchange, accepted, body, standing, read | closed⟩ :=
      raises_cases (.inl rfl) taken raises
    · obtain ⟨answer, now, rfl, rfl⟩ := read
      obtain ⟨_, chunk, rfl, past⟩ :=
        (onRead_raised counters fetch exchange accepted body answer now).mp raises.2
      exact ⟨exchange, accepted, body, chunk, now, standing, rfl, past⟩
    · obtain ⟨firedAt, now, rfl, rfl⟩ := closed
      cases (onWindowClosed_raised fetch exchange accepted body firedAt now raises.2).1
  · rintro ⟨exchange, accepted, body, chunk, now, standing, rfl, past⟩
    have quiet : fetch.raised = none := by
      unfold Fetch.raised
      rw [standing]
      rfl
    have read : next = onRead counters fetch exchange accepted body (.chunk chunk) now := by
      unfold turn at taken
      rw [standing] at taken
      exact (Option.some.inj taken).symm
    refine ⟨by rw [quiet]; exact nofun, ?_⟩
    rw [read]
    exact (onRead_raised counters fetch exchange accepted body _ now).mpr ⟨rfl, chunk, rfl, past⟩

/-- A timer that slept its delay fires at the end of the window or later. -/
theorem window_elapsed {counters : Counters} {body : BodyState} {events : List PortEvent}
    {firedAt : Int} (reading : Reading policy counters body events) (slept : SleptFor body firedAt) :
    ∃ windowStartMs, body.windowStartMs = some windowStartMs
      ∧ windowStartMs + policy.minThroughputWindowMs ≤ firedAt := by
  obtain ⟨askedAt, delay, asked, delayed, slept⟩ := slept
  have own := reading.delay
  rw [delayed, asked] at own
  cases started : body.windowStartMs with
  | none =>
      rw [started] at own
      cases own
  | some windowStartMs =>
      rw [started] at own
      have own : delay = max 0 (policy.minThroughputWindowMs - (askedAt - windowStartMs)) :=
        Option.some.inj own
      exact ⟨windowStartMs, rfl, by omega⟩

theorem tooSlow_only {counters : Counters} {fetch : Fetch api policy} {event : FetchEvent}
    {next : Counters × Fetch api policy} (inv : FetchInv zlib counters fetch)
    (taken : turn zlib startedAtMs counters fetch event = some next)
    (raises : Raises .responseTooSlow fetch next.2) :
    ∃ exchange accepted body firedAt now, fetch.work = .reading exchange accepted body
      ∧ event = .windowClosed firedAt now ∧ windowBytes fetch.log = body.windowBytes
      ∧ body.windowBytes < policy.minThroughputBytes
      ∧ (SleptFor body firedAt → ∃ windowStartMs, body.windowStartMs = some windowStartMs
          ∧ windowStartMs + policy.minThroughputWindowMs ≤ firedAt) := by
  obtain ⟨exchange, accepted, body, standing, read | closed⟩ :=
    raises_cases (.inr rfl) taken raises
  · obtain ⟨answer, now, rfl, rfl⟩ := read
    cases ((onRead_raised counters fetch exchange accepted body answer now).mp raises.2).1
  · obtain ⟨firedAt, now, rfl, rfl⟩ := closed
    have slow := onWindowClosed_raised fetch exchange accepted body firedAt now raises.2
    have work := inv.work
    rw [standing] at work
    obtain ⟨events, log, reading⟩ := work
    refine ⟨exchange, accepted, body, firedAt, now, standing, rfl, ?_, slow.2,
      window_elapsed reading⟩
    rw [log, windowBytes_bodyLog, reading.window]

/-- In every state of a session, whatever its fetches do and however they interleave. -/
theorem session_budgets {state : State Counters (Fetch api policy)}
    (run : (session api policy zlib startedAtMs).Run (created api policy) state) :
    SessionBudgets policy zlib startedAtMs state := by
  have holds : Machine.Holds (Within policy) (FetchInv zlib) state := session_holds run
  have within := holds.1
  have invs := holds.2
  refine
    { within
      monotone := fun later onward =>
        Machine.Run.up session_rules Counters.Le.refl (fun _ _ _ => Counters.Le.trans) onward holds
      encoded := fun fetch member _ _ _ received => received_chunks (invs fetch member) received
      success := ?_
      reported := ?_
      tooLarge := fun fetch _ event next taken => tooLarge_iff taken
      tooSlow := fun fetch member event next taken raises =>
        tooSlow_only (invs fetch member) taken raises }
  · intro fetch member outcome response reported success
    obtain ⟨_, _, _, delivered⟩ := success_body (invs fetch member) reported success
    exact delivered.body
  · intro fetch member outcome code reported failed isBudget
    unfold Fetch.raised
    rw [(invs fetch member).failure outcome code reported failed isBudget]
    rfl

end

/-! ### A fetch of one page -/

def pageUrl : Url where
  protocol := text "http:"
  username := []
  password := []
  hostname := text "a.test"
  port := []
  pathname := text "/"
  search := []
  hash := []

/-- A platform that reads one URL. -/
def pageApi : TransportApi where
  urls :=
    { parse := fun raw => if raw = text "http://a.test/" then some pageUrl else none
      resolve := fun _ _ => none
      href := fun _ => text "http://a.test/" }
  platform := .ascii
  iso := fun _ => text "2026-01-01T00:00:00.000Z"

def noZlib : Zlib := fun _ _ _ => .error .other

def pageCall : FetchCall where
  request :=
    { url := text "http://a.test/"
      authorization := some ⟨text "destination-fetch", text "http://a.test/"⟩ }
  callerAborted := false
  now := .date 0
  observed := .date 0
  sleepThrows := false

def pageAddress : DnsAddress := ⟨text "93.184.216.34", .ofNat 4, .ofNat 60⟩

/-- A name that resolves, a connection, a head, two chunks and the end of the body. -/
def pageEvents : List FetchEvent :=
  [.resolved (.ok [pageAddress]) (.date 1),
   .connected (.ok ⟨text "c", text "http:", text "93.184.216.34", .ofNat 80, none⟩),
   .responded (.ok ⟨.ofNat 200, []⟩) (.date 2) (.date 2),
   .read (.chunk [104, 105]) (.date 3), .read (.chunk [33]) (.date 4), .read .done (.date 5),
   .resumed (.date 6) (.date 6), .closed, .settle (.date 7)]

def pageMachine : Machine Counters (Fetch pageApi DEFAULT_TRANSPORT_POLICY) FetchCall FetchEvent :=
  session pageApi DEFAULT_TRANSPORT_POLICY noZlib (some 0)

/-- The fetch of the page, once it has reported. -/
def pageFetched : Option (Counters × Fetch pageApi DEFAULT_TRANSPORT_POLICY) :=
  pageMachine.turns (start (some 0) ⟨0, 0, 0⟩ pageCall) pageEvents

def succeeded (last : Counters × Fetch pageApi DEFAULT_TRANSPORT_POLICY) : Bool :=
  match last.2.outcome with
  | some (.ok outcome) =>
      match outcome.result with
      | .success response => response.body == [104, 105, 33]
      | _ => false
  | _ => false

theorem pageFetched_succeeded : (pageFetched.any succeeded) = true := by
  decide +kernel

theorem pageFetched_run {last : Counters × Fetch pageApi DEFAULT_TRANSPORT_POLICY}
    (h : pageFetched = some last) :
    pageMachine.Run (created pageApi DEFAULT_TRANSPORT_POLICY) ⟨last.1, [last.2]⟩ :=
  .head (Machine.Step.start _ pageCall) (Machine.run_turns h)

/-- The page is fetched within the budgets. -/
theorem session_budgets_page : ∃ last, pageFetched = some last ∧ succeeded last = true ∧
    SessionBudgets DEFAULT_TRANSPORT_POLICY noZlib (some 0) ⟨last.1, [last.2]⟩ := by
  obtain ⟨last, fetched, success⟩ := (Option.any_eq_true _ _).mp pageFetched_succeeded
  exact ⟨last, fetched, success, session_budgets (pageFetched_run fetched)⟩

end SafeSession

end Linklint
