import Linklint.Lib.KeyedIndex
import Linklint.Transport.NodePorts

/-!
# No socket is lost or shared

Every step of the adapter is a step of the custody of its sockets, and its table is
the table of the listed ones. So a socket is its call's own, or listed under a name
of its own, or destroyed, whatever comes in which order.
-/

namespace Linklint

namespace NodePorts

open SafeSession Custody

variable {urls : UrlApi}

/-! ### Custody of the sockets -/

def ConnectCall.status (entry : ConnectCall) : Custody.Status Text :=
  if entry.destroyed then .released
  else
    match entry.phase with
    | .returned connection => .listed connection.id
    | _ => .held

def ledger (state : State) : Custody.Ledger Text where
  next := state.nextConnectionId
  objects := state.calls.map ConnectCall.status

theorem status_destroyed {entry : ConnectCall} (h : entry.destroyed = true) :
    entry.status = .released := by
  rw [ConnectCall.status, if_pos h]

theorem status_returned {entry : ConnectCall} {connection : TransportConnection}
    (h : entry.destroyed = false) (hphase : entry.phase = .returned connection) :
    entry.status = .listed connection.id := by
  rw [ConnectCall.status, if_neg (Bool.eq_false_iff.mp h), hphase]

theorem status_eq_listed {entry : ConnectCall} {id : Text} (h : entry.status = .listed id) :
    entry.destroyed = false ∧ ∃ connection, entry.phase = .returned connection ∧ connection.id = id := by
  unfold ConnectCall.status at h
  split at h
  · cases h
  · rename_i hlive
    split at h
    · rename_i connection hphase
      cases h
      exact ⟨Bool.not_eq_true _ ▸ hlive, connection, hphase, rfl⟩
    · cases h

theorem status_held {request : ConnectRequest} {phase : ConnectPhase}
    (h : ∀ connection, phase ≠ .returned connection) :
    ConnectCall.status { request, phase, destroyed := false } = .held := by
  rw [ConnectCall.status, if_neg Bool.false_ne_true]
  split
  · rename_i connection hphase
    exact absurd hphase (h connection)
  · rfl

theorem ledger_getElem? {state : State} {i : Nat} {entry : ConnectCall}
    (h : state.calls[i]? = some entry) : (ledger state).objects[i]? = some entry.status := by
  rw [ledger, List.getElem?_map, h]
  rfl

theorem connectionName_injective : Function.Injective connectionName := by
  intro m n h
  have hdigits : decimalText m = decimalText n := List.append_cancel_left h
  have hvalue := congrArg (numeralValue 10) hdigits
  rwa [numeralValue_numeralText (by decide) (by decide),
    numeralValue_numeralText (by decide) (by decide)] at hvalue

/-! ### The invariant -/

/-- What the events so far say of a call. -/
inductive CallHistory (events : List Event) (call : Nat) : ConnectCall → Prop
  | opening {request : ConnectRequest} :
      CallHistory events call { request, phase := .opening, destroyed := false }
  | connected {request : ConnectRequest} {peer : TlsPeer}
      (emitted : .connected call peer ∈ events)
      (verified : isHttps request = true → Verified request peer) :
      CallHistory events call { request, phase := .connected, destroyed := false }
  | returned {request : ConnectRequest} {destroyed : Bool} {peer later : TlsPeer} {id : Text}
      {fields : SocketPeerFields} {observed : ObservedPeer}
      (emitted : .connected call peer ∈ events)
      (verified : isHttps request = true → Verified request peer)
      (resumed : .resumed call fields later ∈ events)
      (reported : observedPeer fields = some observed) :
      CallHistory events call
        { request, phase := .returned (connectionTo request id observed later), destroyed }
  | failed {request : ConnectRequest} {failure : NodeFailure} :
      CallHistory events call { request, phase := .failed failure, destroyed := true }

/-- The socket of a request is the one its connection was returned for. -/
def RequestSound (calls : List ConnectCall) (request : RequestCall) : Prop :=
  ∀ dispatch, request.dispatch = some dispatch →
    ∃ entry connection, calls[dispatch.socket]? = some entry ∧ entry.phase = .returned connection ∧
      connection.id = request.request.connectionId

structure Sound (events : List Event) (state : State) : Prop where
  proper : Proper connectionName (ledger state)
  table : TableOf state.sockets (ledger state).objects
  history : ∀ (i : Nat) (entry : ConnectCall), state.calls[i]? = some entry →
    CallHistory events i entry
  named : ∀ (i : Nat) (entry : ConnectCall) (connection : TransportConnection),
    state.calls[i]? = some entry → entry.phase = .returned connection →
      Given connectionName (ledger state) connection.id
  distinct : ∀ (i j : Nat) (entry other : ConnectCall) (connection connection' : TransportConnection),
    state.calls[i]? = some entry → entry.phase = .returned connection →
    state.calls[j]? = some other → other.phase = .returned connection' →
      connection.id = connection'.id → i = j
  requests : ∀ request ∈ state.requests, RequestSound state.calls request

theorem CallHistory.more {events : List Event} {call : Nat} {entry : ConnectCall}
    (h : CallHistory events call entry) (event : Event) :
    CallHistory (events ++ [event]) call entry := by
  cases h with
  | opening => exact .opening
  | connected emitted verified => exact .connected (List.mem_append_left _ emitted) verified
  | returned emitted verified resumed reported =>
      exact .returned (List.mem_append_left _ emitted) verified (List.mem_append_left _ resumed)
        reported
  | failed => exact .failed

/-! ### One call changes -/

theorem getElem?_ledger_set {state state' : State} {call : Nat} {after : ConnectCall}
    (hcalls : state'.calls = state.calls.set call after) :
    (ledger state').objects = (ledger state).objects.set call after.status := by
  rw [ledger, hcalls, List.map_set]
  rfl

/-- A call changes, but not whether and with what it returned. -/
theorem Sound.set {events : List Event} {state state' : State} (h : Sound events state)
    (event : Event) {call : Nat} {before after : ConnectCall}
    (found : state.calls[call]? = some before)
    (hcalls : state'.calls = state.calls.set call after)
    (hnext : state'.nextConnectionId = state.nextConnectionId)
    (hrequests : state'.requests = state.requests)
    (hphase : ∀ connection, after.phase = .returned connection ↔ before.phase = .returned connection)
    (hhistory : CallHistory (events ++ [event]) call after)
    (hproper : Proper connectionName (ledger state'))
    (htable : TableOf state'.sockets (ledger state').objects) : Sound (events ++ [event]) state' := by
  -- a call that has returned after the change had returned the same before
  have hback : ∀ (i : Nat) (entry : ConnectCall) (connection : TransportConnection),
      state'.calls[i]? = some entry → entry.phase = .returned connection →
        ∃ old, state.calls[i]? = some old ∧ old.phase = .returned connection := by
    intro i entry connection hi hreturned
    rw [hcalls] at hi
    rcases (getElem?_set_some found).mp hi with ⟨rfl, rfl⟩ | ⟨-, hold⟩
    · exact ⟨before, found, (hphase connection).mp hreturned⟩
    · exact ⟨entry, hold, hreturned⟩
  refine ⟨hproper, htable, ?_, ?_, ?_, ?_⟩
  · intro i entry hi
    rw [hcalls] at hi
    rcases (getElem?_set_some found).mp hi with ⟨rfl, rfl⟩ | ⟨-, hold⟩
    · exact hhistory
    · exact (h.history i entry hold).more event
  · intro i entry connection hi hreturned
    obtain ⟨old, hold, holdphase⟩ := hback i entry connection hi hreturned
    obtain ⟨k, hk, hname⟩ := h.named i old connection hold holdphase
    refine ⟨k, ?_, hname⟩
    change k < state'.nextConnectionId
    rw [hnext]
    exact hk
  · intro i j entry other connection connection' hi hireturned hj hjreturned hid
    obtain ⟨old, hold, holdphase⟩ := hback i entry connection hi hireturned
    obtain ⟨old', hold', holdphase'⟩ := hback j other connection' hj hjreturned
    exact h.distinct i j old old' connection connection' hold holdphase hold' holdphase' hid
  · intro request hrequest dispatch hdispatch
    rw [hrequests] at hrequest
    obtain ⟨entry, connection, hentry, hreturned, hid⟩ :=
      h.requests request hrequest dispatch hdispatch
    by_cases hsame : dispatch.socket = call
    · refine ⟨after, connection, ?_, ?_, hid⟩
      · rw [hcalls, hsame]
        exact (getElem?_set_some found).mpr (Or.inl ⟨rfl, rfl⟩)
      · rw [hsame, found, Option.some.injEq] at hentry
        rw [hphase, hentry]
        exact hreturned
    · refine ⟨entry, connection, ?_, hreturned, hid⟩
      rw [hcalls]
      exact (getElem?_set_some found).mpr (Or.inr ⟨hsame, hentry⟩)

/-- A step of an event leads from one sound state to the next, and its sockets along. -/
def Steps (events : List Event) (event : Event) (state state' : State) : Prop :=
  Sound (events ++ [event]) state' ∧ Run connectionName (ledger state) (ledger state')

theorem Sound.stay {events : List Event} {state : State} (h : Sound events state) (event : Event) :
    Steps events event state state :=
  ⟨⟨h.proper, h.table, fun i entry hi => (h.history i entry hi).more event, h.named, h.distinct,
    h.requests⟩, .refl⟩

/-- A call that still holds its socket changes without returning. -/
theorem Sound.holder_changes {events : List Event} {state : State} (h : Sound events state)
    (event : Event) {call : Nat} {request : ConnectRequest} {phase : ConnectPhase}
    {after : ConnectCall}
    (found : state.calls[call]? = some { request, phase, destroyed := false })
    (hbefore : ∀ connection, phase ≠ .returned connection)
    (hafter : ∀ connection, after.phase ≠ .returned connection)
    (hhistory : CallHistory (events ++ [event]) call after) :
    Steps events event state (setCall state call after) := by
  have hheld : (ledger state).objects[call]? = some .held := by
    rw [ledger_getElem? found, status_held hbefore]
  have hobjects : (ledger (setCall state call after)).objects
      = (ledger state).objects.set call after.status := getElem?_ledger_set rfl
  have hunlisted : ∀ id, after.status ≠ .listed id := by
    intro id hlisted
    obtain ⟨-, connection, hreturned, -⟩ := status_eq_listed hlisted
    exact hafter connection hreturned
  have hledger : ledger (setCall state call after)
      = { ledger state with objects := (ledger state).objects.set call after.status } := by
    rw [← hobjects]
    rfl
  have hrun : Run connectionName (ledger state) (ledger (setCall state call after)) := by
    rw [hledger]
    cases hstatus : after.status with
    | held =>
        obtain ⟨hlt, heq⟩ := List.getElem?_eq_some_iff.mp hheld
        rw [← heq, List.set_getElem_self hlt]
    | listed id => exact absurd hstatus (hunlisted id)
    | released => exact .single (.drop hheld)
  refine ⟨h.set event found rfl rfl rfl ?_ hhistory (hrun.proper connectionName_injective h.proper)
    ?_, hrun⟩
  · intro connection
    exact iff_of_false (hafter connection) (hbefore connection)
  · rw [hobjects]
    exact h.table.drop hheld (fun _ heq => by cases heq) hunlisted

/-! ### The steps -/

theorem newCall_unlisted (request : ConnectRequest) (refused : Bool)
    (connection : TransportConnection) :
    (newCall request refused).phase ≠ .returned connection := by
  cases refused with
  | true =>
      intro heq
      cases heq
  | false =>
      intro heq
      cases heq

theorem newCall_history {events : List Event} {i : Nat} (request : ConnectRequest)
    (refused : Bool) : CallHistory events i (newCall request refused) := by
  cases refused with
  | true => exact .failed
  | false => exact .opening

theorem onConnect_steps {events : List Event} {state : State} (h : Sound events state)
    (request : ConnectRequest) (refused : Bool) :
    Steps events (.connect request refused) state (onConnect state request refused) := by
  have hunlisted := newCall_unlisted request refused
  have hcalls : (onConnect state request refused).calls = state.calls ++ [newCall request refused] :=
    rfl
  have hstatus : ∀ id, (newCall request refused).status ≠ .listed id := by
    intro id hlisted
    obtain ⟨-, connection, hreturned, -⟩ := status_eq_listed hlisted
    exact hunlisted connection hreturned
  have hledger : ledger (onConnect state request refused) = { ledger state with
      objects := (ledger state).objects ++ [(newCall request refused).status] } := by
    rw [ledger, hcalls, List.map_append]
    rfl
  have hrun : Run connectionName (ledger state) (ledger (onConnect state request refused)) := by
    rw [hledger]
    cases hkind : (newCall request refused).status with
    | held => exact .single (.create _)
    | listed id => exact absurd hkind (hstatus id)
    | released => exact .single (.stillborn _)
  have hback : ∀ (i : Nat) (found : ConnectCall) (connection : TransportConnection),
      (onConnect state request refused).calls[i]? = some found →
        found.phase = .returned connection → state.calls[i]? = some found := by
    intro i found connection hi hreturned
    rw [hcalls] at hi
    rcases getElem?_append_singleton.mp hi with hold | ⟨-, rfl⟩
    · exact hold
    · exact absurd hreturned (hunlisted connection)
  refine ⟨⟨hrun.proper connectionName_injective h.proper, ?_, ?_, ?_, ?_, ?_⟩, hrun⟩
  · rw [hledger]
    exact h.table.append hstatus
  · intro i found hi
    rw [hcalls] at hi
    rcases getElem?_append_singleton.mp hi with hold | ⟨-, rfl⟩
    · exact (h.history i found hold).more _
    · exact newCall_history request refused
  · intro i found connection hi hreturned
    exact h.named i found connection (hback i found connection hi hreturned) hreturned
  · intro i j found other connection connection' hi hireturned hj hjreturned
    exact h.distinct i j found other connection connection' (hback i found connection hi hireturned)
      hireturned (hback j other connection' hj hjreturned) hjreturned
  · intro call hcall dispatch hdispatch
    obtain ⟨found, connection, hfound, hrest⟩ := h.requests call hcall dispatch hdispatch
    refine ⟨found, connection, ?_, hrest⟩
    rw [hcalls]
    exact getElem?_append_singleton.mpr (Or.inl hfound)

theorem onConnected_history (events : List Event) (call : Nat) (request : ConnectRequest)
    (peer : TlsPeer) :
    CallHistory (events ++ [.connected call peer]) call
        (onConnected { request, phase := .opening, destroyed := false } peer) ∧
      ∀ connection, (onConnected { request, phase := .opening, destroyed := false } peer).phase
        ≠ .returned connection := by
  rw [onConnected]
  split
  · exact ⟨.failed, fun _ heq => by cases heq⟩
  · rename_i hverified
    refine ⟨.connected (List.mem_append_right _ (List.mem_singleton_self _)) fun hhttps => ?_,
      fun _ heq => by cases heq⟩
    by_contra hnot
    exact hverified ⟨hhttps, hnot⟩

/-- The state after a call got the next name. -/
def returnedState (state : State) (call : Nat) (request : ConnectRequest) (observed : ObservedPeer)
    (peer : TlsPeer) : State :=
  let id := connectionName state.nextConnectionId
  { setCall state call
      { request, phase := .returned (connectionTo request id observed peer), destroyed := false } with
    nextConnectionId := state.nextConnectionId + 1
    sockets := state.sockets.filter (fun listed => listed.1 != id) ++ [(id, call)] }

theorem Sound.lists {events : List Event} {state : State} (h : Sound events state) {call : Nat}
    {request : ConnectRequest} {first peer : TlsPeer} {fields : SocketPeerFields}
    {observed : ObservedPeer}
    (found : state.calls[call]? = some { request, phase := .connected, destroyed := false })
    (emitted : .connected call first ∈ events)
    (verified : isHttps request = true → Verified request first)
    (hobserved : observedPeer fields = some observed) :
    Steps events (.resumed call fields peer) state (returnedState state call request observed peer) := by
  have hheld : (ledger state).objects[call]? = some .held := by
    rw [ledger_getElem? found, status_held fun _ heq => by cases heq]
  have hnew : ¬ Given connectionName (ledger state) (connectionName state.nextConnectionId) :=
    not_given_next connectionName_injective (ledger state)
  have hledger : ledger (returnedState state call request observed peer)
      = { next := (ledger state).next + 1
          objects := (ledger state).objects.set call
            (.listed (connectionName (ledger state).next)) } := by
    rw [ledger, returnedState]
    simp only [setCall, List.map_set]
    rfl
  have hrun : Run connectionName (ledger state)
      (ledger (returnedState state call request observed peer)) := by
    rw [hledger]
    exact .single (.list hheld)
  have hmore : ∀ {key : Text}, Given connectionName (ledger state) key →
      Given connectionName (ledger (returnedState state call request observed peer)) key := by
    rintro key ⟨k, hk, hkey⟩
    exact ⟨k, Nat.lt_succ_of_lt hk, hkey⟩
  -- a returned call is the new one, or returned before
  have hback : ∀ (i : Nat) (entry : ConnectCall) (connection : TransportConnection),
      (returnedState state call request observed peer).calls[i]? = some entry →
        entry.phase = .returned connection →
          (i = call ∧ connection.id = connectionName state.nextConnectionId) ∨
            state.calls[i]? = some entry := by
    intro i entry connection hi hreturned
    rcases (getElem?_set_some found).mp hi with ⟨rfl, rfl⟩ | ⟨-, hold⟩
    · cases hreturned
      exact Or.inl ⟨rfl, rfl⟩
    · exact Or.inr hold
  refine ⟨⟨hrun.proper connectionName_injective h.proper, ?_, ?_, ?_, ?_, ?_⟩, hrun⟩
  · rw [hledger]
    exact h.table.list hheld fun j hj => hnew (h.proper.given j _ hj)
  · intro i entry hi
    rcases (getElem?_set_some found).mp hi with ⟨rfl, rfl⟩ | ⟨-, hold⟩
    · exact .returned (List.mem_append_left _ emitted) verified
        (List.mem_append_right _ (List.mem_singleton_self _)) hobserved
    · exact (h.history i entry hold).more _
  · intro i entry connection hi hreturned
    rcases hback i entry connection hi hreturned with ⟨-, hid⟩ | hold
    · exact ⟨state.nextConnectionId, Nat.lt_succ_self _, hid⟩
    · exact hmore (h.named i entry connection hold hreturned)
  · intro i j entry other connection connection' hi hireturned hj hjreturned hid
    rcases hback i entry connection hi hireturned with ⟨hicall, hiid⟩ | hiold
    · rcases hback j other connection' hj hjreturned with ⟨hjcall, -⟩ | hjold
      · rw [hicall, hjcall]
      · have hgiven := h.named j other connection' hjold hjreturned
        rw [← hid, hiid] at hgiven
        exact absurd hgiven hnew
    · rcases hback j other connection' hj hjreturned with ⟨-, hjid⟩ | hjold
      · have hgiven := h.named i entry connection hiold hireturned
        rw [hid, hjid] at hgiven
        exact absurd hgiven hnew
      · exact h.distinct i j entry other connection connection' hiold hireturned hjold hjreturned hid
  · intro asked hasked dispatch hdispatch
    obtain ⟨entry, connection, hentry, hreturned, hid⟩ := h.requests asked hasked dispatch hdispatch
    refine ⟨entry, connection, ?_, hreturned, hid⟩
    refine (getElem?_set_some found).mpr (Or.inr ⟨?_, hentry⟩)
    intro hsame
    rw [hsame, found, Option.some.injEq] at hentry
    rw [← hentry] at hreturned
    cases hreturned

/-- A call that goes on and is told its peer gets a name and a place in the table. -/
theorem onResumed_steps {events : List Event} {state : State} (h : Sound events state) {call : Nat}
    {request : ConnectRequest}
    (found : state.calls[call]? = some { request, phase := .connected, destroyed := false })
    (fields : SocketPeerFields) (peer : TlsPeer) :
    Steps events (.resumed call fields peer) state
      (onResumed state call { request, phase := .connected, destroyed := false } fields peer) := by
  rw [onResumed]
  cases hobserved : observedPeer fields with
  | none =>
      exact h.holder_changes _ found (fun _ heq => by cases heq) (fun _ heq => by cases heq) .failed
  | some observed =>
      simp only
      obtain ⟨first, emitted, verified⟩ : ∃ first, .connected call first ∈ events ∧
          (isHttps request = true → Verified request first) := by
        cases h.history call _ found with
        | connected emitted verified => exact ⟨_, emitted, verified⟩
      exact h.lists found emitted verified hobserved

/-- What the table finds is a live call that returned under that name. -/
theorem Sound.lookup {events : List Event} {state : State} (h : Sound events state) {id : Text}
    {call : Nat} (hlookup : state.sockets.lookup id = some call) :
    ∃ entry connection, state.calls[call]? = some entry ∧ entry.destroyed = false ∧
      entry.phase = .returned connection ∧ connection.id = id := by
  have hlisted := (h.table id call).mp (KeyedIndex.mem_of_lookup hlookup)
  rw [ledger, List.getElem?_map] at hlisted
  obtain ⟨entry, hentry, hstatus⟩ := Option.map_eq_some_iff.mp hlisted
  obtain ⟨hlive, connection, hreturned, hid⟩ := status_eq_listed hstatus
  exact ⟨entry, connection, hentry, hlive, hreturned, hid⟩

theorem onClose_steps {events : List Event} {state : State} (h : Sound events state)
    (connectionId : Text) :
    Steps events (.close connectionId) state (onClose state connectionId) := by
  rw [onClose.eq_def]
  cases hlookup : state.sockets.lookup connectionId with
  | none => exact h.stay _
  | some call =>
      obtain ⟨entry, connection, hentry, hlive, hreturned, hid⟩ := h.lookup hlookup
      have hlisted := (h.table connectionId call).mp (KeyedIndex.mem_of_lookup hlookup)
      simp only [hentry]
      obtain ⟨state', hstate'⟩ : ∃ state', state' = setCall
          { state with sockets := state.sockets.filter fun listed => listed.1 != connectionId }
          call { entry with destroyed := true } := ⟨_, rfl⟩
      rw [← hstate']
      have hcalls : state'.calls = state.calls.set call { entry with destroyed := true } := by
        rw [hstate']
        rfl
      have hobjects : (ledger state').objects = (ledger state).objects.set call .released := by
        rw [getElem?_ledger_set hcalls, status_destroyed rfl]
      have hledger : ledger state'
          = { ledger state with objects := (ledger state).objects.set call .released } := by
        rw [← hobjects, hstate']
        rfl
      have hrun : Run connectionName (ledger state) (ledger state') := by
        rw [hledger]
        exact .single (.withdraw hlisted)
      refine ⟨h.set _ hentry hcalls (by rw [hstate']; rfl) (by rw [hstate']; rfl) (fun _ => Iff.rfl)
        ?_ (hrun.proper connectionName_injective h.proper) ?_, hrun⟩
      · have hhistory := (h.history call entry hentry).more (.close connectionId)
        cases hhistory with
        | opening => cases hreturned
        | connected => cases hreturned
        | failed => cases hreturned
        | returned emitted verified resumed reported =>
            exact .returned emitted verified resumed reported
      · rw [hobjects, hstate']
        exact h.table.withdraw h.proper.single hlisted

/-! ### Requests -/

theorem Sound.requests_change {events : List Event} {state state' : State}
    (h : Sound events state) (event : Event) (hcalls : state'.calls = state.calls)
    (hnext : state'.nextConnectionId = state.nextConnectionId)
    (hsockets : state'.sockets = state.sockets)
    (hrequests : ∀ request ∈ state'.requests, RequestSound state.calls request) :
    Steps events event state state' := by
  have hledger : ledger state' = ledger state := by
    rw [ledger, hcalls, hnext, ← ledger]
  refine ⟨⟨?_, ?_, ?_, ?_, ?_, ?_⟩, ?_⟩
  · rw [hledger]
    exact h.proper
  · rw [hledger, hsockets]
    exact h.table
  · intro i entry hi
    rw [hcalls] at hi
    exact (h.history i entry hi).more event
  · rw [hcalls, hledger]
    exact h.named
  · rw [hcalls]
    exact h.distinct
  · rw [hcalls]
    exact hrequests
  · rw [hledger]

/-- A new request is written to the socket the table has for its connection, or fails. -/
theorem newRequest_cases (urls : UrlApi) (state : State) (request : HttpRequest)
    (refused : Option (Option Text)) :
    (newRequest urls state request refused).request = request ∧
      ((∃ failure, (newRequest urls state request refused).dispatch = none ∧
          (newRequest urls state request refused).result = some (.error failure)) ∨
        ∃ dispatch, (newRequest urls state request refused).dispatch = some dispatch ∧
          (newRequest urls state request refused).result = none ∧
          state.sockets.lookup request.connectionId = some dispatch.socket) := by
  rw [newRequest.eq_def]
  cases hlookup : state.sockets.lookup request.connectionId with
  | none => exact ⟨rfl, Or.inl ⟨_, rfl, rfl⟩⟩
  | some socket =>
      simp only
      cases urls.parse request.url with
      | none => exact ⟨rfl, Or.inl ⟨_, rfl, rfl⟩⟩
      | some url =>
          simp only
          split
          · exact ⟨rfl, Or.inl ⟨_, rfl, rfl⟩⟩
          · cases refused with
            | some code => exact ⟨rfl, Or.inl ⟨_, rfl, rfl⟩⟩
            | none => exact ⟨rfl, Or.inr ⟨_, rfl, rfl, rfl⟩⟩

theorem newRequest_sound {events : List Event} {state : State} (h : Sound events state)
    (request : HttpRequest) (refused : Option (Option Text)) :
    RequestSound state.calls (newRequest urls state request refused) := by
  intro dispatch hdispatch
  obtain ⟨hrequest, ⟨failure, hnone, -⟩ | ⟨written, hwritten, -, hlookup⟩⟩ :=
    newRequest_cases urls state request refused
  · rw [hnone] at hdispatch
    cases hdispatch
  · rw [hwritten, Option.some.injEq] at hdispatch
    rw [hdispatch] at hlookup
    obtain ⟨entry, connection, hentry, -, hreturned, hid⟩ := h.lookup hlookup
    exact ⟨entry, connection, hentry, hreturned, by rw [hid, hrequest]⟩

theorem settle_dispatch (call : RequestCall) (result : Except NodeFailure HttpResponse) :
    (call.settle result).dispatch = call.dispatch ∧ (call.settle result).request = call.request := by
  rw [RequestCall.settle]
  split
  · exact ⟨rfl, rfl⟩
  · exact ⟨rfl, rfl⟩

theorem settleRequest_steps {events : List Event} {state : State} (h : Sound events state)
    (event : Event) (call : Nat) (result : Except NodeFailure HttpResponse) :
    Steps events event state (settleRequest state call result) := by
  rw [settleRequest.eq_def]
  cases hentry : state.requests[call]? with
  | none => exact h.stay event
  | some entry =>
      refine h.requests_change event rfl rfl rfl fun request hrequest dispatch hdispatch => ?_
      rcases List.mem_or_eq_of_mem_set hrequest with hold | rfl
      · exact h.requests request hold dispatch hdispatch
      · obtain ⟨hsame, hasked⟩ := settle_dispatch entry result
        rw [hsame] at hdispatch
        rw [hasked]
        exact h.requests entry (List.mem_of_getElem? hentry) dispatch hdispatch

/-! ### Runs -/

theorem step_steps {events : List Event} {state : State} (h : Sound events state) (event : Event) :
    Steps events event state (step urls state event) := by
  cases event with
  | connect request refused => exact onConnect_steps h request refused
  | connected call peer =>
      rw [step.eq_def]
      simp only
      split
      · rename_i request destroyed found
        obtain rfl : destroyed = false := by
          cases h.history call _ found with
          | opening => rfl
        obtain ⟨hhistory, hunlisted⟩ :=
          onConnected_history events call request peer
        exact h.holder_changes _ found (fun _ heq => by cases heq) hunlisted hhistory
      · exact h.stay _
  | socketError call code aborted =>
      rw [step.eq_def]
      simp only
      split
      · rename_i request destroyed found
        obtain rfl : destroyed = false := by
          cases h.history call _ found with
          | opening => rfl
        exact h.holder_changes _ found (fun _ heq => by cases heq) (fun _ heq => by cases heq) .failed
      · exact h.stay _
  | resumed call fields peer =>
      rw [step.eq_def]
      simp only
      split
      · rename_i request destroyed found
        obtain rfl : destroyed = false := by
          cases h.history call _ found with
          | connected => rfl
        exact onResumed_steps h found fields peer
      · exact h.stay _
  | close connectionId => exact onClose_steps h connectionId
  | request request refused =>
      refine h.requests_change _ rfl rfl rfl fun asked hasked => ?_
      rcases List.mem_append.mp hasked with hold | hnew
      · exact h.requests asked hold
      · rw [List.mem_singleton.mp hnew]
        exact newRequest_sound h request refused
  | responded call response => exact settleRequest_steps h _ call _
  | requestError call code => exact settleRequest_steps h _ call _

theorem sound_created : Sound [] created := by
  refine ⟨⟨?_, ?_⟩, ?_, ?_, ?_, ?_, ?_⟩
  · intro i key h
    cases h
  · intro i j key h
    cases h
  · intro key i
    exact iff_of_false List.not_mem_nil (fun h => by cases h)
  · intro i entry h
    cases h
  · intro i entry connection h
    cases h
  · intro i j entry other connection connection' h
    cases h
  · intro request h
    cases h

theorem run_concat (events : List Event) (event : Event) :
    run urls (events ++ [event]) = step urls (run urls events) event := by
  rw [run, List.foldl_append]
  rfl

/-- Every state the adapter reaches is sound, whatever came in which order. -/
theorem run_sound (urls : UrlApi) (events : List Event) : Sound events (run urls events) := by
  induction events using List.reverseRecOn with
  | nil => exact sound_created
  | append_singleton events event ih =>
      rw [run_concat]
      exact (step_steps ih event).1

/-- More events lead the sockets along. -/
theorem run_custody (before after : List Event) :
    Run connectionName (ledger (run urls before)) (ledger (run urls (before ++ after))) := by
  induction after using List.reverseRecOn with
  | nil =>
      rw [List.append_nil]
  | append_singleton after event ih =>
      rw [← List.append_assoc, run_concat]
      exact ih.trans (step_steps (run_sound urls (before ++ after)) event).2

/-! ### Where a socket is -/

def Pending (phase : ConnectPhase) : Prop := phase = .opening ∨ phase = .connected

/-- The socket of a call is the call's own, in the table, or destroyed. -/
inductive Situation (state : State) (call : Nat) (entry : ConnectCall) : Prop
  | own (pending : Pending entry.phase) (live : entry.destroyed = false)
      (unlisted : ∀ id, (id, call) ∉ state.sockets)
  | listed {connection : TransportConnection} (returned : entry.phase = .returned connection)
      (live : entry.destroyed = false) (entered : (connection.id, call) ∈ state.sockets)
  | destroyed (settled : ¬ Pending entry.phase) (gone : entry.destroyed = true)
      (unlisted : ∀ id, (id, call) ∉ state.sockets)

theorem Sound.situation {events : List Event} {state : State} (h : Sound events state) {call : Nat}
    {entry : ConnectCall} (hentry : state.calls[call]? = some entry) : Situation state call entry := by
  have hobject := ledger_getElem? hentry
  have hunlisted : (∀ id, entry.status ≠ .listed id) → ∀ id, (id, call) ∉ state.sockets := by
    intro hstatus id hmem
    rw [h.table, hobject, Option.some.injEq] at hmem
    exact hstatus id hmem
  cases h.history call entry hentry with
  | opening =>
      refine .own (Or.inl rfl) rfl (hunlisted fun id => ?_)
      rw [status_held fun _ heq => by cases heq]
      exact fun heq => by cases heq
  | connected =>
      refine .own (Or.inr rfl) rfl (hunlisted fun id => ?_)
      rw [status_held fun _ heq => by cases heq]
      exact fun heq => by cases heq
  | @returned request destroyed _ _ id =>
      cases hdestroyed : destroyed with
      | false =>
          subst hdestroyed
          refine .listed rfl rfl ?_
          rw [h.table, hobject]
          rfl
      | true =>
          subst hdestroyed
          refine .destroyed (by rintro (heq | heq) <;> cases heq) rfl (hunlisted fun id => ?_)
          rw [status_destroyed rfl]
          exact fun heq => by cases heq
  | failed =>
      refine .destroyed (by rintro (heq | heq) <;> cases heq) rfl (hunlisted fun id => ?_)
      rw [status_destroyed rfl]
      exact fun heq => by cases heq

/-- What a returned connection rests on. -/
theorem CallHistory.connection {events : List Event} {call : Nat} {entry : ConnectCall}
    {connection : TransportConnection} (h : CallHistory events call entry)
    (hreturned : entry.phase = .returned connection) :
    ∃ peer later fields observed, .connected call peer ∈ events ∧
      (isHttps entry.request = true → Verified entry.request peer) ∧
      .resumed call fields later ∈ events ∧ observedPeer fields = some observed ∧
      connection = connectionTo entry.request connection.id observed later := by
  cases h with
  | opening => cases hreturned
  | connected => cases hreturned
  | failed => cases hreturned
  | returned emitted verified resumed reported =>
      cases hreturned
      exact ⟨_, _, _, _, emitted, verified, resumed, reported, rfl⟩

/-- Whatever the callers and the sockets do in whatever order: every socket is its call's
own, in the table under the name its call returned, or destroyed; no two connections have
one name; a connection returned rests on its own socket, which over TLS was verified for the
identity asked for, and reports the peer that socket told; a request is written to the socket
of the connection it names; and with no call pending an empty table means that nothing is
left open. -/
theorem sockets_accounted_for (urls : UrlApi) (events : List Event) :
    (∀ (i : Nat) (entry : ConnectCall), (run urls events).calls[i]? = some entry →
      Situation (run urls events) i entry) ∧
    (∀ (i j : Nat) (entry other : ConnectCall) (connection connection' : TransportConnection),
      (run urls events).calls[i]? = some entry → entry.phase = .returned connection →
      (run urls events).calls[j]? = some other → other.phase = .returned connection' →
        connection.id = connection'.id → i = j) ∧
    (∀ (i : Nat) (entry : ConnectCall) (connection : TransportConnection),
      (run urls events).calls[i]? = some entry → entry.phase = .returned connection →
        ∃ peer later fields observed, .connected i peer ∈ events ∧
          (isHttps entry.request = true → Verified entry.request peer) ∧
          .resumed i fields later ∈ events ∧ observedPeer fields = some observed ∧
          connection = connectionTo entry.request connection.id observed later) ∧
    (∀ request ∈ (run urls events).requests, RequestSound (run urls events).calls request) ∧
    ((∀ entry ∈ (run urls events).calls, ¬ Pending entry.phase) → (run urls events).sockets = [] →
      ∀ entry ∈ (run urls events).calls, entry.destroyed = true) := by
  have hsound := run_sound urls events
  refine ⟨fun i entry => hsound.situation, hsound.distinct, ?_, hsound.requests, ?_⟩
  · intro i entry connection hentry hreturned
    exact (hsound.history i entry hentry).connection hreturned
  · intro hsettled hempty entry hmem
    obtain ⟨i, hentry⟩ := List.mem_iff_getElem?.mp hmem
    cases hsound.situation hentry with
    | own pending => exact absurd pending (hsettled entry hmem)
    | listed _ _ entered =>
        rw [hempty] at entered
        cases entered
    | destroyed _ gone => exact gone

end NodePorts

end Linklint
