import Linklint.Transport.NodePortsSafety

/-!
# What is over stays over

A settled call keeps its outcome and a destroyed socket stays destroyed. A name that
was closed is never entered again, so nothing is written for it any more; closing
what was returned is all that a caller has to do.
-/

namespace Linklint

namespace NodePorts

open SafeSession Custody

variable {urls : UrlApi}

/-! ### Calls -/

/-- A later state of a call: its request, its outcome and its destruction are kept. -/
structure Later (entry later : ConnectCall) : Prop where
  request : later.request = entry.request
  phase : ¬ Pending entry.phase → later.phase = entry.phase
  destroyed : entry.destroyed = true → later.destroyed = true

/-- Every call of the first state is one of the second, in a later state. -/
def CallsLater (state state' : State) : Prop :=
  ∀ (i : Nat) (entry : ConnectCall), state.calls[i]? = some entry →
    ∃ later, state'.calls[i]? = some later ∧ Later entry later

theorem later_refl (entry : ConnectCall) : Later entry entry := ⟨rfl, fun _ => rfl, id⟩

theorem Later.trans {entry later last : ConnectCall} (h : Later entry later) (h' : Later later last) :
    Later entry last := by
  refine ⟨h'.request.trans h.request, fun hsettled => ?_, fun hgone => h'.destroyed (h.destroyed hgone)⟩
  have hphase := h.phase hsettled
  rw [← hphase]
  apply h'.phase
  rw [hphase]
  exact hsettled

theorem callsLater_of_eq {state state' : State} (h : state'.calls = state.calls) :
    CallsLater state state' := by
  intro i entry hi
  exact ⟨entry, by rw [h]; exact hi, later_refl entry⟩

theorem callsLater_set {state : State} {call : Nat} {before after : ConnectCall}
    (found : state.calls[call]? = some before) (h : Later before after) :
    CallsLater state (setCall state call after) := by
  intro i entry hi
  by_cases hsame : i = call
  · subst hsame
    rw [found, Option.some.injEq] at hi
    subst hi
    exact ⟨after, (getElem?_set_some found).mpr (Or.inl ⟨rfl, rfl⟩), h⟩
  · exact ⟨entry, (getElem?_set_some found).mpr (Or.inr ⟨hsame, hi⟩), later_refl entry⟩

theorem later_of_pending {entry later : ConnectCall} (hpending : Pending entry.phase)
    (hrequest : later.request = entry.request) (hlive : entry.destroyed = true → later.destroyed = true) :
    Later entry later := ⟨hrequest, fun hsettled => absurd hpending hsettled, hlive⟩

theorem onConnected_later (request : ConnectRequest) (destroyed : Bool) (peer : TlsPeer) :
    Later { request, phase := .opening, destroyed }
      (onConnected { request, phase := .opening, destroyed } peer) := by
  rw [onConnected]
  split
  · exact later_of_pending (Or.inl rfl) rfl fun _ => rfl
  · exact later_of_pending (Or.inl rfl) rfl id

theorem step_later (urls : UrlApi) (state : State) (event : Event) :
    CallsLater state (step urls state event) := by
  cases event with
  | connect request refused =>
      intro i entry hi
      exact ⟨entry, getElem?_append_singleton.mpr (Or.inl hi), later_refl entry⟩
  | connected call peer =>
      rw [step.eq_def]
      simp only
      split
      · rename_i request destroyed found
        exact callsLater_set found (onConnected_later request destroyed peer)
      · exact callsLater_of_eq rfl
  | socketError call code aborted =>
      rw [step.eq_def]
      simp only
      split
      · rename_i request destroyed found
        exact callsLater_set found (later_of_pending (Or.inl rfl) rfl fun _ => rfl)
      · exact callsLater_of_eq rfl
  | resumed call fields peer =>
      rw [step.eq_def]
      simp only
      split
      · rename_i request destroyed found
        rw [onResumed.eq_def]
        split
        · exact callsLater_set found (later_of_pending (Or.inr rfl) rfl fun _ => rfl)
        · exact callsLater_set found (later_of_pending (Or.inr rfl) rfl id)
      · exact callsLater_of_eq rfl
  | close connectionId =>
      change CallsLater state (onClose state connectionId)
      rw [onClose.eq_def]
      split
      · exact callsLater_of_eq rfl
      · simp only
        split
        · exact callsLater_of_eq rfl
        · rename_i entry found
          exact callsLater_set found ⟨rfl, fun _ => rfl, fun _ => rfl⟩
  | request request refused => exact callsLater_of_eq rfl
  | responded call response =>
      change CallsLater state (settleRequest state call _)
      rw [settleRequest.eq_def]
      split
      · exact callsLater_of_eq rfl
      · exact callsLater_of_eq rfl
  | requestError call code =>
      change CallsLater state (settleRequest state call _)
      rw [settleRequest.eq_def]
      split
      · exact callsLater_of_eq rfl
      · exact callsLater_of_eq rfl

theorem run_later (before after : List Event) :
    CallsLater (run urls before) (run urls (before ++ after)) := by
  induction after using List.reverseRecOn with
  | nil =>
      rw [List.append_nil]
      exact callsLater_of_eq rfl
  | append_singleton after event ih =>
      rw [← List.append_assoc, run_concat]
      intro i entry hi
      obtain ⟨later, hlater, h⟩ := ih i entry hi
      obtain ⟨last, hlast, h'⟩ := step_later urls _ event i later hlater
      exact ⟨last, hlast, h.trans h'⟩

/-! ### Requests -/

/-- A later state of a request: where it was written to and its first result are kept. -/
structure Kept (call later : RequestCall) : Prop where
  request : later.request = call.request
  dispatch : later.dispatch = call.dispatch
  result : ∀ result, call.result = some result → later.result = some result
  refused : call.dispatch = none → later.result = call.result

theorem kept_refl (call : RequestCall) : Kept call call := ⟨rfl, rfl, fun _ => id, fun _ => rfl⟩

theorem Kept.trans {call later last : RequestCall} (h : Kept call later) (h' : Kept later last) :
    Kept call last := by
  refine ⟨h'.request.trans h.request, h'.dispatch.trans h.dispatch,
    fun result hresult => h'.result result (h.result result hresult), fun hnone => ?_⟩
  rw [h'.refused (h.dispatch.trans hnone), h.refused hnone]

theorem kept_settle (call : RequestCall) (result : Except NodeFailure HttpResponse) :
    Kept call (call.settle result) := by
  obtain ⟨hdispatch, hrequest⟩ := settle_dispatch call result
  refine ⟨hrequest, hdispatch, fun first hfirst => ?_, fun hnone => ?_⟩
  · rw [RequestCall.settle]
    split
    · rw [hfirst]
      rfl
    · exact hfirst
  · rw [RequestCall.settle, hnone]
    rfl

/-- The requests of the first state are the first ones of the second, each kept. -/
def RequestsKept (state state' : State) : Prop :=
  state.requests.length ≤ state'.requests.length ∧
  ∀ (i : Nat) (call : RequestCall), state.requests[i]? = some call →
    ∃ later, state'.requests[i]? = some later ∧ Kept call later

theorem requestsKept_of_eq {state state' : State} (h : state'.requests = state.requests) :
    RequestsKept state state' := by
  rw [RequestsKept, h]
  exact ⟨Nat.le_refl _, fun i call hi => ⟨call, hi, kept_refl call⟩⟩

theorem settleRequest_kept (state : State) (call : Nat) (result : Except NodeFailure HttpResponse) :
    RequestsKept state (settleRequest state call result) := by
  rw [settleRequest.eq_def]
  split
  · exact requestsKept_of_eq rfl
  · rename_i entry found
    refine ⟨Nat.le_of_eq List.length_set.symm, fun i other hi => ?_⟩
    by_cases hsame : i = call
    · subst hsame
      rw [found, Option.some.injEq] at hi
      subst hi
      exact ⟨_, (getElem?_set_some found).mpr (Or.inl ⟨rfl, rfl⟩), kept_settle entry result⟩
    · exact ⟨other, (getElem?_set_some found).mpr (Or.inr ⟨hsame, hi⟩), kept_refl other⟩

theorem onResumed_requests (state : State) (call : Nat) (entry : ConnectCall)
    (fields : SocketPeerFields) (peer : TlsPeer) :
    (onResumed state call entry fields peer).requests = state.requests := by
  rw [onResumed.eq_def]
  split
  · rfl
  · rfl

theorem onClose_requests (state : State) (connectionId : Text) :
    (onClose state connectionId).requests = state.requests := by
  rw [onClose.eq_def]
  split
  · rfl
  · simp only
    split
    · rfl
    · rfl

theorem step_requestsKept (urls : UrlApi) (state : State) (event : Event) :
    RequestsKept state (step urls state event) := by
  cases event with
  | connect request refused => exact requestsKept_of_eq rfl
  | connected call peer =>
      rw [step.eq_def]
      simp only
      split
      · exact requestsKept_of_eq rfl
      · exact requestsKept_of_eq rfl
  | socketError call code aborted =>
      rw [step.eq_def]
      simp only
      split
      · exact requestsKept_of_eq rfl
      · exact requestsKept_of_eq rfl
  | resumed call fields peer =>
      rw [step.eq_def]
      simp only
      split
      · exact requestsKept_of_eq (onResumed_requests ..)
      · exact requestsKept_of_eq rfl
  | close connectionId => exact requestsKept_of_eq (onClose_requests state connectionId)
  | request request refused =>
      change RequestsKept state
        { state with requests := state.requests ++ [newRequest urls state request refused] }
      refine ⟨?_, fun i call hi => ?_⟩
      · rw [List.length_append]
        exact Nat.le_add_right _ _
      · exact ⟨call, getElem?_append_singleton.mpr (Or.inl hi), kept_refl call⟩
  | responded call response => exact settleRequest_kept state call _
  | requestError call code => exact settleRequest_kept state call _

theorem run_requestsKept (before after : List Event) :
    RequestsKept (run urls before) (run urls (before ++ after)) := by
  induction after using List.reverseRecOn with
  | nil =>
      rw [List.append_nil]
      exact requestsKept_of_eq rfl
  | append_singleton after event ih =>
      rw [← List.append_assoc, run_concat]
      obtain ⟨hlength, hkept⟩ := ih
      obtain ⟨hlength', hkept'⟩ := step_requestsKept urls (run urls (before ++ after)) event
      refine ⟨Nat.le_trans hlength hlength', fun i call hi => ?_⟩
      obtain ⟨later, hlater, h⟩ := hkept i call hi
      obtain ⟨last, hlast, h'⟩ := hkept' i later hlater
      exact ⟨last, hlast, h.trans h'⟩

theorem settleRequest_length (state : State) (call : Nat)
    (result : Except NodeFailure HttpResponse) :
    (settleRequest state call result).requests.length = state.requests.length := by
  rw [settleRequest.eq_def]
  split
  · rfl
  · exact List.length_set

/-- Only a call of `request` makes the list of requests longer. -/
theorem step_requests (urls : UrlApi) (state : State) (event : Event) :
    (step urls state event).requests.length = state.requests.length ∨
      ∃ request refused, (step urls state event).requests
        = state.requests ++ [newRequest urls state request refused] := by
  cases event with
  | connect request refused => exact Or.inl rfl
  | connected call peer =>
      left
      rw [step.eq_def]
      simp only
      split
      · rfl
      · rfl
  | socketError call code aborted =>
      left
      rw [step.eq_def]
      simp only
      split
      · rfl
      · rfl
  | resumed call fields peer =>
      left
      rw [step.eq_def]
      simp only
      split
      · rw [onResumed_requests]
      · rfl
  | close connectionId =>
      left
      change (onClose state connectionId).requests.length = _
      rw [onClose_requests]
  | request request refused => exact Or.inr ⟨request, refused, rfl⟩
  | responded call response => exact Or.inl (settleRequest_length state call _)
  | requestError call code => exact Or.inl (settleRequest_length state call _)

/-! ### Names -/

/-- The name was given to a connection and is not in the table. -/
def Retired (state : State) (id : Text) : Prop :=
  Given connectionName (ledger state) id ∧ ∀ call, (id, call) ∉ state.sockets

theorem retired_iff {events : List Event} {state : State} (h : Sound events state) {id : Text} :
    Retired state id ↔ Gone connectionName (ledger state) id := by
  refine and_congr_right fun _ => forall_congr' fun call => ?_
  rw [h.table]

/-- A retired name stays retired. -/
theorem run_retired {before : List Event} {id : Text} (h : Retired (run urls before) id)
    (after : List Event) : Retired (run urls (before ++ after)) id := by
  rw [retired_iff (run_sound urls _)] at h ⊢
  exact (run_custody before after).gone connectionName_injective h

theorem lookup_retired {state : State} {id : Text} (h : Retired state id) :
    state.sockets.lookup id = none := by
  cases hlookup : state.sockets.lookup id with
  | none => rfl
  | some call => exact absurd (KeyedIndex.mem_of_lookup hlookup) (h.2 call)

/-- A request for a retired name is refused before anything is written. -/
theorem newRequest_retired {state : State} {request : HttpRequest}
    (h : Retired state request.connectionId) (refused : Option (Option Text)) :
    (newRequest urls state request refused).dispatch = none ∧
      (newRequest urls state request refused).result = some (.error (.port .httpReset)) := by
  rw [newRequest.eq_def, lookup_retired h]
  exact ⟨rfl, rfl⟩

theorem onClose_sockets (state : State) (id : Text) :
    ∀ call, (id, call) ∉ (onClose state id).sockets := by
  intro call hmem
  rw [onClose.eq_def] at hmem
  split at hmem
  · rename_i hlookup
    rw [List.lookup_eq_none_iff] at hlookup
    have hne := hlookup (id, call) hmem
    simp at hne
  · simp only at hmem
    have hfiltered : (id, call) ∈ state.sockets.filter fun listed => listed.1 != id := by
      split at hmem
      · exact hmem
      · exact hmem
    have hne := (List.mem_filter.mp hfiltered).2
    simp at hne

theorem ledger_next_onClose (state : State) (id : Text) :
    (onClose state id).nextConnectionId = state.nextConnectionId := by
  rw [onClose.eq_def]
  split
  · rfl
  · simp only
    split
    · rfl
    · rfl

/-- Closing a returned connection retires its name. -/
theorem retired_of_close {events : List Event} {state : State} (h : Sound events state) {call : Nat}
    {entry : ConnectCall} {connection : TransportConnection}
    (hentry : state.calls[call]? = some entry) (hreturned : entry.phase = .returned connection) :
    Retired (onClose state connection.id) connection.id := by
  obtain ⟨k, hk, hname⟩ := h.named call entry connection hentry hreturned
  refine ⟨⟨k, ?_, hname⟩, onClose_sockets state connection.id⟩
  change k < (onClose state connection.id).nextConnectionId
  rw [ledger_next_onClose]
  exact hk

theorem request_after_retired {before : List Event} {id : Text} (h : Retired (run urls before) id)
    (after : List Event) (i : Nat) (call : RequestCall)
    (hi : (run urls before).requests.length ≤ i)
    (hcall : (run urls (before ++ after)).requests[i]? = some call)
    (hid : call.request.connectionId = id) :
    call.dispatch = none ∧ call.result = some (.error (.port .httpReset)) := by
  induction after using List.reverseRecOn generalizing call with
  | nil =>
      rw [List.append_nil, List.getElem?_eq_none hi] at hcall
      cases hcall
  | append_singleton after event ih =>
      rw [← List.append_assoc, run_concat] at hcall
      cases hold : (run urls (before ++ after)).requests[i]? with
      | some old =>
          obtain ⟨later, hlater, hkept⟩ :=
            (step_requestsKept urls (run urls (before ++ after)) event).2 i old hold
          rw [hcall, Option.some.injEq] at hlater
          subst hlater
          obtain ⟨hdispatch, hresult⟩ := ih old hold (by rw [← hkept.request]; exact hid)
          refine ⟨by rw [hkept.dispatch]; exact hdispatch, ?_⟩
          rw [hkept.refused hdispatch]
          exact hresult
      | none =>
          have hlength := List.getElem?_eq_none_iff.mp hold
          rcases step_requests urls (run urls (before ++ after)) event with hsame |
            ⟨request, refused, hrequests⟩
          · rw [List.getElem?_eq_none (by omega)] at hcall
            cases hcall
          · rw [hrequests] at hcall
            rcases getElem?_append_singleton.mp hcall with hbefore | ⟨-, rfl⟩
            · rw [hold] at hbefore
              cases hbefore
            · obtain ⟨hasked, -⟩ :=
                newRequest_cases urls (run urls (before ++ after)) request refused
              rw [hasked] at hid
              subst hid
              exact newRequest_retired (run_retired h after) refused

/-- However the events go on: a call keeps its request, a settled one its outcome, a
destroyed socket stays destroyed; a request keeps its socket and its first result. Closing a
connection retires its name: it never comes back into the table, and every later request for
it is refused unsent. So once no call is pending and every connection that was returned has
been closed, every socket is destroyed. -/
theorem closed_for_good (urls : UrlApi) (before after : List Event) :
    CallsLater (run urls before) (run urls (before ++ after)) ∧
    RequestsKept (run urls before) (run urls (before ++ after)) ∧
    (∀ (i : Nat) (entry : ConnectCall) (connection : TransportConnection),
      (run urls before).calls[i]? = some entry → entry.phase = .returned connection →
      Retired (run urls (before ++ .close connection.id :: after)) connection.id ∧
      ∀ (j : Nat) (call : RequestCall), (run urls before).requests.length ≤ j →
        (run urls (before ++ .close connection.id :: after)).requests[j]? = some call →
        call.request.connectionId = connection.id →
          call.dispatch = none ∧ call.result = some (.error (.port .httpReset))) ∧
    ((∀ entry ∈ (run urls after).calls, ¬ Pending entry.phase) →
      (∀ (i : Nat) (entry : ConnectCall) (connection : TransportConnection),
        (run urls after).calls[i]? = some entry → entry.phase = .returned connection →
          ∃ first rest old, after = first ++ .close connection.id :: rest ∧
            (run urls first).calls[i]? = some old ∧ old.phase = .returned connection) →
      ∀ entry ∈ (run urls after).calls, entry.destroyed = true) := by
  -- a name that was closed right after `first` is retired in every continuation
  have hretired : ∀ (first : List Event) (i : Nat) (entry : ConnectCall)
      (connection : TransportConnection), (run urls first).calls[i]? = some entry →
      entry.phase = .returned connection → Retired (run urls (first ++ [.close connection.id]))
        connection.id := by
    intro first i entry connection hentry hreturned
    rw [run_concat]
    exact retired_of_close (run_sound urls first) hentry hreturned
  refine ⟨run_later before after, run_requestsKept before after, ?_, ?_⟩
  · intro i entry connection hentry hreturned
    have hclosed := hretired before i entry connection hentry hreturned
    have hsplit : before ++ .close connection.id :: after
        = (before ++ [.close connection.id]) ++ after := by
      rw [List.append_assoc, List.singleton_append]
    rw [hsplit]
    refine ⟨run_retired hclosed after, fun j call hj hcall hid => ?_⟩
    refine request_after_retired hclosed after j call ?_ hcall hid
    rw [run_concat]
    change (onClose _ _).requests.length ≤ j
    rw [onClose_requests]
    exact hj
  · intro hsettled hclosed entry hmem
    obtain ⟨i, hentry⟩ := List.mem_iff_getElem?.mp hmem
    cases (run_sound urls after).situation hentry with
    | own pending => exact absurd pending (hsettled entry hmem)
    | destroyed _ gone => exact gone
    | @listed connection returned _ entered =>
        obtain ⟨first, rest, old, hsplit, hold, holdphase⟩ :=
          hclosed i entry connection hentry returned
        have hgone := run_retired (hretired first i old connection hold holdphase) rest
        rw [List.append_assoc, List.singleton_append, ← hsplit] at hgone
        exact absurd entered (hgone.2 i)

end NodePorts

end Linklint
