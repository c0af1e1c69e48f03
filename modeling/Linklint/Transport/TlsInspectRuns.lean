import Linklint.Transport.PinnedFetch
import Linklint.Transport.TlsInspect

/-!
# Runs of the TLS inspector

The log of an inspection tells where its work stands. From it: what a handshake was
observed for, and what each kind of outcome means, whatever the ports, the clock and
the caller do.
-/

namespace Linklint

namespace TlsInspect

open Interleaving SafeSession

def isObserve : TlsPortEvent → Bool
  | .observe _ => true
  | _ => false

/-- No handshake was asked for. -/
def Quiet (log : List TlsPortEvent) : Prop := ∀ event ∈ log, isObserve event = false

theorem Quiet.append {log events : List TlsPortEvent} (h : Quiet log) (h' : Quiet events) :
    Quiet (log ++ events) := by
  intro event hevent
  rcases List.mem_append.mp hevent with old | new
  · exact h event old
  · exact h' event new

theorem quiet_singleton {event : TlsPortEvent} (h : isObserve event = false) : Quiet [event] := by
  intro other hother
  rw [List.mem_singleton.mp hother]
  exact h

section
variable {api : TlsApi} (options : TlsInspectionOptions) {raw : Text}

def startLog (destination : TlsDestination api raw) : List TlsPortEvent :=
  resolveEvents destination.hostname ++ [.sleep (resolvedTimeoutMs options)]

def observeLog (destination : TlsDestination api raw) (pin : PinnedDestination) :
    List TlsPortEvent :=
  startLog options destination
    ++ [.resolved pin.addresses, .observe (observeRequest api destination pin)]

theorem startLog_quiet (destination : TlsDestination api raw) :
    Quiet (startLog options destination) := by
  refine Quiet.append ?_ (quiet_singleton rfl)
  unfold resolveEvents
  split
  · simp [Quiet]
  · exact quiet_singleton rfl

/-! ### Where the work stands -/

/-- Evidence that names a selected address names the answers it was selected from. -/
def Selected (resolvedAddresses : Option (List Text)) (selectedAddress : Option Text) : Prop :=
  ∀ address, selectedAddress = some address → ∃ pin : PinnedDestination,
    resolvedAddresses = some pin.resolvedAddresses ∧ address = pin.selected.address

/-- The causes of an input that is no destination. -/
def INPUT_CAUSES : List TlsObservationCauseCode := [.invalidUrl, .unsupportedScheme, .urlCredentials]

/-- What the work leaves behind, with the log it left. -/
inductive Ended (api : TlsApi) (raw : Text) : List TlsPortEvent → WorkResult → Prop
  | invalid {log : List TlsPortEvent} {outcome : TlsObservationOutcome}
      {cause : TlsObservationCause} (quiet : Quiet log) (code : cause.code ∈ INPUT_CAUSES)
      (result : outcome.result = .incomplete cause) : Ended api raw log (.ok outcome)
  | refused {log : List TlsPortEvent} (destination : TlsDestination api raw)
      {answers : List DnsAddress} {answer : DnsAddress} {category : TransportAddressCategory}
      {outcome : TlsObservationOutcome} (quiet : Quiet log) (resolved : .resolved answers ∈ log)
      (member : answer ∈ answers) (prohibited : ¬ Allowed answer)
      (result : outcome.result = .blocked (prohibitedCause answer category)) :
      Ended api raw log (.ok outcome)
  | observed (destination : TlsDestination api raw) (pin : PinnedDestination)
      {observation : TlsHandshakeObservation} {observedMs : Option Int}
      {normalized : NormalizedTlsObservation} {outcome : TlsObservationOutcome}
      (peer : SamePeer api destination pin observation)
      (normal : normalizeTlsCertificate api observation destination.hostname observedMs options
        = .ok normalized)
      (result : outcome.result = .observed normalized) :
      Ended api raw (observeLog options destination pin ++ [.observed observation]) (.ok outcome)
  | early {log : List TlsPortEvent} {fault : InspectFault} (quiet : Quiet log)
      (own : fault ≠ .deadline) : Ended api raw log (.error fault)
  | late (destination : TlsDestination api raw) (pin : PinnedDestination)
      {events : List TlsPortEvent} {fault : InspectFault} (quiet : Quiet events)
      (own : fault ≠ .deadline) :
      Ended api raw (observeLog options destination pin ++ events) (.error fault)

def WorkInv (log : List TlsPortEvent) : Work api raw → Prop
  | .unstarted => log = []
  | .resolving destination => log = startLog options destination
  | .observing destination pin => log = observeLog options destination pin
  | .settled result => Ended options api raw log result

/-- What holds of an inspection between its turns. -/
structure InspectInv (inspection : Inspection api) : Prop where
  work : WorkInv options inspection.log inspection.work
  attempt : Selected inspection.attempt.resolvedAddresses inspection.attempt.selectedAddress
  unselected : ∀ destination, inspection.work = .resolving destination →
    inspection.attempt.selectedAddress = none
  settled : ∀ outcome, inspection.work = .settled (.ok outcome) →
    Selected outcome.evidence.resolvedAddresses outcome.evidence.selectedAddress
  race : ∀ result, inspection.race = some result → inspection.work = .settled result ∨
    (result = .error .deadline ∧ inspection.timedOut = true) ∨ result = .error .other
  /-- an outcome is what the work left, or an incomplete one for a reason of the race -/
  outcome : ∀ outcome, inspection.outcome = some (.ok outcome) →
    inspection.work = .settled (.ok outcome) ∨
      (Selected outcome.evidence.resolvedAddresses outcome.evidence.selectedAddress ∧
        ∃ cause, outcome.result = .incomplete cause ∧ cause.code ≠ .prohibitedAddress ∧
          (cause.code = .timeout → inspection.timedOut = true) ∧
          (cause.code = .callerAborted → inspection.callerAborted = true))

end

section
variable {api : TlsApi} {options : TlsInspectionOptions} {inspection next : Inspection api}

theorem outcomeOf_ok {state : InspectState} {result : TlsObservationResult} {now : ClockReading}
    {outcome : TlsObservationOutcome} (h : outcomeOf api state result now = .ok outcome) :
    outcome.result = result ∧ outcome.evidence.resolvedAddresses = state.resolvedAddresses ∧
      outcome.evidence.selectedAddress = state.selectedAddress := by
  unfold outcomeOf at h
  cases hiso : now.toISOString api.toTransportApi with
  | error e =>
      rw [hiso] at h
      cases h
  | ok observedAt =>
      rw [hiso] at h
      cases h
      exact ⟨rfl, rfl, rfl⟩

theorem workResult_ok {result : Except Thrown TlsObservationOutcome} {outcome : TlsObservationOutcome}
    (h : workResult result = .ok outcome) : result = .ok outcome := by
  cases result with
  | error e => cases h
  | ok o => exact congrArg Except.ok (Except.ok.inj h)

theorem workResult_error {result : Except Thrown TlsObservationOutcome} {fault : InspectFault}
    (h : workResult result = .error fault) : fault = .other := by
  cases result with
  | error e => exact (Except.error.inj h).symm
  | ok o => cases h

/-! ### The end of the work -/

/-- The work settles, whatever the race holds already. -/
theorem InspectInv.settle (inv : InspectInv options inspection) {result : WorkResult}
    {log : List TlsPortEvent} {attempt : InspectState}
    (unsettled : ∀ result, inspection.work ≠ .settled result)
    (ended : Ended options api inspection.url log result)
    (selected : Selected attempt.resolvedAddresses attempt.selectedAddress)
    (evidence : ∀ outcome, result = .ok outcome →
      Selected outcome.evidence.resolvedAddresses outcome.evidence.selectedAddress) :
    InspectInv options ({ inspection with log, attempt }.settleWork result) where
  work := ended
  attempt := selected
  unselected _ h := by cases h
  settled outcome h := evidence outcome (Work.settled.inj h)
  race other h := by
    have hrace : inspection.race.or (some result) = some other := h
    cases hold : inspection.race with
    | none =>
        rw [hold] at hrace
        cases hrace
        exact .inl rfl
    | some result' =>
        rw [hold] at hrace
        cases hrace
        rcases inv.race other hold with same | rest
        · exact absurd same (unsettled other)
        · exact .inr rest
  outcome outcome h := by
    rcases inv.outcome outcome h with same | rest
    · exact absurd same (unsettled _)
    · exact .inr rest

/-- The work settles with an outcome it made of its own state. -/
theorem InspectInv.settle_outcome (inv : InspectInv options inspection) {log : List TlsPortEvent}
    {attempt : InspectState} {result : TlsObservationResult} {now : ClockReading}
    (unsettled : ∀ result, inspection.work ≠ .settled result)
    (ended : ∀ outcome : TlsObservationOutcome, outcome.result = result →
      Ended options api inspection.url log (.ok outcome))
    (failed : Ended options api inspection.url log (.error .other))
    (selected : Selected attempt.resolvedAddresses attempt.selectedAddress) :
    InspectInv options ({ inspection with log, attempt }.settleWork
      (workResult (outcomeOf api attempt result now))) := by
  refine inv.settle unsettled ?_ selected fun outcome h => ?_
  · cases hmade : workResult (outcomeOf api attempt result now) with
    | error fault =>
        rw [workResult_error hmade]
        exact failed
    | ok outcome => exact ended outcome (outcomeOf_ok (workResult_ok hmade)).1
  · obtain ⟨-, hresolved, hselected⟩ := outcomeOf_ok (workResult_ok h)
    rw [hresolved, hselected]
    exact selected

theorem selected_none (resolvedAddresses : Option (List Text)) : Selected resolvedAddresses none := by
  intro address h
  cases h

theorem prohibited_of_pin {answers : List DnsAddress} {answer : DnsAddress}
    {category : TransportAddressCategory}
    (h : pinDestination answers = .prohibited answer category) : answer ∈ answers ∧ ¬ Allowed answer := by
  unfold pinDestination at h
  split at h
  · cases h
  · split at h
    · cases h
    · split at h
      · rename_i found hfound
        cases h
        exact ⟨List.mem_of_find?_eq_some hfound, by simpa using List.find?_some hfound⟩
      · cases h

/-! ### Turns -/

theorem inv_resolved (inv : InspectInv options inspection)
    {destination : TlsDestination api inspection.url}
    (resolving : inspection.work = .resolving destination)
    (answer : Except ObserveOriginal (List DnsAddress)) (observed : ClockReading) :
    InspectInv options (onResolved inspection destination answer observed) := by
  have hlog : inspection.log = startLog options destination := by
    have hwork := inv.work
    rw [resolving] at hwork
    exact hwork
  have unsettled : ∀ result, inspection.work ≠ .settled result := by simp [resolving]
  have quiet : Quiet inspection.log := hlog ▸ startLog_quiet options destination
  unfold onResolved
  split
  · exact inv.settle unsettled (.early quiet (fun h => by cases h)) inv.attempt
      (fun _ h => by cases h)
  rename_i addresses _
  have quiet' : Quiet (inspection.log ++ [.resolved addresses]) := quiet.append (quiet_singleton rfl)
  have fresh : Selected (some (resolvedTexts addresses)) inspection.attempt.selectedAddress := by
    rw [inv.unselected destination resolving]
    exact selected_none _
  simp only []
  split
  · exact inv.settle unsettled (.early quiet' (fun h => by cases h)) inv.attempt
      (fun _ h => by cases h)
  split
  · exact inv.settle unsettled (.early quiet' (fun h => by cases h)) fresh (fun _ h => by cases h)
  · exact inv.settle unsettled (.early quiet' (fun h => by cases h)) fresh (fun _ h => by cases h)
  · rename_i hrefused
    obtain ⟨member, prohibited⟩ := prohibited_of_pin hrefused
    exact inv.settle_outcome unsettled
      (fun _ result => .refused destination quiet' (by simp) member prohibited result)
      (.early quiet' (fun h => by cases h)) fresh
  · rename_i pin hpin
    have same := pinDestination_addresses hpin
    refine ⟨?_, ?_, (fun _ h => by cases h), (fun _ h => by cases h), ?_, ?_⟩
    · rw [WorkInv, observeLog, same, ← hlog, List.append_assoc]
      rfl
    · intro address h
      cases h
      exact ⟨pin, by rw [PinnedDestination.resolvedAddresses, same], rfl⟩
    · intro result h
      rcases inv.race result h with settled | rest
      · exact absurd settled (unsettled result)
      · exact .inr rest
    · intro outcome h
      rcases inv.outcome outcome h with settled | rest
      · exact absurd settled (unsettled _)
      · exact .inr rest

theorem inv_observed (inv : InspectInv options inspection)
    {destination : TlsDestination api inspection.url} {pin : PinnedDestination}
    (observing : inspection.work = .observing destination pin)
    (answer : Except ObserveFailure TlsHandshakeObservation) (now observed : ClockReading) :
    InspectInv options (onObserved options inspection destination pin answer now observed) := by
  have hlog : inspection.log = observeLog options destination pin := by
    have hwork := inv.work
    rw [observing] at hwork
    exact hwork
  have unsettled : ∀ result, inspection.work ≠ .settled result := by simp [observing]
  have failed (events : List TlsPortEvent) (quiet : Quiet events) (fault : InspectFault)
      (own : fault ≠ .deadline) :
      Ended options api inspection.url (inspection.log ++ events) (.error fault) := by
    rw [hlog]
    exact .late destination pin quiet own
  have nothing : Quiet [] := by simp [Quiet]
  unfold onObserved
  split
  · have ended := failed [] nothing .other (fun h => by cases h)
    rw [List.append_nil] at ended
    exact inv.settle unsettled ended inv.attempt (fun _ h => by cases h)
  · rename_i error
    have ended := failed [] nothing (.observe .connect error) (fun h => by cases h)
    rw [List.append_nil] at ended
    exact inv.settle unsettled ended inv.attempt (fun _ h => by cases h)
  rename_i observation
  have seen : Quiet [.observed observation] := quiet_singleton rfl
  simp only []
  split
  · exact inv.settle unsettled (failed _ seen _ (fun h => by cases h)) inv.attempt
      (fun _ h => by cases h)
  split
  · rename_i peer
    unfold finish
    split
    · exact inv.settle unsettled (failed _ seen _ (fun h => by cases h)) inv.attempt
        (fun _ h => by cases h)
    split
    · exact inv.settle unsettled (failed _ seen _ (fun h => by cases h)) inv.attempt
        (fun _ h => by cases h)
    · exact inv.settle unsettled (failed _ seen _ (fun h => by cases h)) inv.attempt
        (fun _ h => by cases h)
    · rename_i normal
      refine inv.settle_outcome unsettled (fun outcome result => ?_)
        (failed _ seen _ (fun h => by cases h)) inv.attempt
      rw [hlog]
      exact .observed destination pin peer normal result
  · exact inv.settle unsettled (failed _ seen _ (fun h => by cases h)) inv.attempt
      (fun _ h => by cases h)

theorem observeCause_mem (phase : ObservePhase) (original : ObserveOriginal) :
    observeCause phase original ∈ STABLE_OBSERVE_CODES ++ [.dnsError, .connectError] := by
  unfold observeCause
  cases hstable : stableCode original with
  | none => cases phase <;> decide
  | some code =>
      have hcode : STABLE_OBSERVE_CODES.contains code = true :=
        (Option.filter_eq_some_iff.mp hstable).2
      exact List.mem_append_left _ (by simpa using hcode)

/-- A fault is never reported as a refusal, and as a timeout or an abort only when it was one. -/
theorem failureCause_own (inspection : Inspection api) (fault : InspectFault) :
    failureCause inspection fault ≠ .prohibitedAddress ∧
      (failureCause inspection fault = .timeout →
        inspection.timedOut = true ∨ fault = .deadline) ∧
      (failureCause inspection fault = .callerAborted → inspection.callerAborted = true) := by
  have plain : ∀ code ∈ STABLE_OBSERVE_CODES ++ [.dnsError, .connectError],
      code ≠ .prohibitedAddress ∧ code ≠ .timeout ∧ code ≠ .callerAborted := by decide
  unfold failureCause
  split
  · rename_i late
    exact ⟨(fun h => by cases h), (fun _ => late), (fun h => by cases h)⟩
  split
  · rename_i aborted
    exact ⟨(fun h => by cases h), (fun h => by cases h), (fun _ => aborted)⟩
  cases fault with
  | observe phase original =>
      obtain ⟨unprohibited, untimed, unaborted⟩ := plain _ (observeCause_mem phase original)
      exact ⟨unprohibited, fun h => absurd h untimed, fun h => absurd h unaborted⟩
  | analysis code =>
      cases code <;> exact ⟨(fun h => by cases h), (fun h => by cases h), (fun h => by cases h)⟩
  | deadline => exact ⟨(fun h => by cases h), (fun h => by cases h), (fun h => by cases h)⟩
  | other => exact ⟨(fun h => by cases h), (fun h => by cases h), (fun h => by cases h)⟩

theorem Ended.own {log : List TlsPortEvent} {raw : Text} {fault : InspectFault}
    (ended : Ended options api raw log (.error fault)) : fault ≠ .deadline := by
  cases ended with
  | early _ own => exact own
  | late _ _ _ own => exact own

theorem inv_settle (inv : InspectInv options inspection) {result : WorkResult}
    (race : inspection.race = some result) (observed : ClockReading) :
    InspectInv options (onSettle inspection result observed) where
  work := inv.work
  attempt := inv.attempt
  unselected := inv.unselected
  settled := inv.settled
  race := inv.race
  outcome outcome h := by
    have hmade := Option.some.inj h
    cases result with
    | ok made =>
        cases hmade
        rcases inv.race _ race with settled | ⟨failed, -⟩ | failed
        · exact .inl settled
        · cases failed
        · cases failed
    | error fault =>
        obtain ⟨made, hresolved, hselected⟩ := outcomeOf_ok hmade
        obtain ⟨unprohibited, timed, aborted⟩ := failureCause_own inspection fault
        refine .inr ⟨?_, _, made, unprohibited, fun code => ?_, aborted⟩
        · rw [hresolved, hselected]
          exact inv.attempt
        · rcases timed code with timedOut | deadline
          · exact timedOut
          · rcases inv.race _ race with settled | ⟨-, timedOut⟩ | other
            · have ended := inv.work
              rw [settled] at ended
              exact absurd deadline ended.own
            · exact timedOut
            · rw [deadline] at other
              cases other

theorem inv_deadline (inv : InspectInv options inspection) (fired : Bool) :
    InspectInv options (onDeadline inspection fired) := by
  unfold onDeadline
  split
  · refine ⟨inv.work, inv.attempt, inv.unselected, inv.settled, ?_, ?_⟩
    · intro result h
      have hrace : inspection.race.or (some (.error .deadline)) = some result := h
      cases hold : inspection.race with
      | none =>
          rw [hold] at hrace
          cases hrace
          exact .inr (.inl ⟨rfl, rfl⟩)
      | some other =>
          rw [hold] at hrace
          cases hrace
          rcases inv.race _ hold with settled | ⟨failed, -⟩ | failed
          · exact .inl settled
          · exact .inr (.inl ⟨failed, rfl⟩)
          · exact .inr (.inr failed)
    · intro outcome h
      rcases inv.outcome outcome h with settled | ⟨selected, cause, result, code, -, aborted⟩
      · exact .inl settled
      · exact .inr ⟨selected, cause, result, code, fun _ => rfl, aborted⟩
  · refine ⟨inv.work, inv.attempt, inv.unselected, inv.settled, ?_, inv.outcome⟩
    intro result h
    have hrace : inspection.race.or (some (.error .other)) = some result := h
    cases hold : inspection.race with
    | none =>
        rw [hold] at hrace
        cases hrace
        exact .inr (.inr rfl)
    | some other =>
        rw [hold] at hrace
        cases hrace
        exact inv.race _ hold

theorem inv_callerAbort (inv : InspectInv options inspection) :
    InspectInv options (onCallerAbort inspection) where
  work := inv.work
  attempt := inv.attempt
  unselected := inv.unselected
  settled := inv.settled
  race := inv.race
  outcome outcome h := by
    rcases inv.outcome outcome h with settled | ⟨selected, cause, result, code, timed, -⟩
    · exact .inl settled
    · exact .inr ⟨selected, cause, result, code, timed, fun _ => rfl⟩

theorem inv_turn (inv : InspectInv options inspection) {event : InspectEvent}
    (taken : turn options inspection event = some next) : InspectInv options next := by
  unfold turn at taken
  split at taken
  · rename_i resolving
    cases taken
    exact inv_resolved inv resolving ..
  · rename_i observing
    cases taken
    exact inv_observed inv observing ..
  · cases taken
    exact inv_callerAbort inv
  · cases taken
  · split at taken
    · cases taken
    · cases taken
      exact inv_deadline inv _
  · split at taken
    · rename_i race
      cases taken
      exact inv_settle inv race _
    · cases taken
  · cases taken

theorem inspectDestination_cause {raw : Text} {cause : TlsObservationCause}
    (h : inspectDestination api raw = .error cause) : cause.code ∈ INPUT_CAUSES := by
  unfold inspectDestination at h
  split at h
  · cases h
    decide
  · split at h
    · cases h
      simp [INPUT_CAUSES]
    · split at h
      · cases h
        decide
      · cases h

/-- An inspection that is over before its first await. -/
theorem inv_refused {call : InspectCall} (hcaller : call.callerAborted = true) :
    InspectInv options (start options call : Inspection api) := by
  have hstart : (start options call : Inspection api) =
      { newInspection call with
        outcome := some (outcomeOf api (newInspection call : Inspection api).attempt
          (.incomplete { code := .callerAborted }) call.observed) } := by
    rw [start, if_pos hcaller]
  rw [hstart]
  refine ⟨rfl, selected_none _, (fun _ h => by cases h), (fun _ h => by cases h),
    (fun _ h => by cases h), ?_⟩
  intro outcome h
  obtain ⟨result, -, hselected⟩ := outcomeOf_ok (Option.some.inj h)
  refine .inr ⟨?_, _, result, (fun h => by cases h), (fun h => by cases h), fun _ => hcaller⟩
  rw [hselected]
  exact selected_none _

/-- What `execute` leaves, once the timer has been asked for. -/
structure Started (options : TlsInspectionOptions) (inspection : Inspection api) : Prop where
  work : WorkInv options (inspection.log ++ [.sleep (resolvedTimeoutMs options)]) inspection.work
  attempt : inspection.attempt.selectedAddress = none
  settled : ∀ outcome, inspection.work = .settled (.ok outcome) →
    outcome.evidence.selectedAddress = none
  race : ∀ result, inspection.race = some result → inspection.work = .settled result
  outcome : inspection.outcome = none

theorem started_execute (call : InspectCall) : Started options
    (execute { (newInspection call : Inspection api) with listening := true } call.observed) := by
  unfold execute
  split
  · rename_i cause hcause
    have hsettled : ∀ outcome : TlsObservationOutcome,
        workResult (outcomeOf api (newInspection call : Inspection api).attempt (.incomplete cause)
          call.observed) = .ok outcome →
        outcome.result = .incomplete cause ∧ outcome.evidence.selectedAddress = none := by
      intro outcome h
      obtain ⟨result, -, hselected⟩ := outcomeOf_ok (workResult_ok h)
      exact ⟨result, hselected⟩
    refine ⟨?_, rfl, fun outcome h => (hsettled outcome (Work.settled.inj h)).2, ?_, rfl⟩
    · have quiet : Quiet ([] ++ [.sleep (resolvedTimeoutMs options)]) := quiet_singleton rfl
      cases hmade : workResult (outcomeOf api (newInspection call : Inspection api).attempt
          (.incomplete cause) call.observed) with
      | error fault =>
          have ended : Ended options api call.url ([] ++ [.sleep (resolvedTimeoutMs options)])
              (.error fault) := .early quiet (workResult_error hmade ▸ fun h => by cases h)
          exact hmade ▸ ended
      | ok outcome =>
          have ended : Ended options api call.url ([] ++ [.sleep (resolvedTimeoutMs options)])
              (.ok outcome) := .invalid quiet (inspectDestination_cause hcause) (hsettled _ hmade).1
          exact hmade ▸ ended
    · intro result h
      cases h
      rfl
  · refine ⟨?_, rfl, (fun _ h => by cases h), (fun _ h => by cases h), rfl⟩
    rfl

theorem inv_start (call : InspectCall) :
    InspectInv options (start options call : Inspection api) := by
  by_cases hcaller : call.callerAborted = true
  · exact inv_refused hcaller
  have started : Started options
      (execute { (newInspection call : Inspection api) with listening := true } call.observed) :=
    started_execute call
  have selected : ∀ {resolved}, ∀ selectedAddress, selectedAddress = none →
      Selected resolved selectedAddress := fun _ h => h ▸ selected_none _
  unfold start
  rw [if_neg hcaller]
  simp only []
  split
  · exact ⟨started.work, selected _ started.attempt, fun _ _ => started.attempt,
      fun outcome h => selected _ (started.settled outcome h),
      fun result h => .inl (started.race result h), fun _ h => by cases h⟩
  · exact ⟨started.work, selected _ started.attempt, fun _ _ => started.attempt,
      fun outcome h => selected _ (started.settled outcome h),
      fun result h => .inl (started.race result h),
      fun _ h => absurd (started.outcome.symm.trans h) (by simp)⟩

/-- Between its turns every inspection of an inspector keeps its invariant. -/
theorem inspector_rules : (inspector api options).RelyGuarantee (fun _ _ => True) (fun _ => True)
    (fun _ inspection => InspectInv options inspection) where
  stable _ _ _ _ inv := inv
  start _ call _ := ⟨trivial, trivial, inv_start call⟩
  turn _ inspection event next _ inv taken := by
    obtain ⟨after, hafter, rfl⟩ := Option.map_eq_some_iff.mp taken
    exact ⟨trivial, trivial, inv_turn inv hafter⟩

end

/-! ### The contract -/

/-- What is true of an inspection in every state of its inspector. -/
structure SafeInspection (options : TlsInspectionOptions) {api : TlsApi}
    (inspection : Inspection api) : Prop where
  /-- a handshake is asked for once, at the first of answers that were all allowed -/
  gated : ∀ before request after, inspection.log = before ++ .observe request :: after →
    ∃ (destination : TlsDestination api inspection.url) (pin : PinnedDestination),
      .resolved pin.addresses ∈ before ∧ request = observeRequest api destination pin ∧
        Quiet before ∧ Quiet after
  observed : ∀ outcome normalized, inspection.outcome = some (.ok outcome) →
    outcome.result = .observed normalized →
      ∃ (destination : TlsDestination api inspection.url) (pin : PinnedDestination) (observation : _),
        .observe (observeRequest api destination pin) ∈ inspection.log ∧
        .observed observation ∈ inspection.log ∧
        observation.remotePort = .ofNat destination.port ∧
        (∃ bits, readAddress pin.selected.address = some bits ∧
          readAddress observation.remoteAddress = some bits) ∧
        ∃ observedMs leafDer leaf, NormalizedFrom api observation destination.hostname observedMs
          options normalized leafDer leaf
  blocked : ∀ outcome cause, inspection.outcome = some (.ok outcome) →
    outcome.result = .blocked cause → cause.code = .prohibitedAddress ∧ Quiet inspection.log ∧
      ∃ answers answer, .resolved answers ∈ inspection.log ∧ answer ∈ answers ∧ ¬ Allowed answer
  incomplete : ∀ outcome cause, inspection.outcome = some (.ok outcome) →
    outcome.result = .incomplete cause → cause.code ≠ .prohibitedAddress ∧
      (cause.code = .timeout → inspection.timedOut = true) ∧
      (cause.code = .callerAborted → inspection.callerAborted = true)
  evidence : ∀ outcome, inspection.outcome = some (.ok outcome) →
    Selected outcome.evidence.resolvedAddresses outcome.evidence.selectedAddress
  /-- and not once the inspection was aborted -/
  live : ∀ event next request, turn options inspection event = some next →
    .observe request ∈ next.log → .observe request ∉ inspection.log → inspection.aborted = false

section
variable {api : TlsApi} {options : TlsInspectionOptions} {inspection next : Inspection api}

/-- A log without a handshake request, or with one and nothing like it around it. -/
def Gated (options : TlsInspectionOptions) (api : TlsApi) (raw : Text) (log : List TlsPortEvent) :
    Prop :=
  Quiet log ∨ ∃ (destination : TlsDestination api raw) (pin : PinnedDestination) (events : _),
    log = observeLog options destination pin ++ events ∧ Quiet events

theorem WorkInv.gated {raw : Text} {log : List TlsPortEvent} {work : Work api raw}
    (inv : WorkInv options log work) : Gated options api raw log := by
  cases work with
  | unstarted =>
      have empty : log = [] := inv
      exact .inl (by simp [empty, Quiet])
  | resolving destination =>
      have started : log = startLog options destination := inv
      exact .inl (started ▸ startLog_quiet options destination)
  | observing destination pin =>
      have asked : log = observeLog options destination pin := inv
      exact .inr ⟨destination, pin, [], by rw [asked, List.append_nil], by simp [Quiet]⟩
  | settled result =>
      have ended : Ended options api raw log result := inv
      cases ended with
      | invalid quiet _ _ => exact .inl quiet
      | refused _ quiet _ _ _ _ => exact .inl quiet
      | observed destination pin _ _ _ =>
          exact .inr ⟨destination, pin, _, rfl, quiet_singleton rfl⟩
      | early quiet _ => exact .inl quiet
      | late destination pin quiet _ => exact .inr ⟨destination, pin, _, rfl, quiet⟩

theorem Gated.request {raw : Text} {log before after : List TlsPortEvent}
    {request : TlsObserveConnectRequest} (gated : Gated options api raw log)
    (log_eq : log = before ++ .observe request :: after) :
    ∃ (destination : TlsDestination api raw) (pin : PinnedDestination),
      .resolved pin.addresses ∈ before ∧ request = observeRequest api destination pin ∧
        Quiet before ∧ Quiet after := by
  rcases gated with quiet | ⟨destination, pin, events, shape, quiet⟩
  · have absent := quiet (.observe request) (by rw [log_eq]; simp)
    cases absent
  · have split : (startLog options destination ++ [.resolved pin.addresses])
        ++ .observe (observeRequest api destination pin) :: events
        = before ++ .observe request :: after := by
      rw [← log_eq, shape, observeLog]
      simp
    have pre : Quiet (startLog options destination ++ [.resolved pin.addresses]) :=
      (startLog_quiet options destination).append (quiet_singleton rfl)
    obtain ⟨rfl, same⟩ := split_unique (p := isObserve) split rfl pre quiet
    rw [same] at split
    have tail := List.append_cancel_left split
    refine ⟨destination, pin, by simp, TlsPortEvent.observe.inj same, pre, ?_⟩
    rw [← (List.cons.inj tail).2]
    exact quiet

theorem observe_live {event : InspectEvent} {request : TlsObserveConnectRequest}
    (taken : turn options inspection event = some next)
    (asked : .observe request ∈ next.log) (fresh : .observe request ∉ inspection.log) :
    inspection.aborted = false := by
  unfold turn at taken
  split at taken
  · cases taken
    by_contra aborted
    rw [Bool.not_eq_false] at aborted
    unfold onResolved at asked
    split at asked
    · exact fresh asked
    · simp only [aborted, if_true] at asked
      rcases List.mem_append.mp asked with old | new
      · exact fresh old
      · cases List.mem_singleton.mp new
  · rename_i answer _ _ _
    cases taken
    have same : .observe request ∈ inspection.log := by
      unfold onObserved at asked
      split at asked
      · exact asked
      · exact asked
      · simp only [] at asked
        split at asked
        · exact (List.mem_append.mp asked).resolve_right (by simp)
        · split at asked
          · exact (List.mem_append.mp asked).resolve_right (by simp)
          · exact (List.mem_append.mp asked).resolve_right (by simp)
    exact absurd same fresh
  · cases taken
    exact absurd asked fresh
  · cases taken
  · split at taken
    · cases taken
    · cases taken
      unfold onDeadline at asked
      split at asked <;> exact absurd asked fresh
  · split at taken
    · cases taken
      exact absurd asked fresh
    · cases taken
  · cases taken

end

def siteHref : Text := text "https://a.test/"

def siteCertificate : X509Certificate where
  subject := text "CN=a.test"
  issuer := text "CN=Test CA"
  serialNumber := text "01"
  subjectAltName := some (text "DNS:a.test")
  validFrom := some 0
  validTo := some 1000
  checkHost name := name == text "a.test"

/-- A platform that reads one URL and one certificate. -/
def siteApi : TlsApi where
  urls :=
    { parse := fun raw => if raw = siteHref then
        some ⟨text "https:", [], [], text "a.test", [], text "/", [], []⟩ else none
      resolve := fun _ _ => none
      href := fun _ => siteHref }
  platform := .ascii
  iso := fun _ => text "2026-01-01T00:00:00.000Z"
  parseX509 := fun _ => some siteCertificate

def siteCall : InspectCall := ⟨siteHref, false, .date 0, false⟩

/-- An empty certificate body. -/
def siteDer : Bytes := [0x30, 0x02, 0x30, 0x00]

def siteObservation : TlsHandshakeObservation where
  serverName := text "a.test"
  remoteAddress := text "93.184.216.34"
  remotePort := .ofNat 443
  certificateChain := [siteDer]
  chainTrusted := true
  trustErrorCode := none
  protocolVersion := some (text "TLSv1.3")

/-- A name that resolves, and a handshake at the pinned address. -/
def siteEvents : List InspectEvent :=
  [.resolved (.ok [⟨text "93.184.216.34", .ofNat 4, .ofNat 60⟩]) (.date 1),
   .observed (.ok siteObservation) (.date 2) (.date 3), .settle (.date 4)]

/-- The inspection of the site, once it has reported. -/
def siteInspected : Option (Unit × Inspection siteApi) :=
  (inspector siteApi {}).turns ((), start {} siteCall) siteEvents

def observedSite (last : Unit × Inspection siteApi) : Bool :=
  match last.2.outcome with
  | some (.ok outcome) =>
      match outcome.result with
      | .observed normalized => normalized.validation.defects == []
      | _ => false
  | _ => false

theorem siteInspected_observed : (siteInspected.any observedSite) = true := by
  decide +kernel

end TlsInspect

end Linklint
