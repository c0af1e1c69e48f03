import Linklint.Transport.FetchTurns

/-!
# The invariant of a session

Fetches rely on the counters going up only and on their staying within the budgets,
and every turn of every fetch guarantees both.
-/

namespace Linklint

namespace SafeSession

open Interleaving

section
variable {api : TransportApi} {policy : TransportPolicy} {zlib : Zlib} {startedAtMs : Option Int}

theorem turn_turned {counters : Counters} {fetch : Fetch api policy} {event : FetchEvent}
    {next : Counters × Fetch api policy} (within : Within policy counters)
    (inv : WorkInv zlib counters fetch.log fetch.work)
    (taken : turn zlib startedAtMs counters fetch event = some next) :
    Turned zlib counters fetch next := by
  have up := Counters.Le.refl counters
  unfold turn at taken
  split at taken
  · rename_i at_
    have live : Live fetch.work := by
      rw [at_]
      trivial
    rw [at_] at inv
    cases taken
    exact .work live (onResolved_works fetch _ _ _ inv) up within
  · rename_i at_
    have live : Live fetch.work := by
      rw [at_]
      trivial
    rw [at_] at inv
    cases taken
    exact .work live (onConnected_works fetch _ _ _ inv) up within
  · rename_i at_
    have live : Live fetch.work := by
      rw [at_]
      trivial
    rw [at_] at inv
    cases taken
    exact .work live (onResponded_works fetch _ _ _ _ inv) up within
  · rename_i at_
    have live : Live fetch.work := by
      rw [at_]
      trivial
    rw [at_] at inv
    obtain ⟨events, log, reading⟩ := inv
    cases taken
    obtain ⟨up, within⟩ := onRead_counters fetch _ _ _ _ _ within
    exact .work live (onRead_works fetch _ _ _ _ _ log reading) up within
  · rename_i at_
    have live : Live fetch.work := by
      rw [at_]
      trivial
    rw [at_] at inv
    obtain ⟨events, log, reading⟩ := inv
    cases taken
    exact .work live (onWindowClosed_works fetch _ _ _ _ _ log reading) up within
  · rename_i at_
    have live : Live fetch.work := by
      rw [at_]
      trivial
    rw [at_] at inv
    obtain ⟨events, log, only, joined, charged⟩ := inv
    cases taken
    obtain ⟨up, bounded⟩ := onReceived_counters startedAtMs fetch _ _ _ _ _ within
    exact .work live (onReceived_works startedAtMs fetch _ _ _ _ _ within log only joined charged) up
      bounded
  · rename_i at_
    have live : Live fetch.work := by
      rw [at_]
      trivial
    rw [at_] at inv
    cases taken
    exact .work live (Works.settle (.refl _) rfl inv.1 inv.2) up within
  · cases taken
    exact .callerAbort
  · cases taken
  · cases taken
    exact .callerAbort
  · rename_i unstarted
    split at taken
    · cases taken
    · cases taken
      exact .deadline _ unstarted
  · split at taken
    · rename_i open_ race
      cases taken
      exact .settle _ open_ race
    · cases taken
  · cases taken

/-! ### One fetch -/

/-- The code of a failure an outcome reports. -/
def failureCode (outcome : SafeFetchOutcome) : Option TransportCauseCode :=
  match outcome.result with
  | .incomplete cause => some cause.code
  | _ => none

/-- The causes only the reading of a body raises. -/
def IsBodyBudget (code : TransportCauseCode) : Prop :=
  code = .responseTooLarge ∨ code = .responseTooSlow

structure FetchInv (zlib : Zlib) (counters : Counters) (fetch : Fetch api policy) : Prop where
  admitted : fetch.work ≠ .unstarted →
    Authorized fetch.request ∧ fetch.attempt.hop ≤ policy.maxHops
  work : WorkInv zlib counters fetch.log fetch.work
  race : ∀ result, fetch.race = some result →
    result = .error .deadline ∨ result = .error .other ∨ fetch.work = .settled result
  success : ∀ outcome response, fetch.outcome = some (.ok outcome) →
    outcome.result = .success response → fetch.work = .settled (.ok outcome)
  failure : ∀ outcome code, fetch.outcome = some (.ok outcome) →
    failureCode outcome = some code → IsBodyBudget code →
      fetch.work = .settled (.error (.budget code))

theorem WorkInv.up {counters counters' : Counters} {request : SafeFetchRequest}
    {log : List PortEvent} {work : Work api policy request} (up : Counters.Le counters counters')
    (inv : WorkInv zlib counters log work) : WorkInv zlib counters' log work := by
  cases work with
  | reading exchange accepted body =>
      obtain ⟨events, log_eq, reading⟩ := inv
      exact ⟨events, log_eq, { reading with charged := reading.charged.trans up.encodedBytes }⟩
  | received exchange accepted encoded =>
      obtain ⟨events, log_eq, only, joined, charged⟩ := inv
      exact ⟨events, log_eq, only, joined, charged.trans up.encodedBytes⟩
  | _ => exact inv

theorem FetchInv.up {counters counters' : Counters} {fetch : Fetch api policy}
    (up : Counters.Le counters counters') (inv : FetchInv zlib counters fetch) :
    FetchInv zlib counters' fetch :=
  { inv with work := inv.work.up up }

/-- No port and no phase of the work names a body budget. -/
theorem operationCause_not_bodyBudget (phase : OperationPhase) (original : OriginalError) :
    ¬IsBodyBudget (operationCause phase original) := by
  unfold operationCause errorCode phaseCause IsBodyBudget
  cases original with
  | coded code =>
      by_cases stable : code ∈ STABLE_OPERATION_CODES
      · simp only [if_pos stable, Option.getD_some]
        rintro (rfl | rfl) <;> exact absurd stable (by decide)
      · simp only [if_neg stable, Option.getD_none]
        cases phase <;> simp
  | uncoded => cases phase <;> simp
  | unsupportedContentEncoding => cases phase <;> simp

/-- A body budget is reported only for a work that raised it. -/
theorem failureCause_bodyBudget {fetch : Fetch api policy} {error : TransportError}
    (h : IsBodyBudget (failureCause fetch error).code) :
    error = .budget (failureCause fetch error).code := by
  unfold failureCause at h ⊢
  split
  · rename_i late
    simp [late, IsBodyBudget] at h
  · rename_i early
    split
    · rename_i aborted
      simp [early, aborted, IsBodyBudget] at h
    · rename_i live
      rw [if_neg early, if_neg live] at h
      cases error with
      | budget code => rfl
      | operation phase original => exact absurd h (operationCause_not_bodyBudget phase original)
      | deadline => simp [IsBodyBudget] at h
      | other => simp [IsBodyBudget] at h

theorem FetchInv.work_turn {counters : Counters} {fetch : Fetch api policy}
    {next : Counters × Fetch api policy} (inv : FetchInv zlib counters fetch)
    (live : Live fetch.work) (works : Works zlib next.1 fetch next.2) :
    FetchInv zlib next.1 next.2 where
  admitted := by
    intro _
    rw [works.turn.request, works.turn.hop]
    exact inv.admitted live.started
  work := works.kept
  race := by
    have before : ∀ result, fetch.race = some result →
        result = .error .deadline ∨ result = .error .other := by
      intro result raced
      rcases inv.race result raced with h | h | h
      · exact .inl h
      · exact .inr h
      · exact absurd h (live.not_settled result)
    intro result raced
    rcases works.turn.race with same | ⟨ended, settled, raced'⟩
    · rw [same] at raced
      rcases before result raced with h | h
      · exact .inl h
      · exact .inr (.inl h)
    · rw [raced'] at raced
      cases first : fetch.race with
      | none =>
          rw [first] at raced
          cases raced
          exact .inr (.inr settled)
      | some earlier =>
          rw [first] at raced
          cases raced
          rcases before _ first with h | h
          · exact .inl h
          · exact .inr (.inl h)
  success := by
    intro outcome response reported isSuccess
    rw [works.turn.outcome] at reported
    exact absurd (inv.success outcome response reported isSuccess) (live.not_settled _)
  failure := by
    intro outcome code reported failed isBudget
    rw [works.turn.outcome] at reported
    exact absurd (inv.failure outcome code reported failed isBudget) (live.not_settled _)

theorem FetchInv.deadline_turn {counters : Counters} {fetch : Fetch api policy}
    (inv : FetchInv zlib counters fetch) (fired : Bool) :
    FetchInv zlib counters (onDeadline fetch fired) := by
  have race : ∀ error result, fetch.race.or (some (.error error)) = some result →
      result = .error error ∨ result = .error .deadline ∨ result = .error .other
        ∨ fetch.work = .settled result := by
    intro error result raced
    cases first : fetch.race with
    | none =>
        rw [first] at raced
        cases raced
        exact .inl rfl
    | some earlier =>
        rw [first] at raced
        cases raced
        exact .inr (inv.race _ first)
  cases fired with
  | true => exact ⟨inv.admitted, inv.work, by simpa [onDeadline] using race .deadline,
      inv.success, inv.failure⟩
  | false =>
      refine ⟨inv.admitted, inv.work, fun result raced => ?_, inv.success, inv.failure⟩
      rcases race .other result raced with h | h
      · exact .inr (.inl h)
      · exact h

theorem FetchInv.settle_turn {counters : Counters} {fetch : Fetch api policy}
    (inv : FetchInv zlib counters fetch) {result : WorkResult} (observed : ClockReading)
    (race : fetch.race = some result) :
    FetchInv zlib counters (onSettle fetch result observed) := by
  cases result with
  | ok own =>
      have ended : fetch.work = .settled (.ok own) := by
        rcases inv.race _ race with h | h | h
        · cases h
        · cases h
        · exact h
      refine ⟨inv.admitted, inv.work, inv.race, ?_, ?_⟩
      · intro outcome response reported _
        cases reported
        exact ended
      · intro outcome code reported failed _
        cases reported
        have honest := inv.work
        rw [ended] at honest
        unfold failureCode at failed
        split at failed
        · rename_i cause incomplete
          exact absurd incomplete (honest.2.complete own cause rfl)
        · cases failed
  | error error =>
      refine ⟨inv.admitted, inv.work, inv.race, ?_, ?_⟩
      · intro outcome response reported isSuccess
        unfold onSettle SafeSession.outcome at reported
        cases observed <;> cases reported
        cases isSuccess
      · intro outcome code reported failed isBudget
        unfold onSettle SafeSession.outcome at reported
        cases observed <;> cases reported
        cases failed
        have raised := failureCause_bodyBudget isBudget
        rcases inv.race _ race with h | h | h
        · rw [raised] at h
          cases h
        · rw [raised] at h
          cases h
        · rw [raised] at h
          exact h

/-- A turn of a fetch keeps its invariant and the session's. -/
theorem FetchInv.turn {counters : Counters} {fetch : Fetch api policy} {event : FetchEvent}
    {next : Counters × Fetch api policy} (within : Within policy counters)
    (inv : FetchInv zlib counters fetch)
    (taken : turn zlib startedAtMs counters fetch event = some next) :
    Counters.Le counters next.1 ∧ Within policy next.1 ∧ FetchInv zlib next.1 next.2 := by
  cases turn_turned within inv.work taken with
  | work live works up within' => exact ⟨up, within', inv.work_turn live works⟩
  | callerAbort => exact ⟨.refl _, within, ⟨inv.admitted, inv.work, inv.race, inv.success, inv.failure⟩⟩
  | deadline fired _ => exact ⟨.refl _, within, inv.deadline_turn fired⟩
  | settle observed _ race => exact ⟨.refl _, within, inv.settle_turn observed race⟩

/-! ### The session -/

/-- A fetch that ends before its first await, with no success and no body budget. -/
theorem newFetch_inv (counters : Counters) (call : FetchCall)
    {outcome : Option (Except Thrown SafeFetchOutcome)}
    (early : ∀ reported, outcome = some (.ok reported) →
      (∀ response, reported.result ≠ .success response)
        ∧ ∀ code, failureCode reported = some code → ¬IsBodyBudget code) :
    @FetchInv api policy zlib counters
      { newFetch counters call with outcome } where
  admitted := fun h => absurd rfl h
  work := rfl
  race := fun result raced => absurd raced.symm (Option.some_ne_none result)
  success := fun reported response h isSuccess => absurd isSuccess ((early reported h).1 response)
  failure := fun reported code h failed isBudget =>
    absurd isBudget ((early reported h).2 code failed)

theorem refuse_inv (counters : Counters) (call : FetchCall) {result : FetchResult}
    {observed : ClockReading} (unsuccessful : ∀ response, result ≠ .success response)
    (unread : ∀ cause, result = .incomplete cause → ¬IsBodyBudget cause.code) :
    @FetchInv api policy zlib counters
      (refuse (newFetch counters call) result observed) := by
  refine newFetch_inv counters call fun reported h => ?_
  unfold SafeSession.outcome at h
  cases observed <;> cases h
  refine ⟨unsuccessful, fun code failed => ?_⟩
  cases result with
  | success response => cases failed
  | blocked cause => cases failed
  | incomplete cause =>
      cases failed
      exact unread cause rfl

theorem execute_inv {counters : Counters} {fetch : Fetch api policy} (observed : ClockReading)
    (authorized : Authorized fetch.request) (hop : fetch.attempt.hop ≤ policy.maxHops)
    (log : fetch.log = []) (race : fetch.race = none) (open_ : fetch.outcome = none) :
    FetchInv zlib counters (execute fetch observed) := by
  unfold execute
  split
  · refine ⟨fun _ => ⟨authorized, hop⟩, ⟨.inl ?_, .blocked⟩, fun result raced => ?_, ?_, ?_⟩
    · show Unconnected fetch.log
      rw [log]
      exact ⟨nofun, rfl, rfl⟩
    · simp only [Fetch.settleWork, race, Option.none_or, Option.some.injEq] at raced
      rw [← raced]
      exact .inr (.inr rfl)
    · intro outcome response reported
      exact absurd (open_.symm.trans reported).symm (Option.some_ne_none _)
    · intro outcome code reported
      exact absurd (open_.symm.trans reported).symm (Option.some_ne_none _)
  · rename_i destination _
    refine ⟨fun _ => ⟨authorized, hop⟩, ?_, fun result raced => ?_, ?_, ?_⟩
    · show _ = resolveLog destination
      unfold resolveLog
      cases literal : literalAddresses destination.hostname <;> simp [log]
    · exact absurd (race.symm.trans raced).symm (Option.some_ne_none _)
    · intro outcome response reported
      exact absurd (open_.symm.trans reported).symm (Option.some_ne_none _)
    · intro outcome code reported
      exact absurd (open_.symm.trans reported).symm (Option.some_ne_none _)

/-- A fetch that throws reports nothing. -/
theorem FetchInv.thrown {counters : Counters} {fetch : Fetch api policy}
    (inv : FetchInv zlib counters fetch) :
    FetchInv zlib counters { fetch with outcome := some (.error .thrown) } :=
  ⟨inv.admitted, inv.work, inv.race, fun _ _ reported => (nomatch reported),
    fun _ _ reported => (nomatch reported)⟩

theorem start_inv {counters : Counters} (within : Within policy counters) (call : FetchCall) :
    Counters.Le counters (start startedAtMs counters call : Counters × Fetch api policy).1 ∧
      Within policy (start startedAtMs counters call : Counters × Fetch api policy).1 ∧
      FetchInv zlib (start startedAtMs counters call : Counters × Fetch api policy).1
        (start startedAtMs counters call : Counters × Fetch api policy).2 := by
  unfold start
  dsimp only
  split
  · exact ⟨.refl _, within, refuse_inv counters call (fun _ => nofun) (fun _ => nofun)⟩
  · rename_i named
    split
    · refine ⟨.refl _, within, refuse_inv counters call nofun ?_⟩
      rintro _ ⟨⟩
      simp [IsBodyBudget]
    · rename_i hopFits
      split
      · refine ⟨.refl _, within, refuse_inv counters call nofun ?_⟩
        rintro _ ⟨⟩
        simp [IsBodyBudget]
      · split
        · exact ⟨.refl _, within, newFetch_inv counters call fun _ h => (nomatch h)⟩
        · split
          · refine ⟨.refl _, within, refuse_inv counters call nofun ?_⟩
            rintro _ ⟨⟩
            simp [IsBodyBudget]
          · have began : @FetchInv api policy zlib
                { counters with hops := counters.hops + 1 }
                (execute { newFetch counters call with listening := true } call.observed) :=
              execute_inv call.observed (not_not.mp named) (Nat.not_lt.mp hopFits) rfl rfl rfl
            refine ⟨⟨Nat.le_succ _, le_rfl, le_rfl⟩,
              ⟨Nat.not_lt.mp hopFits, within.encodedBytes, within.decompressedBytes⟩, ?_⟩
            split
            · exact began.thrown
            · exact began

/-- What every fetch of a session relies on and guarantees. -/
theorem session_rules :
    (session api policy zlib startedAtMs).RelyGuarantee Counters.Le (Within policy)
      (FetchInv zlib) where
  stable := fun _ _ _ up inv => inv.up up
  start := fun _ call within => start_inv within call
  turn := fun _ _ _ _ within inv taken => inv.turn within taken

theorem created_holds :
    Machine.Holds (Within policy) (@FetchInv api policy zlib)
      (created api policy) :=
  ⟨⟨Nat.zero_le _, Nat.zero_le _, Nat.zero_le _⟩, fun _ h => absurd h List.not_mem_nil⟩

/-- The invariant holds in every state a session comes to. -/
theorem session_holds {state : State Counters (Fetch api policy)}
    (run : (session api policy zlib startedAtMs).Run (created api policy) state) :
    Machine.Holds (Within policy) (FetchInv zlib) state :=
  Machine.Run.holds session_rules run created_holds

end

end SafeSession

end Linklint
