import Linklint.Enrichment.Causes
import Linklint.Enrichment.Protocol
import Mathlib.Data.Rat.Floor
import Mathlib.Algebra.Order.Floor.Ring
import Mathlib.Tactic.Linarith

/-!
# Deadlines

The race of a bounded call against its timer, on the timers of the runtime: a
delay past 32 bits fires after one millisecond, and a fraction is dropped. A call
that settles before the timeout its source asks for is reported as such exactly
when the timer cannot be earlier than that timeout.
-/

namespace Linklint

open Interaction

/-- What the event loop delivers while a call is awaited. -/
inductive LoopEvent where
  | settled (answer : Called)
  | timer
  | callerAbort

/-- The deliveries in their order, in milliseconds from the start of the call. -/
abbrev Schedule := List (Rat × LoopEvent)

def TIMEOUT_MAX : Rat := 2147483647

/-- The delay `setTimeout` uses: 1 when it is out of range, whole otherwise. -/
def timerDelay (delay : Rat) : Rat := if TIMEOUT_MAX < delay ∨ delay < 1 then 1 else ⌊delay⌋

/-- `timeoutMs !== undefined && Number.isFinite(timeoutMs) && timeoutMs > 0` -/
def hasTimeout (timeoutMs : Option Rat) : Bool := timeoutMs.any fun ms => decide (0 < ms)

/-- What a bounded call listens to. -/
def hears (hasSignal : Bool) (timeoutMs : Option Rat) : LoopEvent → Bool
  | .settled _ => true
  | .timer => hasTimeout timeoutMs
  | .callerAbort => hasSignal

def LoopEvent.outcome : LoopEvent → Bounded
  | .settled (.value v) => .value v
  | .settled .threw => .threw
  | .timer => .timedOut
  | .callerAbort => .timedOut

/-- `Promise.race([operation, timeoutRace])`; `none` is a race that never settles. -/
def raceBounded (hasSignal : Bool) (timeoutMs : Option Rat) (schedule : Schedule) : Option Bounded :=
  (schedule.find? fun entry => hears hasSignal timeoutMs entry.2).map fun entry => entry.2.outcome

def runWithTimeout (hasSignal : Bool) (timeoutMs : Option Rat) (schedule : Schedule) :
    Option Bounded :=
  raceBounded hasSignal timeoutMs schedule

def runBoundedOperation (signalAborted hasSignal : Bool) (timeoutMs : Option Rat)
    (schedule : Schedule) : Option Bounded :=
  if signalAborted then some .timedOut else raceBounded hasSignal timeoutMs schedule

/-- A schedule of the runtime: in the order of time, with no timer ahead of its delay. -/
structure NodeSchedule (timeoutMs : Option Rat) (schedule : Schedule) : Prop where
  ordered : schedule.Pairwise fun a b => a.1 ≤ b.1
  timers : ∀ instant, (instant, LoopEvent.timer) ∈ schedule →
    ∃ ms, timeoutMs = some ms ∧ timerDelay ms ≤ instant
  unaborted : ∀ instant, (instant, LoopEvent.callerAbort) ∉ schedule

def SettlesBefore (ms : Rat) (schedule : Schedule) : Prop :=
  ∃ instant answer, (instant, LoopEvent.settled answer) ∈ schedule ∧ instant < ms

/-- A call of a run and what the event loop delivered while it was awaited. -/
structure TimedEvent where
  event : RunnerEvent
  schedule : Schedule := []

/-- The answer is the one of the race, and the caller's signal never fires. -/
def TimedEvent.Delivered (hasSignal : Bool) (call : TimedEvent) : Prop :=
  match call.event with
  | ⟨.aborted, answer⟩ => answer ≠ some true
  | ⟨.enrich _ ms, answer⟩ => NodeSchedule ms call.schedule ∧
      answer = runWithTimeout hasSignal ms call.schedule
  | ⟨.cacheGet _ ms, answer⟩ => NodeSchedule ms call.schedule ∧
      answer = runBoundedOperation false hasSignal ms call.schedule
  | ⟨.cacheSet _ _ _ ms, answer⟩ => NodeSchedule ms call.schedule ∧
      answer = runBoundedOperation false hasSignal ms call.schedule
  | _ => True

/-- The report has an outcome of the runner's own that says the call timed out. -/
def ReportsTimeout (run : EnricherRun) (call : BoundedCall) : Prop :=
  ∃ outcome cause, some outcome ∈ run.report.outcomes ∧ outcome.provenance.kind = .unavailable ∧
    outcome.cause = some cause ∧ cause.code = call.code.name ∧ cause.details = call.details

/-- A call that settles before the timeout of its source is never reported to have timed out. -/
def TimeoutFidelity (timeoutMs : Rat) : Prop :=
  ∀ (input : RunnerInput) (hasSignal : Bool) (calls : List TimedEvent) (run : EnricherRun)
    (call : BoundedCall), input.enricher.timeoutMs = .num (.fin timeoutMs) →
    (∀ timed ∈ calls, timed.Delivered hasSignal) →
    Runs (runEnricher input) (calls.map (·.event)) (some (.ok run)) →
    (∀ timed ∈ calls, BoundedCall.of timed.event.op = some call →
      SettlesBefore timeoutMs timed.schedule) →
    ¬ ReportsTimeout run call

/-! ### Timers -/

theorem effectiveTimeoutMs_of_positive {ms : Rat} (h : 0 < ms) (governorTimeoutMs : Value) :
    effectiveTimeoutMs (.num (.fin ms)) governorTimeoutMs = some ms := by
  simp [effectiveTimeoutMs, positiveFinite, Value.isNull, h]

/-- The timer of a timeout is not early exactly when the timeout is short, or whole and in range. -/
theorem le_timerDelay_iff (ms : Rat) :
    ms ≤ timerDelay ms ↔ ms ≤ 1 ∨ (ms ≤ TIMEOUT_MAX ∧ (⌊ms⌋ : Rat) = ms) := by
  have hmax : (1 : Rat) ≤ TIMEOUT_MAX := by norm_num [TIMEOUT_MAX]
  by_cases hrange : TIMEOUT_MAX < ms ∨ ms < 1
  · rw [timerDelay, if_pos hrange]
    constructor
    · intro h
      exact Or.inl h
    · rintro (h | ⟨h, -⟩)
      · exact h
      · rcases hrange with hlong | hshort
        · linarith
        · linarith
  · rw [timerDelay, if_neg hrange]
    rw [not_or, not_lt, not_lt] at hrange
    have hfloor := Int.floor_le ms
    constructor
    · intro h
      exact Or.inr ⟨hrange.1, le_antisymm hfloor h⟩
    · rintro (h | ⟨-, h⟩)
      · have hone : ms = 1 := le_antisymm h hrange.2
        simp [hone]
      · exact h.ge

/-- A call that settles before a timer that is not early wins its race. -/
theorem race_of_settles {hasSignal : Bool} {ms : Rat} {schedule : Schedule}
    (hnode : NodeSchedule (some ms) schedule) (htimer : ms ≤ timerDelay ms)
    (hsettles : SettlesBefore ms schedule) :
    raceBounded hasSignal (some ms) schedule ≠ some .timedOut := by
  obtain ⟨instant, answer, hsettled, hbefore⟩ := hsettles
  intro hrace
  obtain ⟨⟨first, event⟩, hfirst, houtcome⟩ := Option.map_eq_some_iff.mp hrace
  obtain ⟨-, earlier, later, rfl, hearlier⟩ := List.find?_eq_some_iff_append.mp hfirst
  -- the settled call is heard, so it does not come before the first that is
  have hlater : (instant, LoopEvent.settled answer) ∈ (first, event) :: later := by
    rcases List.mem_append.mp hsettled with hmem | hmem
    · have hunheard := hearlier _ hmem
      simp [hears] at hunheard
    · exact hmem
  cases event with
  | settled answer' =>
      cases answer' with
      | value v => cases houtcome
      | threw => cases houtcome
  | callerAbort => exact hnode.unaborted first (List.mem_append_right _ List.mem_cons_self)
  | timer =>
      obtain ⟨ms', hms, hdelay⟩ := hnode.timers first (List.mem_append_right _ List.mem_cons_self)
      cases hms
      rcases List.mem_cons.mp hlater with hsame | hmem
      · cases hsame
      · have hordered := (List.pairwise_append.mp hnode.ordered).2.1
        have hle := (List.pairwise_cons.mp hordered).1 _ hmem
        simp only at hle
        linarith

/-- A call that timed out in a delivered run was raced, and lost. -/
theorem TimedEvent.Delivered.raced {hasSignal : Bool} {timed : TimedEvent} {call : BoundedCall}
    {ms : Rat} (h : timed.Delivered hasSignal) (hpositive : 0 < ms)
    (hbound : BoundInEffect (.num (.fin ms)) timed.event)
    (hcall : timedOutCall timed.event = some call) :
    BoundedCall.of timed.event.op = some call ∧ NodeSchedule (some ms) timed.schedule ∧
      raceBounded hasSignal (some ms) timed.schedule = some .timedOut := by
  obtain ⟨⟨op, answer⟩, schedule⟩ := timed
  have heffective := effectiveTimeoutMs_of_positive hpositive
  cases op with
  | enrich previousOutcomes timeoutMs =>
      obtain ⟨governorTimeoutMs, hbound⟩ := hbound
      obtain rfl : timeoutMs = some ms := hbound.trans (heffective _)
      obtain ⟨hnode, hanswer⟩ := h
      rcases answer with _ | v | _ | _
      · cases hcall
      · cases hcall
      · cases hcall
      · cases hcall
        exact ⟨rfl, hnode, hanswer.symm⟩
  | cacheGet key timeoutMs =>
      obtain rfl : timeoutMs = some ms := Eq.trans hbound (heffective _)
      obtain ⟨hnode, hanswer⟩ := h
      rcases answer with _ | v | _ | _
      · cases hcall
      · cases hcall
      · cases hcall
      · cases hcall
        exact ⟨rfl, hnode, hanswer.symm⟩
  | cacheSet key report ttlMs timeoutMs =>
      obtain rfl : timeoutMs = some ms := Eq.trans hbound (heffective _)
      obtain ⟨hnode, hanswer⟩ := h
      rcases answer with _ | v | _ | _
      · cases hcall
      · cases hcall
      · cases hcall
      · cases hcall
        exact ⟨rfl, hnode, hanswer.symm⟩
  | _ => cases hcall

theorem code_of_name {code : EnrichmentFrameworkCauseCode} {call : BoundedCall}
    (h : code.name = call.code.name) : code = call.code := by
  cases call <;> cases code <;> first | rfl | exact absurd h (by decide)

/-- A timer that is not early keeps every report from blaming a call that settled in time. -/
theorem timeoutFidelity_of_timer {ms : Rat} (hpositive : 0 < ms) (htimer : ms ≤ timerDelay ms) :
    TimeoutFidelity ms := by
  rintro input hasSignal calls run call hms hdelivered hrun hsettles
    ⟨outcome, cause, hmem, hkind, hcause, hcode, hdetails⟩
  obtain ⟨hbounds, haccounted⟩ := accounted_of_run hrun
  obtain ⟨degradation, observedAt, hexplained, rfl⟩ := haccounted _ rfl run rfl outcome hmem hkind
  cases hcause
  have hblames : degradation.Blames call := ⟨code_of_name hcode, hdetails⟩
  rcases hexplained call hblames with ⟨e, he, hcall⟩ | hfired
  · obtain ⟨timed, htimed, rfl⟩ := List.mem_map.mp he
    have hbound := hbounds timed.event he
    rw [hms] at hbound
    obtain ⟨hof, hnode, hrace⟩ := (hdelivered timed htimed).raced hpositive hbound hcall
    exact race_of_settles hnode htimer (hsettles timed htimed hof) hrace
  · obtain ⟨timed, htimed, hevent⟩ := List.mem_map.mp hfired
    have hanswer := hdelivered timed htimed
    rw [TimedEvent.Delivered, hevent] at hanswer
    exact hanswer rfl

/-! ### An early timer -/

/-- A source that asks for a timeout of its own, with neither cache nor governor. -/
def hurriedInput (ms : Rat) : RunnerInput where
  enricher := { id := text "dns", layer := .resolution, timeoutMs := .num (.fin ms) }
  base := governedInput.base
  previousOutcomes := []
  hasCache := false
  hasGovernor := false

/-- The provider settles right after its timer has fired. -/
def hurriedSchedule (ms : Rat) : Schedule :=
  [(timerDelay ms, .timer), (timerDelay ms, .settled (.value (.arr [])))]

def hurriedCalls (ms : Rat) : List TimedEvent :=
  [{ event := ⟨.aborted, some false⟩ },
   { event := ⟨.enrich [] (some ms), some Bounded.timedOut⟩, schedule := hurriedSchedule ms },
   { event := ⟨.aborted, some false⟩ },
   { event := ⟨.clock, some (text "2026-01-01T00:00:00Z")⟩ }]

theorem timeout_isRuntime : EnrichmentFrameworkCauseCode.timeout.isRuntime = true := rfl

def hurriedTimeout : RuntimeDegradation :=
  { status := .failure, code := .timeout, retryable := true, own := timeout_isRuntime }

def hurriedRun (ms : Rat) : EnricherRun where
  token := (hurriedInput ms).token
  report :=
    { outcomes := [some (hurriedTimeout.outcome (hurriedInput ms).enricher (hurriedInput ms).base
        (text "2026-01-01T00:00:00Z"))] ++ [] }

theorem runProvider_hurried {ms : Rat} (hpositive : 0 < ms) :
    runProvider (hurriedInput ms) none .undefined [] = callEnrich [] (some ms) >>= fun answer =>
      match answer with
      | .threw => settleUnfinished (hurriedInput ms)
          { status := .failure, code := .sourceError, retryable := true } []
      | .timedOut => settleUnfinished (hurriedInput ms) hurriedTimeout []
      | .value output => settleOutput (hurriedInput ms) none output [] := by
  have heffective : effectiveTimeoutMs (hurriedInput ms).enricher.timeoutMs .undefined = some ms :=
    effectiveTimeoutMs_of_positive hpositive .undefined
  rw [runProvider, heffective]
  rfl

theorem run_hurried {ms : Rat} (hpositive : 0 < ms) :
    Runs (runEnricher (hurriedInput ms)) ((hurriedCalls ms).map (·.event))
      (some (.ok (hurriedRun ms))) := by
  refine .answered ?_
  change Runs (runProvider (hurriedInput ms) none .undefined []) _ _
  rw [runProvider_hurried hpositive]
  refine .answered (.answered (.answered ?_))
  exact .ret

theorem hurried_delivered {ms : Rat} (hpositive : 0 < ms) :
    ∀ timed ∈ hurriedCalls ms, timed.Delivered false := by
  have hnode : NodeSchedule (some ms) (hurriedSchedule ms) :=
    { ordered := by simp [hurriedSchedule]
      timers := fun instant hmem => ⟨ms, rfl, by
        obtain rfl : instant = timerDelay ms := by simpa [hurriedSchedule] using hmem
        exact le_refl _⟩
      unaborted := fun instant hmem => by simp [hurriedSchedule] at hmem }
  have hrace : some Bounded.timedOut = runWithTimeout false (some ms) (hurriedSchedule ms) := by
    simp [runWithTimeout, raceBounded, hurriedSchedule, hears, hasTimeout, hpositive,
      LoopEvent.outcome]
  intro timed hmem
  rcases List.mem_cons.mp hmem with rfl | hmem
  · exact fun h => by cases h
  rcases List.mem_cons.mp hmem with rfl | hmem
  · exact ⟨hnode, hrace⟩
  rcases List.mem_cons.mp hmem with rfl | hmem
  · exact fun h => by cases h
  · obtain rfl := List.mem_singleton.mp hmem
    trivial

/-- A timer that is early cuts off a call that would have settled in time. -/
theorem not_timeoutFidelity_of_early {ms : Rat} (hpositive : 0 < ms) (hearly : timerDelay ms < ms) :
    ¬ TimeoutFidelity ms := by
  intro h
  refine h (hurriedInput ms) false (hurriedCalls ms) (hurriedRun ms) .provider rfl
    (hurried_delivered hpositive) (run_hurried hpositive) ?_ ?_
  · intro timed hmem hof
    rcases List.mem_cons.mp hmem with rfl | hmem
    · cases hof
    rcases List.mem_cons.mp hmem with rfl | hmem
    · exact ⟨timerDelay ms, .value (.arr []), by simp [hurriedSchedule], hearly⟩
    rcases List.mem_cons.mp hmem with rfl | hmem
    · cases hof
    · obtain rfl := List.mem_singleton.mp hmem
      cases hof
  · exact ⟨_, _, List.mem_append_left _ (List.mem_singleton_self _), rfl, rfl, rfl, rfl⟩

theorem timeoutFidelity_iff {ms : Rat} (hpositive : 0 < ms) :
    TimeoutFidelity ms ↔ ms ≤ 1 ∨ (ms ≤ TIMEOUT_MAX ∧ (⌊ms⌋ : Rat) = ms) := by
  rw [← le_timerDelay_iff]
  constructor
  · intro h
    by_contra hearly
    exact not_timeoutFidelity_of_early hpositive (not_le.mp hearly) h
  · exact timeoutFidelity_of_timer hpositive

theorem timeoutFidelity_five_seconds : TimeoutFidelity 5000 :=
  (timeoutFidelity_iff (by norm_num)).mpr (Or.inr ⟨by norm_num [TIMEOUT_MAX], by norm_num⟩)

/-- A timeout of 2147483648 ms fires after one. -/
theorem long_timeout_unfaithful : ¬ ∀ ms : Rat, 0 < ms → TimeoutFidelity ms := by
  intro h
  have hearly : timerDelay 2147483648 < 2147483648 := by norm_num [timerDelay, TIMEOUT_MAX]
  exact not_timeoutFidelity_of_early (by norm_num) hearly (h _ (by norm_num))

end Linklint
