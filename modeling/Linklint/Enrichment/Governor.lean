import Linklint.Enrichment.Runner
import Linklint.Lib.TimedPotential
import Mathlib.Data.List.Induction

/-!
# The in-memory governor

A token bucket and a backoff schedule for each source. Numbers and clock readings
are exact rationals.
-/

namespace Linklint

structure SourceState where
  /-- fractional -/
  tokens : Rat
  lastRefill : Rat
  consecutiveFailures : Nat
  /-- 0 is no window -/
  backoffUntil : Rat

/-- `state.tokens -= 1` -/
def SourceState.spend (state : SourceState) : SourceState :=
  { state with tokens := state.tokens - 1 }

/-- `EnrichmentGovernorConfig` without the clock; an absent field is `undefined`. -/
structure EnrichmentGovernorConfig where
  defaultTimeoutMs : Value := .undefined
  capacity : Value := .undefined
  refillIntervalMs : Value := .undefined
  backoffBaseMs : Value := .undefined
  backoffMaxMs : Value := .undefined

inductive DenialCause where
  | backoffActive
  | rateLimited
deriving DecidableEq

def DenialCause.name : DenialCause → Text
  | .backoffActive => text "backoff-active"
  | .rateLimited => text "rate-limited"

inductive GovernorDecision where
  /-- `timeoutMs` is `undefined` when the field is left out -/
  | run (timeoutMs : Value)
  | deny (cause : DenialCause)

/-- The decision as the object the runner is handed. -/
def GovernorDecision.value : GovernorDecision → Value
  | .run .undefined => .obj [(text "run", .bool true)]
  | .run timeoutMs => .obj [(text "run", .bool true), (text "timeoutMs", timeoutMs)]
  | .deny cause => .obj [(text "run", .bool false), (text "cause", .str cause.name)]

def GovernorDecision.runs : GovernorDecision → Bool
  | .run _ => true
  | .deny _ => false

/-- A finite, positive number, or the fallback. -/
def positiveOr (value : Value) (fallback : Rat) : Rat := (positiveFinite value).getD fallback

/-- `value ?? fallback` -/
def nullishOr (value fallback : Value) : Value :=
  if value.isNull || value.isUndefined then fallback else value

structure InMemoryEnrichmentGovernor where
  defaultTimeoutMs : Value
  capacity : Rat
  refillIntervalMs : Value
  backoffBaseMs : Rat
  backoffMaxMs : Rat
  capacity_pos : 0 < capacity
  backoffBaseMs_pos : 0 < backoffBaseMs
  backoffMaxMs_pos : 0 < backoffMaxMs

abbrev SourceStates := Text → Option SourceState

theorem positiveOr_pos (value : Value) {fallback : Rat} (h : 0 < fallback) :
    0 < positiveOr value fallback := by
  rw [positiveOr]
  cases hv : positiveFinite value with
  | none => exact h
  | some q => exact (positiveFinite_pos hv).1

namespace InMemoryEnrichmentGovernor

/-- `new InMemoryEnrichmentGovernor(config)` -/
def ofConfig (config : EnrichmentGovernorConfig) : InMemoryEnrichmentGovernor where
  defaultTimeoutMs :=
    if config.defaultTimeoutMs.isUndefined then .num (.fin 5000) else config.defaultTimeoutMs
  capacity := positiveOr config.capacity 10
  refillIntervalMs := nullishOr config.refillIntervalMs (.num (.fin 1000))
  backoffBaseMs := positiveOr config.backoffBaseMs 1000
  backoffMaxMs := positiveOr config.backoffMaxMs 30000
  capacity_pos := positiveOr_pos _ (by decide)
  backoffBaseMs_pos := positiveOr_pos _ (by decide)
  backoffMaxMs_pos := positiveOr_pos _ (by decide)

variable (g : InMemoryEnrichmentGovernor)

def fresh (now : Rat) : SourceState where
  tokens := g.capacity
  lastRefill := now
  consecutiveFailures := 0
  backoffUntil := 0

/-- The state of a source, created full when it is first asked for. -/
def stateFor (states : SourceStates) (token : Text) (now : Rat) : SourceState :=
  (states token).getD (g.fresh now)

/-- The interval, unless refill is disabled. -/
def refillInterval : Option Rat := positiveFinite g.refillIntervalMs

def refill (state : SourceState) (now : Rat) : SourceState :=
  match g.refillInterval with
  | none => { state with lastRefill := now }
  | some interval =>
      let elapsed := now - state.lastRefill
      if elapsed ≤ 0 then state
      else { state with tokens := min g.capacity (state.tokens + elapsed / interval),
                        lastRefill := now }

/-- The timeout field of a positive decision. -/
def decisionTimeout : Value :=
  if g.defaultTimeoutMs.isNull then .null
  else
    match positiveFinite g.defaultTimeoutMs with
    | some ms => .num (.fin ms)
    | none => .undefined

def admission (state : SourceState) (now : Rat) : GovernorDecision × SourceState :=
  if now < state.backoffUntil then (.deny .backoffActive, state)
  else
    let state := g.refill state now
    if state.tokens < 1 then (.deny .rateLimited, state)
    else (.run g.decisionTimeout, state.spend)

def recordSuccess (state : SourceState) : SourceState :=
  { state with consecutiveFailures := 0, backoffUntil := 0 }

/-- The window opened by the `n`-th failure in a row. -/
def backoffWindow (n : Nat) : Rat := min (g.backoffBaseMs * 2 ^ (n - 1)) g.backoffMaxMs

def recordFailure (state : SourceState) (now : Rat) : SourceState :=
  let failures := state.consecutiveFailures + 1
  { state with consecutiveFailures := failures, backoffUntil := now + g.backoffWindow failures }

end InMemoryEnrichmentGovernor

inductive GovernorMethod where
  | admission
  | recordSuccess
  | recordFailure
deriving DecidableEq

structure GovernorCall where
  now : Rat
  token : Text
  method : GovernorMethod

/-- The failures of a source since its last success. -/
def failuresInARow (token : Text) (history : List GovernorCall) : Nat :=
  history.foldl (fun n call =>
    if call.token = token then
      match call.method with
      | .admission => n
      | .recordSuccess => 0
      | .recordFailure => n + 1
    else n) 0

/-- The clock never goes back. -/
def ClockSorted (history : List GovernorCall) : Prop :=
  history.Pairwise fun earlier later => earlier.now ≤ later.now

namespace InMemoryEnrichmentGovernor

variable (g : InMemoryEnrichmentGovernor)

/-- What a call makes of the state of its own source. -/
def update (state : SourceState) (now : Rat) : GovernorMethod → SourceState
  | .admission => (g.admission state now).2
  | .recordSuccess => recordSuccess state
  | .recordFailure => g.recordFailure state now

def apply (states : SourceStates) (call : GovernorCall) : SourceStates :=
  Function.update states call.token
    (some (g.update (g.stateFor states call.token call.now) call.now call.method))

/-- The call is an admission that answers `run: true`. -/
def admits (states : SourceStates) (call : GovernorCall) : Bool :=
  call.method == .admission &&
    (g.admission (g.stateFor states call.token call.now) call.now).1.runs

/-- The governor after a history of calls. -/
def after (history : List GovernorCall) : SourceStates := history.foldl g.apply fun _ => none

/-- The instants at which runs of a source are admitted. -/
def admittedAt (token : Text) : SourceStates → List GovernorCall → List Rat
  | _, [] => []
  | states, call :: rest =>
      if call.token = token ∧ g.admits states call = true then
        call.now :: admittedAt token (g.apply states call) rest
      else admittedAt token (g.apply states call) rest

/-- The tokens a source can have by an instant, the refill it is owed included. -/
def level (state : SourceState) (t : Rat) : Rat :=
  match g.refillInterval with
  | none => state.tokens
  | some interval => min g.capacity (state.tokens + (t - state.lastRefill) / interval)

/-! ### One call -/

/-- `0 <= tokens <= capacity` -/
def Bounded (state : SourceState) : Prop := 0 ≤ state.tokens ∧ state.tokens ≤ g.capacity

variable {g} {state : SourceState} {now t : Rat}

theorem refill_tokens_le : state.tokens ≤ g.capacity →
    state.tokens ≤ (g.refill state now).tokens ∧ (g.refill state now).tokens ≤ g.capacity := by
  intro h
  rw [refill]
  cases hinterval : g.refillInterval with
  | none => exact ⟨le_refl _, h⟩
  | some interval =>
      simp only []
      have hpos := (positiveFinite_pos hinterval).1
      split
      · exact ⟨le_refl _, h⟩
      · rename_i helapsed
        have hgain : 0 < (now - state.lastRefill) / interval := div_pos (not_le.mp helapsed) hpos
        exact ⟨le_min h (by linarith), min_le_left _ _⟩

/-- A reading no later than the last refill adds nothing. -/
theorem refill_stale (h : now ≤ state.lastRefill) : (g.refill state now).tokens = state.tokens := by
  rw [refill]
  cases g.refillInterval with
  | none => rfl
  | some interval =>
      have helapsed : now - state.lastRefill ≤ 0 := by linarith
      simp only [if_pos helapsed]

variable (g state now) in
/-- A refill touches nothing but the bucket. -/
theorem refill_backoff : (g.refill state now).consecutiveFailures = state.consecutiveFailures ∧
    (g.refill state now).backoffUntil = state.backoffUntil := by
  rw [refill]
  cases g.refillInterval with
  | none => exact ⟨rfl, rfl⟩
  | some interval =>
      simp only []
      split <;> exact ⟨rfl, rfl⟩

variable (g state now) in
/-- The ways an admission can go. -/
theorem admission_cases :
    (now < state.backoffUntil ∧ (g.admission state now).1.runs = false ∧
      (g.admission state now).2 = state) ∨
    (¬now < state.backoffUntil ∧ (g.admission state now).1.runs = false ∧
      (g.admission state now).2 = g.refill state now) ∨
    (¬now < state.backoffUntil ∧ (g.admission state now).1.runs = true ∧
      1 ≤ (g.refill state now).tokens ∧
      (g.admission state now).2 = (g.refill state now).spend) := by
  rw [admission]
  by_cases hopen : now < state.backoffUntil
  · exact Or.inl ⟨hopen, by simp [hopen, GovernorDecision.runs]⟩
  · rw [if_neg hopen]
    by_cases hempty : (g.refill state now).tokens < 1
    · exact Or.inr (Or.inl ⟨hopen, by simp [hempty, GovernorDecision.runs]⟩)
    · refine Or.inr (Or.inr ⟨hopen, ?_⟩)
      simp only [hempty, if_false]
      exact ⟨rfl, not_lt.mp hempty, trivial⟩

/-- The runner accepts every decision, and reads it as it was meant. -/
theorem admission_valid : isGovernorDecision (g.admission state now).1.value = true ∧
    decisionRuns (g.admission state now).1.value = (g.admission state now).1.runs := by
  rw [admission]
  split
  · exact ⟨rfl, rfl⟩
  · simp only []
    split
    · exact ⟨rfl, rfl⟩
    · rw [decisionTimeout]
      split
      · exact ⟨rfl, rfl⟩
      · cases positiveFinite g.defaultTimeoutMs with
        | none => exact ⟨rfl, rfl⟩
        | some ms => exact ⟨rfl, rfl⟩

theorem bounded_update (h : g.Bounded state) (method : GovernorMethod) :
    g.Bounded (g.update state now method) := by
  cases method with
  | admission =>
      have hrefill : state.tokens ≤ (g.refill state now).tokens ∧
          (g.refill state now).tokens ≤ g.capacity := refill_tokens_le h.2
      rw [update]
      rcases admission_cases g state now with
        ⟨_, _, heq⟩ | ⟨_, _, heq⟩ | ⟨_, _, hfull, heq⟩
      · rw [heq]
        exact h
      · rw [heq]
        exact ⟨h.1.trans hrefill.1, hrefill.2⟩
      · rw [heq]
        exact ⟨by simpa [SourceState.spend] using hfull,
          by simpa [SourceState.spend] using hrefill.2.trans (by linarith)⟩
  | recordSuccess => exact h
  | recordFailure => exact h

/-! ### The level of a bucket -/

theorem refill_touched (h : state.lastRefill ≤ now) : (g.refill state now).lastRefill = now := by
  rw [refill]
  cases g.refillInterval with
  | none => rfl
  | some interval =>
      simp only []
      split
      · rename_i helapsed
        linarith
      · rfl

theorem level_refill : g.level (g.refill state now) t ≤ g.level state t := by
  rw [level, level, refill]
  cases hinterval : g.refillInterval with
  | none => exact le_refl _
  | some interval =>
      simp only []
      have hpos := (positiveFinite_pos hinterval).1
      split
      · exact le_refl _
      · refine le_min (min_le_left _ _) ((min_le_right _ _).trans ?_)
        have hsplit : (t - state.lastRefill) / interval
            = (now - state.lastRefill) / interval + (t - now) / interval := by
          rw [← add_div]
          congr 1
          ring
        have hmin := min_le_right g.capacity (state.tokens + (now - state.lastRefill) / interval)
        linarith

theorem level_mono_tokens {state' : SourceState} (htokens : state.tokens ≤ state'.tokens)
    (htouched : state.lastRefill = state'.lastRefill) : g.level state t ≤ g.level state' t := by
  rw [level, level, htouched]
  cases g.refillInterval with
  | none => exact htokens
  | some interval => exact min_le_min (le_refl _) (by linarith)

/-- A call never raises the level of any instant. -/
theorem level_update (method : GovernorMethod) :
    g.level (g.update state now method) t ≤ g.level state t := by
  cases method with
  | admission =>
      rw [update]
      have hrefill : g.level (g.refill state now) t ≤ g.level state t := level_refill
      rcases admission_cases g state now with
        ⟨_, _, heq⟩ | ⟨_, _, heq⟩ | ⟨_, _, _, heq⟩
      · rw [heq]
      · rw [heq]
        exact hrefill
      · rw [heq]
        refine le_trans ?_ hrefill
        exact level_mono_tokens (by simp [SourceState.spend]) rfl
  | recordSuccess => exact le_refl _
  | recordFailure => exact le_refl _

/-- The level at the instant a bucket was last touched is what it holds. -/
theorem level_touched (h : state.tokens ≤ g.capacity) (htouched : state.lastRefill = t) :
    g.level state t = state.tokens := by
  rw [level, htouched]
  cases g.refillInterval with
  | none => rfl
  | some interval => simpa using h

/-- An admitted run is paid for. -/
theorem level_admitted (h : g.Bounded state) (htouched : state.lastRefill ≤ now)
    (hruns : (g.admission state now).1.runs = true) :
    g.level (g.admission state now).2 now + 1 ≤ g.level state now := by
  have hrefill : g.level (g.refill state now) now ≤ g.level state now := level_refill
  have hlast : (g.refill state now).lastRefill = now := refill_touched htouched
  have hcap : (g.refill state now).tokens ≤ g.capacity := (refill_tokens_le h.2).2
  rcases admission_cases g state now with
    ⟨_, hdenied, _⟩ | ⟨_, hdenied, _⟩ | ⟨_, _, _, heq⟩
  · rw [hdenied] at hruns
    cases hruns
  · rw [hdenied] at hruns
    cases hruns
  · rw [level_touched hcap hlast] at hrefill
    have hspent : (g.refill state now).spend.tokens ≤ g.capacity := by
      simpa [SourceState.spend] using hcap.trans (by linarith)
    rw [heq, level_touched hspent hlast]
    simpa [SourceState.spend] using hrefill

theorem level_drift {interval t' : Rat} (hinterval : g.refillInterval = some interval) (h : t ≤ t') :
    g.level state t' ≤ g.level state t + 1 / interval * (t' - t) := by
  have hpos := (positiveFinite_pos hinterval).1
  have hgain : 0 ≤ (t' - t) / interval := div_nonneg (by linarith) hpos.le
  have hrate : 1 / interval * (t' - t) = (t' - t) / interval := by ring
  have hsplit : (t' - state.lastRefill) / interval
      = (t - state.lastRefill) / interval + (t' - t) / interval := by
    rw [← add_div]
    congr 1
    ring
  rw [level, level, hinterval, hrate]
  simp only []
  rw [← min_add_add_right]
  exact min_le_min (by linarith) (by linarith)

theorem level_nonneg (h : g.Bounded state) (htouched : state.lastRefill ≤ t) :
    0 ≤ g.level state t := by
  rw [level]
  cases hinterval : g.refillInterval with
  | none => exact h.1
  | some interval =>
      have hpos := (positiveFinite_pos hinterval).1
      have hgain : 0 ≤ (t - state.lastRefill) / interval := div_nonneg (by linarith) hpos.le
      exact le_min g.capacity_pos.le (by linarith [h.1])

theorem level_le (h : g.Bounded state) : g.level state t ≤ g.capacity := by
  rw [level]
  cases g.refillInterval with
  | none => exact h.2
  | some interval => exact min_le_left _ _

/-! ### Histories -/

variable {states : SourceStates} {token : Text} {history : List GovernorCall} {call : GovernorCall}

theorem apply_self : g.apply states call call.token =
    some (g.update (g.stateFor states call.token call.now) call.now call.method) := by
  simp [apply]

theorem apply_other (h : token ≠ call.token) : g.apply states call token = states token := by
  simp [apply, Function.update_of_ne h]

theorem after_snoc : g.after (history ++ [call]) = g.apply (g.after history) call := by
  simp [after]

theorem stateFor_of_some (h : states token = some state) : g.stateFor states token now = state := by
  simp [stateFor, h]

/-- The state of a source after one more call. -/
theorem stateFor_snoc : g.stateFor (g.after (history ++ [call])) token now =
    if call.token = token then
      g.update (g.stateFor (g.after history) token call.now) call.now call.method
    else g.stateFor (g.after history) token now := by
  rw [after_snoc]
  by_cases htoken : call.token = token
  · subst htoken
    rw [if_pos rfl]
    exact stateFor_of_some apply_self
  · rw [if_neg htoken, stateFor, stateFor, apply_other (Ne.symm htoken)]

theorem bounded_after : g.Bounded (g.stateFor (g.after history) token now) := by
  induction history using List.reverseRecOn generalizing now with
  | nil => exact ⟨g.capacity_pos.le, le_refl _⟩
  | append_singleton history call ih =>
      rw [stateFor_snoc]
      split
      · exact bounded_update ih call.method
      · exact ih

theorem update_failures (method : GovernorMethod) :
    (g.update state now method).consecutiveFailures = (match method with
      | .admission => state.consecutiveFailures
      | .recordSuccess => 0
      | .recordFailure => state.consecutiveFailures + 1) ∧
    (g.update state now method).backoffUntil = (match method with
      | .admission => state.backoffUntil
      | .recordSuccess => 0
      | .recordFailure => now + g.backoffWindow (state.consecutiveFailures + 1)) := by
  cases method with
  | admission =>
      rw [update]
      have hrefill := refill_backoff g state now
      rcases admission_cases g state now with
        ⟨_, _, heq⟩ | ⟨_, _, heq⟩ | ⟨_, _, _, heq⟩
      · rw [heq]
        exact ⟨rfl, rfl⟩
      · rw [heq]
        exact hrefill
      · rw [heq]
        exact hrefill
  | recordSuccess => exact ⟨rfl, rfl⟩
  | recordFailure => exact ⟨rfl, rfl⟩

theorem failuresInARow_snoc : failuresInARow token (history ++ [call]) =
    if call.token = token then
      match call.method with
      | .admission => failuresInARow token history
      | .recordSuccess => 0
      | .recordFailure => failuresInARow token history + 1
    else failuresInARow token history := by
  simp [failuresInARow]

theorem consecutiveFailures_after :
    (g.stateFor (g.after history) token now).consecutiveFailures = failuresInARow token history := by
  induction history using List.reverseRecOn generalizing now with
  | nil => rfl
  | append_singleton history call ih =>
      rw [stateFor_snoc, failuresInARow_snoc]
      split
      · rw [(update_failures call.method).1, ih]
      · exact ih

variable (g token history now) in
/-- A window is that of the last failure in a row, and without one there is none. -/
theorem backoffUntil_after :
    (failuresInARow token history = 0 →
      (g.stateFor (g.after history) token now).backoffUntil = 0) ∧
    (failuresInARow token history ≠ 0 → ∃ call ∈ history,
      (g.stateFor (g.after history) token now).backoffUntil
        = call.now + g.backoffWindow (failuresInARow token history)) := by
  induction history using List.reverseRecOn generalizing now with
  | nil => exact ⟨fun _ => rfl, fun h => absurd rfl h⟩
  | append_singleton history call ih =>
      have grow {q : Rat} : (∃ c ∈ history, q = c.now + g.backoffWindow (failuresInARow token history)) →
          ∃ c ∈ history ++ [call], q = c.now + g.backoffWindow (failuresInARow token history) := by
        rintro ⟨c, hc, hq⟩
        exact ⟨c, List.mem_append_left _ hc, hq⟩
      rw [stateFor_snoc, failuresInARow_snoc]
      split
      · rw [(update_failures call.method).2, consecutiveFailures_after]
        cases call.method with
        | admission => exact ⟨(ih call.now).1, fun h => grow ((ih call.now).2 h)⟩
        | recordSuccess => exact ⟨fun _ => rfl, fun h => absurd rfl h⟩
        | recordFailure =>
            exact ⟨fun h => absurd h (Nat.succ_ne_zero _),
              fun _ => ⟨call, by simp, rfl⟩⟩
      · exact ⟨(ih now).1, fun h => grow ((ih now).2 h)⟩

theorem backoffWindow_mono {m n : Nat} (h : m ≤ n) : g.backoffWindow m ≤ g.backoffWindow n := by
  have hpow : (2 : Rat) ^ (m - 1) ≤ 2 ^ (n - 1) := pow_le_pow_right₀ (by norm_num) (by omega)
  exact min_le_min (mul_le_mul_of_nonneg_left hpow g.backoffBaseMs_pos.le) (le_refl _)

variable (g) in
theorem backoffWindow_pos (n : Nat) : 0 < g.backoffWindow n :=
  lt_min (mul_pos g.backoffBaseMs_pos (by positivity)) g.backoffMaxMs_pos

/-- A failure never shortens an open window. -/
theorem recordFailure_extends (hsorted : ClockSorted (history ++ [call]))
    (hopen : failuresInARow call.token history ≠ 0 ∨ 0 ≤ call.now) :
    (g.stateFor (g.after history) call.token call.now).backoffUntil ≤
      (g.recordFailure (g.stateFor (g.after history) call.token call.now) call.now).backoffUntil := by
  rw [recordFailure, consecutiveFailures_after]
  obtain ⟨hnone, hsome⟩ := backoffUntil_after g call.now call.token history
  by_cases hfailures : failuresInARow call.token history = 0
  · rw [hnone hfailures]
    have hwindow := backoffWindow_pos g (failuresInARow call.token history + 1)
    have hnow : 0 ≤ call.now := hopen.resolve_left fun h => h hfailures
    exact add_nonneg hnow hwindow.le
  · obtain ⟨earlier, hmem, heq⟩ := hsome hfailures
    rw [heq]
    have hclock : earlier.now ≤ call.now :=
      (List.pairwise_append.mp hsorted).2.2 earlier hmem call (List.mem_singleton_self _)
    exact add_le_add hclock (backoffWindow_mono (Nat.le_succ _))

/-! ### The rate -/

open TimedPotential

variable (g token) in
/-- The governor as a system in which an admitted run of one source costs a token. -/
def rateSystem : System SourceStates GovernorCall Rat where
  apply := g.apply
  time := GovernorCall.now
  cost := fun states call => if call.token = token ∧ g.admits states call = true then 1 else 0

variable (g token) in
/-- The level of the bucket of a source; one that does not exist yet is full. -/
def sourceLevel (states : SourceStates) (t : Rat) : Rat :=
  (states token).elim g.capacity fun state => g.level state t

variable (g token) in
/-- The bucket of a source is sound, and was touched no later than an instant. -/
def SourceSound (states : SourceStates) (t : Rat) : Prop :=
  ∀ state, states token = some state → g.Bounded state ∧ state.lastRefill ≤ t

theorem update_touched (h : state.lastRefill ≤ now) (method : GovernorMethod) :
    (g.update state now method).lastRefill ≤ now := by
  cases method with
  | admission =>
      rw [update]
      rcases admission_cases g state now with ⟨_, _, heq⟩ | ⟨_, _, heq⟩ | ⟨_, _, _, heq⟩
      · rw [heq]
        exact h
      · rw [heq]
        exact (refill_touched h).le
      · rw [heq]
        exact (refill_touched h).le
  | recordSuccess => exact h
  | recordFailure => exact h

theorem sourceSound_stateFor (h : g.SourceSound token states now) :
    g.Bounded (g.stateFor states token now) ∧ (g.stateFor states token now).lastRefill ≤ now := by
  rw [stateFor]
  cases hs : states token with
  | none => exact ⟨⟨g.capacity_pos.le, le_refl _⟩, le_refl _⟩
  | some state => exact h state hs

theorem sourceLevel_stateFor :
    g.sourceLevel token states now = g.level (g.stateFor states token now) now := by
  rw [sourceLevel, stateFor]
  cases states token with
  | none =>
      have hfull : (g.fresh now).tokens ≤ g.capacity := le_refl _
      exact (level_touched hfull rfl).symm
  | some state => rfl

theorem sourceLevel_apply (h : g.SourceSound token states call.now) :
    g.sourceLevel token (g.apply states call) call.now
        + ((rateSystem g token).cost states call : Nat) ≤ g.sourceLevel token states call.now := by
  by_cases htoken : call.token = token
  · subst htoken
    obtain ⟨hbounded, htouched⟩ := sourceSound_stateFor h
    have hbefore : g.sourceLevel call.token states call.now
        = g.level (g.stateFor states call.token call.now) call.now := sourceLevel_stateFor
    have hupdate : g.level (g.update (g.stateFor states call.token call.now) call.now call.method)
        call.now ≤ g.level (g.stateFor states call.token call.now) call.now :=
      level_update call.method
    rw [hbefore, sourceLevel, apply_self, Option.elim_some]
    by_cases hadmits : g.admits states call = true
    · have hcost : (rateSystem g call.token).cost states call = 1 := by simp [rateSystem, hadmits]
      rw [hcost]
      simp only [admits, Bool.and_eq_true, beq_iff_eq] at hadmits
      rw [hadmits.1]
      exact_mod_cast level_admitted hbounded htouched hadmits.2
    · have hcost : (rateSystem g call.token).cost states call = 0 := by simp [rateSystem, hadmits]
      rw [hcost]
      simpa using hupdate
  · have hcost : (rateSystem g token).cost states call = 0 := by simp [rateSystem, htoken]
    rw [hcost, sourceLevel, apply_other (Ne.symm htoken), sourceLevel]
    simp

variable (g token) in
/-- The level of the bucket is a potential for the admitted runs of its source. -/
def ratePotential (interval : Rat) (hinterval : g.refillInterval = some interval) :
    Potential (rateSystem g token) where
  level := g.sourceLevel token
  rate := 1 / interval
  bound := g.capacity
  sound := g.SourceSound token
  sound_mono := fun h hle state hs => ⟨(h state hs).1, (h state hs).2.trans hle⟩
  sound_apply := by
    intro states call h state hs
    by_cases htoken : call.token = token
    · subst htoken
      obtain ⟨hbounded, htouched⟩ := sourceSound_stateFor h
      have happly : some _ = some state := apply_self.symm.trans hs
      cases happly
      exact ⟨bounded_update hbounded _, update_touched htouched _⟩
    · exact h state ((apply_other (Ne.symm htoken)).symm.trans hs)
  drift := by
    intro states t t' _ hle
    rw [sourceLevel, sourceLevel]
    cases states token with
    | none =>
        have hpos := (positiveFinite_pos hinterval).1
        have hgain : 0 ≤ 1 / interval * (t' - t) :=
          mul_nonneg (one_div_pos.mpr hpos).le (by linarith)
        simpa using hgain
    | some state => exact level_drift hinterval hle
  pays := sourceLevel_apply
  nonneg := by
    intro states t h
    rw [sourceLevel]
    cases hs : states token with
    | none => exact g.capacity_pos.le
    | some state => exact level_nonneg (h state hs).1 (h state hs).2
  level_le := by
    intro states t h
    rw [sourceLevel]
    cases hs : states token with
    | none => exact le_refl _
    | some state => exact level_le (h state hs).1

/-- The admitted runs of a window are what the system spends in it. -/
theorem countP_admittedAt (p : Rat → Bool) :
    (g.admittedAt token states history).countP p =
      (rateSystem g token).spent (fun call => p call.now) states history := by
  induction history generalizing states with
  | nil => rfl
  | cons call rest ih =>
      rw [admittedAt, System.spent]
      by_cases hadmitted : call.token = token ∧ g.admits states call = true
      · have hcost : (rateSystem g token).cost states call = 1 := if_pos hadmitted
        rw [if_pos hadmitted, List.countP_cons, ih, hcost, Nat.add_comm]
        rfl
      · have hcost : (rateSystem g token).cost states call = 0 := if_neg hadmitted
        rw [if_neg hadmitted, ih, hcost]
        simp [rateSystem]

end InMemoryEnrichmentGovernor

/-! ### The laws -/

open InMemoryEnrichmentGovernor in
/-- What the governor guarantees over whole histories. -/
structure GovernorLaws (g : InMemoryEnrichmentGovernor) : Prop where
  isolated : ∀ states (call : GovernorCall) token, token ≠ call.token →
    g.apply states call token = states token
  bounded : ∀ history token state, g.after history token = some state →
    0 ≤ state.tokens ∧ state.tokens ≤ g.capacity
  rated : ∀ history, ClockSorted history → ∀ interval, g.refillInterval = some interval →
    ∀ token (start length : Rat), 0 ≤ length →
      (((g.admittedAt token (fun _ => none) history).countP
        fun t => decide (start ≤ t ∧ t ≤ start + length) : Nat) : Rat) ≤ g.capacity + length / interval
  backed_off : ∀ history (call : GovernorCall),
    call.now < (g.stateFor (g.after history) call.token call.now).backoffUntil →
      g.admits (g.after history) call = false
  /-- A denied admission spends nothing and leaves the failures and the window alone. -/
  denied : ∀ history (call : GovernorCall), call.method = .admission →
    g.admits (g.after history) call = false →
      let state := g.stateFor (g.after history) call.token call.now
      ∃ state', g.after (history ++ [call]) call.token = some state' ∧
        state.tokens ≤ state'.tokens ∧ state'.consecutiveFailures = state.consecutiveFailures ∧
        state'.backoffUntil = state.backoffUntil
  /-- A failure opens the window of its place in the row. -/
  window : ∀ history (call : GovernorCall), call.method = .recordFailure →
    ∃ state', g.after (history ++ [call]) call.token = some state' ∧
      state'.consecutiveFailures = failuresInARow call.token (history ++ [call]) ∧
      state'.backoffUntil = call.now +
        min (g.backoffBaseMs * 2 ^ (failuresInARow call.token (history ++ [call]) - 1))
          g.backoffMaxMs
  /-- No failure shortens a window a failure has opened, nor any at a clock that is not negative. -/
  extended : ∀ history (call : GovernorCall), ClockSorted (history ++ [call]) →
    call.method = .recordFailure → failuresInARow call.token history ≠ 0 ∨ 0 ≤ call.now →
      ∃ state', g.after (history ++ [call]) call.token = some state' ∧
        (g.stateFor (g.after history) call.token call.now).backoffUntil ≤ state'.backoffUntil
  /-- A reading no later than the last refill adds no token. -/
  unminted : ∀ history (call : GovernorCall) state, g.after history call.token = some state →
    call.now ≤ state.lastRefill → ∃ state', g.after (history ++ [call]) call.token = some state' ∧
      state'.tokens ≤ state.tokens
  /-- Whatever the clock reads, no call raises what the source can have by any instant. -/
  unraised : ∀ history (call : GovernorCall) state, g.after history call.token = some state →
    ∃ state', g.after (history ++ [call]) call.token = some state' ∧
      ∀ t, g.level state' t ≤ g.level state t

namespace InMemoryEnrichmentGovernor

variable {g : InMemoryEnrichmentGovernor} {history : List GovernorCall} {call : GovernorCall}

theorem after_snoc_self : g.after (history ++ [call]) call.token = some
    (g.update (g.stateFor (g.after history) call.token call.now) call.now call.method) := by
  rw [after_snoc, apply_self]

theorem tokens_of_denied {state : SourceState} {now : Rat} (h : g.Bounded state)
    (hdenied : (g.admission state now).1.runs = false) :
    state.tokens ≤ (g.admission state now).2.tokens := by
  rcases admission_cases g state now with ⟨_, _, heq⟩ | ⟨_, _, heq⟩ | ⟨_, hruns, _⟩
  · rw [heq]
  · rw [heq]
    exact (refill_tokens_le h.2).1
  · rw [hdenied] at hruns
    cases hruns

theorem tokens_of_stale {state : SourceState} {now : Rat} (h : now ≤ state.lastRefill)
    (method : GovernorMethod) : (g.update state now method).tokens ≤ state.tokens := by
  have hrefill : (g.refill state now).tokens = state.tokens := refill_stale h
  cases method with
  | admission =>
      rw [update]
      rcases admission_cases g state now with ⟨_, _, heq⟩ | ⟨_, _, heq⟩ | ⟨_, _, _, heq⟩
      · rw [heq]
      · rw [heq, hrefill]
      · rw [heq]
        simp [SourceState.spend, hrefill]
  | recordSuccess => exact le_refl _
  | recordFailure => exact le_refl _

end InMemoryEnrichmentGovernor

open InMemoryEnrichmentGovernor

/-- Every governor keeps its laws, whatever its configuration. -/
theorem governor_laws (config : EnrichmentGovernorConfig) : GovernorLaws (ofConfig config) where
  isolated := fun states call token h => apply_other h
  bounded := by
    intro history token state hstate
    have hbounded : (ofConfig config).Bounded
        ((ofConfig config).stateFor ((ofConfig config).after history) token 0) := bounded_after
    rwa [stateFor_of_some hstate] at hbounded
  rated := by
    intro history hsorted interval hinterval token start length hlength
    have hfresh : ∀ t, ((ofConfig config).ratePotential token interval hinterval).sound
        (fun _ => none) t := fun t state hs => by cases hs
    have hwindow := ((ofConfig config).ratePotential token interval hinterval).window_le hfresh
      (show start ≤ start + length by linarith) hsorted
    rw [countP_admittedAt]
    refine hwindow.trans (le_of_eq ?_)
    change (ofConfig config).capacity + 1 / interval * (start + length - start) = _
    ring
  backed_off := by
    intro history call hopen
    rcases admission_cases (ofConfig config)
      ((ofConfig config).stateFor ((ofConfig config).after history) call.token call.now) call.now with
      ⟨_, hdenied, _⟩ | ⟨hclosed, _⟩ | ⟨hclosed, _⟩
    · simp [admits, hdenied]
    · exact absurd hopen hclosed
    · exact absurd hopen hclosed
  denied := by
    intro history call hmethod hdenied
    refine ⟨_, after_snoc_self, ?_, ?_, ?_⟩
    · rw [hmethod]
      refine tokens_of_denied bounded_after ?_
      simpa [admits, hmethod] using hdenied
    · rw [(update_failures call.method).1, hmethod]
    · rw [(update_failures call.method).2, hmethod]
  window := by
    intro history call hmethod
    refine ⟨_, after_snoc_self, ?_, ?_⟩
    · rw [(update_failures call.method).1, failuresInARow_snoc, if_pos rfl, hmethod,
        consecutiveFailures_after]
    · rw [(update_failures call.method).2, failuresInARow_snoc, if_pos rfl, hmethod,
        consecutiveFailures_after]
      rfl
  extended := by
    intro history call hsorted hmethod hopen
    refine ⟨_, after_snoc_self, ?_⟩
    rw [hmethod]
    exact recordFailure_extends hsorted hopen
  unminted := by
    intro history call state hstate hstale
    refine ⟨_, after_snoc_self, ?_⟩
    rw [stateFor_of_some hstate]
    exact tokens_of_stale hstale call.method
  unraised := by
    intro history call state hstate
    refine ⟨_, after_snoc_self, fun t => ?_⟩
    rw [stateFor_of_some hstate]
    exact level_update call.method

end Linklint
