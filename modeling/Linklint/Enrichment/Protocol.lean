import Linklint.Enrichment.Lifecycle

/-!
# The order of governor, cache and provider

What the lifecycle means for the calls of a run: when the governor is asked, when
the provider is called, and which callback closes an admitted run. A sparse
report breaks the last part: the search of its outcomes throws past the guards.
-/

namespace Linklint

open Interaction

/-- There was no slot to read. -/
def NoSlot (input : RunnerInput) (past : List RunnerEvent) : Prop :=
  input.hasCache = false ∨ (keylessSlot input).isSome ∨
    ∃ key : Called, ⟨.cacheKey, some key⟩ ∈ past ∧
      (slotOfKey input (positiveFinite input.enricher.cacheTtlMs) key).slot = none

/-- No slot, a read that missed, failed or timed out, or one cancelled before it started. -/
def ReadYieldedNothing (input : RunnerInput) (past : List RunnerEvent) : Prop :=
  NoSlot input past ∨
    (∃ (key : Text) (ms : Option Rat) (answer : Bounded),
      ⟨.cacheGet key ms, some answer⟩ ∈ past ∧ isHit (some answer) = false) ∨
    ⟨.aborted, some true⟩ ∈ past

/-- The phases after a read that yielded nothing. -/
def Phase.isPastRead : Phase → Bool
  | .opening => false
  | .over => false
  | .keying => false
  | .reading => false
  | .hit _ => false
  | _ => true

/-- A recorded run has a governor and was recorded as its output asks for. -/
def RecordsRightly (input : RunnerInput) : Phase → Prop
  | .recorded operation output => input.hasGovernor = true ∧
      (output = none ∧ operation = .recordFailure ∨
        ∃ v, output = some v ∧ operation = recordOf input.enricher v ∧
          isSparseOutput input.enricher v = false)
  | _ => True

/-- What the past of a run looks like from a phase. -/
structure PastOf (input : RunnerInput) (past : List RunnerEvent) (phase : Phase) : Prop where
  ledger : Linklint.ledger past = phase.ledger input.hasGovernor
  read : phase.isPastRead = true → ReadYieldedNothing input past
  recorded : RecordsRightly input phase
  served : ∀ cached, phase = .hit cached →
    ∃ (key : Text) (ms : Option Rat), ⟨.cacheGet key ms, some (Bounded.value cached)⟩ ∈ past

section
variable {input : RunnerInput} {phase phase' : Phase}

theorem readYieldedNothing_snoc {past : List RunnerEvent} {e : RunnerEvent}
    (h : ReadYieldedNothing input past) : ReadYieldedNothing input (past ++ [e]) := by
  rcases h with (hcache | hkeyless | ⟨key, hkey, hslot⟩) | ⟨key, ms, answer, hget, hmiss⟩ | hfired
  · exact Or.inl (Or.inl hcache)
  · exact Or.inl (Or.inr (Or.inl hkeyless))
  · exact Or.inl (Or.inr (Or.inr ⟨key, List.mem_append_left _ hkey, hslot⟩))
  · exact Or.inr (Or.inl ⟨key, ms, answer, List.mem_append_left _ hget, hmiss⟩)
  · exact Or.inr (Or.inr (List.mem_append_left _ hfired))

/-- The cache is passed only by a read that yielded nothing. -/
theorem step_past_read {past : List RunnerEvent} {e : RunnerEvent}
    (h : Step input phase e phase') (hbefore : phase.isPastRead = false)
    (hafter : phase'.isPastRead = true) : ReadYieldedNothing input (past ++ [e]) := by
  have hlast : e ∈ past ++ [e] := List.mem_append_right _ (List.mem_singleton_self e)
  cases h with
  | opening answer =>
      rcases answer with _ | _ | _
      · cases hafter
      · have hneeds : needsKey input = false := by
          cases hneeds : needsKey input with
          | false => rfl
          | true =>
              rw [afterOpening, hneeds] at hafter
              cases hafter
        rw [needsKey, Bool.and_eq_false_iff] at hneeds
        rcases hneeds with hcache | hkeyless
        · exact Or.inl (Or.inl hcache)
        · refine Or.inl (Or.inr (Or.inl ?_))
          cases hresolution : keylessSlot input with
          | none => simp [hresolution] at hkeyless
          | some resolution => rfl
      · cases hafter
  | keying answer =>
      rcases answer with _ | key
      · cases hafter
      · refine Or.inl (Or.inr (Or.inr ⟨key, hlast, ?_⟩))
        cases hslot : (slotOfKey input (positiveFinite input.enricher.cacheTtlMs) key).slot with
        | none => rfl
        | some slot =>
            rw [afterKey, hslot] at hafter
            cases hafter
  | readable answer =>
      rcases answer with _ | _ | _
      · cases hafter
      · cases hafter
      · exact Or.inr (Or.inr hlast)
  | @reading key ms answer =>
      rcases answer with _ | v | _ | _
      · cases hafter
      · refine Or.inr (Or.inl ⟨key, ms, _, hlast, ?_⟩)
        rw [afterRead] at hafter
        cases hv : v.isUndefined with
        | true => simp [isHit, hv]
        | false =>
            rw [hv] at hafter
            cases hafter
      · exact Or.inr (Or.inl ⟨key, ms, _, hlast, rfl⟩)
      · exact Or.inr (Or.inl ⟨key, ms, _, hlast, rfl⟩)
  | quiet still hop answer => exact absurd hafter (by simp [hbefore])
  | _ => cases hbefore

theorem step_recordsRightly {e : RunnerEvent} (h : Step input phase e phase')
    (hphase : RecordsRightly input phase) : RecordsRightly input phase' := by
  cases h with
  | opening answer =>
      rcases answer with _ | _ | _
      · trivial
      · rw [afterOpening]
        split <;> trivial
      · trivial
  | keying answer =>
      rcases answer with _ | key
      · trivial
      · rw [afterKey]
        split <;> trivial
  | readable answer => rcases answer with _ | _ | _ <;> trivial
  | reading answer =>
      rcases answer with _ | v | _ | _
      · trivial
      · rw [afterRead]
        split <;> trivial
      · trivial
      · trivial
  | expired answer => rcases answer with _ | _ | _ <;> trivial
  | admission governed answer =>
      rw [afterAdmit]
      split <;> trivial
  | enrich free answer => rcases answer with _ | v | _ | _ <;> trivial
  | admitted governed answer => rcases answer with _ | v | _ | _ <;> trivial
  | delivered output answer => rcases answer with _ | _ | _ <;> trivial
  | owing governed answer => exact ⟨governed, Or.inl ⟨rfl, rfl⟩⟩
  | completed governed dense hrecord answer =>
      exact ⟨governed, Or.inr ⟨_, rfl, hrecord, dense⟩⟩
  | quiet still hop answer => exact hphase

/-- A hit is a value the cache has just returned. -/
theorem step_hit {past : List RunnerEvent} {e : RunnerEvent} {cached : Value}
    (h : Step input phase e (.hit cached))
    (hphase : ∀ v, phase = .hit v →
      ∃ (key : Text) (ms : Option Rat), ⟨.cacheGet key ms, some (Bounded.value v)⟩ ∈ past) :
    ∃ (key : Text) (ms : Option Rat),
      ⟨.cacheGet key ms, some (Bounded.value cached)⟩ ∈ past ++ [e] := by
  generalize htarget : Phase.hit cached = target at h
  cases h with
  | @reading key ms answer =>
      rcases answer with _ | v | _ | _
      · cases htarget
      · rw [afterRead] at htarget
        split at htarget
        · cases htarget
        · cases htarget
          exact ⟨key, ms, List.mem_append_right _ (List.mem_singleton_self _)⟩
      · cases htarget
      · cases htarget
  | quiet still hop answer =>
      obtain ⟨key, ms, hmem⟩ := hphase cached htarget.symm
      exact ⟨key, ms, List.mem_append_left _ hmem⟩
  | opening answer =>
      rcases answer with _ | _ | _
      · cases htarget
      · rw [afterOpening] at htarget
        split at htarget <;> cases htarget
      · cases htarget
  | keying answer =>
      rcases answer with _ | key
      · cases htarget
      · rw [afterKey] at htarget
        split at htarget <;> cases htarget
  | readable answer => rcases answer with _ | _ | _ <;> cases htarget
  | expired answer => rcases answer with _ | _ | _ <;> cases htarget
  | admission governed answer =>
      rw [afterAdmit] at htarget
      split at htarget <;> cases htarget
  | enrich free answer => rcases answer with _ | v | _ | _ <;> cases htarget
  | admitted governed answer => rcases answer with _ | v | _ | _ <;> cases htarget
  | delivered output answer => rcases answer with _ | _ | _ <;> cases htarget
  | _ => cases htarget

theorem pastOf_step {past : List RunnerEvent} {e : RunnerEvent} (hpast : PastOf input past phase)
    (h : Step input phase e phase') : PastOf input (past ++ [e]) phase' := by
  refine ⟨?_, ?_, step_recordsRightly h hpast.recorded, ?_⟩
  · rw [ledger_snoc, hpast.ledger, step_ledger h]
  · intro hafter
    by_cases hbefore : phase.isPastRead = true
    · exact readYieldedNothing_snoc (hpast.read hbefore)
    · exact step_past_read h (Bool.eq_false_of_not_eq_true hbefore) hafter
  · rintro cached rfl
    exact step_hit h hpast.served

theorem pastOf_follows {trace : List RunnerEvent} (h : Follows (Step input) .opening trace phase) :
    PastOf input trace phase := by
  have hstart : PastOf input [] .opening :=
    { ledger := rfl
      read := fun h => by cases h
      recorded := trivial
      served := fun cached h => by cases h }
  simpa using h.history (fun _ _ _ _ hpast hstep => pastOf_step hpast hstep) hstart

end

/-! ### The protocol -/

/-- What the calls of one run are to satisfy. -/
structure Protocol (input : RunnerInput) (trace : List RunnerEvent)
    (result : Option (Except Thrown EnricherRun)) : Prop where
  admit_once : (ledger trace).admits ≤ 1
  admit_after_read : ∀ (before after : List RunnerEvent) (token : Text) (answer : Option Called),
    trace = before ++ ⟨.admission token, answer⟩ :: after → ReadYieldedNothing input before
  enrich_once : (ledger trace).enriches ≤ 1
  enrich_admitted : ∀ (before after : List RunnerEvent)
    (previousOutcomes : List (Option EnrichmentOutcome)) (ms : Option Rat)
    (answer : Option Bounded),
    trace = before ++ ⟨.enrich previousOutcomes ms, answer⟩ :: after →
      input.hasGovernor = false ∨ (ledger before).approved = 1
  /-- An admitted run is recorded at most once, and exactly once when it has settled. -/
  recorded_once : (ledger trace).successes + (ledger trace).failures ≤ 1 ∧
    ((ledger trace).approved = 1 → result.isSome →
      (ledger trace).successes + (ledger trace).failures = 1)
  recorded_success : (ledger trace).approved = 1 → result.isSome →
    ((ledger trace).successes = 1 ↔
      ∃ output, (ledger trace).completed = some output ∧
        isCleanOutput input.enricher output = true)
  unrecorded : (ledger trace).approved = 0 →
    (ledger trace).successes = 0 ∧ (ledger trace).failures = 0
  hit_stops : 0 < (ledger trace).hits →
    (ledger trace).admits = 0 ∧ (ledger trace).enriches = 0

/-- The run was admitted and its provider resolved, uncancelled, to a sparse report. -/
def ResolvedSparse (input : RunnerInput) (trace : List RunnerEvent) : Prop :=
  (ledger trace).approved = 1 ∧ ∃ output, (ledger trace).completed = some output ∧
    isSparseOutput input.enricher output = true

section
variable {input : RunnerInput} {trace : List RunnerEvent}
  {result : Option (Except Thrown EnricherRun)}

/-- A run reaches a phase, and a finished run a phase it may end in. -/
theorem phase_of_run (run : Runs (runEnricher input) trace result) :
    ∃ phase, Follows (Step input) .opening trace phase ∧
      ∀ r, result = some r → Concluded input r phase :=
  run.follows wp_runEnricher

/-- The counts of a ledger hold in every phase. -/
theorem ledger_bounds (governed : Bool) (phase : Phase) :
    (phase.ledger governed).admits ≤ 1 ∧ (phase.ledger governed).enriches ≤ 1 ∧
      (phase.ledger governed).successes + (phase.ledger governed).failures ≤ 1 ∧
      (0 < (phase.ledger governed).hits →
        (phase.ledger governed).admits = 0 ∧ (phase.ledger governed).enriches = 0) := by
  cases phase with
  | recorded operation output =>
      cases operation <;> simp [Phase.ledger, calledLedger, Bool.toNat_le]
  | _ => simp [Phase.ledger, calledLedger, Bool.toNat_le]

theorem unapproved_ledger {phase : Phase} (hphase : RecordsRightly input phase)
    (h : (phase.ledger input.hasGovernor).approved = 0) :
    (phase.ledger input.hasGovernor).successes = 0 ∧
      (phase.ledger input.hasGovernor).failures = 0 := by
  cases phase with
  | recorded operation output =>
      rw [hphase.1] at h
      cases operation <;> cases h
  | _ => exact ⟨rfl, rfl⟩

/-- An admitted run that ends without an exception has been recorded. -/
theorem recorded_of_ended {phase : Phase} (ended : phase.isEnded input.hasGovernor = true)
    (h : (phase.ledger input.hasGovernor).approved = 1) :
    ∃ operation output, phase = .recorded operation output := by
  cases phase with
  | recorded operation output => exact ⟨operation, output, rfl⟩
  | owing =>
      cases hgov : input.hasGovernor <;> rw [hgov] at h ended
      · cases h
      · cases ended
  | completed =>
      cases hgov : input.hasGovernor <;> rw [hgov] at h ended
      · cases h
      · cases ended
  | delivered => cases ended
  | admitted => cases ended
  | _ => cases h

theorem recorded_ledger {operation : GovernorRecord} {output : Option Value}
    (h : RecordsRightly input (.recorded operation output)) :
    (Phase.ledger input.hasGovernor (.recorded operation output)).successes
        + (Phase.ledger input.hasGovernor (.recorded operation output)).failures = 1 ∧
      ((Phase.ledger input.hasGovernor (.recorded operation output)).successes = 1 ↔
        ∃ v, (Phase.ledger input.hasGovernor (.recorded operation output)).completed = some v ∧
          isCleanOutput input.enricher v = true) := by
  obtain ⟨_, ⟨rfl, rfl⟩ | ⟨v, rfl, rfl, _⟩⟩ := h
  · simp [Phase.ledger, calledLedger]
  · rw [recordOf]
    by_cases hclean : isCleanOutput input.enricher v = true
    · simp [hclean, Phase.ledger, calledLedger]
    · simp [hclean, Phase.ledger, calledLedger]

/-- In a run that has not settled, a completed output is never a sparse one. -/
theorem dense_of_unsettled {phase : Phase} {op : RunnerOp} {output : Value}
    (h : Step input phase ⟨op, none⟩ (.completed output)) :
    isSparseOutput input.enricher output = false := by
  generalize htarget : Phase.completed output = target at h
  generalize hevent : (⟨op, none⟩ : RunnerEvent) = e at h
  cases h with
  | quiet still hop answer =>
      rw [← htarget] at still
      simpa [Phase.isQuiet] using still
  | _ =>
      cases hevent
      cases htarget

theorem step_admission {phase phase' : Phase} {token : Text} {answer : Option Called}
    (h : Step input phase ⟨.admission token, answer⟩ phase') : phase = .clear := by
  generalize hevent : (⟨.admission token, answer⟩ : RunnerEvent) = e at h
  cases h with
  | admission governed answer => rfl
  | quiet still hop answer =>
      cases hevent
      cases hop
  | @completed governed output dense operation hrecord answer => cases operation <;> cases hevent
  | _ => cases hevent

theorem step_enrich {phase phase' : Phase} {previousOutcomes : List (Option EnrichmentOutcome)}
    {ms : Option Rat} {answer : Option Bounded}
    (h : Step input phase ⟨.enrich previousOutcomes ms, answer⟩ phase') :
    MayEnrich input phase ∧ previousOutcomes = input.previousOutcomes := by
  generalize hevent : (⟨.enrich previousOutcomes ms, answer⟩ : RunnerEvent) = e at h
  cases h with
  | enrich free answer =>
      cases hevent
      exact ⟨Or.inl ⟨free, rfl⟩, rfl⟩
  | admitted governed answer =>
      cases hevent
      exact ⟨Or.inr ⟨governed, rfl⟩, rfl⟩
  | quiet still hop answer =>
      cases hevent
      cases hop
  | @completed governed output dense operation hrecord answer => cases operation <;> cases hevent
  | _ => cases hevent

/-- A sparse report ends the run right where it completes. -/
theorem settled_of_sparse (run : Runs (runEnricher input) trace result) {output : Value}
    (h : Follows (Step input) .opening trace (.completed output))
    (sparse : isSparseOutput input.enricher output = true) : result.isSome := by
  cases result with
  | some r => rfl
  | none =>
      obtain ⟨before, op, rfl⟩ := run.waiting_last
      obtain ⟨s₁, s₂, _, hstep, hnil⟩ := h.split
      cases hnil
      rw [dense_of_unsettled hstep] at sparse
      cases sparse

theorem protocol_of_dense (run : Runs (runEnricher input) trace result)
    (dense : ¬ResolvedSparse input trace) : Protocol input trace result := by
  obtain ⟨phase, hfollows, hconcluded⟩ := phase_of_run run
  have hpast := pastOf_follows hfollows
  obtain ⟨hadmits, henriches, hrecords, hhits⟩ := ledger_bounds input.hasGovernor phase
  have hrecorded : (ledger trace).approved = 1 → result.isSome →
      ∃ operation output, phase = .recorded operation output := by
    intro happroved hresult
    obtain ⟨r, rfl⟩ := Option.isSome_iff_exists.mp hresult
    have hr := hconcluded r rfl
    cases r with
    | ok r =>
        rw [hpast.ledger] at happroved
        exact recorded_of_ended hr.2.1 happroved
    | error e =>
        rcases hr with ⟨cached, rfl, _⟩ | ⟨output, rfl, sparse⟩
        · rw [hpast.ledger] at happroved
          cases happroved
        · refine absurd ⟨happroved, output, ?_, sparse⟩ dense
          rw [hpast.ledger]
          rfl
  refine
    { admit_once := by rw [hpast.ledger]; exact hadmits
      admit_after_read := ?_
      enrich_once := by rw [hpast.ledger]; exact henriches
      enrich_admitted := ?_
      recorded_once := ⟨by rw [hpast.ledger]; exact hrecords, ?_⟩
      recorded_success := ?_
      unrecorded := ?_
      hit_stops := by rw [hpast.ledger]; exact hhits }
  · rintro before after token answer rfl
    obtain ⟨s₁, s₂, hbefore, hstep, _⟩ := hfollows.split
    have hread := (pastOf_follows hbefore).read
    rw [step_admission hstep] at hread
    exact hread rfl
  · rintro before after previousOutcomes ms answer rfl
    obtain ⟨s₁, s₂, hbefore, hstep, _⟩ := hfollows.split
    rcases (step_enrich hstep).1 with ⟨free, _⟩ | ⟨_, rfl⟩
    · exact Or.inl free
    · refine Or.inr ?_
      rw [(pastOf_follows hbefore).ledger]
      rfl
  · intro happroved hresult
    obtain ⟨operation, output, rfl⟩ := hrecorded happroved hresult
    rw [hpast.ledger]
    exact (recorded_ledger hpast.recorded).1
  · intro happroved hresult
    obtain ⟨operation, output, rfl⟩ := hrecorded happroved hresult
    rw [hpast.ledger]
    exact (recorded_ledger hpast.recorded).2
  · intro hunapproved
    rw [hpast.ledger] at hunapproved ⊢
    exact unapproved_ledger hpast.recorded hunapproved

theorem dense_of_protocol (run : Runs (runEnricher input) trace result)
    (h : Protocol input trace result) : ¬ResolvedSparse input trace := by
  rintro ⟨happroved, output, hcompleted, sparse⟩
  obtain ⟨phase, hfollows, _⟩ := phase_of_run run
  have hpast := pastOf_follows hfollows
  have hphase : phase = .completed output := by
    rw [hpast.ledger] at hcompleted
    cases phase with
    | completed v =>
        cases hcompleted
        rfl
    | recorded operation v =>
        have hv : v = some output := by
          cases operation <;> exact hcompleted
        obtain ⟨_, ⟨rfl, _⟩ | ⟨w, rfl, _, hdense⟩⟩ := hpast.recorded
        · cases hv
        · cases hv
          rw [hdense] at sparse
          cases sparse
    | _ => cases hcompleted
  cases hphase
  have honce := h.recorded_once.2 happroved (settled_of_sparse run hfollows sparse)
  rw [hpast.ledger] at honce
  cases honce

/-- A run keeps the protocol exactly when it was not admitted only to resolve to a report whose
outcomes are sparse before their first failure. -/
theorem protocol_iff_not_sparse (run : Runs (runEnricher input) trace result) :
    Protocol input trace result ↔ ¬ResolvedSparse input trace :=
  ⟨dense_of_protocol run, protocol_of_dense run⟩

end

/-! ### Two admitted runs -/

/-- A governed source without a cache. -/
def governedInput : RunnerInput where
  enricher := { id := text "dns", layer := .resolution }
  base :=
    { status := .ok, input := text "http://a.example/", parsed := none, score := some 0,
      severity := some .info, confidence := 1, reasons := [], confusables := [], checksRun := [],
      checksSkipped := [], dataVersions := DATA_VERSIONS, pslSnapshot := currentPslSnapshot 0 }
  previousOutcomes := []
  hasCache := false
  hasGovernor := true

def runDecision : Value := .obj [(text "run", .bool true)]

/-- The calls of a governed run whose provider resolves to `output`, up to its completion. -/
def completedCalls (output : Value) : List RunnerEvent :=
  [⟨.aborted, some false⟩, ⟨.admission governedInput.token, some (Called.value runDecision)⟩,
    ⟨.enrich [] (some 5000), some (Bounded.value output)⟩, ⟨.aborted, some false⟩]

/-- `{ schemaVersion: "1.0", outcomes: [,] }` -/
def sparseReport : Value :=
  .obj [(text "schemaVersion", .str (text "1.0")), (text "outcomes", .arr [none])]

theorem run_sparse :
    Runs (runEnricher governedInput) (completedCalls sparseReport) (some (.error .thrown)) := by
  refine .answered (.answered (.answered (.answered ?_)))
  exact .ret

/-- A run whose provider found nothing and answered in the flat form. -/
theorem run_empty (observedAt : Text) : ∃ report, Runs (runEnricher governedInput)
    (completedCalls (.arr []) ++ [⟨.clock, some observedAt⟩,
      ⟨.recordSuccess governedInput.token, some (Called.value .undefined)⟩])
    (some (.ok { token := governedInput.token, report })) := by
  refine ⟨{ outcomes := (readReport (cloneEnrichmentReport (legacyReport governedInput.enricher
    governedInput.base observedAt (.arr [])))).outcomes ++ [] }, ?_⟩
  refine .answered (.answered (.answered (.answered (.answered (.answered ?_)))))
  exact .ret

theorem sparse_run_unrecorded : ¬ ∀ input trace result,
    Runs (runEnricher input) trace result → Protocol input trace result := by
  intro h
  have honce := (h _ _ _ run_sparse).recorded_once.2 rfl rfl
  cases honce

theorem empty_run_protocol : ∃ report, Protocol governedInput
    (completedCalls (.arr []) ++ [⟨.clock, some (text "2026-01-01T00:00:00Z")⟩,
      ⟨.recordSuccess governedInput.token, some (Called.value .undefined)⟩])
    (some (.ok { token := governedInput.token, report })) := by
  obtain ⟨report, run⟩ := run_empty (text "2026-01-01T00:00:00Z")
  refine ⟨report, (protocol_iff_not_sparse run).mpr ?_⟩
  rintro ⟨_, output, hcompleted, sparse⟩
  cases hcompleted
  cases sparse

end Linklint
