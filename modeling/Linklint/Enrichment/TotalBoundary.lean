import Linklint.Enrichment.Boundary
import Linklint.Enrichment.PlanSchedule

/-!
# One enricher never fails the call

A plan none of whose accepted values has a hole settles, and its reports are
folded back. Every report is the executor's own or that of a source run whose
answers are those of the log.
-/

namespace Linklint

open Interaction

section
variable {plan : PlanInput} {board board' : Board} {log : List PlanLabel} {control : Control}

/-! ### Where the report of a slot comes from -/

/-- The report is the executor's own, or its source run has been answered as the log says. -/
inductive Answered (plan : PlanInput) (log : List PlanLabel) (i : Nat) (run : EnricherRun) : Prop
  | own {step : PlannedEnricher} {code : EnrichmentFrameworkCauseCode} {details : Option Value}
      {observedAt : Text} (h : run = skippedRun plan step code details observedAt)
  | source {step : PlannedEnricher} {board : Board} (hstep : plan.steps[i]? = some step)
      (hruns : Runs (runEnricher (plan.runnerInput step board)) (answersOf i log) (some (.ok run)))

def SlotsAnswered (plan : PlanInput) (log : List PlanLabel) (board : Board) : Prop :=
  ∀ (i : Nat) (run : EnricherRun), board.runs[i]? = some (some run) → Answered plan log i run

/-- Slots stay as they are, or the executor fills them. -/
def Skips (plan : PlanInput) (board board' : Board) : Prop :=
  ∀ (i : Nat) (run : EnricherRun), board'.runs[i]? = some (some run) →
    board.runs[i]? = some (some run) ∨
      ∃ step code details observedAt, run = skippedRun plan step code details observedAt

theorem Skips.refl (board : Board) : Skips plan board board := fun _ _ h => Or.inl h

theorem Skips.trans {board'' : Board} (h : Skips plan board board') (h' : Skips plan board' board'') :
    Skips plan board board'' := by
  intro i run hrun
  rcases h' i run hrun with hrun | hown
  · exact h i run hrun
  · exact Or.inr hown

theorem settle_slot {i j : Nat} {run run' : EnricherRun}
    (h : (board.settle i run).runs[j]? = some (some run')) :
    (j = i ∧ run' = run) ∨ board.runs[j]? = some (some run') := by
  rw [Board.settle] at h
  by_cases hij : i = j
  · subst hij
    simp only [List.getElem?_set_self', Option.map_eq_map, Option.map_eq_some_iff,
      Function.const_apply, Option.some.injEq] at h
    obtain ⟨_, _, heq⟩ := h
    exact Or.inl ⟨rfl, heq.symm⟩
  · rw [List.getElem?_set_ne hij] at h
    exact Or.inr h

theorem skips_skip (board : Board) (i : Nat) (code : EnrichmentFrameworkCauseCode)
    (details : PlannedEnricher → Option Value) (observedAt : Text) :
    Skips plan board (board.skip plan i code details observedAt) := by
  rw [Board.skip]
  cases plan.steps[i]? with
  | none => exact .refl board
  | some step =>
      intro j run hrun
      rcases settle_slot hrun with ⟨_, rfl⟩ | hrun
      · exact Or.inr ⟨_, _, _, _, rfl⟩
      · exact Or.inl hrun

theorem skips_foldl (code : EnrichmentFrameworkCauseCode)
    (details : PlannedEnricher → Option Value) (clock : Nat → Text) (l : List Nat) (start : Board) :
    Skips plan start
      (l.foldl (fun board i => board.skip plan i code details (clock i)) start) := by
  induction l generalizing start with
  | nil => exact .refl start
  | cons i rest ih => exact (skips_skip start i code details (clock i)).trans (ih _)

theorem skips_skipBlocked {clock : Nat → Text} {blocked : List Nat}
    (h : skipBlocked plan clock blocked board = .ok board') : Skips plan board board' := by
  induction blocked generalizing board with
  | nil =>
      cases h
      exact .refl _
  | cons i rest ih =>
      obtain ⟨unavailable, -, hrest⟩ := bind_eq_ok.mp h
      exact Skips.trans (skips_skip board i _ _ _) (ih hrest)

/-- A turn only fills slots with the executor's own reports. -/
theorem skips_turn {aborted : Bool} {clock : Nat → Text}
    (h : turn plan aborted clock board = .ok (.settled board')) : Skips plan board board' := by
  rw [turn] at h
  split at h
  · cases h
    exact fun i run hrun => skips_foldl _ _ _ _ _ i run hrun
  · obtain ⟨ready, -, h⟩ := bind_eq_ok.mp h
    split at h
    · cases h
    · obtain ⟨blocked, -, h⟩ := bind_eq_ok.mp h
      split at h
      · obtain ⟨skipped, hskipped, h⟩ := bind_eq_ok.mp h
        cases h
        exact skips_skipBlocked hskipped
      · cases h
        exact skips_foldl _ _ _ _ _

theorem SlotsAnswered.skips (h : SlotsAnswered plan log board) (hskips : Skips plan board board') :
    SlotsAnswered plan log board' := by
  intro i run hrun
  rcases hskips i run hrun with hrun | ⟨step, code, details, observedAt, hown⟩
  · exact h i run hrun
  · exact .own hown

theorem slotsAnswered_preflight (clock : Nat → Text) :
    SlotsAnswered plan [] (preflight plan clock) := by
  intro i run hrun
  simp only [preflight, List.getElem?_map, Option.map_eq_some_iff] at hrun
  obtain ⟨step, -, details, -, rfl⟩ := hrun
  exact .own rfl

/-- A label that answers no filled slot changes nothing about the slots. -/
theorem SlotsAnswered.snoc {label : PlanLabel} (h : SlotsAnswered plan log board)
    (hlabel : ∀ i run, board.runs[i]? = some (some run) → label.answerTo i = none) :
    SlotsAnswered plan (log ++ [label]) board := by
  intro i run hrun
  have hsame : answersOf i (log ++ [label]) = answersOf i log := by
    rw [answersOf, List.filterMap_append, List.filterMap_cons, hlabel i run hrun,
      List.filterMap_nil, List.append_nil]
    rfl
  cases h i run hrun with
  | own hown => exact .own hown
  | source hstep hruns => exact .source hstep (hsame ▸ hruns)

theorem SlotsAnswered.silent (h : SlotsAnswered plan log board) :
    SlotsAnswered plan (log ++ [.plan]) board := h.snoc fun _ _ _ => rfl

/-- Joining a stage fills the slots of its source runs. -/
theorem join_slot {stageRuns : List (Nat × EnricherRun)} {i : Nat} {run : EnricherRun}
    (h : (board.join stageRuns).runs[i]? = some (some run)) :
    (i, run) ∈ stageRuns ∨ board.runs[i]? = some (some run) := by
  induction stageRuns generalizing board with
  | nil => exact Or.inr h
  | cons first rest ih =>
      rcases ih h with hmem | hslot
      · exact Or.inl (List.mem_cons_of_mem _ hmem)
      · rcases settle_slot hslot with ⟨rfl, rfl⟩ | hslot
        · exact Or.inl (List.mem_cons_self ..)
        · exact Or.inr hslot

theorem proc_of_stageRun {procs : List Proc} {stageRuns : List (Nat × EnricherRun)}
    (h : List.Forall₂ (fun p run => p.index = run.1 ∧ p.program = .ret (.ok run.2)) procs stageRuns)
    {i : Nat} {run : EnricherRun} (hmem : (i, run) ∈ stageRuns) :
    ∃ p ∈ procs, p.index = i ∧ p.program = .ret (.ok run) := by
  induction h with
  | nil => cases hmem
  | @cons p first procs stageRuns hfirst _ ih =>
      rcases List.mem_cons.mp hmem with rfl | hmem
      · exact ⟨p, List.mem_cons_self .., hfirst⟩
      · obtain ⟨q, hq, hpair⟩ := ih hmem
        exact ⟨q, List.mem_cons_of_mem _ hq, hpair⟩

/-- What is known of the slots in each state of the executor. -/
def SlotsInv (plan : PlanInput) (log : List PlanLabel) : Control → Prop
  | .looping board => SlotsAnswered plan log board
  | .running board _ => SlotsAnswered plan log board
  | .settled runs => ∀ i run, runs[i]? = some run → Answered plan log i run
  | .rejected _ _ => True

theorem slotsInv_run (run : PlanRun plan log control) : SlotsInv plan log control := by
  induction run with
  | start clock => exact slotsAnswered_preflight clock
  | @step log control control' label run h ih =>
      have inv := controlInv_run run
      cases h with
      | @finish board clock hpending =>
          intro i run' hrun
          refine SlotsAnswered.silent (show SlotsAnswered plan log board from ih) i run' ?_
          rw [runs_of_assemble inv hpending clock, List.getElem?_map, hrun]
          rfl
      | turned hpending hturn => exact SlotsAnswered.silent (ih.skips (skips_turn hturn))
      | staged hturn => exact SlotsAnswered.silent ih
      | threw hturn => trivial
      | @proc board before after p p' label hp =>
          refine SlotsAnswered.snoc ih fun i run' hrun => ?_
          refine (hp.seen.2 i ?_).2
          rintro rfl
          have hmem : p ∈ before ++ p :: after := List.mem_append_right _ (List.mem_cons_self ..)
          have hempty := (inv.2.settled.pending _ (inv.2.launched p hmem).pending).2
          rw [hrun] at hempty
          cases hempty
      | @joined board procs stageRuns hjoined =>
          refine SlotsAnswered.silent fun i run' hrun => ?_
          rcases join_slot hrun with hmem | hslot
          · obtain ⟨p, hp, rfl, hprogram⟩ := proc_of_stageRun hjoined hmem
            obtain ⟨⟨board', _, _, step, hstep, hreached⟩, hanswers⟩ := launched_of_run run hp
            rw [hprogram] at hreached
            have hruns := hreached.runs .ret
            rw [List.append_nil, ← hanswers] at hruns
            exact .source hstep hruns
          · exact ih i run' hslot
      | failed hmem hthrown => trivial
      | detached hp => trivial

/-! ### Dense plans -/

theorem DenseTrace.whole {enricher : Enricher} {trace : List RunnerEvent}
    (h : DenseTrace enricher trace) : WholeTrace enricher trace where
  completed output hcompleted := by
    cases hsparse : isSparseOutput enricher output with
    | false => rfl
    | true =>
        have hholes := holes_of_sparse hsparse
        rw [h.completed output hcompleted] at hholes
        cases hholes
  served key ms cached hmem := normalizeCachedReport_returns (h.served key ms cached hmem)

/-- No entry was answered with a value that is accepted with a hole. -/
def DenseLog (plan : PlanInput) (log : List PlanLabel) : Prop :=
  ∀ i step, plan.steps[i]? = some step → DenseTrace step.enricher (answersOf i log)

theorem DenseLog.whole (dense : DenseLog plan log) : WholeLog plan log :=
  fun i step hstep => (dense i step hstep).whole

theorem readable_of_answered {i : Nat} {run : EnricherRun} (dense : DenseLog plan log)
    (h : Answered plan log i run) : ∀ outcome ∈ run.report.outcomes, Readable outcome := by
  cases h with
  | own hown =>
      rw [hown]
      intro outcome houtcome
      exact ⟨_, List.mem_singleton.mp houtcome, fun _ => List.not_mem_nil⟩
  | source hstep hruns => exact readable_of_dense hruns (dense i _ hstep)

/-- Which accepted values are reports after the clone. -/
structure CloneBoundary (enricher : Enricher) (base : InspectResult) : Prop where
  /-- `observedAt` is what the clock shows. -/
  flat : ∀ output observedAt, isEnricherFindingArray output = true →
    (isEnrichmentReport (some (identityOf enricher))
        (cloneEnrichmentReport (legacyReport enricher base observedAt output)) = true ↔
      ((Value.str enricher.id).isNonEmptyString = true ∧ isIsoText observedAt = true) ∧
        outputHoles enricher output = false)
  declared : ∀ output report, isEnricherFindingArray output = false →
    declaredReport enricher output = some report →
    (isEnrichmentReport (some (identityOf enricher)) report = true ↔
      outputHoles enricher output = false)
  cached : ∀ cached report, normalizeCachedReport enricher cached = .ok (some report) →
    (isEnrichmentReport (some (identityOf enricher)) report = true ↔
      cachedHoles enricher cached = false)

theorem cloneBoundary (enricher : Enricher) (base : InspectResult) :
    CloneBoundary enricher base where
  flat output observedAt hflat := by
    have haccepted : Accepted enricher base output _ := .legacy observedAt hflat
    rw [accepted_clone haccepted, isEnrichmentReport_legacy observedAt hflat, Bool.and_eq_true,
      Bool.and_eq_true, Bool.not_eq_true']
  declared output report hflat h := by
    have haccepted : Accepted enricher base output output :=
      .declared hflat (Option.isSome_of_eq_some h)
    obtain ⟨hreport, _, rfl⟩ := declaredReport_eq_some h
    rw [← cloneEnrichmentReport_of_json (isJsonValue_of_report hreport), accepted_clone haccepted,
      hreport, Bool.true_and, Bool.not_eq_true']
  cached cached report h := by
    rw [cached_clone h, Bool.not_eq_true']

/-- The call goes through: the executor comes to an end and never rejects, and what it settles to
is folded back. -/
structure Resolves (P : Platform) (rules : List SuppressionRule) (plan : PlanInput)
    (log : List PlanLabel) (control : Control) : Prop where
  ends : Acc (fun next current => Goes plan current next) control
  goesOn : (∃ runs, control = .settled runs) ∨
    (∃ label control', PlanStep plan control label control' ∧ label.isAnswer = false) ∨
    ∃ p ∈ control.procs, p.Waits
  neverRejects : ∀ board procs, control ≠ .rejected board procs
  readable : ∀ runs, control = .settled runs →
    ∀ run ∈ runs, ∀ outcome ∈ run.report.outcomes, Readable outcome
  folded : ∀ runs, control = .settled runs →
    ∃ result, foldRuns P plan.base plan.enrichers rules runs = .ok result

theorem readable_of_settled {runs : List EnricherRun} (run : PlanRun plan log (.settled runs))
    (dense : DenseLog plan log) :
    ∀ run ∈ runs, ∀ outcome ∈ run.report.outcomes, Readable outcome := by
  intro returned hreturned
  obtain ⟨i, hi⟩ := List.mem_iff_getElem?.mp hreturned
  exact readable_of_answered dense (slotsInv_run run i returned hi)

theorem resolves_of_dense (P : Platform) (rules : List SuppressionRule)
    (run : PlanRun plan log control) (dense : DenseLog plan log) :
    Resolves P rules plan log control where
  ends := acc_of_run run
  goesOn := goes_or_waits run dense.whole
  neverRejects board procs := by
    rintro rfl
    exact not_rejected dense.whole run
  readable runs := by
    rintro rfl
    exact readable_of_settled run dense
  folded runs := by
    rintro rfl
    by_cases hconfigured : plan.enrichers = []
    · exact ⟨plan.base, if_pos hconfigured⟩
    · exact (foldRuns_returns_iff P plan.base rules hconfigured).mpr (readable_of_settled run dense)

/-- What is accepted is a report again after the clone exactly without a hole, and a plan whose
accepted values have none goes through. -/
theorem boundary_total (P : Platform) (rules : List SuppressionRule)
    (run : PlanRun plan log control) :
    (∀ enricher ∈ plan.enrichers, CloneBoundary enricher plan.base) ∧
      (DenseLog plan log → Resolves P rules plan log control) :=
  ⟨fun enricher _ => cloneBoundary enricher plan.base, resolves_of_dense P rules run⟩

end

/-! ### Flat outputs of one entry -/

/-- The calls of a governed run whose provider answers in the flat form. -/
def flatCalls (output : Value) : List RunnerEvent :=
  completedCalls output ++ [⟨.clock, some (text "2026-01-01T00:00:00Z")⟩,
    ⟨.recordSuccess governedInput.token, some (Called.value .undefined)⟩]

/-- A flat output with a hole: its clone has a `null` finding. -/
theorem run_holey : ∃ run outcome,
    Runs (runEnricher governedInput) (flatCalls (.arr [none])) (some (.ok run)) ∧
      some outcome ∈ run.report.outcomes ∧ outcome.status = .success ∧ none ∈ outcome.findings := by
  obtain ⟨outcome, houtcomes, hsuccess, -, hnull⟩ :=
    @readReport_legacy governedInput.enricher governedInput.base (text "2026-01-01T00:00:00Z")
      (.arr [none]) rfl
  refine ⟨⟨governedInput.token, { outcomes := (readReport (cloneEnrichmentReport
    (legacyReport governedInput.enricher governedInput.base (text "2026-01-01T00:00:00Z")
      (.arr [none])))).outcomes ++ [] }⟩, outcome, ?_, ?_, hsuccess, hnull.mpr rfl⟩
  · refine .answered (.answered (.answered (.answered (.answered (.answered ?_)))))
    exact .ret
  · rw [houtcomes]
    exact List.mem_singleton_self _

/-- The plan settles, and the fold over its reports throws past every guard. -/
theorem holey_findings_throw : ¬ ∀ P rules plan log runs, PlanRun plan log (.settled runs) →
    ∃ result, foldRuns P plan.base plan.enrichers rules runs = .ok result := by
  intro h
  obtain ⟨run, outcome, hruns, hmem, hsuccess, hnull⟩ := run_holey
  have hfolded := h .ascii [] _ _ _ (governedPlan_settles hruns)
  have hreadable := (foldRuns_returns_iff .ascii _ [] (List.cons_ne_nil _ _)).mp hfolded
  obtain ⟨_, ho, hdense⟩ := hreadable run (List.mem_singleton_self _) _ hmem
  cases ho
  exact hdense hsuccess hnull

theorem emptyCalls_dense : DenseTrace governedInput.enricher emptyCalls where
  completed output h := by
    cases h
    rfl
  served key ms cached h := by
    simp [emptyCalls, completedCalls] at h

theorem empty_plan_resolves : ∃ runs, Resolves .ascii [] governedPlan
    (.plan :: callLabels 0 emptyCalls ++ [.plan] ++ [.plan]) (.settled runs) := by
  obtain ⟨report, run⟩ := run_empty (text "2026-01-01T00:00:00Z")
  refine ⟨_, (boundary_total .ascii [] (governedPlan_settles run)).2 fun i step hstep => ?_⟩
  cases i with
  | zero =>
      cases hstep
      exact emptyCalls_dense
  | succ i => cases hstep

end Linklint
