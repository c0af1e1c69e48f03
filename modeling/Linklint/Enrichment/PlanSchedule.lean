import Linklint.Enrichment.PlanRuns
import Linklint.Lib.Parallel

/-!
# The schedule of a plan

Every plan comes to an end once what it started has settled, with one report for
each entry, and starts an entry at most once and only after its prerequisites.
A source run that throws past its guards takes the whole plan with it.
-/

namespace Linklint

open Interaction

section
variable {plan : PlanInput} {board : Board} {log : List PlanLabel} {control : Control}

/-! ### The executor comes to an end -/

def Proc.Goes (p p' : Proc) : Prop := ∃ label, ProcStep p label p'

def Goes (plan : PlanInput) (control control' : Control) : Prop :=
  ∃ label, PlanStep plan control label control'

/-- No source run calls for ever. -/
theorem acc_proc (p : Proc) : Acc (fun next current => Proc.Goes current next) p := by
  obtain ⟨index, past, program, called⟩ := p
  induction program generalizing past called with
  | ret result =>
      refine .intro _ fun next hnext => ?_
      obtain ⟨label, hstep⟩ := hnext
      cases hstep
  | call op rest ih =>
      have hcalled (past : List RunnerEvent) :
          Acc (fun next current => Proc.Goes current next) ⟨index, past, .call op rest, true⟩ := by
        refine .intro _ fun next hnext => ?_
        obtain ⟨label, hstep⟩ := hnext
        cases hstep with
        | answer answer => exact ih answer _ _
      cases called with
      | true => exact hcalled past
      | false =>
          refine .intro _ fun next hnext => ?_
          obtain ⟨label, hstep⟩ := hnext
          cases hstep with
          | call => exact hcalled past

theorem acc_procs (procs : List Proc) :
    Acc (fun next current => Parallel.Steps Proc.Goes current next) procs :=
  Parallel.acc_steps fun p _ => acc_proc p

theorem acc_settled (runs : List EnricherRun) :
    Acc (fun next current => Goes plan current next) (.settled runs) := by
  refine .intro _ fun next hnext => ?_
  obtain ⟨label, hstep⟩ := hnext
  cases hstep

theorem acc_rejected (procs : List Proc) :
    Acc (fun next current => Goes plan current next) (.rejected board procs) := by
  induction acc_procs procs with
  | intro procs _ ih =>
      refine .intro _ fun next hnext => ?_
      obtain ⟨label, hstep⟩ := hnext
      cases hstep with
      | detached hp => exact ih _ (.one ⟨_, hp⟩)

/-- A stage comes to an end when the loop does over every smaller board. -/
theorem acc_running {procs : List Proc} (hne : procs ≠ []) (inv : StageInv plan board procs)
    (hsmaller : ∀ board', BoardInv plan board' → board'.pending.length < board.pending.length →
      Acc (fun next current => Goes plan current next) (.looping board')) :
    Acc (fun next current => Goes plan current next) (.running board procs) := by
  induction acc_procs procs with
  | intro procs _ ih =>
      refine .intro _ fun next hnext => ?_
      obtain ⟨label, hstep⟩ := hnext
      cases hstep with
      | proc hp => exact ih _ (.one ⟨_, hp⟩) (by simp) (inv.proc hp)
      | joined hjoined =>
          have hall := settlesAll_join inv hjoined
          obtain ⟨p, hp⟩ := List.exists_mem_of_ne_nil _ hne
          refine hsmaller _ hall.1 (hall.shrinks ⟨p.index, ?_, (inv.launched p hp).pending⟩)
          exact List.mem_map_of_mem hp
      | failed hmem hthrown => exact acc_rejected procs

theorem acc_looping (inv : BoardInv plan board) :
    Acc (fun next current => Goes plan current next) (.looping board) := by
  induction hsize : board.pending.length using Nat.strongRecOn generalizing board with
  | ind size ih =>
      have hsmaller : ∀ board', BoardInv plan board' →
          board'.pending.length < board.pending.length →
          Acc (fun next current => Goes plan current next) (.looping board') :=
        fun board' hboard hlt => ih _ (hsize ▸ hlt) hboard rfl
      refine .intro _ fun next hnext => ?_
      obtain ⟨label, hstep⟩ := hnext
      have hnext := controlInv_step (show ControlInv plan (.looping board) from inv) hstep
      cases hstep with
      | finish clock hpending => exact acc_settled _
      | turned hpending hturn =>
          rcases turn_cases inv hpending _ _ with ⟨_, hstage, _⟩ | ⟨_, _, hsettled, hall, hsome⟩
          · rw [hstage] at hturn
            cases hturn
          · rw [hsettled] at hturn
            cases hturn
            exact hsmaller _ hall.1 (hall.shrinks hsome)
      | staged hturn => exact acc_running hnext.1 hnext.2 hsmaller
      | threw hturn => exact acc_rejected []

/-- The executor cannot go on for ever from any state it reaches. -/
theorem acc_of_run (run : PlanRun plan log control) :
    Acc (fun next current => Goes plan current next) control := by
  have inv := controlInv_run run
  cases control with
  | looping board => exact acc_looping inv
  | running board procs =>
      exact acc_running inv.1 inv.2 fun board' hboard _ => acc_looping hboard
  | settled runs => exact acc_settled runs
  | rejected board procs => exact acc_rejected procs

/-! ### The executor goes on -/

def PlanLabel.isAnswer : PlanLabel → Bool
  | .answer _ _ _ => true
  | _ => false

/-- A source run has made a call that has not been answered. -/
def Proc.Waits (p : Proc) : Prop := p.called = true ∧ ∃ op next, p.program = .call op next

theorem stageRuns_of_finished (procs : List Proc)
    (h : ∀ p ∈ procs, ∃ run, p.program = .ret (.ok run)) :
    ∃ stageRuns : List (Nat × EnricherRun),
      List.Forall₂ (fun p run => p.index = run.1 ∧ p.program = .ret (.ok run.2)) procs stageRuns := by
  induction procs with
  | nil => exact ⟨[], .nil⟩
  | cons p rest ih =>
      obtain ⟨⟨run, hrun⟩, hrest⟩ := List.forall_mem_cons.mp h
      obtain ⟨stageRuns, hstage⟩ := ih hrest
      exact ⟨(p.index, run) :: stageRuns, .cons ⟨rfl, hrun⟩ hstage⟩

/-- Where the executor has not settled, it can go on by itself or waits for an answer. -/
theorem goes_or_waits (run : PlanRun plan log control) (whole : WholeLog plan log) :
    (∃ runs, control = .settled runs) ∨
      (∃ label control', PlanStep plan control label control' ∧ label.isAnswer = false) ∨
      ∃ p ∈ control.procs, p.Waits := by
  have inv := controlInv_run run
  cases control with
  | settled runs => exact Or.inl ⟨runs, rfl⟩
  | looping board =>
      refine Or.inr (Or.inl ?_)
      by_cases hpending : board.pending = []
      · exact ⟨_, _, .finish (fun _ => []) hpending, rfl⟩
      · rcases turn_cases inv hpending false (fun _ => []) with ⟨_, hstage, _⟩ | ⟨_, _, hsettled, _⟩
        · exact ⟨_, _, .staged hstage, rfl⟩
        · exact ⟨_, _, .turned hpending hsettled, rfl⟩
  | running board procs =>
      refine Or.inr ?_
      by_cases hfinished : ∀ p ∈ procs, ∃ result, p.program = .ret result
      · obtain ⟨stageRuns, hstage⟩ := stageRuns_of_finished procs fun p hp => by
          obtain ⟨result, hresult⟩ := hfinished p hp
          obtain ⟨returned, rfl⟩ := proc_returns run whole hp hresult
          exact ⟨returned, hresult⟩
        exact Or.inl ⟨_, _, .joined hstage, rfl⟩
      · push Not at hfinished
        obtain ⟨p, hp, hunfinished⟩ := hfinished
        obtain ⟨index, past, program, called⟩ := p
        cases program with
        | ret result => exact absurd rfl (hunfinished result)
        | call op next =>
            cases called with
            | true => exact Or.inr ⟨_, hp, rfl, op, next, rfl⟩
            | false =>
                obtain ⟨before, after, rfl⟩ := List.append_of_mem hp
                exact Or.inl ⟨_, _, .proc .call, rfl⟩
  | rejected board procs => exact absurd run (not_rejected whole)

/-! ### The reports -/

theorem Origin.report {i : Nat} {step : PlannedEnricher} {run : EnricherRun}
    (h : Origin plan i run) (hstep : plan.steps[i]? = some step) :
    run.token = step.token ∧ run.report.outcomes ≠ [] := by
  cases h with
  | skipped hstep' hcode hrun =>
      rw [hstep] at hstep'
      cases hstep'
      rw [hrun]
      exact ⟨rfl, List.cons_ne_nil _ _⟩
  | ran hstep' valid hruns =>
      rw [hstep] at hstep'
      cases hstep'
      obtain ⟨htoken, hne, _⟩ := every_of_run hruns
      rw [steps_getElem?] at hstep
      obtain ⟨enricher, _, rfl⟩ := Option.map_eq_some_iff.mp hstep
      exact ⟨htoken, hne⟩

/-- One report for each entry, at its index and from where reports come from. -/
def Reports (plan : PlanInput) (runs : List EnricherRun) : Prop :=
  runs.length = plan.enrichers.length ∧ ∀ i step, plan.steps[i]? = some step →
    ∃ run, runs[i]? = some run ∧ run.token = step.token ∧ run.report.outcomes ≠ [] ∧
      Origin plan i run

theorem reports_of_settled (inv : BoardInv plan board) (hpending : board.pending = [])
    {runs : List EnricherRun} (hruns : board.runs = runs.map some) : Reports plan runs := by
  refine ⟨?_, fun i step hstep => ?_⟩
  · have hlength := inv.length
    rw [hruns, List.length_map, PlanInput.steps, List.length_mapIdx] at hlength
    exact hlength
  · have hlt := (List.getElem?_eq_some_iff.mp hstep).1
    obtain ⟨run, hrun, horigin⟩ := inv.filled i hlt (by simp [hpending])
    rw [hruns, List.getElem?_map, Option.map_eq_some_iff] at hrun
    obtain ⟨run', hrun', heq⟩ := hrun
    cases heq
    obtain ⟨htoken, hne⟩ := horigin.report hstep
    exact ⟨run, hrun', htoken, hne, horigin⟩

/-- The slots of the loop are the reports: none is left to the fallback. -/
theorem slots_of_settled {runs : List EnricherRun} (run : PlanRun plan log (.settled runs)) :
    ∃ before board, log = before ++ [.plan] ∧ PlanRun plan before (.looping board) ∧
      board.pending = [] ∧ board.runs = runs.map some := by
  cases run with
  | step run h =>
      cases h with
      | finish clock hpending =>
          exact ⟨_, _, rfl, run, hpending, runs_of_assemble (controlInv_run run) hpending clock⟩

/-- The board of a stage is one the loop was at before. -/
theorem loop_of_stage (run : PlanRun plan log control) (hstage : control.stage = some board) :
    ∃ before after, log = before ++ .plan :: after ∧ PlanRun plan before (.looping board) := by
  induction run with
  | start clock => cases hstage
  | @step log control control' label run h ih =>
      cases h with
      | finish | turned | joined => cases hstage
      | staged | threw =>
          cases hstage
          exact ⟨log, [], rfl, run⟩
      | failed =>
          obtain ⟨before, after, rfl, hbefore⟩ := ih hstage
          exact ⟨before, after ++ [.plan], List.append_assoc .., hbefore⟩
      | proc | detached =>
          obtain ⟨before, after, rfl, hbefore⟩ := ih hstage
          exact ⟨before, after ++ [label], List.append_assoc .., hbefore⟩

/-! ### The schedule -/

/-- What holds of a plan in every state of a run. -/
structure Scheduled (plan : PlanInput) (log : List PlanLabel) (control : Control) : Prop where
  /-- The executor cannot go on for ever. -/
  ends : Acc (fun next current => Goes plan current next) control
  goesOn : (∃ runs, control = .settled runs) ∨
    (∃ label control', PlanStep plan control label control' ∧ label.isAnswer = false) ∨
    ∃ p ∈ control.procs, p.Waits
  neverRejects : ∀ board procs, control ≠ .rejected board procs
  reports : ∀ runs, control = .settled runs → Reports plan runs
  /-- No slot is left unsettled. -/
  slots : ∀ runs, control = .settled runs → ∃ before board, log = before ++ [.plan] ∧
    PlanRun plan before (.looping board) ∧ board.pending = [] ∧ board.runs = runs.map some
  once : ∀ i, startsOf i log ≤ 1
  /-- What a provider is started over. -/
  started : ∀ before i previousOutcomes ms,
    log = before ++ [.call i (.enrich previousOutcomes ms)] →
      ∃ board loop after, before = loop ++ .plan :: after ∧ PlanRun plan loop (.looping board) ∧
        control.stage = some board ∧ StartsOver plan board i previousOutcomes
  /-- A cycle is looked for only where there is one. -/
  cycle : ∀ board, control = .looping board → Consults plan board →
    findDependencyCycle plan board ≠ [] ∧ ∀ i ∈ findDependencyCycle plan board, OnCycle plan i

/-- Every run whose answers are whole keeps the schedule. -/
theorem plan_scheduled (run : PlanRun plan log control) (whole : WholeLog plan log) :
    Scheduled plan log control where
  ends := acc_of_run run
  goesOn := goes_or_waits run whole
  neverRejects board procs := by
    rintro rfl
    exact not_rejected whole run
  reports runs := by
    rintro rfl
    obtain ⟨board, inv, hpending, hruns⟩ := controlInv_run run
    exact reports_of_settled inv hpending hruns
  slots runs := by
    rintro rfl
    exact slots_of_settled run
  once := startsOf_le run
  started before i previousOutcomes ms := by
    rintro rfl
    obtain ⟨board, hstage, hstarts⟩ := startsOver_of_run run
    obtain ⟨loop, after, hsplit, hloop⟩ := loop_of_stage run hstage
    rcases List.eq_nil_or_concat after with rfl | ⟨init, last, rfl⟩
    · have hlast := (List.append_inj' hsplit rfl).2
      cases hlast
    · rw [List.concat_eq_append, ← List.cons_append, ← List.append_assoc] at hsplit
      exact ⟨board, loop, init, (List.append_inj' hsplit rfl).1, hloop, hstage, hstarts⟩
  cycle board := by
    rintro rfl hconsults
    obtain ⟨hne, hcycle⟩ := findDependencyCycle_of_consults (controlInv_run run) hconsults
    exact ⟨hne, fun i hi => (hcycle i hi).2⟩

/-! ### Source runs inside a plan -/

/-- The calls of a source run, each with its answer. -/
def callLabels (index : Nat) (trace : List RunnerEvent) : List PlanLabel :=
  trace.flatMap fun e =>
    .call index e.op :: e.answer.elim [] fun answer => [.answer index e.op answer]

/-- A stage can go through with one of its source runs while the others stand still. -/
theorem planRun_of_runs (before after : List Proc) {index : Nat} {past trace : List RunnerEvent}
    {program : RunnerProg (Except Thrown EnricherRun)} {result : Except Thrown EnricherRun}
    (run : PlanRun plan log (.running board (before ++ ⟨index, past, program, false⟩ :: after)))
    (h : Runs program trace (some result)) :
    PlanRun plan (log ++ callLabels index trace)
      (.running board (before ++ ⟨index, past ++ trace, .ret result, false⟩ :: after)) := by
  generalize hfinal : some result = final at h
  induction h generalizing log past with
  | ret =>
      cases hfinal
      simpa [callLabels] using run
  | waiting => cases hfinal
  | @answered op next answer trace final rest ih =>
      have hcalled := PlanRun.step run (.proc .call)
      have hanswered := PlanRun.step hcalled (.proc (.answer answer))
      simpa [callLabels] using ih hanswered hfinal

end

/-! ### Plans of one entry -/

def governedPlan : PlanInput where
  enrichers := [governedInput.enricher]
  base := governedInput.base
  hasCache := governedInput.hasCache
  hasGovernor := governedInput.hasGovernor

/-- The only entry has finished its source run. -/
theorem governedPlan_runs {trace : List RunnerEvent} {result : Except Thrown EnricherRun}
    (h : Runs (runEnricher governedInput) trace (some result)) :
    PlanRun governedPlan (.plan :: callLabels 0 trace)
      (.running ⟨[none], [0]⟩ [⟨0, trace, .ret result, false⟩]) := by
  have hturn : turn governedPlan false (fun _ => []) (preflight governedPlan fun _ => []) =
      .ok (.stage [0]) := rfl
  exact planRun_of_runs [] [] (.step (.start fun _ => []) (.staged hturn)) h

/-- The only entry has been reported on. -/
theorem governedPlan_settles {trace : List RunnerEvent} {run : EnricherRun}
    (h : Runs (runEnricher governedInput) trace (some (.ok run))) :
    PlanRun governedPlan (.plan :: callLabels 0 trace ++ [.plan] ++ [.plan]) (.settled [run]) := by
  have finished : List.Forall₂ (fun p run => p.index = run.1 ∧ p.program = .ret (.ok run.2))
      [(⟨0, trace, .ret (.ok run), false⟩ : Proc)] [(0, run)] := .cons ⟨rfl, rfl⟩ .nil
  exact .step (.step (governedPlan_runs h) (.joined finished)) (.finish (fun _ => []) rfl)

theorem governedPlan_rejects : PlanRun governedPlan
    (.plan :: callLabels 0 (completedCalls sparseReport) ++ [.plan])
    (.rejected ⟨[none], [0]⟩
      [⟨0, completedCalls sparseReport, .ret (.error .thrown), false⟩]) :=
  .step (governedPlan_runs run_sparse) (.failed (List.mem_singleton_self _) rfl)

theorem sparse_plan_unscheduled :
    ¬ ∀ plan log control, PlanRun plan log control → Scheduled plan log control := by
  intro h
  exact (h _ _ _ governedPlan_rejects).neverRejects _ _ rfl

/-- The calls of a governed run whose provider finds nothing. -/
def emptyCalls : List RunnerEvent :=
  completedCalls (.arr []) ++ [⟨.clock, some (text "2026-01-01T00:00:00Z")⟩,
    ⟨.recordSuccess governedInput.token, some (Called.value .undefined)⟩]

theorem emptyCalls_whole : WholeTrace governedInput.enricher emptyCalls where
  completed output h := by
    cases h
    rfl
  served key ms cached h := by
    simp [emptyCalls, completedCalls] at h

theorem empty_plan_scheduled : ∃ runs, Scheduled governedPlan
    (.plan :: callLabels 0 emptyCalls ++ [.plan] ++ [.plan]) (.settled runs) := by
  obtain ⟨report, run⟩ := run_empty (text "2026-01-01T00:00:00Z")
  refine ⟨_, plan_scheduled (governedPlan_settles run) fun i step hstep => ?_⟩
  cases i with
  | zero =>
      cases hstep
      exact emptyCalls_whole
  | succ i => cases hstep

end Linklint
