import Linklint.Enrichment.PlanTurns
import Linklint.Enrichment.Protocol

/-!
# Runs of the plan executor

What holds of the executor in every state it reaches, whatever the order in which
the source runs of a stage call and are answered.
-/

namespace Linklint

open Interaction

section
variable {plan : PlanInput} {board : Board} {p p' : Proc} {label : PlanLabel}

/-! ### A stage in progress -/

/-- A source run that the stage over a board has started. -/
structure Launched (plan : PlanInput) (board : Board) (p : Proc) : Prop where
  pending : p.index ∈ board.pending
  available : ∀ dependency ∈ dependenciesAt plan p.index,
    DependencySettled plan board RunAvailable dependency
  reached : ∃ step, plan.steps[p.index]? = some step ∧
    Reaches (runEnricher (plan.runnerInput step board)) p.past p.program

structure StageInv (plan : PlanInput) (board : Board) (procs : List Proc) : Prop where
  settled : BoardInv plan board
  distinct : (procs.map (·.index)).Nodup
  launched : ∀ p ∈ procs, Launched plan board p

theorem ProcStep.index_eq (h : ProcStep p label p') : p'.index = p.index := by
  cases h <;> rfl

theorem ProcStep.reaches {program : RunnerProg (Except Thrown EnricherRun)}
    (h : ProcStep p label p') (reached : Reaches program p.past p.program) :
    Reaches program p'.past p'.program := by
  cases h with
  | call => exact reached
  | answer answer => exact .answered reached answer

theorem StageInv.proc {before after : List Proc} (inv : StageInv plan board (before ++ p :: after))
    (h : ProcStep p label p') : StageInv plan board (before ++ p' :: after) := by
  refine ⟨inv.settled, ?_, fun q hq => ?_⟩
  · have hdistinct := inv.distinct
    rw [List.map_append, List.map_cons, h.index_eq, ← List.map_cons, ← List.map_append]
    exact hdistinct
  · rcases List.mem_append.mp hq with hq | hq
    · exact inv.launched q (List.mem_append_left _ hq)
    · rcases List.mem_cons.mp hq with rfl | hq
      · obtain ⟨hpending, havailable, step, hstep, hreached⟩ :=
          inv.launched p (List.mem_append_right _ (List.mem_cons_self ..))
        rw [← h.index_eq] at hpending havailable hstep
        exact ⟨hpending, havailable, step, hstep, h.reaches hreached⟩
      · exact inv.launched q (List.mem_append_right _ (List.mem_cons_of_mem _ hq))

theorem spawned_indexes {ready : List Nat} (hready : ∀ i ∈ ready, i < plan.steps.length) :
    (ready.filterMap (spawn plan board)).map (·.index) = ready := by
  induction ready with
  | nil => rfl
  | cons i rest ih =>
      obtain ⟨hlt, hrest⟩ := List.forall_mem_cons.mp hready
      have hspawn : spawn plan board i = some
          { index := i, past := []
            program := runEnricher (plan.runnerInput plan.steps[i] board), called := false } := by
        rw [spawn, List.getElem?_eq_getElem hlt]
        rfl
      rw [List.filterMap_cons_some hspawn, List.map_cons, ih hrest]

theorem stageInv_spawn (inv : BoardInv plan board) {ready : List Nat}
    (stages : Stages plan board ready) :
    ready.filterMap (spawn plan board) ≠ [] ∧
      StageInv plan board (ready.filterMap (spawn plan board)) := by
  have hlt : ∀ i ∈ ready, i < plan.steps.length :=
    fun i hi => lt_of_pending inv (stages.sublist.subset hi)
  have hindexes : (ready.filterMap (spawn plan board)).map (·.index) = ready := spawned_indexes hlt
  have hsorted := inv.sorted.sublist stages.sublist
  refine ⟨fun hnil => ?_, inv, ?_, fun p hp => ?_⟩
  · rw [hnil] at hindexes
    exact stages.nonempty hindexes.symm
  · rw [hindexes]
    exact hsorted.imp fun hlt => Nat.ne_of_lt hlt
  · obtain ⟨i, hi, hspawn⟩ := List.mem_filterMap.mp hp
    obtain ⟨step, hstep, rfl⟩ := Option.map_eq_some_iff.mp hspawn
    exact ⟨stages.sublist.subset hi, stages.available i hi, step, hstep, .start⟩

theorem origin_of_finished (inv : BoardInv plan board) {run : EnricherRun}
    (h : Launched plan board p) (hrun : p.program = .ret (.ok run)) :
    Origin plan p.index run := by
  obtain ⟨hpending, _, step, hstep, hreached⟩ := h
  rw [hrun] at hreached
  exact .ran hstep (inv.pending _ hpending).1 (hreached.runs .ret)

theorem origins_of_finished (inv : BoardInv plan board) {procs : List Proc}
    {stageRuns : List (Nat × EnricherRun)} (launched : ∀ p ∈ procs, Launched plan board p)
    (h : List.Forall₂ (fun p run => p.index = run.1 ∧ p.program = .ret (.ok run.2)) procs
      stageRuns) :
    stageRuns.map Prod.fst = procs.map (·.index) ∧ ∀ run ∈ stageRuns, Origin plan run.1 run.2 := by
  induction h with
  | nil => exact ⟨rfl, fun run hrun => by cases hrun⟩
  | cons hhead _ ih =>
      obtain ⟨hfirst, hlater⟩ := List.forall_mem_cons.mp launched
      obtain ⟨hindexes, horigins⟩ := ih hlater
      refine ⟨by rw [List.map_cons, List.map_cons, hindexes, hhead.1], ?_⟩
      refine List.forall_mem_cons.mpr ⟨?_, horigins⟩
      rw [← hhead.1]
      exact origin_of_finished inv hfirst hhead.2

/-- Where a stage has finished, its slots are settled and nothing else. -/
theorem settlesAll_join {procs : List Proc} {stageRuns : List (Nat × EnricherRun)}
    (inv : StageInv plan board procs)
    (h : List.Forall₂ (fun p run => p.index = run.1 ∧ p.program = .ret (.ok run.2)) procs
      stageRuns) :
    SettlesAll plan board (board.join stageRuns) (procs.map (·.index)) := by
  obtain ⟨hindexes, horigins⟩ := origins_of_finished inv.settled inv.launched h
  obtain ⟨hinv, hpending⟩ := boardInv_foldl (fun board run => board.settle run.1 run.2) Prod.fst
    stageRuns (fun board' hboard run hrun =>
      ⟨boardInv_settle hboard (horigins run hrun), fun j => mem_settle_pending⟩) inv.settled
  refine ⟨hinv, fun j => ?_⟩
  rw [← hindexes]
  exact hpending j

/-! ### Every state the executor reaches -/

theorem turn_of_settled (plan : PlanInput) {board : Board} (hpending : board.pending = [])
    (aborted : Bool) (clock : Nat → Text) :
    ∃ board', turn plan aborted clock board = .ok (.settled board') := by
  cases aborted with
  | true => exact ⟨_, rfl⟩
  | false =>
      rw [turn, hpending]
      exact ⟨_, rfl⟩

theorem runs_of_assemble (inv : BoardInv plan board) (hpending : board.pending = [])
    (clock : Nat → Text) : board.runs = (assemble plan clock board).map some := by
  refine List.ext_getElem? fun i => ?_
  rw [assemble, List.map_map, List.getElem?_map]
  cases hstep : plan.steps[i]? with
  | none =>
      rw [Option.map_none, List.getElem?_eq_none_iff, inv.length]
      exact List.getElem?_eq_none_iff.mp hstep
  | some step =>
      have hlt := (List.getElem?_eq_some_iff.mp hstep).1
      obtain ⟨run, hrun, _⟩ := inv.filled i hlt (by simp [hpending])
      simp [step_index hstep, hrun]

/-- What holds of the executor in each of its states. -/
def ControlInv (plan : PlanInput) : Control → Prop
  | .looping board => BoardInv plan board
  | .running board procs => procs ≠ [] ∧ StageInv plan board procs
  | .settled runs => ∃ board, BoardInv plan board ∧ board.pending = [] ∧ board.runs = runs.map some
  | .rejected board procs => StageInv plan board procs ∧
      ∃ p ∈ procs, ∃ e, p.program = .ret (.error e)

theorem controlInv_step {control control' : Control} (inv : ControlInv plan control)
    (h : PlanStep plan control label control') : ControlInv plan control' := by
  cases h with
  | finish clock hpending => exact ⟨_, inv, hpending, runs_of_assemble inv hpending clock⟩
  | turned hpending hturn =>
      rcases turn_cases inv hpending _ _ with ⟨ready, hstage, _⟩ | ⟨board', _, hsettled, hall, _⟩
      · rw [hstage] at hturn
        cases hturn
      · rw [hsettled] at hturn
        cases hturn
        exact hall.1
  | @staged board aborted clock ready hturn =>
      have hpending : board.pending ≠ [] := by
        intro hnil
        obtain ⟨board', hsettled⟩ := turn_of_settled plan hnil aborted clock
        rw [hsettled] at hturn
        cases hturn
      rcases turn_cases inv hpending _ _ with ⟨ready', hstage, hstages⟩ | ⟨_, _, hsettled, _⟩
      · rw [hstage] at hturn
        cases hturn
        exact stageInv_spawn inv hstages
      · rw [hsettled] at hturn
        cases hturn
  | @threw board aborted clock e hturn =>
      by_cases hpending : board.pending = []
      · obtain ⟨board', hsettled⟩ := turn_of_settled plan hpending aborted clock
        rw [hsettled] at hturn
        cases hturn
      · rcases turn_cases inv hpending aborted clock with ⟨_, hstage, _⟩ | ⟨_, _, hsettled, _⟩
        · rw [hstage] at hturn
          cases hturn
        · rw [hsettled] at hturn
          cases hturn
  | proc hp => exact ⟨by simp, inv.2.proc hp⟩
  | joined hjoined => exact (settlesAll_join inv.2 hjoined).1
  | failed hmem hthrown => exact ⟨inv.2, _, hmem, _, hthrown⟩
  | detached hp =>
      obtain ⟨hstage, p, hmem, e, hthrown⟩ := inv
      refine ⟨hstage.proc hp, p, ?_, e, hthrown⟩
      rcases List.mem_append.mp hmem with hmem | hmem
      · exact List.mem_append_left _ hmem
      · rcases List.mem_cons.mp hmem with rfl | hmem
        · cases hp <;> cases hthrown
        · exact List.mem_append_right _ (List.mem_cons_of_mem _ hmem)

theorem controlInv_run {log : List PlanLabel} {control : Control}
    (run : PlanRun plan log control) : ControlInv plan control := by
  induction run with
  | start clock => exact boardInv_preflight clock
  | step _ h ih => exact controlInv_step ih h

/-! ### How often an entry is started -/

def isEnrichOp : RunnerOp → Bool
  | .enrich _ _ => true
  | _ => false

/-- The provider of the entry is called. -/
def isStart (i : Nat) : PlanLabel → Bool
  | .call j op => j == i && isEnrichOp op
  | _ => false

def startsOf (i : Nat) (log : List PlanLabel) : Nat := log.countP (isStart i)

theorem startsOf_snoc (i : Nat) (log : List PlanLabel) (label : PlanLabel) :
    startsOf i (log ++ [label]) = startsOf i log + (isStart i label).toNat := by
  rw [startsOf, List.countP_append, List.countP_singleton, startsOf]
  cases isStart i label <;> rfl

/-- The calls of a source run so far; the last one may be out. -/
def Proc.trace (p : Proc) : List RunnerEvent :=
  match p.program with
  | .ret _ => p.past
  | .call op _ => if p.called then p.past ++ [⟨op, none⟩] else p.past

theorem note_enriches (l : Ledger) (e : RunnerEvent) :
    (l.note e).enriches = l.enriches + (isEnrichOp e.op).toNat := by
  obtain ⟨op, answer⟩ := e
  cases op with
  | aborted => rcases answer with _ | _ | _ <;> rfl
  | _ => rfl

theorem enriches_snoc (trace : List RunnerEvent) (e : RunnerEvent) :
    (ledger (trace ++ [e])).enriches = (ledger trace).enriches + (isEnrichOp e.op).toNat := by
  rw [ledger_snoc, note_enriches]

/-- A run of one source calls its provider at most once. -/
theorem enriches_le {input : RunnerInput} {past : List RunnerEvent}
    {program : RunnerProg (Except Thrown EnricherRun)} (h : Reaches (runEnricher input) past program)
    {trace : List RunnerEvent} {result : Option (Except Thrown EnricherRun)}
    (run : Runs program trace result) : (ledger (past ++ trace)).enriches ≤ 1 := by
  obtain ⟨phase, hfollows, _⟩ := phase_of_run (h.runs run)
  rw [(pastOf_follows hfollows).ledger]
  exact (ledger_bounds _ phase).2.1

theorem Launched.trace_enriches_le (h : Launched plan board p) : (ledger p.trace).enriches ≤ 1 := by
  obtain ⟨_, _, step, _, hreached⟩ := h
  rw [Proc.trace]
  split
  · rename_i result hprogram
    rw [hprogram] at hreached
    simpa using enriches_le hreached .ret
  · rename_i op next hprogram
    rw [hprogram] at hreached
    have hout := enriches_le hreached .waiting
    split
    · exact hout
    · rw [enriches_snoc] at hout
      omega

/-- What the entry was answered, in order. -/
def PlanLabel.answerTo (i : Nat) : PlanLabel → Option RunnerEvent
  | .answer j op given => if j = i then some ⟨op, some given⟩ else none
  | _ => none

def answersOf (i : Nat) (log : List PlanLabel) : List RunnerEvent :=
  log.filterMap (PlanLabel.answerTo i)

/-- How often the log starts an entry, and what it answers it. -/
def seenOf (i : Nat) (log : List PlanLabel) : Nat × List RunnerEvent :=
  (startsOf i log, answersOf i log)

/-- How often a source run has called its provider, and what it was answered. -/
def Proc.seen (p : Proc) : Nat × List RunnerEvent := ((ledger p.trace).enriches, p.past)

theorem seenOf_snoc (i : Nat) (log : List PlanLabel) (label : PlanLabel) :
    seenOf i (log ++ [label]) = ((seenOf i log).1 + (isStart i label).toNat,
      (seenOf i log).2 ++ (label.answerTo i).toList) := by
  rw [seenOf, startsOf_snoc, answersOf, List.filterMap_append]
  cases h : label.answerTo i <;> simp [seenOf, answersOf, h]

/-- A step of a source run is seen by its own entry, and by no other. -/
theorem ProcStep.seen (h : ProcStep p label p') :
    p'.seen = (p.seen.1 + (isStart p.index label).toNat,
        p.seen.2 ++ (label.answerTo p.index).toList) ∧
      ∀ i, i ≠ p.index → isStart i label = false ∧ label.answerTo i = none := by
  cases h with
  | call =>
      refine ⟨?_, fun i hi => ⟨?_, rfl⟩⟩
      · simp [Proc.seen, Proc.trace, enriches_snoc, isStart, PlanLabel.answerTo]
      · simp [isStart, Ne.symm hi]
  | @answer index past op next answer =>
      refine ⟨?_, fun i hi => ⟨rfl, if_neg (Ne.symm hi)⟩⟩
      have hafter : (Proc.mk index (past ++ [⟨op, some answer⟩]) (next answer) false).trace =
          past ++ [⟨op, some answer⟩] := by
        rw [Proc.trace]
        split <;> rfl
      rw [Proc.seen, hafter]
      simp [Proc.seen, Proc.trace, enriches_snoc, isStart, PlanLabel.answerTo]

/-- The log, against the entries that are pending and the source runs of a stage. -/
structure SeenInv (log : List PlanLabel) (pending : List Nat) (procs : List Proc) : Prop where
  fresh : ∀ i ∈ pending, (∀ p ∈ procs, p.index ≠ i) → seenOf i log = (0, [])
  current : ∀ p ∈ procs, seenOf p.index log = p.seen
  once : ∀ i, startsOf i log ≤ 1

theorem SeenInv.silent {log : List PlanLabel} {pending : List Nat} {procs : List Proc}
    (inv : SeenInv log pending procs) : SeenInv (log ++ [.plan]) pending procs := by
  have hsame : ∀ i, seenOf i (log ++ [.plan]) = seenOf i log := by
    intro i
    rw [seenOf_snoc]
    simp [isStart, PlanLabel.answerTo]
  refine ⟨fun i hi hnone => ?_, fun p hp => ?_, fun i => ?_⟩
  · rw [hsame]
    exact inv.fresh i hi hnone
  · rw [hsame]
    exact inv.current p hp
  · have hstarts := congrArg Prod.fst (hsame i)
    exact hstarts.trans_le (inv.once i)

theorem SeenInv.proc {log : List PlanLabel} {before after : List Proc}
    (inv : SeenInv log board.pending (before ++ p :: after))
    (stage : StageInv plan board (before ++ p :: after)) (h : ProcStep p label p') :
    SeenInv (log ++ [label]) board.pending (before ++ p' :: after) := by
  obtain ⟨hseen, hother⟩ := h.seen
  have hmem : p ∈ before ++ p :: after := List.mem_append_right _ (List.mem_cons_self ..)
  have hmem' : p' ∈ before ++ p' :: after := List.mem_append_right _ (List.mem_cons_self ..)
  have hown : seenOf p.index (log ++ [label]) = p'.seen := by
    rw [seenOf_snoc, inv.current p hmem, hseen]
  have helse : ∀ i, i ≠ p.index → seenOf i (log ++ [label]) = seenOf i log := by
    intro i hi
    obtain ⟨hstart, hanswer⟩ := hother i hi
    rw [seenOf_snoc, hstart, hanswer, Option.toList_none, List.append_nil]
    rfl
  refine ⟨fun i hi hnone => ?_, fun q hq => ?_, fun i => ?_⟩
  · have hne : i ≠ p.index := by
      rw [← h.index_eq]
      exact Ne.symm (hnone p' hmem')
    rw [helse i hne]
    refine inv.fresh i hi fun q hq => ?_
    rcases List.mem_append.mp hq with hq | hq
    · exact hnone q (List.mem_append_left _ hq)
    · rcases List.mem_cons.mp hq with rfl | hq
      · exact Ne.symm hne
      · exact hnone q (List.mem_append_right _ (List.mem_cons_of_mem _ hq))
  · have hdistinct := stage.distinct
    rw [List.map_append, List.map_cons, List.nodup_middle, List.nodup_cons,
      ← List.map_append] at hdistinct
    have hstays : q ∈ before ++ after → seenOf q.index (log ++ [label]) = q.seen := by
      intro hq
      have hne : q.index ≠ p.index :=
        fun heq => hdistinct.1 (heq ▸ List.mem_map_of_mem hq)
      rw [helse _ hne]
      refine inv.current q ?_
      rcases List.mem_append.mp hq with hq | hq
      · exact List.mem_append_left _ hq
      · exact List.mem_append_right _ (List.mem_cons_of_mem _ hq)
    rcases List.mem_append.mp hq with hq | hq
    · exact hstays (List.mem_append_left _ hq)
    · rcases List.mem_cons.mp hq with rfl | hq
      · rw [h.index_eq]
        exact hown
      · exact hstays (List.mem_append_right _ hq)
  · by_cases hi : i = p.index
    · have hstarts := congrArg Prod.fst hown
      rw [hi]
      exact hstarts.trans_le ((stage.proc h).launched p' hmem').trace_enriches_le
    · have hstarts := congrArg Prod.fst (helse i hi)
      exact hstarts.trans_le (inv.once i)

/-- What holds of the log in each state of the executor. -/
def LogInv (log : List PlanLabel) : Control → Prop
  | .looping board => SeenInv log board.pending []
  | .running board procs => SeenInv log board.pending procs
  | .settled _ => ∀ i, startsOf i log ≤ 1
  | .rejected board procs => SeenInv log board.pending procs

/-- Entries that stay pending were not started. -/
theorem SeenInv.settle {log : List PlanLabel} {pending : List Nat} {procs : List Proc}
    (inv : SeenInv log board.pending procs)
    (hpending : ∀ j ∈ pending, j ∈ board.pending ∧ ∀ p ∈ procs, p.index ≠ j) :
    SeenInv log pending [] :=
  ⟨fun i hi _ => inv.fresh i (hpending i hi).1 (hpending i hi).2, fun p hp => (by cases hp), inv.once⟩

theorem logInv_step {log : List PlanLabel} {control control' : Control}
    (inv : ControlInv plan control) (hlog : LogInv log control)
    (h : PlanStep plan control label control') : LogInv (log ++ [label]) control' := by
  cases h with
  | finish clock hpending => exact hlog.silent.once
  | turned hpending hturn =>
      rcases turn_cases inv hpending _ _ with ⟨ready, hstage, _⟩ | ⟨board', _, hsettled, hall, _⟩
      · rw [hstage] at hturn
        cases hturn
      · rw [hsettled] at hturn
        cases hturn
        exact hlog.silent.settle fun j hj => ⟨((hall.2 j).mp hj).1, fun p hp => by cases hp⟩
  | @staged board aborted clock ready hturn =>
      have hnone : ∀ i ∈ board.pending, seenOf i (log ++ [.plan]) = (0, []) :=
        fun i hi => hlog.silent.fresh i hi nofun
      refine ⟨fun i hi _ => hnone i hi, fun p hp => ?_, hlog.silent.once⟩
      have hpending := ((controlInv_step inv (.staged hturn)).2.launched p hp).pending
      rw [hnone _ hpending]
      obtain ⟨i, _, hspawn⟩ := List.mem_filterMap.mp hp
      obtain ⟨step, _, rfl⟩ := Option.map_eq_some_iff.mp hspawn
      rw [Proc.seen, Proc.trace]
      split <;> rfl
  | threw hturn => exact hlog.silent
  | proc hp => exact SeenInv.proc hlog inv.2 hp
  | joined hjoined =>
      have hall := settlesAll_join inv.2 hjoined
      refine hlog.silent.settle fun j hj => ⟨((hall.2 j).mp hj).1, fun p hp heq => ?_⟩
      exact ((hall.2 j).mp hj).2 (heq ▸ List.mem_map_of_mem hp)
  | failed hmem hthrown => exact hlog.silent
  | detached hp => exact SeenInv.proc hlog inv.1 hp

theorem logInv_run {log : List PlanLabel} {control : Control}
    (run : PlanRun plan log control) : LogInv log control := by
  induction run with
  | start clock => exact ⟨fun i _ _ => rfl, fun p hp => (by cases hp), fun i => Nat.zero_le _⟩
  | step run h ih => exact logInv_step (controlInv_run run) ih h

theorem startsOf_le {log : List PlanLabel} {control : Control} (run : PlanRun plan log control)
    (i : Nat) : startsOf i log ≤ 1 := by
  have hlog := logInv_run run
  cases control with
  | settled runs => exact hlog i
  | looping board | running board procs | rejected board procs => exact hlog.once i

/-! ### What a started provider sees -/

/-- The board a stage was started over. -/
def Control.stage : Control → Option Board
  | .running board _ => some board
  | .rejected board _ => some board
  | _ => none

/-- The provider of an entry is called over a board. -/
structure StartsOver (plan : PlanInput) (board : Board) (i : Nat)
    (previousOutcomes : List (Option EnrichmentOutcome)) : Prop where
  inv : BoardInv plan board
  pending : i ∈ board.pending
  available : ∀ dependency ∈ dependenciesAt plan i,
    DependencySettled plan board RunAvailable dependency
  previous : previousOutcomes = board.outcomes

theorem startsOver_of_call {i : Nat} {previousOutcomes : List (Option EnrichmentOutcome)}
    {ms : Option Rat} (inv : BoardInv plan board) (launched : Launched plan board p)
    (h : ProcStep p (.call i (.enrich previousOutcomes ms)) p') :
    StartsOver plan board i previousOutcomes := by
  obtain ⟨hpending, havailable, step, _, hreached⟩ := launched
  cases h with
  | call =>
      refine ⟨inv, hpending, havailable, ?_⟩
      obtain ⟨phase, hfollows, _⟩ := phase_of_run (hreached.runs .waiting)
      obtain ⟨s₁, s₂, _, hstep, _⟩ := hfollows.split
      exact (step_enrich hstep).2

/-- A provider is only called in a stage whose board settles all its prerequisites well. -/
theorem startsOver_of_run {log : List PlanLabel} {control : Control} {i : Nat}
    {previousOutcomes : List (Option EnrichmentOutcome)} {ms : Option Rat}
    (run : PlanRun plan (log ++ [.call i (.enrich previousOutcomes ms)]) control) :
    ∃ board, control.stage = some board ∧ StartsOver plan board i previousOutcomes := by
  generalize hlog : log ++ [PlanLabel.call i (.enrich previousOutcomes ms)] = whole at run
  cases run with
  | start clock => simp at hlog
  | step run h =>
      obtain ⟨rfl, hlabel⟩ := List.append_inj' hlog rfl
      cases hlabel
      have inv := controlInv_run run
      cases h with
      | proc hp =>
          refine ⟨_, rfl, startsOver_of_call inv.2.settled (inv.2.launched _ ?_) hp⟩
          exact List.mem_append_right _ (List.mem_cons_self ..)
      | detached hp =>
          refine ⟨_, rfl, startsOver_of_call inv.1.settled (inv.1.launched _ ?_) hp⟩
          exact List.mem_append_right _ (List.mem_cons_self ..)

/-! ### Whole answers -/

/-- No completed report whose search throws past the guards, and no cached value whose check
does. -/
structure WholeTrace (enricher : Enricher) (trace : List RunnerEvent) : Prop where
  completed : ∀ output, (ledger trace).completed = some output →
    isSparseOutput enricher output = false
  served : ∀ key ms cached, ⟨.cacheGet key ms, some (Bounded.value cached)⟩ ∈ trace →
    ∃ normalized, normalizeCachedReport enricher cached = .ok normalized

/-- Every entry has been answered well. -/
def WholeLog (plan : PlanInput) (log : List PlanLabel) : Prop :=
  ∀ i step, plan.steps[i]? = some step → WholeTrace step.enricher (answersOf i log)

/-- A source run that only ever gets whole answers does not throw. -/
theorem returns_of_whole {input : RunnerInput} {trace : List RunnerEvent}
    {result : Except Thrown EnricherRun} (run : Runs (runEnricher input) trace (some result))
    (whole : WholeTrace input.enricher trace) : ∃ run, result = .ok run := by
  obtain ⟨phase, hfollows, hconcluded⟩ := phase_of_run run
  have hpast := pastOf_follows hfollows
  have hended := hconcluded result rfl
  cases result with
  | ok returned => exact ⟨returned, rfl⟩
  | error e =>
      rcases hended with ⟨cached, rfl, hthrown⟩ | ⟨output, rfl, hsparse⟩
      · obtain ⟨key, ms, hmem⟩ := hpast.served cached rfl
        obtain ⟨normalized, hnormalized⟩ := whole.served key ms cached hmem
        rw [hthrown] at hnormalized
        cases hnormalized
      · have hcompleted : (ledger trace).completed = some output := by
          rw [hpast.ledger]
          rfl
        rw [whole.completed output hcompleted] at hsparse
        cases hsparse

def Control.procs : Control → List Proc
  | .running _ procs => procs
  | .rejected _ procs => procs
  | _ => []

theorem launched_of_run {log : List PlanLabel} {control : Control} (run : PlanRun plan log control)
    (hp : p ∈ control.procs) :
    (∃ board, Launched plan board p) ∧ answersOf p.index log = p.past := by
  have inv := controlInv_run run
  have hlog := logInv_run run
  cases control with
  | running board procs =>
      exact ⟨⟨board, inv.2.launched p hp⟩, congrArg Prod.snd (hlog.current p hp)⟩
  | rejected board procs =>
      exact ⟨⟨board, inv.1.launched p hp⟩, congrArg Prod.snd (hlog.current p hp)⟩
  | looping board | settled runs => cases hp

/-- With whole answers no source run throws. -/
theorem proc_returns {log : List PlanLabel} {control : Control} (run : PlanRun plan log control)
    (whole : WholeLog plan log) (hp : p ∈ control.procs)
    {result : Except Thrown EnricherRun} (hprogram : p.program = .ret result) :
    ∃ run, result = .ok run := by
  obtain ⟨⟨board, _, _, step, hstep, hreached⟩, hanswers⟩ := launched_of_run run hp
  rw [hprogram] at hreached
  have hruns := hreached.runs .ret
  rw [List.append_nil] at hruns
  have hwhole := whole p.index step hstep
  rw [hanswers] at hwhole
  exact returns_of_whole hruns hwhole

theorem not_rejected {log : List PlanLabel} {board : Board} {procs : List Proc}
    (whole : WholeLog plan log) : ¬ PlanRun plan log (.rejected board procs) := by
  intro run
  obtain ⟨_, p, hp, e, hprogram⟩ := controlInv_run run
  obtain ⟨run', hreturn⟩ := proc_returns run whole hp hprogram
  cases hreturn

end

end Linklint
