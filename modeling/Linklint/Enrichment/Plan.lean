import Linklint.Enrichment.Runner
import Linklint.Lib.CycleSearch

/-!
# The enrichment plan

The plan executor: preflight, then a loop that starts a stage of ready entries,
skips what is blocked, or breaks one dependency cycle. The entries of a stage run
concurrently; their calls and answers interleave in any order.
-/

namespace Linklint

open Interaction

/-! ### Planned entries -/

/-- One caller-ordered node of the plan; a hole of `dependsOn` is a `none` dependency. -/
structure PlannedEnricher where
  index : Nat
  token : Text
  enricher : Enricher
  dependencies : List (Option Text)
  dependencyShapeValid : Bool

def isDependencyShapeValid (rawDependencies : Value) : Bool :=
  rawDependencies.isUndefined || isArrayOf Value.isNonEmptyString rawDependencies

/-- `[...new Set(rawDependencies)]` of a valid array. -/
def dependenciesOf (rawDependencies : Value) : List (Option Text) :=
  if isDependencyShapeValid rawDependencies then
    ((rawDependencies.slots?.getD []).map fun slot => slot.bind readText).eraseDups
  else []

def plannedEnricher (index : Nat) (enricher : Enricher) : PlannedEnricher where
  index
  token := checkToken enricher
  enricher
  dependencies := dependenciesOf enricher.dependsOn
  dependencyShapeValid := isDependencyShapeValid enricher.dependsOn

/-- What the executor is called with. -/
structure PlanInput where
  enrichers : List Enricher
  base : InspectResult
  hasCache : Bool
  hasGovernor : Bool

def PlanInput.steps (plan : PlanInput) : List PlannedEnricher :=
  plan.enrichers.mapIdx plannedEnricher

/-- The slots of the plan; `pending` holds what is not settled, in plan order. -/
structure Board where
  runs : List (Option EnricherRun)
  pending : List Nat

section
variable (plan : PlanInput)

/-- `tokenCounts.get(token)` -/
def tokenCount (token : Text) : Nat := plan.steps.countP fun step => step.token == token

/-- `tokenToIndex.get(dependency)`: only a token of one entry has an index. -/
def tokenToIndex (dependency : Option Text) : Option Nat :=
  dependency.bind fun token =>
    if tokenCount plan token = 1 then
      (plan.steps.find? fun step => step.token == token).map fun step => step.index
    else none

/-- An array of dependencies as a payload. -/
def tokensValue (dependencies : List (Option Text)) : Value :=
  .arr (dependencies.map fun dependency => some (dependency.elim .undefined .str))

/-- What is wrong with an entry before anything runs. -/
def preflightDetails (step : PlannedEnricher) : Option Value :=
  if 1 < tokenCount plan step.token then
    some (.obj [(text "reason", .str (text "duplicate-check-token")),
      (text "token", .str step.token)])
  else if !step.dependencyShapeValid then
    some (.obj [(text "reason", .str (text "invalid-prerequisite-token"))])
  else
    let unknown := step.dependencies.filter fun dependency => (tokenToIndex plan dependency).isNone
    if unknown = [] then none
    else
      some (.obj [(text "reason", .str (text "unknown-prerequisite")),
        (text "prerequisites", tokensValue unknown)])

/-- A slot the executor fills itself. -/
def skippedRun (step : PlannedEnricher) (code : EnrichmentFrameworkCauseCode)
    (details : Option Value) (observedAt : Text) : EnricherRun where
  token := step.token
  report :=
    { outcomes := [some (frameworkOutcome step.enricher plan.base .skipped code false details
        observedAt)] }

/-- `clock` is what the clock shows when the executor fills a slot. -/
def preflight (clock : Nat → Text) : Board where
  runs := plan.steps.map fun step => (preflightDetails plan step).map fun details =>
    skippedRun plan step .invalidPlan (some details) (clock step.index)
  pending := (plan.steps.filter fun step => (preflightDetails plan step).isNone).map
    fun step => step.index

/-! ### Availability -/

/-- `run.report.outcomes.every(...)`; a `null` outcome throws. -/
def runIsAvailable (run : EnricherRun) : Except Thrown Bool :=
  outcomesEvery isCompleted run.report.outcomes

def dependenciesAt (index : Nat) : List (Option Text) :=
  (plan.steps[index]?.map fun step => step.dependencies).getD []

/-- The settled run of a dependency. -/
def dependencyRun (board : Board) (dependency : Option Text) : Option EnricherRun :=
  (tokenToIndex plan dependency).bind fun index => board.runs[index]?.join

def isDependencyAvailable (board : Board) (dependency : Option Text) : Except Thrown Bool :=
  match dependencyRun plan board dependency with
  | none => .ok false
  | some run => runIsAvailable run

def isDependencyUnavailable (board : Board) (dependency : Option Text) : Except Thrown Bool :=
  match dependencyRun plan board dependency with
  | none => .ok false
  | some run => (runIsAvailable run).map not

/-- `items.every(p)` of a predicate that may throw. -/
def everyThrowing {α : Type} (p : α → Except Thrown Bool) : List α → Except Thrown Bool
  | [] => .ok true
  | item :: rest => do if ← p item then everyThrowing p rest else return false

/-- `items.some(p)` of a predicate that may throw. -/
def someThrowing {α : Type} (p : α → Except Thrown Bool) : List α → Except Thrown Bool
  | [] => .ok false
  | item :: rest => do if ← p item then return true else someThrowing p rest

/-- `items.filter(p)` of a predicate that may throw. -/
def filterThrowing {α : Type} (p : α → Except Thrown Bool) : List α → Except Thrown (List α)
  | [] => .ok []
  | item :: rest => do
      let keep ← p item
      let kept ← filterThrowing p rest
      return if keep then item :: kept else kept

def isReady (board : Board) (index : Nat) : Except Thrown Bool :=
  everyThrowing (isDependencyAvailable plan board) (dependenciesAt plan index)

def isBlocked (board : Board) (index : Nat) : Except Thrown Bool :=
  someThrowing (isDependencyUnavailable plan board) (dependenciesAt plan index)

/-! ### One turn of the loop -/

/-- `runs[index] = run; pending.delete(index)` -/
def Board.settle (board : Board) (index : Nat) (run : EnricherRun) : Board where
  runs := board.runs.set index (some run)
  pending := board.pending.filter fun other => other != index

/-- A slot filled by the executor. -/
def Board.skip (board : Board) (index : Nat) (code : EnrichmentFrameworkCauseCode)
    (details : PlannedEnricher → Option Value) (observedAt : Text) : Board :=
  match plan.steps[index]? with
  | some step => board.settle index (skippedRun plan step code (details step) observedAt)
  | none => board

def prerequisites (dependencies : List (Option Text)) : Value :=
  .obj [(text "prerequisites", tokensValue dependencies)]

/-- Every pending entry is cancelled. -/
def skipAborted (clock : Nat → Text) (board : Board) : Board where
  runs := (board.pending.foldl (fun board index =>
    board.skip plan index .callerAborted (fun _ => none) (clock index)) board).runs
  pending := []

/-- The blocked entries, one after the other; an earlier one counts for a later one. -/
def skipBlocked (clock : Nat → Text) : List Nat → Board → Except Thrown Board
  | [], board => .ok board
  | index :: rest, board => do
      let unavailable ← filterThrowing (isDependencyUnavailable plan board) (dependenciesAt plan index)
      skipBlocked clock rest (board.skip plan index .prerequisiteUnavailable
        (fun _ => some (prerequisites unavailable)) (clock index))

/-- The pending entries an entry depends on. -/
def pendingDependencies (board : Board) (index : Nat) : List Nat :=
  (dependenciesAt plan index).filterMap fun dependency =>
    (tokenToIndex plan dependency).filter fun other => board.pending.contains other

def findDependencyCycle (board : Board) : List Nat :=
  CycleSearch.findCycle (pendingDependencies plan board) board.pending

/-- `cycle.length > 0 ? cycle : [[...pending][0]!]` -/
def cycleIndexes (board : Board) : List Nat :=
  if findDependencyCycle plan board = [] then board.pending.take 1
  else findDependencyCycle plan board

def skipCycle (clock : Nat → Text) (board : Board) : Board :=
  (cycleIndexes plan board).foldl (fun board index =>
    board.skip plan index .dependencyCycle (fun step => some (prerequisites step.dependencies))
      (clock index)) board

inductive Turn where
  | stage (ready : List Nat)
  | settled (board : Board)

/-- The body of `while (pending.size > 0)` up to its `continue` or its `await`. -/
def turn (aborted : Bool) (clock : Nat → Text) (board : Board) : Except Thrown Turn :=
  if aborted then .ok (.settled (skipAborted plan clock board))
  else do
    let ready ← filterThrowing (isReady plan board) board.pending
    if ready ≠ [] then return .stage ready
    else
      let blocked ← filterThrowing (isBlocked plan board) board.pending
      if blocked ≠ [] then
        let board ← skipBlocked plan clock blocked board
        return .settled board
      else return .settled (skipCycle plan clock board)

/-- `runs.flatMap((run) => run?.report.outcomes ?? [])` -/
def Board.outcomes (board : Board) : List (Option EnrichmentOutcome) :=
  board.runs.flatMap fun run => run.elim [] fun run => run.report.outcomes

/-- The reports in plan order; an unsettled slot would be reported as such. -/
def assemble (clock : Nat → Text) (board : Board) : List EnricherRun :=
  plan.steps.map fun step => board.runs[step.index]?.join.getD
    (skippedRun plan step .invalidPlan
      (some (.obj [(text "reason", .str (text "unsettled-plan-node"))])) (clock step.index))

/-! ### The executor -/

/-- A source run in progress; `called` says whether its next call has been made. -/
structure Proc where
  index : Nat
  past : List RunnerEvent
  program : RunnerProg (Except Thrown EnricherRun)
  called : Bool

def PlanInput.runnerInput (step : PlannedEnricher) (board : Board) : RunnerInput where
  enricher := step.enricher
  base := plan.base
  previousOutcomes := board.outcomes
  hasCache := plan.hasCache
  hasGovernor := plan.hasGovernor

/-- `runEnricher(steps[index]!.enricher, base, ctx, cache, governor)` -/
def spawn (board : Board) (index : Nat) : Option Proc :=
  plan.steps[index]?.map fun step =>
    { index, past := [], program := runEnricher (plan.runnerInput step board), called := false }

/-- `runs[ready[offset]] = stageRuns[offset]` for every offset. -/
def Board.join (board : Board) (stageRuns : List (Nat × EnricherRun)) : Board :=
  stageRuns.foldl (fun board run => board.settle run.1 run.2) board

inductive Control where
  | looping (board : Board)
  /-- awaiting `Promise.all` of a stage -/
  | running (board : Board) (procs : List Proc)
  | settled (runs : List EnricherRun)
  /-- the executor has rejected; what it started goes on -/
  | rejected (board : Board) (procs : List Proc)

inductive PlanLabel where
  | plan
  | call (index : Nat) (op : RunnerOp)
  | answer (index : Nat) (op : RunnerOp) (answer : RunnerAns op)

/-- One call of a source run, or its answer. -/
inductive ProcStep : Proc → PlanLabel → Proc → Prop
  | call {index : Nat} {past : List RunnerEvent} {op : RunnerOp}
      {next : RunnerAns op → RunnerProg (Except Thrown EnricherRun)} :
      ProcStep ⟨index, past, .call op next, false⟩ (.call index op)
        ⟨index, past, .call op next, true⟩
  | answer {index : Nat} {past : List RunnerEvent} {op : RunnerOp}
      {next : RunnerAns op → RunnerProg (Except Thrown EnricherRun)} (answer : RunnerAns op) :
      ProcStep ⟨index, past, .call op next, true⟩ (.answer index op answer)
        ⟨index, past ++ [⟨op, some answer⟩], next answer, false⟩

inductive PlanStep : Control → PlanLabel → Control → Prop
  | finish {board : Board} (clock : Nat → Text) (hpending : board.pending = []) :
      PlanStep (.looping board) .plan (.settled (assemble plan clock board))
  | turned {board board' : Board} {aborted : Bool} {clock : Nat → Text}
      (hpending : board.pending ≠ []) (h : turn plan aborted clock board = .ok (.settled board')) :
      PlanStep (.looping board) .plan (.looping board')
  | staged {board : Board} {aborted : Bool} {clock : Nat → Text} {ready : List Nat}
      (h : turn plan aborted clock board = .ok (.stage ready)) :
      PlanStep (.looping board) .plan (.running board (ready.filterMap (spawn plan board)))
  | threw {board : Board} {aborted : Bool} {clock : Nat → Text} {e : Thrown}
      (h : turn plan aborted clock board = .error e) :
      PlanStep (.looping board) .plan (.rejected board [])
  | proc {board : Board} {before after : List Proc} {p p' : Proc} {label : PlanLabel}
      (h : ProcStep p label p') :
      PlanStep (.running board (before ++ p :: after)) label
        (.running board (before ++ p' :: after))
  | joined {board : Board} {procs : List Proc} {stageRuns : List (Nat × EnricherRun)}
      (h : List.Forall₂ (fun p run => p.index = run.1 ∧ p.program = .ret (.ok run.2)) procs
        stageRuns) :
      PlanStep (.running board procs) .plan (.looping (board.join stageRuns))
  | failed {board : Board} {procs : List Proc} {p : Proc} {e : Thrown} (hp : p ∈ procs)
      (h : p.program = .ret (.error e)) : PlanStep (.running board procs) .plan
        (.rejected board procs)
  | detached {board : Board} {before after : List Proc} {p p' : Proc} {label : PlanLabel}
      (h : ProcStep p label p') :
      PlanStep (.rejected board (before ++ p :: after)) label
        (.rejected board (before ++ p' :: after))

/-- The states the executor reaches, with what happened on the way. -/
inductive PlanRun : List PlanLabel → Control → Prop
  | start (clock : Nat → Text) : PlanRun [] (.looping (preflight plan clock))
  | step {log : List PlanLabel} {control control' : Control} {label : PlanLabel}
      (run : PlanRun log control) (h : PlanStep plan control label control') :
      PlanRun (log ++ [label]) control'

end

end Linklint
