import Linklint.Enrichment.PlanBoard

/-!
# One turn of the plan

At the head of the loop no search throws. Either some entries are ready, or the
turn settles at least one entry; a cycle is only looked for where there is one.
-/

namespace Linklint

open Interaction

section
variable {plan : PlanInput} {board : Board}

/-! ### Dependencies -/

/-- The settled run of a dependency has wholly completed. -/
def RunAvailable (run : EnricherRun) : Prop :=
  ∀ outcome ∈ run.report.outcomes, ∃ o, outcome = some o ∧ o.status.isCompleted = true

/-- The entry of a dependency is settled, and its run satisfies `p`. -/
def DependencySettled (plan : PlanInput) (board : Board) (p : EnricherRun → Prop)
    (dependency : Option Text) : Prop :=
  ∃ j run, tokenToIndex plan dependency = some j ∧ board.runs[j]? = some (some run) ∧ p run

theorem searchable_of_origin {i : Nat} {run : EnricherRun} (h : Origin plan i run) :
    ∃ b, runIsAvailable run = .ok b := by
  cases h with
  | skipped hstep hcode hrun =>
      rw [hrun]
      exact ⟨_, outcomesEvery_some [_]⟩
  | ran hstep valid hruns => exact (every_of_run hruns).2.2

theorem slot_cases (inv : BoardInv plan board) {i : Nat} (hi : i < plan.steps.length) :
    (i ∈ board.pending ∧ board.runs[i]? = some none) ∨
      i ∉ board.pending ∧ ∃ run, board.runs[i]? = some (some run) ∧ Origin plan i run := by
  by_cases hpending : i ∈ board.pending
  · exact Or.inl ⟨hpending, (inv.pending i hpending).2⟩
  · exact Or.inr ⟨hpending, inv.filled i hi hpending⟩

theorem index_lt {dependency : Option Text} {j : Nat} (h : tokenToIndex plan dependency = some j) :
    j < plan.steps.length := by
  obtain ⟨step, hstep, _⟩ := tokenToIndex_eq_some h
  exact (List.getElem?_eq_some_iff.mp hstep).1

/-- A dependency without an index has no run, one with an index has the run of that slot. -/
theorem dependencyRun_eq_some {dependency : Option Text} {run : EnricherRun} :
    dependencyRun plan board dependency = some run ↔
      ∃ j, tokenToIndex plan dependency = some j ∧ board.runs[j]? = some (some run) := by
  rw [dependencyRun, Option.bind_eq_some_iff]
  simp only [Option.join_eq_some_iff]

theorem searchable_of_dependency (inv : BoardInv plan board) {dependency : Option Text}
    {run : EnricherRun} (h : dependencyRun plan board dependency = some run) :
    ∃ b, runIsAvailable run = .ok b := by
  obtain ⟨j, hj, hrun⟩ := dependencyRun_eq_some.mp h
  rcases slot_cases inv (index_lt hj) with ⟨_, hempty⟩ | ⟨_, run', hfilled, horigin⟩
  · rw [hempty] at hrun
    cases hrun
  · rw [hfilled] at hrun
    cases hrun
    exact searchable_of_origin horigin

theorem isDependencyAvailable_returns (inv : BoardInv plan board) (dependency : Option Text) :
    ∃ b, isDependencyAvailable plan board dependency = .ok b := by
  rw [isDependencyAvailable]
  cases hrun : dependencyRun plan board dependency with
  | none => exact ⟨false, rfl⟩
  | some run => exact searchable_of_dependency inv hrun

theorem isDependencyUnavailable_returns (inv : BoardInv plan board) (dependency : Option Text) :
    ∃ b, isDependencyUnavailable plan board dependency = .ok b := by
  rw [isDependencyUnavailable]
  cases hrun : dependencyRun plan board dependency with
  | none => exact ⟨false, rfl⟩
  | some run =>
      obtain ⟨b, hb⟩ := searchable_of_dependency inv hrun
      exact ⟨!b, by simp [hb, Except.map]⟩

theorem isDependencyAvailable_iff {dependency : Option Text} :
    isDependencyAvailable plan board dependency = .ok true ↔
      DependencySettled plan board RunAvailable dependency := by
  rw [isDependencyAvailable]
  cases hrun : dependencyRun plan board dependency with
  | none =>
      constructor
      · intro h
        cases h
      · rintro ⟨j, run, hj, hslot, _⟩
        rw [dependencyRun_eq_some.mpr ⟨j, hj, hslot⟩] at hrun
        cases hrun
  | some run =>
      obtain ⟨j, hj, hslot⟩ := dependencyRun_eq_some.mp hrun
      refine outcomesEvery_true.trans ⟨fun h => ⟨j, run, hj, hslot, h⟩, ?_⟩
      rintro ⟨j', run', hj', hslot', h⟩
      rw [dependencyRun_eq_some.mpr ⟨j', hj', hslot'⟩] at hrun
      cases hrun
      exact h

theorem isDependencyUnavailable_iff (inv : BoardInv plan board) {dependency : Option Text} :
    isDependencyUnavailable plan board dependency = .ok true ↔
      DependencySettled plan board (fun run => ¬ RunAvailable run) dependency := by
  rw [isDependencyUnavailable]
  cases hrun : dependencyRun plan board dependency with
  | none =>
      constructor
      · intro h
        cases h
      · rintro ⟨j, run, hj, hslot, _⟩
        rw [dependencyRun_eq_some.mpr ⟨j, hj, hslot⟩] at hrun
        cases hrun
  | some run =>
      obtain ⟨j, hj, hslot⟩ := dependencyRun_eq_some.mp hrun
      obtain ⟨b, hb⟩ := searchable_of_dependency inv hrun
      have havailable : b = true ↔ RunAvailable run := by
        refine Iff.trans ?_ outcomesEvery_true
        rw [← runIsAvailable, hb]
        simp
      constructor
      · intro h
        refine ⟨j, run, hj, hslot, fun hall => ?_⟩
        simp only [hb, havailable.mpr hall] at h
        cases h
      · rintro ⟨j', run', hj', hslot', h⟩
        rw [dependencyRun_eq_some.mpr ⟨j', hj', hslot'⟩] at hrun
        cases hrun
        rw [← havailable, Bool.not_eq_true] at h
        simp only [hb, h]
        rfl

/-! ### Ready and blocked entries -/

theorem isReady_eq (inv : BoardInv plan board) (i : Nat) :
    isReady plan board i =
      .ok ((dependenciesAt plan i).all (holds (isDependencyAvailable plan board))) :=
  everyThrowing_eq fun dependency _ => isDependencyAvailable_returns inv dependency

theorem isBlocked_eq (inv : BoardInv plan board) (i : Nat) :
    isBlocked plan board i =
      .ok ((dependenciesAt plan i).any (holds (isDependencyUnavailable plan board))) :=
  someThrowing_eq fun dependency _ => isDependencyUnavailable_returns inv dependency

theorem isReady_iff (inv : BoardInv plan board) {i : Nat} :
    holds (isReady plan board) i = true ↔
      ∀ dependency ∈ dependenciesAt plan i, DependencySettled plan board RunAvailable dependency := by
  rw [holds_iff, isReady_eq inv]
  simp only [Except.ok.injEq, List.all_eq_true, holds_iff, isDependencyAvailable_iff]

theorem isBlocked_iff (inv : BoardInv plan board) {i : Nat} :
    holds (isBlocked plan board) i = true ↔ ∃ dependency ∈ dependenciesAt plan i,
      DependencySettled plan board (fun run => ¬ RunAvailable run) dependency := by
  rw [holds_iff, isBlocked_eq inv]
  simp only [Except.ok.injEq, List.any_eq_true, holds_iff, isDependencyUnavailable_iff inv]

/-! ### The cycle -/

/-- The loop looks for a cycle: nothing is ready and nothing is blocked. -/
structure Consults (plan : PlanInput) (board : Board) : Prop where
  pending : board.pending ≠ []
  ready : filterThrowing (isReady plan board) board.pending = .ok []
  blocked : filterThrowing (isBlocked plan board) board.pending = .ok []

theorem mem_pendingDependencies {i j : Nat} : j ∈ pendingDependencies plan board i ↔
    ∃ dependency ∈ dependenciesAt plan i, tokenToIndex plan dependency = some j ∧
      j ∈ board.pending := by
  simp only [pendingDependencies, List.mem_filterMap, Option.filter_eq_some_iff,
    List.contains_iff_mem]

/-- Every pending entry waits for a pending entry. -/
theorem pendingDependencies_of_consults (inv : BoardInv plan board) (h : Consults plan board)
    {i : Nat} (hi : i ∈ board.pending) : pendingDependencies plan board i ≠ [] := by
  have hready := h.ready
  have hblocked := h.blocked
  rw [filterThrowing_eq fun k _ => ⟨_, isReady_eq inv k⟩, Except.ok.injEq,
    List.filter_eq_nil_iff] at hready
  rw [filterThrowing_eq fun k _ => ⟨_, isBlocked_eq inv k⟩, Except.ok.injEq,
    List.filter_eq_nil_iff] at hblocked
  have hnotReady := hready i hi
  have hnotBlocked := hblocked i hi
  rw [isReady_iff inv] at hnotReady
  rw [isBlocked_iff inv] at hnotBlocked
  push Not at hnotReady hnotBlocked
  obtain ⟨dependency, hmem, hunsettled⟩ := hnotReady
  obtain ⟨j, hj⟩ := tokenToIndex_of_valid (inv.pending i hi).1 hmem
  have hpending : j ∈ board.pending := by
    rcases slot_cases inv (index_lt hj) with ⟨hpending, _⟩ | ⟨_, run, hslot, _⟩
    · exact hpending
    · by_cases havailable : RunAvailable run
      · exact absurd ⟨j, run, hj, hslot, havailable⟩ hunsettled
      · exact absurd ⟨j, run, hj, hslot, havailable⟩ (hnotBlocked dependency hmem)
  exact List.ne_nil_of_mem (mem_pendingDependencies.mpr ⟨dependency, hmem, hj, hpending⟩)

theorem dependsOn_of_pending (inv : BoardInv plan board) {i j : Nat} (hi : i ∈ board.pending)
    (hj : j ∈ pendingDependencies plan board i) : DependsOn plan i j ∧ j ∈ board.pending := by
  obtain ⟨dependency, hmem, hindex, hpending⟩ := mem_pendingDependencies.mp hj
  exact ⟨⟨(inv.pending i hi).1, (inv.pending j hpending).1, dependency, hmem, hindex⟩, hpending⟩

theorem onCycle_of_pending (inv : BoardInv plan board) {i : Nat} (hi : i ∈ board.pending)
    (h : Relation.TransGen (fun a b => b ∈ pendingDependencies plan board a) i i) :
    OnCycle plan i := by
  have hpath : ∀ j, Relation.TransGen (fun a b => b ∈ pendingDependencies plan board a) i j →
      Relation.TransGen (DependsOn plan) i j ∧ j ∈ board.pending := by
    intro j hj
    induction hj with
    | single hedge =>
        obtain ⟨hdepends, hpending⟩ := dependsOn_of_pending inv hi hedge
        exact ⟨.single hdepends, hpending⟩
    | tail _ hedge ih =>
        obtain ⟨hpath, hpending⟩ := ih
        obtain ⟨hdepends, hnext⟩ := dependsOn_of_pending inv hpending hedge
        exact ⟨hpath.tail hdepends, hnext⟩
  exact (hpath i h).1

/-- The search finds a cycle whenever it is consulted, and all of it is pending. -/
theorem findDependencyCycle_of_consults (inv : BoardInv plan board) (h : Consults plan board) :
    findDependencyCycle plan board ≠ [] ∧ ∀ i ∈ findDependencyCycle plan board,
      i ∈ board.pending ∧ OnCycle plan i := by
  obtain ⟨hne, hcycle⟩ : CycleSearch.IsCycle (pendingDependencies plan board) board.pending
      (findDependencyCycle plan board) :=
    CycleSearch.findCycle_isCycle h.pending fun i hi =>
      ⟨pendingDependencies_of_consults inv h hi, fun j hj => (dependsOn_of_pending inv hi hj).2⟩
  refine ⟨hne, fun i hi => ?_⟩
  obtain ⟨hpending, hpath⟩ := hcycle i hi
  exact ⟨hpending, onCycle_of_pending inv hpending hpath⟩

/-! ### What a turn does -/

theorem lt_of_pending (inv : BoardInv plan board) {i : Nat} (hi : i ∈ board.pending) :
    i < plan.steps.length := by
  obtain ⟨step, hstep, _⟩ := (inv.pending i hi).1
  exact (List.getElem?_eq_some_iff.mp hstep).1

/-- The turn settled the entries of a list, and no others. -/
def SettlesAll (plan : PlanInput) (board board' : Board) (settled : List Nat) : Prop :=
  BoardInv plan board' ∧ ∀ j, j ∈ board'.pending ↔ j ∈ board.pending ∧ j ∉ settled

theorem skipAborted_settles (inv : BoardInv plan board) (clock : Nat → Text) :
    SettlesAll plan board (skipAborted plan clock board) board.pending := by
  obtain ⟨hinv, hpending⟩ := boardInv_foldl
    (fun board index => board.skip plan index .callerAborted (fun _ => none) (clock index))
    id board.pending
    (fun board' hboard i hi => settles_skip hboard (lt_of_pending inv hi) _ _ _ nofun) inv
  have hnone : (board.pending.foldl (fun board index =>
      board.skip plan index .callerAborted (fun _ => none) (clock index)) board).pending = [] := by
    refine List.eq_nil_iff_forall_not_mem.mpr fun j hj => ?_
    obtain ⟨hmem, hnot⟩ := (hpending j).mp hj
    exact hnot (by simpa using hmem)
  refine ⟨?_, fun j => by simp [skipAborted]⟩
  rw [skipAborted, ← hnone]
  exact hinv

theorem skipBlocked_settles (inv : BoardInv plan board) (clock : Nat → Text) (blocked : List Nat)
    (hblocked : ∀ i ∈ blocked, i < plan.steps.length) :
    ∃ board', skipBlocked plan clock blocked board = .ok board' ∧
      SettlesAll plan board board' blocked := by
  induction blocked generalizing board with
  | nil => exact ⟨board, rfl, inv, fun j => by simp⟩
  | cons i rest ih =>
      obtain ⟨hlt, hrest⟩ := List.forall_mem_cons.mp hblocked
      have hunavailable := filterThrowing_eq (l := dependenciesAt plan i) fun dependency _ =>
        isDependencyUnavailable_returns inv dependency
      obtain ⟨hfirst, hpending⟩ := settles_skip inv hlt .prerequisiteUnavailable
        (fun _ => some (prerequisites ((dependenciesAt plan i).filter
          (holds (isDependencyUnavailable plan board))))) (clock i) nofun
      obtain ⟨board', hboard, hinv, hmem⟩ := ih hfirst hrest
      refine ⟨board', ?_, hinv, fun j => ?_⟩
      · rw [skipBlocked, hunavailable]
        exact hboard
      · rw [hmem, hpending, List.mem_cons, not_or, and_assoc]

theorem skipCycle_settles (inv : BoardInv plan board) (h : Consults plan board)
    (clock : Nat → Text) :
    SettlesAll plan board (skipCycle plan clock board) (findDependencyCycle plan board) := by
  obtain ⟨hne, hcycle⟩ := findDependencyCycle_of_consults inv h
  rw [skipCycle, cycleIndexes, if_neg hne]
  obtain ⟨hinv, hpending⟩ := boardInv_foldl
    (fun board index => board.skip plan index .dependencyCycle
      (fun step => some (prerequisites step.dependencies)) (clock index))
    id (findDependencyCycle plan board)
    (fun board' hboard i hi => settles_skip hboard (lt_of_pending inv (hcycle i hi).1) _ _ _
      fun _ => (hcycle i hi).2) inv
  refine ⟨hinv, fun j => ?_⟩
  rw [hpending, List.map_id]

/-- A stage starts entries whose prerequisites have all wholly completed. -/
structure Stages (plan : PlanInput) (board : Board) (ready : List Nat) : Prop where
  nonempty : ready ≠ []
  sublist : ready.Sublist board.pending
  available : ∀ i ∈ ready, ∀ dependency ∈ dependenciesAt plan i,
    DependencySettled plan board RunAvailable dependency

/-- A turn never throws. It starts a stage, or it settles at least one entry. -/
theorem turn_cases (inv : BoardInv plan board) (hpending : board.pending ≠ []) (aborted : Bool)
    (clock : Nat → Text) :
    (∃ ready, turn plan aborted clock board = .ok (.stage ready) ∧ Stages plan board ready) ∨
      ∃ board' settled, turn plan aborted clock board = .ok (.settled board') ∧
        SettlesAll plan board board' settled ∧ ∃ i ∈ settled, i ∈ board.pending := by
  cases aborted with
  | true =>
      obtain ⟨i, hi⟩ := List.exists_mem_of_ne_nil _ hpending
      exact Or.inr ⟨_, board.pending, rfl, skipAborted_settles inv clock, i, hi, hi⟩
  | false =>
      have hready := filterThrowing_eq (l := board.pending) fun i _ => ⟨_, isReady_eq inv i⟩
      have hblocked := filterThrowing_eq (l := board.pending) fun i _ => ⟨_, isBlocked_eq inv i⟩
      rw [turn, if_neg Bool.false_ne_true, hready]
      simp only [bind, Except.bind]
      by_cases hstage : board.pending.filter (holds (isReady plan board)) = []
      · rw [if_neg (not_not.mpr hstage), hblocked]
        simp only []
        by_cases hskip : board.pending.filter (holds (isBlocked plan board)) = []
        · rw [if_neg (not_not.mpr hskip)]
          have hconsults : Consults plan board :=
            ⟨hpending, hready.trans (by rw [hstage]), hblocked.trans (by rw [hskip])⟩
          obtain ⟨hne, hcycle⟩ := findDependencyCycle_of_consults inv hconsults
          obtain ⟨i, hi⟩ := List.exists_mem_of_ne_nil _ hne
          exact Or.inr ⟨_, _, rfl, skipCycle_settles inv hconsults clock, i, hi, (hcycle i hi).1⟩
        · rw [if_pos hskip]
          obtain ⟨board', hboard, hsettles⟩ := skipBlocked_settles inv clock
            (board.pending.filter (holds (isBlocked plan board)))
            fun i hi => lt_of_pending inv (List.mem_of_mem_filter hi)
          obtain ⟨i, hi⟩ := List.exists_mem_of_ne_nil _ hskip
          rw [hboard]
          exact Or.inr ⟨board', _, rfl, hsettles, i, hi, List.mem_of_mem_filter hi⟩
      · rw [if_pos hstage]
        refine Or.inl ⟨_, rfl, hstage, List.filter_sublist, fun i hi => ?_⟩
        exact (isReady_iff inv).mp (List.mem_filter.mp hi).2

theorem SettlesAll.shrinks {board' : Board} {settled : List Nat}
    (h : SettlesAll plan board board' settled) (hsome : ∃ i ∈ settled, i ∈ board.pending) :
    board'.pending.length < board.pending.length := by
  obtain ⟨i, hsettled, hi⟩ := hsome
  have hsub : board'.pending ⊆ board.pending.erase i := by
    intro j hj
    obtain ⟨hmem, hnot⟩ := (h.2 j).mp hj
    have hne : j ≠ i := fun heq => hnot (heq ▸ hsettled)
    exact (List.mem_erase_of_ne hne).mpr hmem
  have hnodup : board'.pending.Nodup := h.1.sorted.imp fun hlt => Nat.ne_of_lt hlt
  have hle := (List.subperm_of_subset hnodup hsub).length_le
  have hpos := List.length_pos_of_mem hi
  rw [List.length_erase_of_mem hi] at hle
  omega

end

end Linklint
