import Linklint.Enrichment.Lifecycle
import Linklint.Enrichment.Plan

/-!
# The board of the plan

What the slots of the plan hold at the head of the loop: a pending entry has an
empty slot, and every filled slot holds what the executor or a source run put
there. No search over filled slots throws.
-/

namespace Linklint

open Interaction

/-! ### Searches that do not throw -/

/-- The answer of a predicate that did not throw. -/
def holds {α : Type} (p : α → Except Thrown Bool) (x : α) : Bool :=
  match p x with
  | .ok b => b
  | .error _ => false

section
variable {α : Type} {p : α → Except Thrown Bool} {l : List α}

theorem holds_iff {x : α} : holds p x = true ↔ p x = .ok true := by
  unfold holds
  split
  · rename_i b hb
    simp [hb]
  · rename_i e he
    simp [he]

theorem eq_holds {x : α} (h : ∃ b, p x = .ok b) : p x = .ok (holds p x) := by
  obtain ⟨b, hb⟩ := h
  rw [holds, hb]

theorem everyThrowing_eq (h : ∀ x ∈ l, ∃ b, p x = .ok b) :
    everyThrowing p l = .ok (l.all (holds p)) := by
  induction l with
  | nil => rfl
  | cons x rest ih =>
      have htail := ih fun y hy => h y (List.mem_cons_of_mem _ hy)
      rw [everyThrowing, eq_holds (h x (List.mem_cons_self ..)), List.all_cons]
      cases holds p x
      · rfl
      · exact htail

theorem someThrowing_eq (h : ∀ x ∈ l, ∃ b, p x = .ok b) :
    someThrowing p l = .ok (l.any (holds p)) := by
  induction l with
  | nil => rfl
  | cons x rest ih =>
      have htail := ih fun y hy => h y (List.mem_cons_of_mem _ hy)
      rw [someThrowing, eq_holds (h x (List.mem_cons_self ..)), List.any_cons]
      cases holds p x
      · exact htail
      · rfl

theorem filterThrowing_eq (h : ∀ x ∈ l, ∃ b, p x = .ok b) :
    filterThrowing p l = .ok (l.filter (holds p)) := by
  induction l with
  | nil => rfl
  | cons x rest ih =>
      have htail := ih fun y hy => h y (List.mem_cons_of_mem _ hy)
      rw [filterThrowing, eq_holds (h x (List.mem_cons_self ..)), htail, List.filter_cons]
      cases holds p x <;> rfl

end

/-! ### Reports that can be searched -/

theorem outcomesEvery_of_outcomesSome {outcomes : List (Option EnrichmentOutcome)} {b : Bool}
    (h : outcomesSome isFailure outcomes = .ok b) :
    ∃ b', outcomesEvery isCompleted outcomes = .ok b' := by
  induction outcomes with
  | nil => exact ⟨true, rfl⟩
  | cons outcome rest ih =>
      cases outcome with
      | none => cases h
      | some outcome =>
          rw [outcomesSome] at h
          rw [outcomesEvery]
          cases hcompleted : isCompleted outcome with
          | false => exact ⟨false, rfl⟩
          | true =>
              have hfailure : isFailure outcome = false := by
                rw [isCompleted] at hcompleted
                rw [isFailure]
                cases hstatus : outcome.status <;> rw [hstatus] at hcompleted <;> first | rfl | cases hcompleted
              rw [hfailure] at h
              exact ih h

theorem outcomesEvery_some (outcomes : List EnrichmentOutcome) :
    outcomesEvery isCompleted (outcomes.map some) = .ok (outcomes.all isCompleted) := by
  induction outcomes with
  | nil => rfl
  | cons outcome rest ih =>
      rw [List.map_cons, outcomesEvery, List.all_cons, ih]
      cases isCompleted outcome <;> rfl

theorem outcomesEvery_append {outcomes : List (Option EnrichmentOutcome)}
    (h : ∃ b, outcomesEvery isCompleted outcomes = .ok b) (more : List EnrichmentOutcome) :
    ∃ b, outcomesEvery isCompleted (outcomes ++ more.map some) = .ok b := by
  induction outcomes with
  | nil => exact ⟨_, outcomesEvery_some more⟩
  | cons outcome rest ih =>
      obtain ⟨b, hb⟩ := h
      cases outcome with
      | none => cases hb
      | some outcome =>
          rw [outcomesEvery] at hb
          rw [List.cons_append, outcomesEvery]
          cases hcompleted : isCompleted outcome with
          | false => exact ⟨false, rfl⟩
          | true =>
              rw [hcompleted] at hb
              exact ih ⟨b, hb⟩

/-- What a search that did not throw has found. -/
theorem outcomesEvery_true {outcomes : List (Option EnrichmentOutcome)} :
    outcomesEvery isCompleted outcomes = .ok true ↔
      ∀ outcome ∈ outcomes, ∃ o, outcome = some o ∧ o.status.isCompleted = true := by
  induction outcomes with
  | nil => simp [outcomesEvery]
  | cons outcome rest ih =>
      cases outcome with
      | none => simp [outcomesEvery]
      | some outcome =>
          rw [outcomesEvery, List.forall_mem_cons]
          cases hcompleted : isCompleted outcome with
          | false =>
              constructor
              · intro h
                cases h
              · rintro ⟨⟨o, ho, hstatus⟩, _⟩
                cases ho
                rw [isCompleted, hstatus] at hcompleted
                cases hcompleted
          | true =>
              refine ih.trans ⟨fun h => ⟨⟨outcome, rfl, hcompleted⟩, h⟩, fun h => h.2⟩

/-- A normalized cached report has no `null` outcome. -/
theorem slots_of_not_refused {slots : List (Option Value)} (h : refusesCached slots = .ok false) :
    none ∉ slots := by
  induction slots with
  | nil => simp
  | cons slot rest ih =>
      cases slot with
      | none => cases h
      | some v =>
          rw [refusesCached] at h
          split at h
          · cases h
          · simpa using ih h

theorem some_of_slotReads {slots : List (Option Value)} {reads : List (Option EnrichmentOutcome)}
    (h : List.Forall₂ SlotReads slots reads) (hsome : none ∉ slots) :
    ∃ outcomes : List EnrichmentOutcome, reads = outcomes.map some := by
  induction h with
  | nil => exact ⟨[], rfl⟩
  | @cons slot read slots reads hslot _ ih =>
      obtain ⟨outcomes, houtcomes⟩ := ih fun hmem => hsome (List.mem_cons_of_mem _ hmem)
      rcases hslot with ⟨rfl, _⟩ | ⟨o, outcome, _, rfl, _⟩
      · exact absurd (List.mem_cons_self ..) hsome
      · exact ⟨outcome :: outcomes, by rw [houtcomes, List.map_cons]⟩

theorem every_of_cached {enricher : Enricher} {cached report : Value}
    (h : normalizeCachedReport enricher cached = .ok (some report)) :
    (readReport report).outcomes ≠ [] ∧
      ∃ b, outcomesEvery isCompleted (readReport report).outcomes = .ok b := by
  obtain ⟨haccepted, hrefused, rfl⟩ := cached_eq_some h
  obtain ⟨hne, hreads⟩ := readReport_of_accepted haccepted
  obtain ⟨outcomes, houtcomes⟩ := some_of_slotReads hreads (slots_of_not_refused hrefused)
  rw [houtcomes]
  refine ⟨fun hnil => ?_, _, outcomesEvery_some outcomes⟩
  rw [houtcomes, hnil] at hreads
  exact hne (List.forall₂_nil_right_iff.mp hreads)

theorem every_of_normalized {enricher : Enricher} {base : InspectResult} {output report : Value}
    (h : Normalized enricher base output report) (dense : isSparseOutput enricher output = false) :
    (readReport report).outcomes ≠ [] ∧
      ∃ b, outcomesEvery isCompleted (readReport report).outcomes = .ok b := by
  have hsome := outcomesSome_of_normalized h
  rw [dense] at hsome
  refine ⟨?_, outcomesEvery_of_outcomesSome hsome⟩
  cases h with
  | legacy observedAt hflat =>
      obtain ⟨outcome, houtcomes, _⟩ := @readReport_legacy enricher base observedAt _ hflat
      rw [houtcomes]
      simp
  | declared hflat h =>
      obtain ⟨haccepted, -, rfl⟩ := declaredReport_eq_some h
      obtain ⟨hne, hreads⟩ := readReport_of_accepted haccepted
      intro hnil
      rw [hnil] at hreads
      cases hslots : outcomeSlots output with
      | nil => exact hne hslots
      | cons slot rest =>
          rw [hslots] at hreads
          cases hreads

/-- The report of a source run has outcomes and can be searched. -/
theorem every_of_run {input : RunnerInput} {trace : List RunnerEvent} {run : EnricherRun}
    (h : Runs (runEnricher input) trace (some (.ok run))) :
    run.token = input.token ∧ run.report.outcomes ≠ [] ∧ ∃ b, runIsAvailable run = .ok b := by
  obtain ⟨phase, _, hconcluded⟩ := h.follows wp_runEnricher
  obtain ⟨htoken, _, source, framework, hreport, hsupplies⟩ := hconcluded _ rfl
  rw [runIsAvailable, hreport.outcomes]
  cases source with
  | none =>
      refine ⟨htoken, ?_, _, outcomesEvery_some framework⟩
      simpa using hreport.nonempty rfl
  | some report =>
      have hevery : (readReport report).outcomes ≠ [] ∧
          ∃ b, outcomesEvery isCompleted (readReport report).outcomes = .ok b := by
        have hs := hsupplies report rfl
        match phase with
        | .hit cached => exact every_of_cached hs
        | .completed output => exact every_of_normalized hs.1 hs.2
        | .recorded _ (some output) => exact every_of_normalized hs.1 hs.2
      refine ⟨htoken, ?_, outcomesEvery_append hevery.2 framework⟩
      simp [hevery.1]

/-! ### Entries -/

section
variable (plan : PlanInput)

/-- An entry that passed the preflight. -/
def IsValidEntry (i : Nat) : Prop :=
  ∃ step, plan.steps[i]? = some step ∧ preflightDetails plan step = none

/-- The dependency graph of the valid entries. -/
def DependsOn (i j : Nat) : Prop :=
  IsValidEntry plan i ∧ IsValidEntry plan j ∧
    ∃ dependency ∈ dependenciesAt plan i, tokenToIndex plan dependency = some j

def OnCycle (i : Nat) : Prop := Relation.TransGen (DependsOn plan) i i

/-- Where the run of a slot comes from. -/
inductive Origin (i : Nat) (run : EnricherRun) : Prop
  | skipped {step : PlannedEnricher} (hstep : plan.steps[i]? = some step)
      {code : EnrichmentFrameworkCauseCode} {details : Option Value} {observedAt : Text}
      (hcode : code = .dependencyCycle → OnCycle plan i)
      (hrun : run = skippedRun plan step code details observedAt)
  | ran {step : PlannedEnricher} (hstep : plan.steps[i]? = some step)
      (valid : IsValidEntry plan i) {board : Board} {trace : List RunnerEvent}
      (hruns : Runs (runEnricher (plan.runnerInput step board)) trace (some (.ok run)))

/-- The board at the head of the loop. -/
structure BoardInv (board : Board) : Prop where
  length : board.runs.length = plan.steps.length
  sorted : board.pending.Pairwise (· < ·)
  pending : ∀ i ∈ board.pending, IsValidEntry plan i ∧ board.runs[i]? = some none
  filled : ∀ i, i < plan.steps.length → i ∉ board.pending →
    ∃ run, board.runs[i]? = some (some run) ∧ Origin plan i run

variable {plan}

theorem steps_getElem? (i : Nat) : plan.steps[i]? = plan.enrichers[i]?.map (plannedEnricher i) :=
  List.getElem?_mapIdx

theorem step_index {i : Nat} {step : PlannedEnricher} (h : plan.steps[i]? = some step) :
    step.index = i := by
  rw [steps_getElem?] at h
  obtain ⟨enricher, _, rfl⟩ := Option.map_eq_some_iff.mp h
  rfl

theorem steps_of_mem {step : PlannedEnricher} (h : step ∈ plan.steps) :
    plan.steps[step.index]? = some step := by
  obtain ⟨i, hi⟩ := List.mem_iff_getElem?.mp h
  rw [step_index hi, hi]

theorem steps_indexes : plan.steps.map (fun step => step.index) = List.range plan.steps.length := by
  refine List.ext_getElem? fun i => ?_
  rw [List.getElem?_map]
  cases hi : plan.steps[i]? with
  | none =>
      rw [Option.map_none, List.getElem?_eq_none]
      simpa using hi
  | some step =>
      have hlt : i < plan.steps.length := (List.getElem?_eq_some_iff.mp hi).1
      rw [Option.map_some, step_index hi, List.getElem?_range hlt]

theorem tokenToIndex_eq_some {dependency : Option Text} {j : Nat}
    (h : tokenToIndex plan dependency = some j) :
    ∃ step, plan.steps[j]? = some step ∧ dependency = some step.token := by
  obtain ⟨token, rfl, hfound⟩ := Option.bind_eq_some_iff.mp h
  split at hfound
  · obtain ⟨step, hfind, rfl⟩ := Option.map_eq_some_iff.mp hfound
    have htoken := List.find?_some hfind
    refine ⟨step, steps_of_mem (List.mem_of_find?_eq_some hfind), ?_⟩
    rw [show step.token = token by simpa using htoken]
  · cases hfound

/-- The dependencies of a valid entry are entries. -/
theorem tokenToIndex_of_valid {i : Nat} (h : IsValidEntry plan i) {dependency : Option Text}
    (hdependency : dependency ∈ dependenciesAt plan i) :
    ∃ j, tokenToIndex plan dependency = some j := by
  obtain ⟨step, hstep, hnone⟩ := h
  rw [preflightDetails] at hnone
  split at hnone
  · cases hnone
  · split at hnone
    · cases hnone
    · simp only [] at hnone
      split at hnone
      · rename_i hunknown
        rw [dependenciesAt, hstep] at hdependency
        have hknown := List.filter_eq_nil_iff.mp hunknown dependency hdependency
        exact Option.ne_none_iff_exists'.mp (by simpa using hknown)
      · cases hnone

/-! ### Settling slots -/

variable {board : Board}

theorem boardInv_preflight (clock : Nat → Text) : BoardInv plan (preflight plan clock) := by
  have hruns : ∀ (i : Nat) (step : PlannedEnricher), plan.steps[i]? = some step → (preflight plan clock).runs[i]? =
      some ((preflightDetails plan step).map fun details =>
        skippedRun plan step .invalidPlan (some details) (clock step.index)) := by
    intro i step hstep
    simp [preflight, hstep]
  refine ⟨by simp [preflight], ?_, fun i hi => ?_, fun i hi hpending => ?_⟩
  · have hsublist : (preflight plan clock).pending.Sublist
        (plan.steps.map fun step => step.index) := List.filter_sublist.map _
    rw [steps_indexes] at hsublist
    exact List.pairwise_lt_range.sublist hsublist
  · obtain ⟨step, hmem, rfl⟩ := List.mem_map.mp hi
    obtain ⟨hstep, hnone⟩ := List.mem_filter.mp hmem
    have hdetails : preflightDetails plan step = none := by simpa using hnone
    refine ⟨⟨step, steps_of_mem hstep, hdetails⟩, ?_⟩
    rw [hruns _ step (steps_of_mem hstep), hdetails]
    rfl
  · have hstep : plan.steps[i]? = some plan.steps[i] := List.getElem?_eq_getElem hi
    cases hdetails : preflightDetails plan plan.steps[i] with
    | none =>
        refine absurd (List.mem_map.mpr ⟨plan.steps[i], List.mem_filter.mpr ⟨?_, ?_⟩, ?_⟩) hpending
        · exact List.getElem_mem hi
        · simp [hdetails]
        · exact step_index hstep
    | some details =>
        refine ⟨_, (hruns i _ hstep).trans (by rw [hdetails]; rfl), .skipped hstep ?_ rfl⟩
        intro hcode
        cases hcode

theorem Origin.lt {i : Nat} {run : EnricherRun} (h : Origin plan i run) :
    i < plan.steps.length := by
  cases h with
  | skipped hstep _ _ => exact (List.getElem?_eq_some_iff.mp hstep).1
  | ran hstep _ _ => exact (List.getElem?_eq_some_iff.mp hstep).1

theorem mem_settle_pending {i j : Nat} {run : EnricherRun} :
    j ∈ (board.settle i run).pending ↔ j ∈ board.pending ∧ j ≠ i := by
  simp [Board.settle]

theorem boardInv_settle (inv : BoardInv plan board) {i : Nat} {run : EnricherRun}
    (origin : Origin plan i run) : BoardInv plan (board.settle i run) := by
  have hlt : i < board.runs.length := by
    rw [inv.length]
    exact origin.lt
  refine ⟨by simp [Board.settle, inv.length], inv.sorted.sublist List.filter_sublist,
    fun j hj => ?_, fun j hj hpending => ?_⟩
  · obtain ⟨hmem, hne⟩ := mem_settle_pending.mp hj
    refine ⟨(inv.pending j hmem).1, ?_⟩
    rw [Board.settle, List.getElem?_set_ne (Ne.symm hne)]
    exact (inv.pending j hmem).2
  · by_cases hij : i = j
    · subst hij
      exact ⟨run, by rw [Board.settle, List.getElem?_set_self hlt], origin⟩
    · have hnot : j ∉ board.pending := fun hmem =>
        hpending (mem_settle_pending.mpr ⟨hmem, Ne.symm hij⟩)
      obtain ⟨other, hother, horigin⟩ := inv.filled j hj hnot
      exact ⟨other, by rw [Board.settle, List.getElem?_set_ne hij]; exact hother, horigin⟩

/-- What settling the entry of an item does to a board. -/
def Settles (plan : PlanInput) (board board' : Board) (i : Nat) : Prop :=
  BoardInv plan board' ∧ ∀ j, j ∈ board'.pending ↔ j ∈ board.pending ∧ j ≠ i

/-- Settling entries one after the other. -/
theorem boardInv_foldl {α : Type} (settle : Board → α → Board) (index : α → Nat) (l : List α)
    (hsettle : ∀ board, BoardInv plan board → ∀ x ∈ l, Settles plan board (settle board x) (index x))
    (inv : BoardInv plan board) :
    BoardInv plan (l.foldl settle board) ∧
      ∀ j, j ∈ (l.foldl settle board).pending ↔ j ∈ board.pending ∧ j ∉ l.map index := by
  induction l generalizing board with
  | nil => exact ⟨inv, fun j => by simp⟩
  | cons x rest ih =>
      obtain ⟨hfirst, hpending⟩ := hsettle board inv x (List.mem_cons_self ..)
      obtain ⟨hinv, hmem⟩ := ih (fun b hb y hy => hsettle b hb y (List.mem_cons_of_mem _ hy)) hfirst
      refine ⟨hinv, fun j => ?_⟩
      rw [List.foldl_cons, hmem, hpending, List.map_cons, List.mem_cons, not_or, and_assoc]

theorem settles_skip (inv : BoardInv plan board) {i : Nat} (hi : i < plan.steps.length)
    (code : EnrichmentFrameworkCauseCode) (details : PlannedEnricher → Option Value)
    (observedAt : Text) (hcode : code = .dependencyCycle → OnCycle plan i) :
    Settles plan board (board.skip plan i code details observedAt) i := by
  have hstep : plan.steps[i]? = some plan.steps[i] := List.getElem?_eq_getElem hi
  rw [Board.skip, hstep]
  exact ⟨boardInv_settle inv (.skipped hstep hcode rfl), fun j => mem_settle_pending⟩

end

end Linklint
