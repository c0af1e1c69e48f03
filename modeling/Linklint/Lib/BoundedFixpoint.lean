import Mathlib.Logic.Function.Iterate

/-!
# A function applied until nothing changes

`run f bound x` applies `f` until a pass changes nothing or the bound is reached,
counts the passes that changed something and says whether another one would.
-/

namespace BoundedFixpoint

variable {α : Type*} (f : α → α)

structure Outcome (α : Type*) where
  value : α
  passes : Nat
  truncated : Bool

/-- The pass after `n` others still changes something. -/
def Changes (x : α) (n : Nat) : Prop := f (f^[n] x) ≠ f^[n] x

section Loop

variable [DecidableEq α]

/-- The loop, from a value that `passes` passes have led to. -/
def loop : Nat → α → Nat → Outcome α
  | 0, x, passes => { value := x, passes, truncated := f x ≠ x }
  | bound + 1, x, passes =>
      if f x = x then { value := x, passes, truncated := false }
      else loop bound (f x) (passes + 1)

def run (bound : Nat) (x : α) : Outcome α := loop f bound x 0

instance (x : α) (n : Nat) : Decidable (Changes f x n) := by
  unfold Changes
  infer_instance

end Loop

variable {f} {x : α}

theorem changes_succ {n : Nat} : Changes f x (n + 1) ↔ Changes f (f x) n := by
  rw [Changes, Changes, Function.iterate_succ_apply]

/-- Once a pass changes nothing, none does. -/
theorem changes_mono {m n : Nat} (hmn : m ≤ n) (h : Changes f x n) : Changes f x m := by
  induction hmn with
  | refl => exact h
  | step _ ih =>
      refine ih fun hstable => h ?_
      rw [Function.iterate_succ_apply', hstable]
      exact hstable

theorem not_changes_of_stable (h : f x = x) (n : Nat) : ¬ Changes f x n :=
  fun hn => changes_mono (Nat.zero_le n) hn h

variable [DecidableEq α]

theorem truncated_loop (bound passes : Nat) :
    (loop f bound x passes).truncated = true ↔ Changes f x bound := by
  induction bound generalizing x passes with
  | zero => simp [loop, Changes]
  | succ bound ih =>
      rw [loop]
      split
      · rename_i hstable
        simpa using not_changes_of_stable hstable (bound + 1)
      · rw [ih, changes_succ]

theorem le_passes_loop (bound passes : Nat) : passes ≤ (loop f bound x passes).passes := by
  induction bound generalizing x passes with
  | zero => exact Nat.le_refl passes
  | succ bound ih =>
      rw [loop]
      split
      · exact Nat.le_refl passes
      · exact Nat.le_trans (Nat.le_succ passes) (ih (passes + 1))

theorem passes_loop (bound passes n : Nat) :
    passes + n < (loop f bound x passes).passes ↔ n < bound ∧ Changes f x n := by
  induction bound generalizing x passes n with
  | zero => simp [loop]
  | succ bound ih =>
      rw [loop]
      split
      · rename_i hstable
        have hnone := not_changes_of_stable hstable n
        simp [hnone]
      · rename_i hchange
        cases n with
        | zero =>
            have hmore : passes < (loop f bound (f x) (passes + 1)).passes :=
              le_passes_loop bound (passes + 1)
            exact iff_of_true hmore ⟨Nat.succ_pos bound, hchange⟩
        | succ n =>
            have hshift : passes + (n + 1) = passes + 1 + n := by omega
            rw [hshift, ih, changes_succ]
            simp

/-- The bound cut the loop short exactly when the pass after it would change something. -/
theorem truncated_iff (bound : Nat) : (run f bound x).truncated = true ↔ Changes f x bound :=
  truncated_loop bound 0

/-- More than `n` passes changed something: the bound allows them, and pass `n` did. -/
theorem passes_iff (bound n : Nat) : n < (run f bound x).passes ↔ n < bound ∧ Changes f x n := by
  simpa only [Nat.zero_add, run] using passes_loop bound 0 n

theorem value_loop (bound passes : Nat) : ∃ n, (loop f bound x passes).value = f^[n] x ∧
    (loop f bound x passes).passes = passes + n ∧ n ≤ bound := by
  induction bound generalizing x passes with
  | zero => exact ⟨0, rfl, rfl, Nat.le_refl 0⟩
  | succ bound ih =>
      rw [loop]
      split
      · exact ⟨0, rfl, rfl, Nat.zero_le _⟩
      · obtain ⟨n, hvalue, hpasses, hn⟩ := @ih (f x) (passes + 1)
        refine ⟨n + 1, ?_, by omega, by omega⟩
        rw [hvalue, Function.iterate_succ_apply]

theorem value_eq (bound : Nat) : (run f bound x).value = f^[(run f bound x).passes] x := by
  obtain ⟨n, hvalue, hpasses, -⟩ := @value_loop _ f x _ bound 0
  rw [run, hvalue, hpasses, Nat.zero_add]

theorem passes_le (bound : Nat) : (run f bound x).passes ≤ bound := by
  obtain ⟨n, -, hpasses, hn⟩ := @value_loop _ f x _ bound 0
  rw [run, hpasses, Nat.zero_add]
  exact hn

theorem loop_of_stable {bound deeper : Nat} (hdeeper : bound ≤ deeper) (passes : Nat)
    (h : ¬ Changes f x bound) : loop f deeper x passes = loop f bound x passes := by
  induction bound generalizing x deeper passes with
  | zero =>
      have hstable : f x = x := not_not.mp h
      cases deeper with
      | zero => rfl
      | succ deeper => simp [loop, hstable]
  | succ bound ih =>
      obtain ⟨deeper, rfl⟩ := Nat.exists_eq_add_of_le' (Nat.le_trans (Nat.succ_pos bound) hdeeper)
      rw [loop, loop]
      split
      · rfl
      · exact ih (Nat.le_of_succ_le_succ hdeeper) (passes + 1) (mt changes_succ.mpr h)

/-- A run that reached a stable value is the run under every larger bound. -/
theorem run_of_stable {bound deeper : Nat} (hdeeper : bound ≤ deeper)
    (h : (run f bound x).truncated = false) : run f deeper x = run f bound x := by
  apply loop_of_stable hdeeper
  rw [← truncated_iff, h]
  exact Bool.false_ne_true

/-- A larger bound goes through the value of the smaller one. -/
theorem passes_mono {bound deeper : Nat} (hdeeper : bound ≤ deeper) :
    (run f bound x).passes ≤ (run f deeper x).passes := by
  apply Nat.le_of_not_lt
  intro hless
  obtain ⟨hbound, hchanges⟩ := (passes_iff bound _).mp hless
  have hmore := (passes_iff deeper _).mpr ⟨Nat.lt_of_lt_of_le hbound hdeeper, hchanges⟩
  exact Nat.lt_irrefl _ hmore

/-- An idempotent function needs one pass, however many the bound allows. -/
theorem run_of_idempotent (h : f (f x) = f x) (bound : Nat) :
    (run f (bound + 1) x).value = f x ∧ (run f (bound + 1) x).passes ≤ 1
      ∧ (run f (bound + 1) x).truncated = false := by
  have hstable : ¬ Changes f x 1 := not_not.mpr h
  have hone : (run f 1 x).truncated = false :=
    Bool.eq_false_iff.mpr fun ht => hstable ((truncated_iff 1).mp ht)
  rw [run_of_stable (Nat.le_add_left 1 bound) hone]
  refine ⟨?_, passes_le 1, hone⟩
  rw [run, loop]
  split
  · rename_i hfixed
    exact hfixed.symm
  · rfl

end BoundedFixpoint
