import Mathlib.Data.List.Basic

/-!
# Guarded loops

A loop that runs every worker behind a handler of its own: the results of the
workers that returned are concatenated, the workers that threw are remembered.
-/

namespace GuardedLoop

variable {W R E : Type*}

/-- The loop, with the results so far and the failed workers so far. -/
def run (work : W → Except E (List R)) : List W → List R × List W
  | [] => ([], [])
  | w :: rest =>
      let after := run work rest
      match work w with
      | .ok results => (results ++ after.1, after.2)
      | .error _ => (after.1, w :: after.2)

def results (outcome : Except E (List R)) : List R :=
  match outcome with
  | .ok found => found
  | .error _ => []

def failed (outcome : Except E (List R)) : Bool :=
  match outcome with
  | .ok _ => false
  | .error _ => true

/-- The same worker with every throw replaced by an empty result. -/
def quiet (work : W → Except E (List R)) (w : W) : Except E (List R) := .ok (results (work w))

theorem run_fst (work : W → Except E (List R)) (ws : List W) :
    (run work ws).1 = ws.flatMap (fun w => results (work w)) := by
  induction ws with
  | nil => rfl
  | cons w rest ih =>
      simp only [run, List.flatMap_cons]
      cases hw : work w <;> simp [results, ih]

theorem run_snd (work : W → Except E (List R)) (ws : List W) :
    (run work ws).2 = ws.filter (fun w => failed (work w)) := by
  induction ws with
  | nil => rfl
  | cons w rest ih =>
      simp only [run, List.filter_cons]
      cases hw : work w <;> simp [failed, ih]

/-- A failing worker costs itself only. -/
theorem run_quiet (work : W → Except E (List R)) (ws : List W) :
    run (quiet work) ws = ((run work ws).1, []) := by
  refine Prod.ext ?_ ?_
  · rw [run_fst, run_fst]
    rfl
  · rw [run_snd]
    simp [quiet, failed]

theorem run_append (work : W → Except E (List R)) (ws vs : List W) :
    run work (ws ++ vs) = ((run work ws).1 ++ (run work vs).1, (run work ws).2 ++ (run work vs).2) := by
  refine Prod.ext ?_ ?_
  · simp [run_fst]
  · simp [run_snd]

theorem mem_run_fst {work : W → Except E (List R)} {ws : List W} {r : R} :
    r ∈ (run work ws).1 ↔ ∃ w ∈ ws, r ∈ results (work w) := by
  rw [run_fst, List.mem_flatMap]

theorem run_congr {work work' : W → Except E (List R)} {ws : List W}
    (h : ∀ w ∈ ws, work w = work' w) : run work ws = run work' ws := by
  induction ws with
  | nil => rfl
  | cons w rest ih =>
      simp only [run]
      rw [h w (List.mem_cons_self ..), ih (fun v hv => h v (List.mem_cons_of_mem _ hv))]

end GuardedLoop
