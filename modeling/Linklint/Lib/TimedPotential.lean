import Mathlib.Algebra.Order.Field.Basic
import Mathlib.Data.List.Pairwise
import Mathlib.Data.List.TakeWhile
import Mathlib.Tactic.Linarith
import Mathlib.Tactic.Ring

/-!
# Potentials that grow with time

A state whose potential grows at most at a fixed rate while nothing happens, and
pays for what happens. Over any window the cost is then at most the largest
potential and what the window has brought in.
-/

namespace TimedPotential

variable {σ ε K : Type*}

/-- A state machine driven by timed events, each of which may cost something. -/
structure System (σ ε K : Type*) where
  apply : σ → ε → σ
  time : ε → K
  cost : σ → ε → Nat

namespace System

variable (S : System σ ε K)

def run (s : σ) (events : List ε) : σ := events.foldl S.apply s

/-- The cost of the events that meet `p`. -/
def spent (p : ε → Bool) : σ → List ε → Nat
  | _, [] => 0
  | s, e :: rest => (if p e then S.cost s e else 0) + spent p (S.apply s e) rest

theorem run_append (s : σ) (as bs : List ε) : S.run s (as ++ bs) = S.run (S.run s as) bs := by
  simp [run]

theorem spent_append (p : ε → Bool) (s : σ) (as bs : List ε) :
    S.spent p s (as ++ bs) = S.spent p s as + S.spent p (S.run s as) bs := by
  induction as generalizing s with
  | nil => simp [spent, run]
  | cons e rest ih =>
      rw [List.cons_append, spent, spent, ih, Nat.add_assoc]
      rfl

theorem spent_of_none {p : ε → Bool} {events : List ε} (h : ∀ e ∈ events, p e = false) (s : σ) :
    S.spent p s events = 0 := by
  induction events generalizing s with
  | nil => rfl
  | cons e rest ih =>
      rw [spent, h e (List.mem_cons_self ..), ih fun e' he => h e' (List.mem_cons_of_mem _ he)]
      rfl

end System

variable [Field K] [LinearOrder K] [IsStrictOrderedRing K]

/-- The level of a system: what it can still spend at an instant not before its last event. -/
structure Potential (S : System σ ε K) where
  level : σ → K → K
  rate : K
  bound : K
  /-- the state is sound and was last touched no later than the instant -/
  sound : σ → K → Prop
  sound_mono : ∀ {s t t'}, sound s t → t ≤ t' → sound s t'
  sound_apply : ∀ {s e}, sound s (S.time e) → sound (S.apply s e) (S.time e)
  drift : ∀ {s t t'}, sound s t → t ≤ t' → level s t' ≤ level s t + rate * (t' - t)
  pays : ∀ {s e}, sound s (S.time e) →
    level (S.apply s e) (S.time e) + S.cost s e ≤ level s (S.time e)
  nonneg : ∀ {s t}, sound s t → 0 ≤ level s t
  level_le : ∀ {s t}, sound s t → level s t ≤ bound

section Window

variable {time : ε → K} {events : List ε}

omit [Field K] [IsStrictOrderedRing K] in
/-- A sorted run leaves a property that early events have for good. -/
theorem not_of_mem_dropWhile {p : ε → Bool}
    (hp : ∀ e e', time e ≤ time e' → p e' = true → p e = true)
    (hsorted : events.Pairwise fun e e' => time e ≤ time e') :
    ∀ e ∈ events.dropWhile p, p e = false := by
  induction events with
  | nil => simp
  | cons first rest ih =>
      obtain ⟨hfirst, hrest⟩ := List.pairwise_cons.mp hsorted
      intro e he
      by_cases hp₁ : p first = true
      · rw [List.dropWhile_cons_of_pos hp₁] at he
        exact ih hrest e he
      · rw [List.dropWhile_cons_of_neg hp₁] at he
        rcases List.mem_cons.mp he with rfl | he
        · simpa using hp₁
        · by_contra hpe
          exact hp₁ (hp first e (hfirst e he) (by simpa using hpe))

omit [Field K] [IsStrictOrderedRing K] in
/-- A sorted run splits at the ends of a window. -/
theorem exists_window (time : ε → K) (a z : K)
    (hsorted : events.Pairwise fun e e' => time e ≤ time e') :
    ∃ before inside later, events = before ++ inside ++ later ∧
      (∀ e ∈ before, time e < a) ∧ (∀ e ∈ inside, a ≤ time e ∧ time e ≤ z) ∧
      ∀ e ∈ later, z < time e := by
  set early : ε → Bool := fun e => decide (time e < a) with hearly
  set timely : ε → Bool := fun e => decide (time e ≤ z) with htimely
  have hlate : ∀ e ∈ events.dropWhile early, early e = false :=
    not_of_mem_dropWhile (fun e e' hle h => by
      simp only [hearly, decide_eq_true_eq] at h ⊢
      exact lt_of_le_of_lt hle h) hsorted
  have hpast : ∀ e ∈ (events.dropWhile early).dropWhile timely, timely e = false :=
    not_of_mem_dropWhile (fun e e' hle h => by
      simp only [htimely, decide_eq_true_eq] at h ⊢
      exact hle.trans h) (hsorted.sublist (List.dropWhile_sublist _))
  refine ⟨events.takeWhile early, (events.dropWhile early).takeWhile timely,
    (events.dropWhile early).dropWhile timely, ?_, ?_, ?_, ?_⟩
  · rw [List.append_assoc, List.takeWhile_append_dropWhile, List.takeWhile_append_dropWhile]
  · intro e he
    simpa [hearly] using List.mem_takeWhile_imp he
  · intro e he
    have hge := hlate e ((List.takeWhile_sublist _).subset he)
    have hle := List.mem_takeWhile_imp he
    simp only [hearly, htimely, decide_eq_false_iff_not, decide_eq_true_eq] at hge hle
    exact ⟨not_lt.mp hge, hle⟩
  · intro e he
    simpa [htimely] using hpast e he

end Window

namespace Potential

variable {S : System σ ε K} (P : Potential S)

omit [IsStrictOrderedRing K] in
theorem sound_run {s : σ} {t : K} (hs : ∀ t, P.sound s t) {events : List ε}
    (hsorted : events.Pairwise fun e e' => S.time e ≤ S.time e') (ht : ∀ e ∈ events, S.time e ≤ t) :
    P.sound (S.run s events) t := by
  have key : ∀ (s : σ) (t₀ : K), P.sound s t₀ → t₀ ≤ t → (∀ e ∈ events, t₀ ≤ S.time e) →
      P.sound (S.run s events) t := by
    induction events with
    | nil => exact fun s t₀ hs ht₀ _ => P.sound_mono hs ht₀
    | cons e rest ih =>
        intro s t₀ hs _ hafter
        obtain ⟨hfirst, hrest⟩ := List.pairwise_cons.mp hsorted
        have he := P.sound_apply (P.sound_mono hs (hafter e (List.mem_cons_self ..)))
        exact ih hrest (fun e' he' => ht e' (List.mem_cons_of_mem _ he')) _ _ he
          (ht e (List.mem_cons_self ..)) hfirst
  cases events with
  | nil => exact hs t
  | cons e rest =>
      refine key s (S.time e) (hs _) (ht e (List.mem_cons_self ..)) fun e' he' => ?_
      rcases List.mem_cons.mp he' with rfl | he'
      · exact le_refl _
      · exact (List.pairwise_cons.mp hsorted).1 e' he'

/-- What a run spends comes out of its level and of what time brings in. -/
theorem spent_le {s : σ} {a z : K} (hs : P.sound s a) (haz : a ≤ z) {p : ε → Bool}
    {events : List ε} (hsorted : events.Pairwise fun e e' => S.time e ≤ S.time e')
    (hwindow : ∀ e ∈ events, a ≤ S.time e ∧ S.time e ≤ z) :
    (S.spent p s events : K) + P.level (S.run s events) z ≤ P.level s a + P.rate * (z - a) := by
  induction events generalizing s a with
  | nil => simpa [System.spent, System.run] using P.drift hs haz
  | cons e rest ih =>
      obtain ⟨hfirst, hrest⟩ := List.pairwise_cons.mp hsorted
      obtain ⟨ha, hz⟩ := hwindow e (List.mem_cons_self ..)
      have he := P.sound_mono hs ha
      have htail := ih (P.sound_apply he) hz hrest fun e' he' =>
        ⟨hfirst e' he', (hwindow e' (List.mem_cons_of_mem _ he')).2⟩
      have hdrift := P.drift hs ha
      have hpays := P.pays he
      have hcost : ((if p e then S.cost s e else 0 : Nat) : K) ≤ S.cost s e := by
        split
        · exact le_refl _
        · simp
      have hrun : S.run s (e :: rest) = S.run (S.apply s e) rest := rfl
      rw [System.spent, Nat.cast_add, hrun]
      have hsplit : P.rate * (z - a) = P.rate * (S.time e - a) + P.rate * (z - S.time e) := by ring
      linarith

/-- What a window can cost, wherever it lies in a run. -/
theorem window_le {s : σ} (hs : ∀ t, P.sound s t) {a z : K} (haz : a ≤ z) {events : List ε}
    (hsorted : events.Pairwise fun e e' => S.time e ≤ S.time e') :
    (S.spent (fun e => decide (a ≤ S.time e ∧ S.time e ≤ z)) s events : K)
      ≤ P.bound + P.rate * (z - a) := by
  set inWindow : ε → Bool := fun e => decide (a ≤ S.time e ∧ S.time e ≤ z) with hwindow
  obtain ⟨before, inside, later, rfl, hbefore, hinside, hlater⟩ :=
    exists_window S.time a z hsorted
  have hskip : ∀ e ∈ before, inWindow e = false := fun e he => by
    simp [hwindow, not_le.mpr (hbefore e he)]
  have hrest : ∀ e ∈ later, inWindow e = false := fun e he => by
    simp [hwindow, not_le.mpr (hlater e he)]
  rw [S.spent_append, S.spent_append, S.spent_of_none hskip, S.spent_of_none hrest, Nat.zero_add,
    Nat.add_zero]
  obtain ⟨hfirst, _, _⟩ := List.pairwise_append.mp hsorted
  obtain ⟨hsortedBefore, hsortedInside, _⟩ := List.pairwise_append.mp hfirst
  have hsound := P.sound_run hs hsortedBefore fun e he => (hbefore e he).le
  have hspent := @spent_le _ _ _ _ _ _ _ P _ _ _ hsound haz inWindow _ hsortedInside hinside
  have hlevel := P.level_le hsound
  have hleft : 0 ≤ P.level (S.run (S.run s before) inside) z := by
    rw [← S.run_append]
    exact P.nonneg (P.sound_run hs hfirst fun e he => (List.mem_append.mp he).elim
      (fun h => (hbefore e h).le.trans haz) fun h => (hinside e h).2)
  linarith

end Potential

end TimedPotential
