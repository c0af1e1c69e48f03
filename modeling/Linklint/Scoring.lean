import Linklint.Schema.Result
import Linklint.Parse.Runtime
import Mathlib.Algebra.Order.Floor.Ring
import Mathlib.Data.Rat.Floor
import Mathlib.Tactic.Linarith
import Mathlib.Tactic.Positivity
import Mathlib.Tactic.FieldSimp

/-!
# Scoring

The probabilistic OR of the reason weights, rounded to ten decimal places, and
the caller's suppression of reasons. Weights and scores are exact rationals.
-/

namespace Linklint

/-- `Number(x.toFixed(10))`: of two nearest decimals the larger is taken. -/
def toFixed10 (q : Rat) : Rat := ⌊q * 10 ^ 10 + 1 / 2⌋ / 10 ^ 10

def severityForScore (score : Rat) : Severity :=
  if score ≤ 0 then .info
  else if score ≤ 1 / 4 then .low
  else if score ≤ 1 / 2 then .medium
  else if score ≤ 4 / 5 then .high
  else .critical

structure ScoreResult where
  score : Rat
  severity : Severity

/-- `Π(1 − wᵢ)` over the reasons with a positive weight. -/
def inverseProduct (reasons : List Reason) : Rat :=
  reasons.foldl (fun inverse reason =>
    if reason.weight ≤ 0 then inverse else inverse * (1 - reason.weight)) 1

def aggregate (reasons : List Reason) : ScoreResult :=
  let score := toFixed10 (1 - inverseProduct reasons)
  { score, severity := severityForScore score }

def ruleMatches (rule : SuppressionRule) (reason : Reason) (hostContext : Option Text) : Bool :=
  rule.code == text reason.code.name && (rule.host == none || rule.host == hostContext)

def suppressReason (rules : List SuppressionRule) (hostContext : Option Text)
    (reason : Reason) : Reason :=
  if rules.any (ruleMatches · reason hostContext) then { reason with weight := 0, suppressed := true }
  else reason

def applySuppressions (reasons : List Reason) (rules : List SuppressionRule)
    (hostContext : Option Text) : List Reason :=
  if rules = [] then reasons else reasons.map (suppressReason rules hostContext)

def suppressionHostContext (P : Platform) (registrableDomain : Option Text) : Option Text :=
  match registrableDomain with
  | none => none
  | some domain => if domain = [] then none else some (P.toLowerCase (P.toUnicode domain))

/-- Every reason weight of the program lies between zero and one. -/
def WeightsBounded (reasons : List Reason) : Prop :=
  ∀ reason ∈ reasons, 0 ≤ reason.weight ∧ reason.weight ≤ 1

theorem applySuppressions_eq_map (reasons : List Reason) (rules : List SuppressionRule)
    (hostContext : Option Text) :
    applySuppressions reasons rules hostContext
      = reasons.map (suppressReason rules hostContext) := by
  unfold applySuppressions
  split
  · rename_i hrules
    have hid : suppressReason rules hostContext = id := by
      funext reason
      simp [suppressReason, hrules]
    rw [hid, List.map_id]
  · rfl

theorem foldl_inverse (reasons : List Reason) (inverse : Rat) :
    reasons.foldl (fun acc reason =>
      if reason.weight ≤ 0 then acc else acc * (1 - reason.weight)) inverse
      = inverse * inverseProduct reasons := by
  induction reasons generalizing inverse with
  | nil => simp [inverseProduct]
  | cons reason rest ih =>
      simp only [inverseProduct, List.foldl_cons] at *
      rw [ih, ih (if reason.weight ≤ 0 then 1 else 1 * (1 - reason.weight))]
      split <;> ring

@[simp] theorem inverseProduct_nil : inverseProduct [] = 1 := rfl

theorem inverseProduct_cons (reason : Reason) (rest : List Reason) :
    inverseProduct (reason :: rest)
      = (if reason.weight ≤ 0 then 1 else 1 - reason.weight) * inverseProduct rest := by
  rw [inverseProduct, List.foldl_cons, foldl_inverse]
  split <;> simp

theorem inverseProduct_append (as bs : List Reason) :
    inverseProduct (as ++ bs) = inverseProduct as * inverseProduct bs := by
  rw [inverseProduct, List.foldl_append, foldl_inverse]
  rfl

theorem inverseProduct_perm {as bs : List Reason} (h : as.Perm bs) :
    inverseProduct as = inverseProduct bs := by
  induction h with
  | nil => rfl
  | cons reason _ ih => rw [inverseProduct_cons, inverseProduct_cons, ih]
  | swap a b rest =>
      rw [inverseProduct_cons, inverseProduct_cons, inverseProduct_cons, inverseProduct_cons]
      ring
  | trans _ _ ih₁ ih₂ => exact ih₁.trans ih₂

theorem inverseProduct_bounds {reasons : List Reason} (h : WeightsBounded reasons) :
    0 ≤ inverseProduct reasons ∧ inverseProduct reasons ≤ 1 := by
  induction reasons with
  | nil => simp
  | cons reason rest ih =>
      obtain ⟨hpos, hle⟩ := h reason (List.mem_cons_self ..)
      obtain ⟨hlow, hhigh⟩ := ih (fun r hr => h r (List.mem_cons_of_mem _ hr))
      rw [inverseProduct_cons]
      split
      · simpa using ⟨hlow, hhigh⟩
      · refine ⟨mul_nonneg (by linarith) hlow, ?_⟩
        exact mul_le_one₀ (by linarith) hlow hhigh

/-- Reasons of weight zero do not move the score. -/
theorem inverseProduct_of_weightless {reasons : List Reason}
    (h : ∀ reason ∈ reasons, reason.weight = 0) : inverseProduct reasons = 1 := by
  induction reasons with
  | nil => rfl
  | cons reason rest ih =>
      rw [inverseProduct_cons, ih (fun r hr => h r (List.mem_cons_of_mem _ hr)),
        h reason (List.mem_cons_self ..)]
      simp

theorem toFixed10_mono {p q : Rat} (h : p ≤ q) : toFixed10 p ≤ toFixed10 q := by
  unfold toFixed10
  have hfloor : ⌊p * 10 ^ 10 + 1 / 2⌋ ≤ ⌊q * 10 ^ 10 + 1 / 2⌋ := by
    apply Int.floor_le_floor
    linarith
  have hcast : ((⌊p * 10 ^ 10 + 1 / 2⌋ : Int) : Rat) ≤ ((⌊q * 10 ^ 10 + 1 / 2⌋ : Int) : Rat) := by
    exact_mod_cast hfloor
  exact div_le_div_of_nonneg_right hcast (by positivity)

theorem toFixed10_zero : toFixed10 0 = 0 := by
  have h : ⌊(0 : Rat) * 10 ^ 10 + 1 / 2⌋ = 0 := by
    rw [Int.floor_eq_iff]
    norm_num
  rw [toFixed10, h]
  norm_num

theorem toFixed10_one : toFixed10 1 = 1 := by
  have h : ⌊(1 : Rat) * 10 ^ 10 + 1 / 2⌋ = 10 ^ 10 := by
    rw [Int.floor_eq_iff]
    norm_num
  rw [toFixed10, h]
  norm_num

theorem aggregate_perm {as bs : List Reason} (h : as.Perm bs) : aggregate as = aggregate bs := by
  simp [aggregate, inverseProduct_perm h]

theorem aggregate_score_bounds {reasons : List Reason} (h : WeightsBounded reasons) :
    0 ≤ (aggregate reasons).score ∧ (aggregate reasons).score ≤ 1 := by
  obtain ⟨hlow, hhigh⟩ := inverseProduct_bounds h
  constructor
  · rw [← toFixed10_zero]
    exact toFixed10_mono (by linarith)
  · rw [← toFixed10_one]
    exact toFixed10_mono (by linarith)

/-- More reasons never lower the score. -/
theorem aggregate_score_append_le {as bs : List Reason} (ha : WeightsBounded as)
    (hb : WeightsBounded bs) : (aggregate as).score ≤ (aggregate (as ++ bs)).score := by
  obtain ⟨halow, -⟩ := inverseProduct_bounds ha
  obtain ⟨-, hbhigh⟩ := inverseProduct_bounds hb
  apply toFixed10_mono
  rw [inverseProduct_append]
  have := mul_le_of_le_one_right halow hbhigh
  linarith

theorem aggregate_append_weightless {as bs : List Reason}
    (h : ∀ reason ∈ bs, reason.weight = 0) : aggregate (as ++ bs) = aggregate as := by
  simp [aggregate, inverseProduct_append, inverseProduct_of_weightless h]

end Linklint
