import Mathlib.Data.Rat.Defs
import Mathlib.Algebra.Order.Field.Rat
import Mathlib.Data.Nat.Log
import Mathlib.Tactic.Linarith

/-!
# JavaScript numbers

A number value is an exact rational, an infinity or NaN; the two zeros are one.
`roundToDouble` is the rounding of a whole number to the nearest double, ties to
even.
-/

namespace Linklint

inductive JsNum where
  | fin (q : Rat)
  | infinity (positive : Bool)
  | nan
deriving DecidableEq

namespace JsNum

def ofNat (n : Nat) : JsNum := .fin (n : Rat)

/-- `Number.isInteger(raw) && raw >= 0`, with the whole number it then is. -/
def toNat? : JsNum → Option Nat
  | .fin q => if q.den = 1 ∧ 0 ≤ q then some q.num.toNat else none
  | _ => none

/-- `Number.isFinite(value) && value > 0`. -/
def isPositiveFinite : JsNum → Bool
  | .fin q => decide (0 < q)
  | _ => false

def isFinite : JsNum → Bool
  | .fin _ => true
  | _ => false

end JsNum

/-- The nearest double of a whole number; `none` is the overflow to `Infinity`. -/
def roundToDouble (n : Nat) : Option Nat :=
  if n < 2 ^ 53 then some n
  else
    let step := 2 ^ (Nat.log2 n - 52)
    let down := n / step
    let rest := n % step
    let kept := if 2 * rest < step ∨ (2 * rest = step ∧ down % 2 = 0) then down else down + 1
    if kept * step < 2 ^ 1024 then some (kept * step) else none

theorem roundToDouble_of_lt {n : Nat} (h : n < 2 ^ 53) : roundToDouble n = some n := by
  rw [roundToDouble, if_pos h]

/-- Rounding never brings a whole number below the range of the exact ones. -/
theorem le_roundToDouble {n m : Nat} (h : roundToDouble n = some m) (hn : 2 ^ 53 ≤ n) :
    2 ^ 53 ≤ m := by
  rw [roundToDouble, if_neg (not_lt.mpr hn)] at h
  simp only [Option.ite_none_right_eq_some, Option.some.injEq] at h
  obtain ⟨_, rfl⟩ := h
  have hlog : 53 ≤ Nat.log2 n := by
    rw [Nat.le_log2 (by omega)]
    exact hn
  obtain ⟨k, hk⟩ : ∃ k, Nat.log2 n - 52 = k + 1 := ⟨Nat.log2 n - 53, by omega⟩
  have hstep : 2 ≤ 2 ^ (Nat.log2 n - 52) := by
    rw [hk, Nat.pow_succ]
    have := Nat.two_pow_pos k
    omega
  have hdown : 2 ^ 52 ≤ n / 2 ^ (Nat.log2 n - 52) := by
    rw [Nat.le_div_iff_mul_le (Nat.two_pow_pos _), ← Nat.pow_add,
      Nat.add_sub_of_le (by omega : 52 ≤ Nat.log2 n)]
    exact Nat.log2_self_le (by omega)
  calc 2 ^ 53 = 2 ^ 52 * 2 := rfl
    _ ≤ n / 2 ^ (Nat.log2 n - 52) * 2 ^ (Nat.log2 n - 52) := Nat.mul_le_mul hdown hstep
    _ ≤ _ := Nat.mul_le_mul_right _ (by split <;> omega)

/-- Up to the exact range a bound holds of the rounded number as it does of the number. -/
theorem roundToDouble_lt_iff {n m bound : Nat} (h : roundToDouble n = some m)
    (hbound : bound ≤ 2 ^ 53) : m < bound ↔ n < bound := by
  by_cases hn : n < 2 ^ 53
  · rw [roundToDouble_of_lt hn, Option.some.injEq] at h
    rw [h]
  · have := le_roundToDouble h (not_lt.mp hn)
    omega

end Linklint
