import Mathlib.Tactic.Ring
import Mathlib.Data.List.Basic
import Mathlib.Data.List.Induction

/-!
# Positional numerals

Digit sequences are most significant first. `digits` never writes a leading
zero; `value` reads any digit sequence. Nothing here fixes a base or a glyph.
-/

namespace Numeral

/-- The number a digit sequence denotes. -/
def value (base : Nat) (ds : List Nat) : Nat :=
  ds.foldl (fun acc d => acc * base + d) 0

def digitsAux (base : Nat) : Nat → Nat → List Nat → List Nat
  | 0, _, acc => acc
  | fuel + 1, n, acc =>
      if n < base then n :: acc else digitsAux base fuel (n / base) (n % base :: acc)

/-- The shortest digit sequence of a number. -/
def digits (base n : Nat) : List Nat := digitsAux base (n + 1) n []

theorem foldl_eq (base : Nat) (ds : List Nat) (acc : Nat) :
    ds.foldl (fun acc d => acc * base + d) acc = acc * base ^ ds.length + value base ds := by
  induction ds generalizing acc with
  | nil => simp [value]
  | cons d ds ih =>
      simp only [value, List.foldl_cons, List.length_cons] at *
      rw [ih, ih (0 * base + d)]
      ring

@[simp] theorem value_nil (base : Nat) : value base [] = 0 := rfl

theorem value_cons (base d : Nat) (ds : List Nat) :
    value base (d :: ds) = d * base ^ ds.length + value base ds := by
  have h := foldl_eq base ds (0 * base + d)
  simpa [value] using h

theorem value_append (base : Nat) (as bs : List Nat) :
    value base (as ++ bs) = value base as * base ^ bs.length + value base bs := by
  rw [value, List.foldl_append]
  exact foldl_eq base bs _

theorem value_lt {base : Nat} {ds : List Nat} (hds : ∀ d ∈ ds, d < base) :
    value base ds < base ^ ds.length := by
  induction ds with
  | nil => simp
  | cons d ds ih =>
      have hd : d < base := hds d (List.mem_cons_self ..)
      have ht := ih (fun e he => hds e (List.mem_cons_of_mem _ he))
      have hm : d * base ^ ds.length + base ^ ds.length ≤ base * base ^ ds.length := by
        have := Nat.mul_le_mul_right (base ^ ds.length) (Nat.succ_le_of_lt hd)
        simpa [Nat.succ_mul] using this
      rw [value_cons, List.length_cons, Nat.pow_succ, Nat.mul_comm (base ^ ds.length)]
      omega

/-- Dropping the last digits divides. -/
theorem value_append_div {base : Nat} {as bs : List Nat} (hbs : ∀ d ∈ bs, d < base) :
    value base (as ++ bs) / base ^ bs.length = value base as := by
  have hlt := value_lt hbs
  rw [value_append, Nat.add_comm, Nat.add_mul_div_right _ _ (by omega), Nat.div_eq_of_lt hlt,
    Nat.zero_add]

theorem value_take {base : Nat} {ds : List Nat} (hds : ∀ d ∈ ds, d < base) (k : Nat) :
    value base (ds.take k) = value base ds / base ^ (ds.length - k) := by
  have hdrop : ∀ d ∈ ds.drop k, d < base := fun d hd => hds d (List.mem_of_mem_drop hd)
  have hdiv : value base (ds.take k ++ ds.drop k) / base ^ (ds.drop k).length
      = value base (ds.take k) := value_append_div hdrop
  rw [List.take_append_drop, List.length_drop] at hdiv
  exact hdiv.symm

/-- Among digit sequences of one length a value has only one. -/
theorem value_inj {base : Nat} {as bs : List Nat} (hlen : as.length = bs.length)
    (has : ∀ d ∈ as, d < base) (hbs : ∀ d ∈ bs, d < base) (h : value base as = value base bs) :
    as = bs := by
  induction as generalizing bs with
  | nil => exact (List.length_eq_zero_iff.mp hlen.symm).symm
  | cons a as ih =>
      obtain ⟨b, bs, rfl⟩ : ∃ b bs', bs = b :: bs' := by
        cases bs with
        | nil => cases hlen
        | cons b bs => exact ⟨b, bs, rfl⟩
      have htails : as.length = bs.length := Nat.succ.inj hlen
      have hat : ∀ d ∈ as, d < base := fun d hd => has d (List.mem_cons_of_mem _ hd)
      have hbt : ∀ d ∈ bs, d < base := fun d hd => hbs d (List.mem_cons_of_mem _ hd)
      have hheads : a = b := by
        have hdiv (c : Nat) {cs : List Nat} (hcs : ∀ d ∈ cs, d < base) :
            value base (c :: cs) / base ^ cs.length = c := by
          have hsplit : value base ([c] ++ cs) / base ^ cs.length = value base [c] :=
            value_append_div hcs
          simpa [value] using hsplit
        calc a = value base (a :: as) / base ^ as.length := (hdiv a hat).symm
          _ = value base (b :: bs) / base ^ bs.length := by rw [h, htails]
          _ = b := hdiv b hbt
      rw [value_cons, value_cons, hheads, htails, Nat.add_left_cancel_iff] at h
      rw [hheads, ih htails hat hbt h]

theorem digitsAux_append (base fuel n : Nat) (acc : List Nat) :
    digitsAux base fuel n acc = digitsAux base fuel n [] ++ acc := by
  induction fuel generalizing n acc with
  | zero => simp [digitsAux]
  | succ fuel ih =>
      simp only [digitsAux]
      split
      · simp
      · rw [ih, ih _ [n % base]]
        simp

theorem digitsAux_fuel {base : Nat} (hb : 1 < base) {fuel n : Nat} (hn : n < fuel) :
    digitsAux base fuel n [] = digits base n := by
  induction n using Nat.strong_induction_on generalizing fuel with
  | h n ih =>
      obtain ⟨fuel, rfl⟩ : ∃ k, fuel = k + 1 := ⟨fuel - 1, by omega⟩
      simp only [digits, digitsAux]
      split
      · rfl
      · rename_i hlarge
        have hq : n / base < n := Nat.div_lt_self (by omega) hb
        rw [digitsAux_append, digitsAux_append base n, ih _ hq (by omega), ih _ hq hq]

theorem digits_of_lt {base n : Nat} (hn : n < base) : digits base n = [n] := by
  simp [digits, digitsAux, hn]

theorem digits_of_le {base n : Nat} (hb : 1 < base) (hn : base ≤ n) :
    digits base n = digits base (n / base) ++ [n % base] := by
  have hq : n / base < n := Nat.div_lt_self (by omega) hb
  rw [← digitsAux_fuel hb hq]
  simp only [digits, digitsAux, if_neg (not_lt_of_ge hn)]
  exact digitsAux_append base n (n / base) [n % base]

/-- The recursion of `digits` as an induction rule. -/
theorem digits_induction {base : Nat} (hb : 1 < base) {motive : Nat → Prop}
    (small : ∀ n, n < base → motive n)
    (large : ∀ n, base ≤ n → motive (n / base) → motive n) (n : Nat) : motive n := by
  induction n using Nat.strong_induction_on with
  | h n ih =>
      by_cases hn : n < base
      · exact small n hn
      · exact large n (by omega) (ih _ (Nat.div_lt_self (by omega) hb))

@[simp] theorem value_digits {base : Nat} (hb : 1 < base) (n : Nat) :
    value base (digits base n) = n := by
  induction n using digits_induction hb with
  | small n hn => simp [digits_of_lt hn, value]
  | large n hn ih =>
      rw [digits_of_le hb hn, value_append, ih]
      simpa [value] using Nat.div_add_mod' n base

theorem digits_lt {base : Nat} (hb : 1 < base) (n : Nat) : ∀ d ∈ digits base n, d < base := by
  induction n using digits_induction hb with
  | small n hn => simpa [digits_of_lt hn] using hn
  | large n hn ih =>
      rw [digits_of_le hb hn]
      intro d hd
      rcases List.mem_append.mp hd with hd | hd
      · exact ih d hd
      · rw [List.mem_singleton.mp hd]
        exact Nat.mod_lt n (by omega)

theorem digits_ne_nil {base : Nat} (hb : 1 < base) (n : Nat) : digits base n ≠ [] := by
  by_cases hn : n < base
  · simp [digits_of_lt hn]
  · simp [digits_of_le hb (not_lt.mp hn)]

/-- A number below `base ^ k` has at most `k` digits. -/
theorem digits_length_le {base : Nat} (hb : 1 < base) {n k : Nat} (hk : 0 < k)
    (hn : n < base ^ k) : (digits base n).length ≤ k := by
  induction n using digits_induction hb generalizing k with
  | small n hs =>
      rw [digits_of_lt hs]
      exact hk
  | large n hl ih =>
      obtain ⟨k, rfl⟩ : ∃ j, k = j + 1 := ⟨k - 1, by omega⟩
      have hk1 : 0 < k := by
        rcases Nat.eq_zero_or_pos k with rfl | h
        · simp only [Nat.zero_add, Nat.pow_one] at hn
          omega
        · exact h
      have hq : n / base < base ^ k := by
        rw [Nat.div_lt_iff_lt_mul (by omega)]
        simpa [Nat.pow_succ] using hn
      rw [digits_of_le hb hl, List.length_append]
      have := ih hk1 hq
      simpa using this

/-- No leading zero, except in the numeral of zero itself. -/
theorem digits_head {base : Nat} (hb : 1 < base) {n : Nat} (hn : n ≠ 0) :
    ∃ d ds, digits base n = d :: ds ∧ d ≠ 0 := by
  induction n using digits_induction hb with
  | small n hs => exact ⟨n, [], digits_of_lt hs, hn⟩
  | large n hl ih =>
      have hq : n / base ≠ 0 := by
        have := Nat.div_pos hl (by omega)
        omega
      obtain ⟨d, ds, hds, hd⟩ := ih hq
      exact ⟨d, ds ++ [n % base], by rw [digits_of_le hb hl, hds]; rfl, hd⟩

/-- A sequence without a leading zero is the shortest of its value. -/
theorem digits_value {base : Nat} (hb : 1 < base) {d : Nat} {ds : List Nat} (hd : d < base)
    (hds : ∀ e ∈ ds, e < base) (lead : d ≠ 0 ∨ ds = []) :
    digits base (value base (d :: ds)) = d :: ds := by
  induction ds using List.reverseRecOn with
  | nil => simpa [value] using digits_of_lt hd
  | append_singleton ds e ih =>
      have hd0 : d ≠ 0 := by
        rcases lead with h | h
        · exact h
        · simp at h
      have hinit := ih (fun x hx => hds x (by simp [hx])) (Or.inl hd0)
      have he : e < base := hds e (by simp)
      have hsplit : value base (d :: (ds ++ [e])) = value base (d :: ds) * base + e := by
        rw [← List.cons_append, value_append]
        simp [value]
      have hpos : 0 < value base (d :: ds) := by
        rw [value_cons]
        have := Nat.mul_pos (Nat.pos_of_ne_zero hd0) (Nat.pow_pos (n := ds.length) (by omega : 0 < base))
        omega
      have hle : base ≤ value base (d :: ds) * base + e := by
        have := Nat.mul_le_mul_right base hpos
        omega
      have hquot : (value base (d :: ds) * base + e) / base = value base (d :: ds) := by
        rw [Nat.add_comm, Nat.add_mul_div_right _ _ (by omega), Nat.div_eq_of_lt he, Nat.zero_add]
      have hrem : (value base (d :: ds) * base + e) % base = e := by
        rw [Nat.add_comm, Nat.add_mul_mod_self_right, Nat.mod_eq_of_lt he]
      rw [hsplit, digits_of_le hb hle, hquot, hrem, hinit, List.cons_append]

end Numeral
