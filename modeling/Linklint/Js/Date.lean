import Linklint.Js.Text
import Mathlib.Data.Rat.Floor
import Mathlib.Algebra.Order.Floor.Ring

/-!
# Dates

A `Date` is a whole number of milliseconds within its range. The format of an
instant and the reading of a date text are the platform's.
-/

namespace Linklint

/-- The last instant of a `Date`, in milliseconds. -/
def MAX_TIME : Int := 8640000000000000

def Representable (ms : Int) : Prop := |ms| ≤ MAX_TIME

instance (ms : Int) : Decidable (Representable ms) := by
  unfold Representable
  infer_instance

structure DateApi where
  /-- `new Date(ms).toISOString()` of an instant -/
  iso : Int → Text
  /-- `Date.parse`, `none` for NaN -/
  parse : Text → Option Int
  parse_iso : ∀ ms, Representable ms → parse (iso ms) = some ms

/-- The time value of `new Date(ms)`: towards zero, and none out of range. -/
def timeClip (ms : Rat) : Option Int :=
  if |ms| ≤ MAX_TIME then some (if 0 ≤ ms then ⌊ms⌋ else ⌈ms⌉) else none

/-- `new Date(ms).toISOString()`; `none` is the RangeError. -/
def DateApi.toISOString (dates : DateApi) (ms : Rat) : Option Text := (timeClip ms).map dates.iso

/-- The milliseconds of an instant, as `toISOString` writes them. -/
def millisText (n : Nat) : Text := [digitUnit (n / 100), digitUnit (n / 10 % 10), digitUnit (n % 10)]

def EPOCH_SECOND : Text := text "1970-01-01T00:00:00."

theorem numeralValue_millisText {n : Nat} (h : n < 1000) : numeralValue 10 (millisText n) = n := by
  simp only [numeralValue, millisText, List.map_cons, List.map_nil]
  rw [digitValue_digitUnit (by omega), digitValue_digitUnit (by omega),
    digitValue_digitUnit (by omega)]
  simp [Numeral.value]
  omega

/-- A `Date` that is exact in the first second of its epoch, and has a format of its own for every
other instant. -/
def DateApi.epochSecond : DateApi where
  iso ms :=
    if 0 ≤ ms ∧ ms < 1000 then EPOCH_SECOND ++ (millisText ms.toNat ++ [unit 'Z'])
    else if 0 ≤ ms then unit '+' :: decimalText ms.toNat
    else unit '-' :: decimalText (-ms).toNat
  parse s :=
    if s.take 20 = EPOCH_SECOND then some (numeralValue 10 ((s.drop 20).take 3))
    else if s.head? = some (unit '+') then some (numeralValue 10 s.tail)
    else if s.head? = some (unit '-') then some (-(numeralValue 10 s.tail : Int))
    else none
  parse_iso := by
    have hfirst : EPOCH_SECOND = unit '1' :: EPOCH_SECOND.tail := by decide
    have hplus : unit '+' ≠ unit '1' := by decide
    have hminus : unit '-' ≠ unit '1' ∧ unit '-' ≠ unit '+' := by decide
    intro ms _
    by_cases hsecond : 0 ≤ ms ∧ ms < 1000
    · have htake : (EPOCH_SECOND ++ (millisText ms.toNat ++ [unit 'Z'])).take 20 = EPOCH_SECOND :=
        List.take_left' (by decide)
      have hdrop : (EPOCH_SECOND ++ (millisText ms.toNat ++ [unit 'Z'])).drop 20 =
          millisText ms.toNat ++ [unit 'Z'] := List.drop_left' (by decide)
      have hdigits : (millisText ms.toNat ++ [unit 'Z']).take 3 = millisText ms.toNat :=
        List.take_left' rfl
      rw [if_pos hsecond, if_pos htake, hdrop, hdigits, numeralValue_millisText (by omega)]
      simp [hsecond.1]
    · by_cases hpositive : 0 ≤ ms
      · have htake : (unit '+' :: decimalText ms.toNat).take 20 ≠ EPOCH_SECOND := by
          rw [hfirst]
          intro h
          exact hplus (List.cons.inj h).1
        rw [if_neg hsecond, if_pos hpositive, if_neg htake]
        simp [hpositive]
      · have htake : (unit '-' :: decimalText (-ms).toNat).take 20 ≠ EPOCH_SECOND := by
          rw [hfirst]
          intro h
          exact hminus.1 (List.cons.inj h).1
        rw [if_neg hsecond, if_neg hpositive, if_neg htake]
        simp [hminus.2]
        omega

theorem representable_of_timeClip {ms : Rat} {instant : Int} (h : timeClip ms = some instant) :
    Representable instant := by
  rw [timeClip] at h
  by_cases hbound : |ms| ≤ (MAX_TIME : Rat)
  · rw [if_pos hbound] at h
    obtain ⟨hlow, hhigh⟩ := abs_le.mp hbound
    rw [Representable, abs_le]
    by_cases hsign : 0 ≤ ms
    · obtain rfl : ⌊ms⌋ = instant := by simpa [hsign] using h
      have hfloor : 0 ≤ ⌊ms⌋ := Int.floor_nonneg.mpr hsign
      have hmax : ⌊ms⌋ ≤ MAX_TIME := by
        have hcast : ((⌊ms⌋ : Int) : Rat) ≤ (MAX_TIME : Rat) := (Int.floor_le ms).trans hhigh
        exact_mod_cast hcast
      have hpositive : 0 ≤ MAX_TIME := by decide
      omega
    · obtain rfl : ⌈ms⌉ = instant := by simpa [hsign] using h
      have hceil : ⌈ms⌉ ≤ 0 := Int.ceil_le.mpr (by simpa using le_of_not_ge hsign)
      have hmin : -MAX_TIME ≤ ⌈ms⌉ := by
        have hcast : ((-MAX_TIME : Int) : Rat) ≤ ((⌈ms⌉ : Int) : Rat) := by
          push_cast
          exact hlow.trans (Int.le_ceil ms)
        exact_mod_cast hcast
      have hpositive : 0 ≤ MAX_TIME := by decide
      omega
  · rw [if_neg hbound] at h
    cases h

/-- The time value of a number is not below its whole part. -/
theorem floor_le_timeClip {ms : Rat} {instant : Int} (h : timeClip ms = some instant) :
    ⌊ms⌋ ≤ instant := by
  rw [timeClip] at h
  by_cases hbound : |ms| ≤ (MAX_TIME : Rat)
  · by_cases hsign : 0 ≤ ms
    · obtain rfl : ⌊ms⌋ = instant := by simpa [hbound, hsign] using h
      exact le_refl _
    · obtain rfl : ⌈ms⌉ = instant := by simpa [hbound, hsign] using h
      exact Int.floor_le_ceil ms
  · rw [if_neg hbound] at h
    cases h

/-- An instant is read back from the text written for it. -/
theorem DateApi.parse_toISOString {dates : DateApi} {ms : Rat} {s : Text}
    (h : dates.toISOString ms = some s) :
    ∃ instant, timeClip ms = some instant ∧ dates.parse s = some instant := by
  obtain ⟨instant, hclip, rfl⟩ := Option.map_eq_some_iff.mp h
  exact ⟨instant, hclip, dates.parse_iso instant (representable_of_timeClip hclip)⟩

theorem DateApi.parse_toISOString_intCast {dates : DateApi} {ms : Int} {s : Text}
    (h : dates.toISOString (ms : Rat) = some s) : dates.parse s = some ms := by
  obtain ⟨instant, hclip, hparse⟩ := dates.parse_toISOString h
  have hfloor : instant = ms := by
    unfold timeClip at hclip
    split at hclip
    · simpa using hclip.symm
    · cases hclip
  rw [hparse, hfloor]

end Linklint
