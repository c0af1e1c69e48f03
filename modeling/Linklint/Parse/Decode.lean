import Linklint.Js.Codecs
import Linklint.Lib.BoundedFixpoint

/-!
# Bounded percent-decoding

One pass replaces every valid `%XX` by the character of that code; the decoder
repeats the pass until the text is stable or the depth is used up.
-/

namespace Linklint

/-- One pass; a malformed `%` stays as it is. -/
def decodeOnce : Text → Text
  | percent :: high :: low :: rest =>
      match percentOctet [percent, high, low] with
      | some (octet, _) => UInt16.ofNat octet :: decodeOnce rest
      | none => percent :: decodeOnce (high :: low :: rest)
  | u :: rest => u :: decodeOnce rest
  | [] => []

/-- Decoding up to `maxDepth` passes. -/
def boundedDecode (input : Text) (maxDepth : Nat) : BoundedFixpoint.Outcome Text :=
  BoundedFixpoint.run decodeOnce maxDepth input

/-- The codes of the valid `%XX` of a text, from left to right. -/
def percentCodes : Text → List Nat
  | percent :: high :: low :: rest =>
      match percentOctet [percent, high, low] with
      | some (octet, _) => octet :: percentCodes rest
      | none => percentCodes (high :: low :: rest)
  | _ :: rest => percentCodes rest
  | [] => []

/-- `/%[0-9a-fA-F]{2}/.test(s)`. -/
def hasPercent (s : Text) : Bool := s.tails.any fun rest => (percentOctet rest).isSome

theorem percentOctet_take (percent high low : CodeUnit) (rest : Text) :
    (percentOctet (percent :: high :: low :: rest)).isSome
      = (percentOctet [percent, high, low]).isSome := by
  simp only [percentOctet]
  split
  · cases digitValue high <;> cases digitValue low <;> rfl
  · rfl

/-- A text without `%XX` is left as it is. -/
theorem decodeOnce_of_no_percent {s : Text} (h : hasPercent s = false) : decodeOnce s = s := by
  induction s using decodeOnce.induct with
  | case1 percent high low rest octet tail hoctet ih =>
      simp [hasPercent, percentOctet_take, hoctet] at h
  | case2 percent high low rest hoctet ih =>
      have hrest : hasPercent (high :: low :: rest) = false := by
        rw [hasPercent, List.tails, List.any_cons, Bool.or_eq_false_iff] at h
        exact h.2
      rw [decodeOnce, hoctet]
      exact congrArg (percent :: ·) (ih hrest)
  | case3 u rest hshort ih =>
      have hrest : hasPercent rest = false := by
        rw [hasPercent, List.tails, List.any_cons, Bool.or_eq_false_iff] at h
        exact h.2
      rw [decodeOnce.eq_2 _ _ hshort, ih hrest]
  | case4 => rfl

theorem decodeOnce_length_le (s : Text) : (decodeOnce s).length ≤ s.length := by
  induction s using decodeOnce.induct with
  | case1 percent high low rest octet tail hoctet ih =>
      rw [decodeOnce, hoctet]
      simp only [List.length_cons]
      omega
  | case2 percent high low rest hoctet ih =>
      rw [decodeOnce, hoctet]
      exact Nat.succ_le_succ ih
  | case3 u rest hshort ih =>
      rw [decodeOnce.eq_2 _ _ hshort]
      exact Nat.succ_le_succ ih
  | case4 => exact Nat.le_refl 0

/-- Every `%XX` loses two units in a pass. -/
theorem decodeOnce_length_lt {s : Text} (h : hasPercent s = true) :
    (decodeOnce s).length < s.length := by
  induction s using decodeOnce.induct with
  | case1 percent high low rest octet tail hoctet ih =>
      have hrest := decodeOnce_length_le rest
      rw [decodeOnce, hoctet]
      simp only [List.length_cons]
      omega
  | case2 percent high low rest hoctet ih =>
      rw [hasPercent, List.tails, List.any_cons, percentOctet_take, hoctet] at h
      rw [decodeOnce, hoctet]
      exact Nat.succ_lt_succ (ih h)
  | case3 u rest hshort ih =>
      have hnone : percentOctet (u :: rest) = none := by
        match rest, hshort with
        | [], _ => rfl
        | [_], _ => rfl
        | high :: low :: _, hshort => exact absurd rfl (hshort high low _)
      rw [hasPercent, List.tails, List.any_cons, hnone] at h
      rw [decodeOnce.eq_2 _ _ hshort]
      exact Nat.succ_lt_succ (ih h)
  | case4 => exact absurd h (by decide)

/-- A pass changes exactly the texts with a `%XX`. -/
theorem decodeOnce_eq_iff {s : Text} : decodeOnce s = s ↔ hasPercent s = false := by
  constructor
  · intro hsame
    rw [Bool.eq_false_iff]
    intro hpercent
    have hshorter := decodeOnce_length_lt hpercent
    rw [hsame] at hshorter
    exact Nat.lt_irrefl _ hshorter
  · exact decodeOnce_of_no_percent

theorem iterate_decodeOnce_length_le (n : Nat) (s : Text) :
    (decodeOnce^[n] s).length ≤ s.length := by
  induction n generalizing s with
  | zero => exact Nat.le_refl _
  | succ n ih => exact Nat.le_trans (ih (decodeOnce s)) (decodeOnce_length_le s)

end Linklint
