import Linklint.Parse.NumericHost
import Linklint.Policy.Axes

/-!
# Hosts that end in a number and are no IPv4 address

The detector reads the parts of a host as `inet_aton` does, so a leading zero in
front of an eight or a nine makes a decimal. Where no part is of that form its
verdict is that of the standard's own parser.
-/

namespace Linklint

open NumericHost

/-- `/^0[xX][0-9a-fA-F]*$/` -/
def isHexLabel : Text → Bool
  | z :: x :: rest => z == unit '0' && (x == unit 'x' || x == unit 'X') && rest.all isHexDigit
  | _ => false

/-- `/^(?:[0-9]+|0[xX][0-9a-fA-F]*)$/` -/
def triggersIpv4Path (label : Text) : Bool :=
  (label ≠ [] && label.all isDigit) || isHexLabel label

def ambiguousNumericHost (ctx : InspectionContext) : List CollectedFinding :=
  if ctx.host = [] then []
  else if (analyzeIpv6 ctx.host).isSome then []
  else
    let host := stripTrailingRootDot ctx.host
    let labels := host.split (unit '.')
    match labels.getLast? with
    | none => []
    | some last =>
        if last = [] ∨ triggersIpv4Path last = false then []
        else if (analyzeIpv4 host).isSome then []
        else
          let shape :=
            if labels.all triggersIpv4Path then
              text "' is a malformed IPv4 literal — a browser parses it as an IPv4 address and rejects it"
            else
              text "' ends in a numeric/hex label — a browser parses the whole host as IPv4 and rejects it"
          [{ code := .ambiguousNumericHost,
             detail := text "host '" ++ ctx.host ++ shape
               ++ text ", but non-browser clients may resolve it as a hostname" }]

/-- A label starts the IPv4 path exactly when the standard's checker stops at it. -/
theorem triggersIpv4Path_iff (label : Text) :
    triggersIpv4Path label = true ↔
      (label ≠ [] ∧ label.all isDigit = true) ∨ (ipv4Number label).isSome = true := by
  constructor
  · intro h
    rw [triggersIpv4Path, Bool.or_eq_true] at h
    rcases h with h | h
    · exact Or.inl (by simpa using h)
    · match label, h with
      | z :: x :: rest, h =>
          simp only [isHexLabel, Bool.and_eq_true, Bool.or_eq_true, beq_iff_eq] at h
          obtain ⟨⟨hz, hmark⟩, hall⟩ := h
          right
          rw [ipv4Number, if_pos hz, if_pos hmark, radixNumber_sixteen, if_pos hall]
          rfl
  · intro h
    by_cases hdigits : label ≠ [] ∧ label.all isDigit = true
    · simp [triggersIpv4Path, hdigits.1, hdigits.2]
    by_cases hbare : IsBareHexMark label
    · rcases hbare with rfl | rfl <;> decide
    obtain ⟨v, hv⟩ := Option.isSome_iff_exists.mp (h.resolve_left hdigits)
    have hne : label ≠ [] := by
      rintro rfl
      cases hv
    have hno : ¬ ∀ u ∈ label, isDigit u = true :=
      fun hall => hdigits ⟨hne, List.all_eq_true.mpr hall⟩
    cases (ipv4Number_other hbare hno).mp hv with
    | hex mark _ digits =>
        have hall := List.all_eq_true.mpr digits
        rcases mark with rfl | rfl <;> simp [triggersIpv4Path, isHexLabel, hall]
    | octal ne digits =>
        refine absurd (fun u hu => ?_) hno
        rcases List.mem_cons.mp hu with rfl | hu
        · decide
        · exact isDigit_of_isOctalDigit (digits u hu)
    | decimal _ digits _ => exact absurd digits hno

/-- The labels the detector looks at are the standard's parts; only the bare root dot
keeps its two empty labels. -/
theorem labels_getLast (host : Text) :
    ((stripTrailingRootDot host).split (unit '.')).getLast? = (ipv4Parts host).getLast? := by
  by_cases hroot : host = [unit '.']
  · subst hroot
    decide
  · rw [ipv4Parts_eq, stripTrailingRootDot_eq hroot]

theorem dropTrailingDot_idem {host last : Text} (hne : last ≠ [])
    (hlast : (ipv4Parts host).getLast? = some last) :
    (stripTrailingRootDot host).dropTrailingDot = host.dropTrailingDot := by
  have hroot : host ≠ [unit '.'] := by
    rintro rfl
    have hempty : (ipv4Parts [unit '.']).getLast? = some [] := by decide
    rw [hempty, Option.some.injEq] at hlast
    exact hne hlast.symm
  rw [stripTrailingRootDot_eq hroot]
  by_cases hdot : host.dropTrailingDot.getLast? = some (unit '.')
  · obtain ⟨init, hinit⟩ := List.getLast?_eq_some_iff.mp hdot
    rw [ipv4Parts_eq, hinit, split_root_dot, List.getLast?_concat, Option.some.injEq] at hlast
    exact absurd hlast.symm hne
  · exact dropTrailingDot_of_last hdot

/-- What makes the detector fire, in terms of the bits the host denotes. -/
theorem ambiguousNumericHost_ne_nil {ctx : InspectionContext} (hv6 : analyzeIpv6 ctx.host = none) :
    ambiguousNumericHost ctx ≠ [] ↔
      endsInNumber ctx.host = true ∧ ¬ ∃ n, InetAton ctx.host.dropTrailingDot n := by
  by_cases hempty : ctx.host = []
  · have hno : endsInNumber [] = false := by decide
    simp [ambiguousNumericHost, hempty, hno]
  rw [endsInNumber_iff hempty, ambiguousNumericHost, if_neg hempty, hv6, if_neg (by simp)]
  dsimp only
  rw [labels_getLast]
  cases hlast : (ipv4Parts ctx.host).getLast? with
  | none => simp
  | some last =>
      simp only [Option.some.injEq, exists_eq_left']
      rw [← triggersIpv4Path_iff]
      by_cases htrigger : triggersIpv4Path last = true
      · have hne : last ≠ [] := by
          rintro rfl
          exact absurd htrigger (by decide)
        have haccepted := (analyzeIpv4_exact (stripTrailingRootDot ctx.host)).accepted
        rw [dropTrailingDot_idem hne hlast] at haccepted
        rw [if_neg (by simp [hne, htrigger]), ← haccepted]
        split
        · rename_i hsome
          simp [hsome]
        · rename_i hnone
          simp [htrigger, hnone]
      · simp [htrigger]

/-- On a host that is no IPv6 literal and has no bare `0x` label, the detector fires exactly
when the host ends in a number and the IPv4 parser fails that reads a run of digits with a
leading zero and an eight or a nine as a decimal. Without such a run that is the standard's
parser. -/
theorem ambiguousNumericHost_iff (ctx : InspectionContext) (hv6 : analyzeIpv6 ctx.host = none)
    (hbare : ∀ part ∈ ipv4Parts ctx.host, ¬ IsBareHexMark part) :
    (ambiguousNumericHost ctx ≠ [] ↔
        endsInNumber ctx.host = true ∧ ipv4Parser decimalFallback ctx.host = none)
      ∧ ((∀ part ∈ ipv4Parts ctx.host, ¬ IsOctalLookalike part) →
        (ambiguousNumericHost ctx ≠ [] ↔
          endsInNumber ctx.host = true ∧ ipv4Parser ipv4Number ctx.host = none)) := by
  have hfails {number : Text → Option Nat}
      (hnumber : ∀ p ∈ ipv4Parts ctx.host, ∀ v, number p = some v ↔ PartNumeral p v) :
      ipv4Parser number ctx.host = none ↔ ¬ ∃ n, InetAton ctx.host.dropTrailingDot n := by
    rw [← ipv4Parser_isSome hnumber, Option.not_isSome_iff_eq_none]
  constructor
  · rw [ambiguousNumericHost_ne_nil hv6, hfails fun p hp v => decimalFallback_iff (hbare p hp)]
  · intro hoctal
    rw [ambiguousNumericHost_ne_nil hv6, hfails fun p hp v => ?_]
    rw [← decimalFallback_eq (hoctal p hp)]
    exact decimalFallback_iff (hbare p hp)

/-- `1.2.3.08` is refused by the standard's parser, and the detector takes it for 1.2.3.8. -/
theorem octal_lookalike_silent :
    ∃ ctx, parseInput Platform.ascii (text "http://1.2.3.08/") (depthRuntime 4) = .ok (some ctx)
      ∧ analyzeIpv6 ctx.host = none ∧ endsInNumber ctx.host = true
      ∧ ipv4Parser ipv4Number ctx.host = none ∧ ambiguousNumericHost ctx = [] :=
  ⟨_, rfl, by decide +kernel, by decide +kernel, by decide +kernel, by decide +kernel⟩

/-- A host with three kinds of numerals that fits no address. -/
theorem mixed_radix_fires :
    ∃ ctx, parseInput Platform.ascii (text "http://0x7f.0377.256.1/") (depthRuntime 4)
        = .ok (some ctx) ∧ ambiguousNumericHost ctx ≠ [] :=
  ⟨_, rfl, ((ambiguousNumericHost_iff _ (by decide +kernel) (by decide +kernel)).1).mpr
    (by decide +kernel)⟩

end Linklint
