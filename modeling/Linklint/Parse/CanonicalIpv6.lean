import Linklint.Parse.AddressText
import Mathlib.Data.List.Induction

/-!
# The canonical text of an IPv6 address

The scan for the longest zero run always points at a run of zeros, so the
printed text denotes the hextets it was printed from.
-/

namespace Linklint

/-- What the scan knows after the hextets `gs`. -/
structure ZeroRunScan.After (gs : List Nat) (scan : ZeroRunScan) : Prop where
  index : scan.index = gs.length
  current : ∃ before, gs = before ++ List.replicate scan.curLen 0
  best : ∃ left right, gs = left ++ List.replicate scan.bestLen 0 ++ right ∧
    left.length = scan.bestStart

theorem ZeroRunScan.After.nil : ZeroRunScan.After [] {} :=
  ⟨rfl, ⟨[], rfl⟩, ⟨[], [], rfl, rfl⟩⟩

theorem ZeroRunScan.After.step {gs : List Nat} {scan : ZeroRunScan}
    (after : ZeroRunScan.After gs scan) (g : Nat) :
    ZeroRunScan.After (gs ++ [g]) (scan.step g) := by
  obtain ⟨index, ⟨before, current⟩, ⟨left, right, best, start⟩⟩ := after
  have hindex : scan.index + 1 = (gs ++ [g]).length := by simp [index]
  have hbest : gs ++ [g] = left ++ List.replicate scan.bestLen 0 ++ (right ++ [g]) := by
    simp [best]
  by_cases hg : g = 0
  · have hcurrent : gs ++ [g] = before ++ List.replicate (scan.curLen + 1) 0 := by
      rw [hg, List.replicate_succ', ← List.append_assoc, ← current]
    by_cases hlonger : scan.curLen + 1 > scan.bestLen
    · have hlength : before.length = scan.index + 1 - (scan.curLen + 1) := by
        have := congrArg List.length current
        simp only [List.length_append, List.length_replicate] at this
        omega
      simp only [ZeroRunScan.step, if_pos hg, if_pos hlonger]
      exact ⟨hindex, ⟨before, hcurrent⟩, ⟨before, [], by simpa using hcurrent, hlength⟩⟩
    · simp only [ZeroRunScan.step, if_pos hg, if_neg hlonger]
      exact ⟨hindex, ⟨before, hcurrent⟩, ⟨left, right ++ [g], hbest, start⟩⟩
  · simp only [ZeroRunScan.step, if_neg hg]
    exact ⟨hindex, ⟨gs ++ [g], by simp⟩, ⟨left, right ++ [g], hbest, start⟩⟩

theorem longestZeroRun_after (gs : List Nat) : ZeroRunScan.After gs (longestZeroRun gs) := by
  induction gs using List.reverseRecOn with
  | nil => exact .nil
  | append_singleton gs g ih =>
      rw [longestZeroRun, List.foldl_append]
      exact ih.step g

/-- `(g).toString(16)` is read back as the hextet. -/
theorem parseHextet_numeralText {g : Nat} (hg : g < 2 ^ 16) :
    parseHextet (numeralText 16 g) = some g := by
  have hlen : (numeralText 16 g).length ≤ 4 := by
    rw [numeralText, List.length_map]
    exact Numeral.digits_length_le (by decide) (by decide) hg
  have hpos : 1 ≤ (numeralText 16 g).length :=
    List.length_pos_iff.mpr (numeralText_ne_nil (by decide) g)
  have hhex : (numeralText 16 g).all isHexDigit = true := by
    rw [List.all_eq_true]
    intro u hu
    obtain ⟨d, hd, rfl⟩ := mem_numeralText (by decide) hu
    simp [isHexDigit, digitValue_digitUnit hd]
  rw [parseHextet, if_pos ⟨hpos, hlen, hhex⟩, numeralValue_numeralText (by decide) (by decide)]

theorem mapM_numeralText {gs : List Nat} (small : ∀ g ∈ gs, g < 2 ^ 16) :
    (gs.map (numeralText 16)).mapM parseHextet = some gs := by
  induction gs with
  | nil => rfl
  | cons g gs ih =>
      have hg := parseHextet_numeralText (small g (List.mem_cons_self ..))
      have hgs := ih (fun x hx => small x (List.mem_cons_of_mem _ hx))
      simp [hg, hgs]

/-- The canonical text denotes the hextets it was printed from. -/
theorem canonicalizeIpv6_text {gs : List Nat} (eight : gs.length = 8)
    (small : ∀ g ∈ gs, g < 2 ^ 16) : Ipv6Text (canonicalizeIpv6 gs) gs := by
  obtain ⟨left, right, best, start⟩ := (longestZeroRun_after gs).best
  rw [canonicalizeIpv6]
  by_cases hshort : (longestZeroRun gs).bestLen < 2
  · rw [if_pos hshort]
    exact .full (hextetRun_of_mapM (mapM_numeralText small)) eight
  · rw [if_neg hshort]
    generalize (longestZeroRun gs).bestLen = len at *
    generalize (longestZeroRun gs).bestStart = first at *
    subst best start
    have hleft : (left.map (numeralText 16)).mapM parseHextet = some left :=
      mapM_numeralText (fun g hg => small g (by simp [hg]))
    have hright : (right.map (numeralText 16)).mapM parseHextet = some right :=
      mapM_numeralText (fun g hg => small g (by simp [hg]))
    have hlen : left.length + len + right.length = 8 := by
      simpa [Nat.add_assoc] using eight
    have helide : elide left right = left ++ List.replicate len 0 ++ right := by
      rw [elide]
      congr 3
      omega
    have htake : ((left ++ List.replicate len 0 ++ right).map (numeralText 16)).take left.length
        = left.map (numeralText 16) := by
      simp
    have hdrop : ((left ++ List.replicate len 0 ++ right).map (numeralText 16)).drop
        (left.length + len) = right.map (numeralText 16) := by
      rw [← List.map_drop, List.drop_append_of_le_length (by simp)]
      simp
    rw [htake, hdrop, ← helide]
    exact .elided hleft (hextetRun_of_mapM hright) (by omega)

theorem ipv6Groups_canonicalizeIpv6 {gs : List Nat} (eight : gs.length = 8)
    (small : ∀ g ∈ gs, g < 2 ^ 16) : ipv6Groups (canonicalizeIpv6 gs) = some gs :=
  ipv6Groups_iff.mpr (canonicalizeIpv6_text eight small)

theorem numeralText_dotless {base : Nat} (hb : 1 < base) (h16 : base ≤ 16) (n : Nat) :
    unit '.' ∉ numeralText base n := by
  intro hmem
  obtain ⟨d, hd, hdot⟩ := mem_numeralText hb hmem
  have hdigit := digitValue_digitUnit (d := d) (by omega)
  have hnone : digitValue (unit '.') = none := by decide
  rw [← hdot, hnone] at hdigit
  cases hdigit

theorem colonJoin_numerals_dotless (gs : List Nat) :
    unit '.' ∉ colonJoin (gs.map (numeralText 16)) := by
  induction gs with
  | nil => simp
  | cons g gs ih =>
      have hg : unit '.' ∉ numeralText 16 g := numeralText_dotless (by decide) (by decide) g
      by_cases hgs : gs = []
      · simpa [hgs] using hg
      · rw [List.map_cons, colonJoin_cons (by simpa using hgs)]
        intro hmem
        rcases List.mem_append.mp hmem with hmem | hmem
        · exact hg hmem
        · rcases List.mem_cons.mp hmem with hmem | hmem
          · exact absurd hmem (by decide)
          · exact ih hmem

theorem canonicalizeIpv6_dotless (gs : List Nat) : unit '.' ∉ canonicalizeIpv6 gs := by
  rw [canonicalizeIpv6]
  by_cases hshort : (longestZeroRun gs).bestLen < 2
  · rw [if_pos hshort]
    exact colonJoin_numerals_dotless gs
  · rw [if_neg hshort, ← List.map_take, ← List.map_drop]
    intro hmem
    rcases List.mem_append.mp hmem with hmem | hmem
    · rcases List.mem_append.mp hmem with hmem | hmem
      · exact colonJoin_numerals_dotless _ hmem
      · exact absurd hmem (by decide)
    · exact colonJoin_numerals_dotless _ hmem

theorem asciiLower_digitUnit {d : Nat} (hd : d < 16) : asciiLower (digitUnit d) = digitUnit d := by
  have small : ∀ e < 16, asciiLower (digitUnit e) = digitUnit e := by decide
  exact small d hd

/-- The units of a canonical text: lower-case digits and colons. -/
theorem colonJoin_numerals_units (gs : List Nat) :
    ∀ u ∈ colonJoin (gs.map (numeralText 16)), asciiLower u = u := by
  induction gs with
  | nil => simp
  | cons g gs ih =>
      have hg : ∀ u ∈ numeralText 16 g, asciiLower u = u := by
        intro u hu
        obtain ⟨d, hd, rfl⟩ := mem_numeralText (by decide) hu
        exact asciiLower_digitUnit hd
      by_cases hgs : gs = []
      · simpa [hgs] using hg
      · rw [List.map_cons, colonJoin_cons (by simpa using hgs)]
        intro u hu
        rcases List.mem_append.mp hu with hu | hu
        · exact hg u hu
        · rcases List.mem_cons.mp hu with rfl | hu
          · decide
          · exact ih u hu

theorem canonicalizeIpv6_lower (gs : List Nat) :
    (canonicalizeIpv6 gs).map asciiLower = canonicalizeIpv6 gs := by
  have hunits : ∀ u ∈ canonicalizeIpv6 gs, asciiLower u = u := by
    have hcolons : ∀ u ∈ text "::", asciiLower u = u := by
      intro u hu
      rw [eq_of_mem_colons hu]
      decide
    rw [canonicalizeIpv6]
    by_cases hshort : (longestZeroRun gs).bestLen < 2
    · rw [if_pos hshort]
      exact colonJoin_numerals_units gs
    · rw [if_neg hshort, ← List.map_take, ← List.map_drop]
      intro u hu
      rcases List.mem_append.mp hu with hu | hu
      · rcases List.mem_append.mp hu with hu | hu
        · exact colonJoin_numerals_units _ u hu
        · exact hcolons u hu
      · exact colonJoin_numerals_units _ u hu
  rw [List.map_congr_left hunits, List.map_id']

end Linklint
