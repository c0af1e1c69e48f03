import Linklint.Data.IpRanges
import Linklint.Parse.CanonicalIpv6
import Linklint.Parse.InetAton

/-!
# The forms of an IPv6 address

The texts RFC 4291 gives an address, the one RFC 5952 recommends, and the mixed
one with a dotted quad, as relations between a text and the hextets.
-/

namespace Linklint

/-- One to four hexadecimal digits. -/
structure Hextet (p : Text) (g : Nat) : Prop where
  short : 1 ≤ p.length ∧ p.length ≤ 4
  digits : ∀ u ∈ p, isHexDigit u = true
  value : g = numeralValue 16 p

/-- The dotted text of 32 bits. -/
inductive DottedQuad : Text → Nat → Prop
  | bytes {w x y z : Nat} (hw : w ≤ 255) (hx : x ≤ 255) (hy : y ≤ 255) (hz : z ≤ 255) :
      DottedQuad (Text.join [unit '.'] ([w, x, y, z].map decimalText))
        (((w * 256 + x) * 256 + y) * 256 + z)

/-- The groups of the pieces between colons; a quad may stand for the last two. -/
inductive Rfc4291Groups : List Text → List Nat → Prop
  | hextets {ps : List Text} {gs : List Nat} (all : List.Forall₂ Hextet ps gs) :
      Rfc4291Groups ps gs
  | quad {ps : List Text} {gs : List Nat} {q : Text} {n : Nat} (all : List.Forall₂ Hextet ps gs)
      (last : DottedQuad q n) : Rfc4291Groups (ps ++ [q]) (gs ++ [n / 2 ^ 16, n % 2 ^ 16])

/-- RFC 4291 section 2.2: eight groups, or fewer around one `::` that stands for the missing ones. -/
inductive Rfc4291Address : Text → List Nat → Prop
  | full {ps : List Text} {gs : List Nat} (groups : Rfc4291Groups ps gs) (eight : gs.length = 8) :
      Rfc4291Address (colonJoin ps) gs
  | elided {ls rs : List Text} {left right : List Nat} (before : List.Forall₂ Hextet ls left)
      (after : Rfc4291Groups rs right) (missing : left.length + right.length < 8) :
      Rfc4291Address (colonJoin ls ++ text "::" ++ colonJoin rs)
        (left ++ List.replicate (8 - (left.length + right.length)) 0 ++ right)

/-- The first of the longest runs of at least two zero groups. -/
structure FirstLongestRun (gs left right : List Nat) (len : Nat) : Prop where
  split : gs = left ++ List.replicate len 0 ++ right
  two : 2 ≤ len
  longest : ∀ l k r, gs = l ++ List.replicate k 0 ++ r → k ≤ len
  first : ∀ l r, gs = l ++ List.replicate len 0 ++ r → left.length ≤ l.length

/-- RFC 5952 section 4 for the groups `gs`, before the pieces of `tail`: lower-case digits without
leading zeros, and `::` for the first longest run of zero groups. -/
inductive Rfc5952Form (gs : List Nat) (tail : List Text) : Text → Prop
  | full (none : ∀ l k r, gs = l ++ List.replicate k 0 ++ r → k < 2) :
      Rfc5952Form gs tail (colonJoin (gs.map (numeralText 16) ++ tail))
  | compressed {left right : List Nat} {len : Nat} (run : FirstLongestRun gs left right len) :
      Rfc5952Form gs tail (colonJoin (left.map (numeralText 16)) ++ text "::"
        ++ colonJoin (right.map (numeralText 16) ++ tail))

/-- RFC 5952 section 5: the upper 96 bits by the same rules, then the low ones as a quad. -/
def Rfc5952Mixed (gs : List Nat) (low : Nat) (t : Text) : Prop :=
  ∃ q, DottedQuad q low ∧ Rfc5952Form (gs.take 6) [q] t

/-- The low 32 bits of an address behind a prefix of the wrapper table. -/
def WrappedIpv4 (bits low : Nat) : Prop :=
  ∃ wrapper ∈ LOW32_WRAPPERS, low < 2 ^ 32 ∧ low ∉ wrapper.excludeLow ∧
    bits = addressValue wrapper.hextets * 2 ^ 32 + low

/-! ### The grammar is the one the parser reads -/

theorem hextet_iff {p : Text} {g : Nat} : parseHextet p = some g ↔ Hextet p g := by
  simp only [parseHextet, Option.ite_none_right_eq_some, Option.some.injEq, List.all_eq_true]
  constructor
  · rintro ⟨⟨h1, h4, hall⟩, rfl⟩
    exact ⟨⟨h1, h4⟩, hall, rfl⟩
  · rintro ⟨⟨h1, h4⟩, hall, rfl⟩
    exact ⟨⟨h1, h4, hall⟩, rfl⟩

theorem hextets_iff {ps : List Text} {gs : List Nat} :
    ps.mapM parseHextet = some gs ↔ List.Forall₂ Hextet ps gs := by
  rw [mapM_eq_some_iff]
  exact ⟨fun h => h.imp fun _ _ => hextet_iff.mp, fun h => h.imp fun _ _ => hextet_iff.mpr⟩

theorem dottedQuad_iff {q : Text} {n : Nat} : Ipv4Text q n ↔ DottedQuad q n := by
  constructor
  · rintro ⟨ha, hb, hc, hd⟩
    obtain ⟨hw, rfl⟩ := parseOctet_iff.mp ha
    obtain ⟨hx, rfl⟩ := parseOctet_iff.mp hb
    obtain ⟨hy, rfl⟩ := parseOctet_iff.mp hc
    obtain ⟨hz, rfl⟩ := parseOctet_iff.mp hd
    exact .bytes hw hx hy hz
  · rintro ⟨hw, hx, hy, hz⟩
    exact .quad (parseOctet_decimalText hw) (parseOctet_decimalText hx)
      (parseOctet_decimalText hy) (parseOctet_decimalText hz)

theorem hextetRun_iff {ps : List Text} {gs : List Nat} :
    HextetRun ps gs ↔ Rfc4291Groups ps gs := by
  constructor
  · intro run
    induction run with
    | nil => exact .hextets .nil
    | hextet head _ ih =>
        cases ih with
        | hextets all => exact .hextets (.cons (hextet_iff.mp head) all)
        | quad all last => exact .quad (.cons (hextet_iff.mp head) all) last
    | quad quad => exact .quad .nil (dottedQuad_iff.mp quad)
  · intro groups
    cases groups with
    | hextets all => exact hextetRun_of_mapM (hextets_iff.mpr all)
    | @quad ps gs q n all last =>
        induction all with
        | nil => exact .quad (dottedQuad_iff.mpr last)
        | cons head _ ih => exact .hextet (hextet_iff.mpr head) ih

theorem ipv6Text_iff {s : Text} {gs : List Nat} : Ipv6Text s gs ↔ Rfc4291Address s gs := by
  constructor
  · intro h
    cases h with
    | full run eight => exact .full (hextetRun_iff.mp run) eight
    | elided leftRun rightRun room =>
        exact .elided (hextets_iff.mp leftRun) (hextetRun_iff.mp rightRun) room
  · intro h
    cases h with
    | full groups eight => exact .full (hextetRun_iff.mpr groups) eight
    | elided before after missing =>
        exact .elided (hextets_iff.mpr before) (hextetRun_iff.mpr after) missing

theorem Rfc4291Address.isHextets {s : Text} {gs : List Nat} (h : Rfc4291Address s gs) :
    IsHextets gs :=
  ⟨(ipv6Text_iff.mpr h).length, (ipv6Text_iff.mpr h).lt⟩

theorem Rfc4291Address.unique {s : Text} {gs hs : List Nat} (hg : Rfc4291Address s gs)
    (hh : Rfc4291Address s hs) : gs = hs := by
  have hparse := ipv6Groups_iff.mpr (ipv6Text_iff.mpr hg)
  rw [ipv6Groups_iff.mpr (ipv6Text_iff.mpr hh), Option.some.injEq] at hparse
  exact hparse.symm

/-! ### The scan finds the first longest run -/

/-- What the scan knows of every zero run of the groups `gs`. -/
structure ZeroRunScan.Bounds (gs : List Nat) (scan : ZeroRunScan) : Prop where
  current : ∀ l k, gs = l ++ List.replicate k 0 → k ≤ scan.curLen
  longest : ∀ l k r, gs = l ++ List.replicate k 0 ++ r → k ≤ scan.bestLen
  first : 0 < scan.bestLen → ∀ l r, gs = l ++ List.replicate scan.bestLen 0 ++ r →
    scan.bestStart ≤ l.length

theorem ZeroRunScan.Bounds.nil : ZeroRunScan.Bounds [] {} := by
  refine ⟨?_, ?_, ?_⟩
  · intro l k h
    have := congrArg List.length h
    simp at this
    omega
  · intro l k r h
    have := congrArg List.length h
    simp at this
    omega
  · intro h
    cases h

/-- A zero run of a longer list lies in the list before, or ends with the new group. -/
theorem zeroRun_snoc {gs l r : List Nat} {g k : Nat}
    (h : gs ++ [g] = l ++ List.replicate (k + 1) 0 ++ r) :
    (∃ r', gs = l ++ List.replicate (k + 1) 0 ++ r') ∨
      (g = 0 ∧ r = [] ∧ gs = l ++ List.replicate k 0) := by
  induction r using List.reverseRecOn with
  | nil =>
      rw [List.append_nil, List.replicate_succ', ← List.append_assoc] at h
      obtain ⟨hgs, hg⟩ := List.append_inj' h rfl
      exact Or.inr ⟨by simpa using hg, rfl, hgs⟩
  | append_singleton r' x _ =>
      rw [← List.append_assoc] at h
      exact Or.inl ⟨r', (List.append_inj' h rfl).1⟩

theorem ZeroRunScan.Bounds.step {gs : List Nat} {scan : ZeroRunScan}
    (after : ZeroRunScan.After gs scan) (bounds : ZeroRunScan.Bounds gs scan) (g : Nat) :
    ZeroRunScan.Bounds (gs ++ [g]) (scan.step g) := by
  obtain ⟨current, longest, first⟩ := bounds
  have hend : scan.bestStart + scan.bestLen ≤ gs.length := by
    obtain ⟨left, right, best, start⟩ := after.best
    rw [best]
    simp only [List.length_append, List.length_replicate]
    omega
  have hlength {l r : List Nat} {k : Nat} (h : gs ++ [g] = l ++ List.replicate k 0 ++ r) :
      gs.length + 1 = l.length + k + r.length := by
    simpa [Nat.add_assoc] using congrArg List.length h
  by_cases hg : g = 0
  · have hcurrent : ∀ l k, gs ++ [g] = l ++ List.replicate k 0 → k ≤ scan.curLen + 1 := by
      intro l k h
      cases k with
      | zero => exact Nat.zero_le _
      | succ k =>
          rw [List.replicate_succ', ← List.append_assoc] at h
          have := current l k (List.append_inj' h rfl).1
          omega
    by_cases hlonger : scan.curLen + 1 > scan.bestLen
    · simp only [ZeroRunScan.step, if_pos hg, if_pos hlonger]
      refine ⟨hcurrent, ?_, ?_⟩
      · intro l k r h
        change k ≤ scan.curLen + 1
        cases k with
        | zero => exact Nat.zero_le _
        | succ k =>
            rcases zeroRun_snoc h with ⟨r', hgs⟩ | ⟨_, _, hgs⟩
            · have := longest l (k + 1) r' hgs
              omega
            · have := current l k hgs
              omega
      · intro _ l r h
        change scan.index + 1 - (scan.curLen + 1) ≤ l.length
        rcases zeroRun_snoc h with ⟨r', hgs⟩ | ⟨_, rfl, _⟩
        · have := longest l _ r' hgs
          omega
        · have := hlength h
          simp only [List.length_nil] at this
          rw [after.index]
          omega
    · simp only [ZeroRunScan.step, if_pos hg, if_neg hlonger]
      refine ⟨hcurrent, ?_, ?_⟩
      · intro l k r h
        change k ≤ scan.bestLen
        cases k with
        | zero => exact Nat.zero_le _
        | succ k =>
            rcases zeroRun_snoc h with ⟨r', hgs⟩ | ⟨_, _, hgs⟩
            · exact longest l (k + 1) r' hgs
            · have := current l k hgs
              omega
      · intro hpos l r h
        change 0 < scan.bestLen at hpos
        change scan.bestStart ≤ l.length
        obtain ⟨k, hk⟩ : ∃ k, scan.bestLen = k + 1 := ⟨scan.bestLen - 1, by omega⟩
        rw [hk] at h
        rcases zeroRun_snoc h with ⟨r', hgs⟩ | ⟨_, rfl, _⟩
        · rw [← hk] at hgs
          exact first hpos l r' hgs
        · have := hlength h
          simp only [List.length_nil] at this
          omega
  · simp only [ZeroRunScan.step, if_neg hg]
    refine ⟨?_, ?_, ?_⟩
    · intro l k h
      cases k with
      | zero => exact Nat.zero_le _
      | succ k =>
          rw [List.replicate_succ', ← List.append_assoc] at h
          have hzero := (List.append_inj' h rfl).2
          exact absurd (by simpa using hzero) hg
    · intro l k r h
      cases k with
      | zero => exact Nat.zero_le _
      | succ k =>
          rcases zeroRun_snoc h with ⟨r', hgs⟩ | ⟨hzero, _, _⟩
          · exact longest l (k + 1) r' hgs
          · exact absurd hzero hg
    · intro hpos l r h
      change 0 < scan.bestLen at hpos
      obtain ⟨k, hk⟩ : ∃ k, scan.bestLen = k + 1 := ⟨scan.bestLen - 1, by omega⟩
      rw [hk] at h
      rcases zeroRun_snoc h with ⟨r', hgs⟩ | ⟨hzero, _, _⟩
      · rw [← hk] at hgs
        exact first hpos l r' hgs
      · exact absurd hzero hg

theorem longestZeroRun_bounds (gs : List Nat) : ZeroRunScan.Bounds gs (longestZeroRun gs) := by
  induction gs using List.reverseRecOn with
  | nil => exact .nil
  | append_singleton gs g ih =>
      rw [longestZeroRun, List.foldl_append]
      exact ih.step (longestZeroRun_after gs) g

/-- A run of two or more that the scan points at is the first longest one. -/
theorem longestZeroRun_first {gs : List Nat} (h : 2 ≤ (longestZeroRun gs).bestLen) :
    ∃ left right, FirstLongestRun gs left right (longestZeroRun gs).bestLen ∧
      left.length = (longestZeroRun gs).bestStart := by
  obtain ⟨left, right, best, start⟩ := (longestZeroRun_after gs).best
  obtain ⟨_, longest, first⟩ := longestZeroRun_bounds gs
  exact ⟨left, right, ⟨best, h, longest, fun l r hr => start ▸ first (by omega) l r hr⟩, start⟩

/-- The groups before and after the run the scan points at, as pieces. -/
theorem FirstLongestRun.pieces {gs left right : List Nat} {len : Nat}
    (run : FirstLongestRun gs left right len) (f : Nat → Text) :
    (gs.map f).take left.length = left.map f ∧
      (gs.map f).drop (left.length + len) = right.map f := by
  obtain ⟨rfl, _, _, _⟩ := run
  constructor
  · simp
  · rw [← List.map_drop, List.drop_append_of_le_length (by simp)]
    simp

theorem canonicalizeIpv6_form (gs : List Nat) : Rfc5952Form gs [] (canonicalizeIpv6 gs) := by
  rw [canonicalizeIpv6]
  by_cases hshort : (longestZeroRun gs).bestLen < 2
  · rw [if_pos hshort]
    have hform : Rfc5952Form gs [] (colonJoin (gs.map (numeralText 16) ++ [])) :=
      .full fun l k r h =>
        Nat.lt_of_le_of_lt ((longestZeroRun_bounds gs).longest l k r h) hshort
    simpa using hform
  · rw [if_neg hshort]
    obtain ⟨left, right, run, start⟩ := longestZeroRun_first (not_lt.mp hshort)
    obtain ⟨hleft, hright⟩ := run.pieces (numeralText 16)
    rw [← start, hleft, hright]
    have hform : Rfc5952Form gs [] (colonJoin (left.map (numeralText 16)) ++ text "::"
        ++ colonJoin (right.map (numeralText 16) ++ [])) := .compressed run
    simpa using hform

theorem colonJoin_snoc (ps : List Text) (q : Text) :
    colonJoin (ps ++ [q]) = (if ps = [] then [] else colonJoin ps ++ [unit ':']) ++ q := by
  induction ps with
  | nil => simp
  | cons p ps ih =>
      rw [List.cons_append, colonJoin_cons (by simp), ih]
      by_cases hps : ps = []
      · simp [hps]
      · simp [hps, colonJoin_cons hps]

/-- The pieces of a text with a colon after them, when there are any. -/
theorem colonJoin_eq_nil {gs : List Nat} : colonJoin (gs.map (numeralText 16)) = [] ↔ gs = [] := by
  cases gs with
  | nil => simp
  | cons g gs =>
      have hg : numeralText 16 g ≠ [] := numeralText_ne_nil (by decide) g
      by_cases hgs : gs = []
      · simp [hgs, hg]
      · rw [List.map_cons, colonJoin_cons (by simpa using hgs)]
        simp

theorem mixedCanonicalIpv6_form (gs : List Nat) (dotted : Text) (h : gs.take 6 ≠ []) :
    Rfc5952Form (gs.take 6) [dotted] (mixedCanonicalIpv6 gs dotted) := by
  simp only [mixedCanonicalIpv6]
  generalize gs.take 6 = upper at *
  by_cases hshort : (longestZeroRun upper).bestLen < 2
  · rw [if_pos hshort]
    have hform : Rfc5952Form upper [dotted]
        (colonJoin (upper.map (numeralText 16) ++ [dotted])) := .full fun l k r h =>
      Nat.lt_of_le_of_lt ((longestZeroRun_bounds upper).longest l k r h) hshort
    rw [colonJoin_snoc, if_neg (by simpa using h)] at hform
    simpa using hform
  · rw [if_neg hshort]
    obtain ⟨left, right, run, start⟩ := longestZeroRun_first (not_lt.mp hshort)
    obtain ⟨hleft, hright⟩ := run.pieces (numeralText 16)
    have hform : Rfc5952Form upper [dotted] (colonJoin (left.map (numeralText 16)) ++ text "::"
        ++ colonJoin (right.map (numeralText 16) ++ [dotted])) := .compressed run
    rw [← start, hleft, hright]
    rw [colonJoin_snoc] at hform
    simpa [colonJoin_eq_nil] using hform

/-- Groups have one text of this form. -/
theorem Rfc5952Form.unique {gs : List Nat} {tail : List Text} {s t : Text}
    (hs : Rfc5952Form gs tail s) (ht : Rfc5952Form gs tail t) : s = t := by
  have clash {left right : List Nat} {len : Nat}
      (none : ∀ l k r, gs = l ++ List.replicate k 0 ++ r → k < 2)
      (run : FirstLongestRun gs left right len) : False := by
    have := none left len right run.split
    have := run.two
    omega
  cases hs with
  | full none =>
      cases ht with
      | full _ => rfl
      | compressed run => exact (clash none run).elim
  | @compressed left right len run =>
      cases ht with
      | full none => exact (clash none run).elim
      | @compressed left' right' len' run' =>
          have hlen : len = len' := Nat.le_antisymm (run'.longest left len right run.split)
            (run.longest left' len' right' run'.split)
          subst hlen
          have hleft : left.length = left'.length :=
            Nat.le_antisymm (run.first left' right' run'.split) (run'.first left right run.split)
          have hsplit := run.split.symm.trans run'.split
          rw [List.append_assoc, List.append_assoc] at hsplit
          obtain ⟨rfl, hrest⟩ := List.append_inj hsplit hleft
          rw [List.append_cancel_left hrest]

/-! ### The wrapped address -/

theorem IsHextets.low_split {gs : List Nat} (h : IsHextets gs) :
    addressValue gs = addressValue (gs.take 6) * 2 ^ 32 + low32 gs ∧ low32 gs < 2 ^ 32 := by
  have h6 : 6 < gs.length := by
    rw [h.eight]
    decide
  have h7 : 7 < gs.length := by
    rw [h.eight]
    decide
  have hend : gs.drop 8 = [] := List.drop_of_length_le (by rw [h.eight])
  have hdrop : gs.drop 6 = [gs.getD 6 0, gs.getD 7 0] := by
    rw [List.drop_eq_getElem_cons h6, List.drop_eq_getElem_cons h7, hend,
      List.getD_eq_getElem _ _ h6, List.getD_eq_getElem _ _ h7]
  constructor
  · have hvalue := Numeral.value_append (2 ^ 16) (gs.take 6) (gs.drop 6)
    rw [List.take_append_drop, hdrop] at hvalue
    rw [addressValue, hvalue]
    simp [Numeral.value, addressValue, low32]
  · have hhigh := h.getD_lt 6
    have hlow := h.getD_lt 7
    rw [low32]
    omega

theorem LOW32_WRAPPERS_hextets : ∀ wrapper ∈ LOW32_WRAPPERS,
    wrapper.hextets.length = 6 ∧ ∀ g ∈ wrapper.hextets, g < 2 ^ 16 := by
  decide

/-- A wrapper is read off the bits. -/
theorem wrappedIpv4_iff {gs : List Nat} (h : IsHextets gs) {low : Nat} :
    WrappedIpv4 (addressValue gs) low ↔ low = low32 gs ∧
      ∃ wrapper ∈ LOW32_WRAPPERS, gs.take 6 = wrapper.hextets ∧ low ∉ wrapper.excludeLow := by
  obtain ⟨hsplit, hlt⟩ := h.low_split
  have hsix : (gs.take 6).length = 6 := by
    rw [List.length_take, h.eight]
    rfl
  constructor
  · rintro ⟨wrapper, hmem, hlow, hexcluded, hbits⟩
    rw [hsplit, mul_add_eq_iff hlt hlow] at hbits
    obtain ⟨hlen, hsmall⟩ := LOW32_WRAPPERS_hextets wrapper hmem
    have htake : gs.take 6 = wrapper.hextets :=
      Numeral.value_inj (hsix.trans hlen.symm) (fun g hg => h.small g (List.mem_of_mem_take hg))
        hsmall hbits.1
    exact ⟨hbits.2.symm, wrapper, hmem, htake, hexcluded⟩
  · rintro ⟨rfl, wrapper, hmem, htake, hexcluded⟩
    exact ⟨wrapper, hmem, hlt, hexcluded, by rw [hsplit, htake]⟩

theorem matchedWrapper_of_mem {gs : List Nat} {wrapper : Low32Wrapper}
    (hmem : wrapper ∈ LOW32_WRAPPERS) (htake : gs.take 6 = wrapper.hextets) :
    matchedWrapper gs = some wrapper := by
  simp only [LOW32_WRAPPERS, List.mem_cons, List.not_mem_nil, or_false] at hmem
  rcases hmem with rfl | rfl | rfl | rfl <;> rw [matchedWrapper, htake] <;> rfl

theorem unwrapLow32Ipv4_iff {gs : List Nat} (h : IsHextets gs) {q : Text} :
    (unwrapLow32Ipv4 gs).map EmbeddedIpv4.address = some q ↔
      ∃ low, WrappedIpv4 (addressValue gs) low ∧ DottedQuad q low := by
  obtain ⟨_, hlt⟩ := h.low_split
  simp only [wrappedIpv4_iff h, ← dottedQuad_iff, ipv4Text_iff]
  constructor
  · intro hq
    obtain ⟨e, he, rfl⟩ := Option.map_eq_some_iff.mp hq
    rw [unwrapLow32Ipv4] at he
    cases hmatched : matchedWrapper gs with
    | none =>
        rw [hmatched] at he
        cases he
    | some wrapper =>
        simp only [hmatched, Option.ite_none_left_eq_some, Option.some.injEq] at he
        obtain ⟨hexcluded, rfl⟩ := he
        have htake : gs.take 6 = wrapper.hextets := by simpa using List.find?_some hmatched
        exact ⟨_, ⟨rfl, wrapper, List.mem_of_find?_eq_some hmatched, htake, hexcluded⟩, hlt, rfl⟩
  · rintro ⟨low, ⟨rfl, wrapper, hmem, htake, hexcluded⟩, _, rfl⟩
    simp [unwrapLow32Ipv4, matchedWrapper_of_mem hmem htake, hexcluded]

/-! ### The analysis -/

theorem analyzeIpv6_found {s : Text} {a : Ipv6Analysis} {gs : List Nat}
    (h : analyzeIpv6 s = some a) (address : Rfc4291Address s gs) :
    a.canonical = canonicalizeIpv6 gs ∧
      a.embeddedIpv4 = (unwrapLow32Ipv4 gs).map EmbeddedIpv4.address ∧
      a.embeddedIpv4Via = (unwrapLow32Ipv4 gs).map EmbeddedIpv4.mechanism ∧
      (a.obfuscated = false ↔ s.map asciiLower = canonicalizeIpv6 gs ∨
        ∃ q, (unwrapLow32Ipv4 gs).map EmbeddedIpv4.address = some q ∧
          s.map asciiLower = mixedCanonicalIpv6 gs q) := by
  rw [analyzeIpv6, ipv6Groups_iff.mpr (ipv6Text_iff.mpr address), Option.map_some,
    Option.some.injEq] at h
  subst h
  refine ⟨rfl, rfl, rfl, ?_⟩
  cases unwrapLow32Ipv4 gs with
  | none => simp
  | some e => simp [or_iff_not_imp_left]

theorem analyzeIpv6_canonical {gs : List Nat} (h : IsHextets gs) :
    analyzeIpv6 (canonicalizeIpv6 gs) = some
      { obfuscated := false, canonical := canonicalizeIpv6 gs,
        embeddedIpv4 := (unwrapLow32Ipv4 gs).map EmbeddedIpv4.address,
        embeddedIpv4Via := (unwrapLow32Ipv4 gs).map EmbeddedIpv4.mechanism } := by
  rw [analyzeIpv6, ipv6Groups_canonicalizeIpv6 h.eight h.small, Option.map_some,
    canonicalizeIpv6_lower]
  simp

theorem analyzeIpv6_isSome_iff {s : Text} :
    (analyzeIpv6 s).isSome ↔ ∃ gs, Rfc4291Address s gs := by
  simp only [← ipv6Text_iff, ← ipv6Groups_iff, ← Option.isSome_iff_exists, analyzeIpv6,
    Option.isSome_map]

theorem IsHextets.eq_of_bits {gs hs : List Nat} (hg : IsHextets gs) (hh : IsHextets hs)
    (h : addressValue gs = addressValue hs) : gs = hs :=
  Numeral.value_inj (hg.eight.trans hh.eight.symm) hg.small hh.small h

theorem Rfc5952Mixed.mixed_iff {gs : List Nat} (h : IsHextets gs) {low : Nat} {q t : Text}
    (quad : DottedQuad q low) : Rfc5952Mixed gs low t ↔ t = mixedCanonicalIpv6 gs q := by
  have hne : gs.take 6 ≠ [] := by
    intro hnil
    have := congrArg List.length hnil
    rw [List.length_take, h.eight] at this
    cases this
  have hform := mixedCanonicalIpv6_form gs q hne
  constructor
  · rintro ⟨q', quad', form⟩
    have hq : q' = q := by
      rw [(ipv4Text_iff.mp (dottedQuad_iff.mpr quad)).2, (ipv4Text_iff.mp (dottedQuad_iff.mpr quad')).2]
    exact (hq ▸ form).unique hform
  · rintro rfl
    exact ⟨q, quad, hform⟩

/-- The analysis of a text, in terms of the address it spells. -/
structure AnalyzesIpv6 (s : Text) : Prop where
  accepted : (analyzeIpv6 s).isSome ↔ ∃ gs, Rfc4291Address s gs
  canonical : ∀ a gs, analyzeIpv6 s = some a → Rfc4291Address s gs →
    ∀ t, Rfc5952Form gs [] t ↔ t = a.canonical
  fixed : ∀ a, analyzeIpv6 s = some a → analyzeIpv6 a.canonical = some { a with obfuscated := false }
  obfuscated : ∀ a gs, analyzeIpv6 s = some a → Rfc4291Address s gs →
    (a.obfuscated = false ↔ s.map asciiLower = a.canonical ∨
      ∃ low, WrappedIpv4 (addressValue gs) low ∧ Rfc5952Mixed gs low (s.map asciiLower))
  embedded : ∀ a gs, analyzeIpv6 s = some a → Rfc4291Address s gs →
    ∀ q, a.embeddedIpv4 = some q ↔ ∃ low, WrappedIpv4 (addressValue gs) low ∧ DottedQuad q low
  bits : ∀ t a b gs hs, analyzeIpv6 s = some a → analyzeIpv6 t = some b → Rfc4291Address s gs →
    Rfc4291Address t hs → addressValue gs = addressValue hs →
    a.canonical = b.canonical ∧ a.embeddedIpv4 = b.embeddedIpv4 ∧
      a.embeddedIpv4Via = b.embeddedIpv4Via

theorem analyzeIpv6_exact (s : Text) : AnalyzesIpv6 s := by
  refine ⟨analyzeIpv6_isSome_iff, ?_, ?_, ?_, ?_, ?_⟩
  · intro a gs ha address t
    rw [(analyzeIpv6_found ha address).1]
    exact ⟨fun form => form.unique (canonicalizeIpv6_form gs),
      fun heq => heq ▸ canonicalizeIpv6_form gs⟩
  · intro a ha
    obtain ⟨gs, address⟩ := analyzeIpv6_isSome_iff.mp (Option.isSome_of_eq_some ha)
    obtain ⟨hcanonical, hembedded, hvia, _⟩ := analyzeIpv6_found ha address
    rw [hcanonical, analyzeIpv6_canonical address.isHextets, ← hcanonical, ← hembedded, ← hvia]
  · intro a gs ha address
    obtain ⟨hcanonical, _, _, hobfuscated⟩ := analyzeIpv6_found ha address
    rw [hobfuscated, hcanonical]
    refine or_congr_right ?_
    constructor
    · rintro ⟨q, hq, hlower⟩
      obtain ⟨low, wrapped, quad⟩ := (unwrapLow32Ipv4_iff address.isHextets).mp hq
      exact ⟨low, wrapped, (Rfc5952Mixed.mixed_iff address.isHextets quad).mpr hlower⟩
    · rintro ⟨low, wrapped, q, quad, form⟩
      exact ⟨q, (unwrapLow32Ipv4_iff address.isHextets).mpr ⟨low, wrapped, quad⟩,
        (Rfc5952Mixed.mixed_iff address.isHextets quad).mp ⟨q, quad, form⟩⟩
  · intro a gs ha address q
    rw [(analyzeIpv6_found ha address).2.1]
    exact unwrapLow32Ipv4_iff address.isHextets
  · intro t a b gs hs ha hb address address' hbits
    obtain rfl := address.isHextets.eq_of_bits address'.isHextets hbits
    obtain ⟨hcanonical, hembedded, hvia, _⟩ := analyzeIpv6_found ha address
    obtain ⟨hcanonical', hembedded', hvia', _⟩ := analyzeIpv6_found hb address'
    exact ⟨hcanonical.trans hcanonical'.symm, hembedded.trans hembedded'.symm,
      hvia.trans hvia'.symm⟩

end Linklint
