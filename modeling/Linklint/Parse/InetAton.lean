import Linklint.Parse.StrictQuads
import Mathlib.Data.List.Forall2

/-!
# The `inet_aton` reader

What one to four numerals between dots denote. The reader keeps its values as
doubles; below `2 ^ 53` none is rounded, and what is above stays out of range.
-/

namespace Linklint

/-- A numeral of a part with the whole number it denotes, of any length. -/
inductive PartNumeral : Text → Nat → Prop
  | hex {x : CodeUnit} {ds : Text} (mark : x = unit 'x' ∨ x = unit 'X') (ne : ds ≠ [])
      (digits : ∀ u ∈ ds, isHexDigit u = true) :
      PartNumeral (unit '0' :: x :: ds) (numeralValue 16 ds)
  | octal {ds : Text} (ne : ds ≠ []) (digits : ∀ u ∈ ds, isOctalDigit u = true) :
      PartNumeral (unit '0' :: ds) (numeralValue 8 ds)
  | decimal {ds : Text} (ne : ds ≠ []) (digits : ∀ u ∈ ds, isDigit u = true)
      (notOctal : ∀ os, ds = unit '0' :: os → os ≠ [] → ∃ u ∈ os, isOctalDigit u = false) :
      PartNumeral ds (numeralValue 10 ds)

/-- One to four numerals between dots: single bytes, and a last one that fills the rest. -/
inductive InetAton (s : Text) : Nat → Prop
  | pack {parts : List Text} {part : Text} {bytes : List Nat} {last : Nat}
      (split : s.split (unit '.') = parts ++ [part]) (few : parts.length ≤ 3)
      (leading : List.Forall₂ PartNumeral parts bytes) (final : PartNumeral part last)
      (single : ∀ b ∈ bytes, b ≤ 255) (room : last < 256 ^ (4 - parts.length)) :
      InetAton s (Numeral.value 256 bytes * 256 ^ (4 - parts.length) + last)

/-! ### Decimal numerals without a leading zero -/

theorem decimalText_no_leading_zero (n : Nat) :
    ¬ ((decimalText n).length > 1 ∧ (decimalText n).head? = some (unit '0')) := by
  rintro ⟨hlen, hhead⟩
  by_cases hn : n = 0
  · subst hn
    exact absurd hlen (by decide)
  · obtain ⟨d, ds, hds, hd⟩ : ∃ d ds, Numeral.digits 10 n = d :: ds ∧ d ≠ 0 :=
      Numeral.digits_head (by decide) hn
    have hlt : d < 10 := Numeral.digits_lt (by decide) n d (by simp [hds])
    simp only [decimalText, numeralText, hds, List.map_cons, List.head?_cons,
      Option.some.injEq] at hhead
    have hnonzero : ∀ e < 10, e ≠ 0 → digitUnit e ≠ unit '0' := by decide
    exact hnonzero d hlt hd hhead

theorem digitUnit_of_isDigit {u : CodeUnit} (h : isDigit u = true) :
    digitUnit ((digitValue u).getD 0) = u := by
  have hrange := (isDigit_iff u).mp h
  have hlt : u.toNat - 48 < 10 := by omega
  rw [digitValue_of_isDigit h, Option.getD_some, digitUnit, if_pos hlt,
    Nat.add_sub_of_le hrange.1, UInt16.ofNat_toNat]

/-- A digit run without a leading zero is the decimal text of its value. -/
theorem decimalText_numeralValue {p : Text} (hne : p ≠ []) (hdigits : ∀ u ∈ p, isDigit u = true)
    (hlead : ¬ (p.length > 1 ∧ p.head? = some (unit '0'))) : decimalText (numeralValue 10 p) = p := by
  obtain ⟨u, us, rfl⟩ := List.exists_cons_of_ne_nil hne
  have hvalue {v : CodeUnit} (hv : isDigit v = true) : (digitValue v).getD 0 < 10 := by
    have hrange := (isDigit_iff v).mp hv
    rw [digitValue_of_isDigit hv, Option.getD_some]
    omega
  have hu : isDigit u = true := hdigits u (List.mem_cons_self ..)
  have hus : ∀ v ∈ us, isDigit v = true := fun v hv => hdigits v (List.mem_cons_of_mem _ hv)
  have hfirst : (digitValue u).getD 0 ≠ 0 ∨ us.map (fun v => (digitValue v).getD 0) = [] := by
    by_cases hnil : us = []
    · exact Or.inr (by simp [hnil])
    · refine Or.inl fun hzero => hlead ⟨?_, ?_⟩
      · have := List.length_pos_iff.mpr hnil
        rw [List.length_cons]
        omega
      · rw [List.head?_cons, ← digitUnit_of_isDigit hu, hzero]
        rfl
  have hvalues : ∀ e ∈ us.map fun v => (digitValue v).getD 0, e < 10 := by
    intro e he
    obtain ⟨v, hv, rfl⟩ := List.mem_map.mp he
    exact hvalue (hus v hv)
  have hdigitsOf := Numeral.digits_value (by decide) (hvalue hu) hvalues hfirst
  rw [decimalText, numeralText, numeralValue, List.map_cons, hdigitsOf, List.map_cons,
    List.map_map, digitUnit_of_isDigit hu]
  congr 1
  refine (List.map_congr_left fun v hv => ?_).trans (List.map_id _)
  exact digitUnit_of_isDigit (hus v hv)

theorem parseOctet_decimalText {n : Nat} (hn : n ≤ 255) : parseOctet (decimalText n) = some n := by
  have hlen : (decimalText n).length ≤ 3 := by
    rw [decimalText, numeralText, List.length_map]
    exact Numeral.digits_length_le (by decide) (by decide) (by omega)
  have hpos : 1 ≤ (decimalText n).length :=
    List.length_pos_iff.mpr (numeralText_ne_nil (by decide) n)
  have hvalue : numeralValue 10 (decimalText n) = n :=
    numeralValue_numeralText (by decide) (by decide) n
  rw [parseOctet, if_pos ⟨hpos, hlen, List.all_eq_true.mpr (decimalText_isDigit n),
    decimalText_no_leading_zero n, by rw [hvalue]; exact hn⟩, hvalue]

/-- A strict octet is the decimal text of a byte. -/
theorem parseOctet_iff {p : Text} {n : Nat} :
    parseOctet p = some n ↔ n ≤ 255 ∧ p = decimalText n := by
  constructor
  · intro h
    refine ⟨parseOctet_le h, ?_⟩
    have hdigits := parseOctet_digits h
    have hne := parseOctet_ne_nil h
    simp only [parseOctet, Option.ite_none_right_eq_some, Option.some.injEq] at h
    obtain ⟨⟨_, _, _, hlead, _⟩, rfl⟩ := h
    exact (decimalText_numeralValue hne hdigits hlead).symm
  · rintro ⟨hn, rfl⟩
    exact parseOctet_decimalText hn

/-- The quad texts are what is printed for 32 bits. -/
theorem ipv4Text_iff {s : Text} {n : Nat} : Ipv4Text s n ↔ n < 2 ^ 32 ∧ s = toDotted n := by
  constructor
  · intro h
    refine ⟨h.lt, ?_⟩
    obtain ⟨ha, hb, hc, hd⟩ := h
    rename_i w x y z
    obtain ⟨hw, rfl⟩ := parseOctet_iff.mp ha
    obtain ⟨hx, rfl⟩ := parseOctet_iff.mp hb
    obtain ⟨hy, rfl⟩ := parseOctet_iff.mp hc
    obtain ⟨hz, rfl⟩ := parseOctet_iff.mp hd
    have h1 : (((w * 256 + x) * 256 + y) * 256 + z) / 2 ^ 24 % 256 = w := by omega
    have h2 : (((w * 256 + x) * 256 + y) * 256 + z) / 2 ^ 16 % 256 = x := by omega
    have h3 : (((w * 256 + x) * 256 + y) * 256 + z) / 2 ^ 8 % 256 = y := by omega
    have h4 : (((w * 256 + x) * 256 + y) * 256 + z) % 256 = z := by omega
    rw [toDotted, h1, h2, h3, h4]
    rfl
  · rintro ⟨hn, rfl⟩
    have hbyte (m : Nat) : parseOctet (decimalText (m % 256)) = some (m % 256) :=
      parseOctet_decimalText (by omega)
    have hvalue : ((n / 2 ^ 24 % 256 * 256 + n / 2 ^ 16 % 256) * 256 + n / 2 ^ 8 % 256) * 256 + n % 256
        = n := by omega
    have quad := Ipv4Text.quad (hbyte (n / 2 ^ 24)) (hbyte (n / 2 ^ 16)) (hbyte (n / 2 ^ 8)) (hbyte n)
    rw [hvalue] at quad
    exact quad

/-! ### One part -/

theorem numeralValue_zero_cons (base : Nat) (ds : Text) :
    numeralValue base (unit '0' :: ds) = numeralValue base ds := by
  have hzero : digitValue (unit '0') = some 0 := by decide
  simp [numeralValue, hzero, Numeral.value_cons]

/-- What the reader finds in a part: a numeral, rounded, and whether it is plain decimal. -/
structure ReadsPart (p : Text) (part : Ipv4Part) : Prop where
  numeral : ∃ v, PartNumeral p v ∧ roundToDouble v = some part.value ∧
    (part.nonDecimal = false ↔ p = decimalText v)

theorem octalPart_iff {p : Text} : isOctalPart p = true ↔
    ∃ os, p = unit '0' :: os ∧ os ≠ [] ∧ ∀ u ∈ os, isOctalDigit u = true := by
  cases p with
  | nil => simp [isOctalPart]
  | cons z rest =>
      simp only [isOctalPart, Bool.and_eq_true, beq_iff_eq, bne_iff_ne, List.all_eq_true]
      constructor
      · rintro ⟨⟨rfl, hne⟩, hall⟩
        exact ⟨rest, rfl, hne, hall⟩
      · rintro ⟨os, heq, hne, hall⟩
        cases heq
        exact ⟨⟨rfl, hne⟩, hall⟩

theorem hexPartDigits_iff {p ds : Text} : hexPartDigits p = some ds ↔
    ∃ x, p = unit '0' :: x :: ds ∧ (x = unit 'x' ∨ x = unit 'X') ∧ ds ≠ [] ∧
      ∀ u ∈ ds, isHexDigit u = true := by
  rcases p with _ | ⟨z, _ | ⟨x, rest⟩⟩
  · simp [hexPartDigits]
  · simp [hexPartDigits]
  · simp only [hexPartDigits, Option.ite_none_right_eq_some, Option.some.injEq, List.all_eq_true]
    constructor
    · rintro ⟨⟨rfl, hx, hne, hall⟩, rfl⟩
      exact ⟨x, rfl, hx, hne, hall⟩
    · rintro ⟨y, heq, hx, hne, hall⟩
      cases heq
      exact ⟨⟨rfl, hx, hne, hall⟩, rfl⟩

/-- A part of two or more units that begins with a zero is no plain decimal. -/
theorem ne_decimalText_of_zero {ds : Text} (hne : ds ≠ []) (v : Nat) :
    unit '0' :: ds ≠ decimalText v := by
  intro heq
  refine decimalText_no_leading_zero v ⟨?_, by rw [← heq]; rfl⟩
  rw [← heq, List.length_cons]
  have := List.length_pos_iff.mpr hne
  omega

theorem isDigit_of_isOctalDigit {u : CodeUnit} (h : isOctalDigit u = true) : isDigit u = true := by
  simp only [isOctalDigit, Bool.and_eq_true, decide_eq_true_eq] at h
  rw [isDigit_iff]
  omega

theorem plain_iff {p : Text} (hne : p ≠ []) (hdigits : ∀ u ∈ p, isDigit u = true) :
    ¬ (p.length > 1 ∧ p.head? = some (unit '0')) ↔ p = decimalText (numeralValue 10 p) := by
  constructor
  · exact fun hlead => (decimalText_numeralValue hne hdigits hlead).symm
  · intro heq
    rw [heq]
    exact decimalText_no_leading_zero _

/-- The reader reads the numerals, rounded, and nothing else. -/
theorem parsePart_iff {p : Text} {part : Ipv4Part} :
    parsePart p = some part ↔ ReadsPart p part := by
  constructor
  · intro h
    unfold parsePart at h
    cases hhex : hexPartDigits p with
    | some ds =>
        rw [hhex] at h
        obtain ⟨m, hm, rfl⟩ := Option.map_eq_some_iff.mp h
        obtain ⟨x, rfl, hx, hne, hall⟩ := hexPartDigits_iff.mp hhex
        refine ⟨_, .hex hx hne hall, hm, ?_⟩
        simp [ne_decimalText_of_zero (List.cons_ne_nil x ds)]
    | none =>
        rw [hhex] at h
        simp only at h
        by_cases hoct : isOctalPart p = true
        · rw [if_pos hoct] at h
          obtain ⟨m, hm, rfl⟩ := Option.map_eq_some_iff.mp h
          obtain ⟨os, rfl, hne, hall⟩ := octalPart_iff.mp hoct
          rw [numeralValue_zero_cons] at hm
          refine ⟨_, .octal hne hall, hm, ?_⟩
          simp [ne_decimalText_of_zero hne]
        · rw [if_neg hoct] at h
          by_cases hdec : p ≠ [] ∧ p.all isDigit = true
          · rw [if_pos hdec] at h
            obtain ⟨m, hm, rfl⟩ := Option.map_eq_some_iff.mp h
            have hall := List.all_eq_true.mp hdec.2
            refine ⟨_, .decimal hdec.1 hall ?_, hm, ?_⟩
            · intro os hos hne
              by_contra hnone
              refine hoct (octalPart_iff.mpr ⟨os, hos, hne, fun u hu => ?_⟩)
              by_contra hu'
              exact hnone ⟨u, hu, by simpa using hu'⟩
            · rw [decide_eq_false_iff_not]
              exact plain_iff hdec.1 hall
          · rw [if_neg hdec] at h
            cases h
  · rintro ⟨v, hnumeral, hround, hplain⟩
    obtain ⟨value, nonDecimal⟩ := part
    simp only at hround hplain
    cases hnumeral with
    | @hex x ds mark ne digits =>
        have hhex : hexPartDigits (unit '0' :: x :: ds) = some ds :=
          hexPartDigits_iff.mpr ⟨x, rfl, mark, ne, digits⟩
        have hflag : nonDecimal = true := by
          simpa [ne_decimalText_of_zero (List.cons_ne_nil x ds)] using hplain
        simp [parsePart, hhex, hround, hflag]
    | @octal ds ne digits =>
        have hhex : hexPartDigits (unit '0' :: ds) = none := by
          refine hexPartDigits_of_digits fun u hu => ?_
          rcases List.mem_cons.mp hu with rfl | hu
          · decide
          · exact isDigit_of_isOctalDigit (digits u hu)
        have hoct : isOctalPart (unit '0' :: ds) = true := octalPart_iff.mpr ⟨ds, rfl, ne, digits⟩
        have hflag : nonDecimal = true := by
          simpa [ne_decimalText_of_zero ne] using hplain
        simp [parsePart, hhex, hoct, numeralValue_zero_cons, hround, hflag]
    | decimal ne digits notOctal =>
        have hoct : ¬ isOctalPart p = true := by
          intro hoct
          obtain ⟨os, hos, hne, hall⟩ := octalPart_iff.mp hoct
          obtain ⟨u, hu, hnot⟩ := notOctal os hos hne
          rw [hall u hu] at hnot
          cases hnot
        have hflag : decide (p.length > 1 ∧ p.head? = some (unit '0')) = nonDecimal := by
          rw [← plain_iff ne digits] at hplain
          cases nonDecimal with
          | false => exact decide_eq_false (hplain.mp rfl)
          | true => simpa using hplain
        rw [parsePart, hexPartDigits_of_digits digits]
        simp only
        rw [if_neg hoct, if_pos ⟨ne, List.all_eq_true.mpr digits⟩, hround, Option.map_some, hflag]

/-- The three forms of a numeral exclude each other. -/
theorem PartNumeral.unique {p : Text} {v w : Nat} (hv : PartNumeral p v) (hw : PartNumeral p w) :
    v = w := by
  have hletter {x : CodeUnit} (mark : x = unit 'x' ∨ x = unit 'X') : isDigit x = false := by
    rcases mark with rfl | rfl
    · decide
    · decide
  have hexOctal {x : CodeUnit} {ds : Text} (mark : x = unit 'x' ∨ x = unit 'X')
      (digits : ∀ u ∈ x :: ds, isOctalDigit u = true) : False := by
    have hx := isDigit_of_isOctalDigit (digits x (List.mem_cons_self ..))
    rw [hletter mark] at hx
    cases hx
  have hexDecimal {x : CodeUnit} {ds : Text} (mark : x = unit 'x' ∨ x = unit 'X')
      (digits : ∀ u ∈ unit '0' :: x :: ds, isDigit u = true) : False := by
    have hx := digits x (by simp)
    rw [hletter mark] at hx
    cases hx
  have octalDecimal {ds : Text} (ne : ds ≠ []) (digits : ∀ u ∈ ds, isOctalDigit u = true)
      (notOctal : ∀ os, unit '0' :: ds = unit '0' :: os → os ≠ [] →
        ∃ u ∈ os, isOctalDigit u = false) : False := by
    obtain ⟨u, hu, hnot⟩ := notOctal ds rfl ne
    rw [digits u hu] at hnot
    cases hnot
  cases hv with
  | hex mark ne digits =>
      cases hw with
      | hex _ _ _ => rfl
      | octal _ digits' => exact (hexOctal mark digits').elim
      | decimal _ digits' _ => exact (hexDecimal mark digits').elim
  | octal ne digits =>
      cases hw with
      | hex mark' _ _ => exact (hexOctal mark' digits).elim
      | octal _ _ => rfl
      | decimal _ _ notOctal' => exact (octalDecimal ne digits notOctal').elim
  | decimal ne digits notOctal =>
      cases hw with
      | hex mark' _ _ => exact (hexDecimal mark' digits).elim
      | octal ne' digits' => exact (octalDecimal ne' digits' notOctal).elim
      | decimal _ _ _ => rfl

/-- A value in the exact range is the numeral's own. -/
theorem ReadsPart.exact {p : Text} {part : Ipv4Part} (h : ReadsPart p part)
    (hsmall : part.value < 2 ^ 53) :
    PartNumeral p part.value ∧ (part.nonDecimal = false ↔ p = decimalText part.value) := by
  obtain ⟨v, hnumeral, hround, hplain⟩ := h
  have hv : v < 2 ^ 53 := (roundToDouble_lt_iff hround (le_refl _)).mp hsmall
  rw [roundToDouble_of_lt hv, Option.some.injEq] at hround
  rw [← hround]
  exact ⟨hnumeral, hplain⟩

theorem readsPart_of_numeral {p : Text} {v : Nat} (h : PartNumeral p v) (hsmall : v < 2 ^ 53) :
    ∃ part, ReadsPart p part ∧ part.value = v := by
  refine ⟨⟨v, decide (p ≠ decimalText v)⟩, ⟨v, h, roundToDouble_of_lt hsmall, ?_⟩, rfl⟩
  rw [decide_eq_false_iff_not, not_not]

/-! ### The parts together -/

theorem mapM_eq_some_iff {α β : Type} {f : α → Option β} {l : List α} {r : List β} :
    l.mapM f = some r ↔ List.Forall₂ (fun a b => f a = some b) l r := by
  induction l generalizing r with
  | nil => simp [eq_comm]
  | cons a l ih =>
      simp only [List.mapM_cons, Option.bind_eq_bind, Option.bind_eq_some_iff, Option.pure_def,
        Option.some.injEq, List.forall₂_cons_left_iff]
      constructor
      · rintro ⟨b, hb, bs, hbs, rfl⟩
        exact ⟨b, bs, hb, ih.mp hbs, rfl⟩
      · rintro ⟨b, bs, hb, hbs, rfl⟩
        exact ⟨b, hb, bs, ih.mpr hbs, rfl⟩

theorem mapM_parsePart_iff {parts : List Text} {vals : List Ipv4Part} :
    parts.mapM parsePart = some vals ↔ List.Forall₂ ReadsPart parts vals := by
  rw [mapM_eq_some_iff]
  exact ⟨fun h => h.imp fun _ _ => parsePart_iff.mp, fun h => h.imp fun _ _ => parsePart_iff.mpr⟩

theorem numerals_of_reads {parts : List Text} {vals : List Ipv4Part}
    (h : List.Forall₂ ReadsPart parts vals) (single : ∀ v ∈ vals, v.value ≤ 255) :
    List.Forall₂ PartNumeral parts (vals.map Ipv4Part.value) := by
  induction h with
  | nil => exact .nil
  | @cons p part _ _ head _ ih =>
      have hpart : part.value ≤ 255 := single part (List.mem_cons_self ..)
      exact .cons (head.exact (by omega)).1 (ih fun v hv => single v (List.mem_cons_of_mem _ hv))

theorem reads_of_numerals {parts : List Text} {bytes : List Nat}
    (h : List.Forall₂ PartNumeral parts bytes) (single : ∀ b ∈ bytes, b ≤ 255) :
    ∃ vals, List.Forall₂ ReadsPart parts vals ∧ vals.map Ipv4Part.value = bytes := by
  induction h with
  | nil => exact ⟨[], .nil, rfl⟩
  | @cons p b _ _ head _ ih =>
      have hb : b ≤ 255 := single b (List.mem_cons_self ..)
      obtain ⟨part, hpart, rfl⟩ := readsPart_of_numeral head (by omega)
      obtain ⟨vals, hvals, rfl⟩ := ih fun v hv => single v (List.mem_cons_of_mem _ hv)
      exact ⟨part :: vals, .cons hpart hvals, rfl⟩

theorem packBytes_iff {vals : List Ipv4Part} {acc full : Nat} : packBytes acc vals = some full ↔
    (∀ v ∈ vals, v.value ≤ 255) ∧
      full = acc * 256 ^ vals.length + Numeral.value 256 (vals.map Ipv4Part.value) := by
  induction vals generalizing acc with
  | nil => simp [packBytes, eq_comm]
  | cons part rest ih =>
      rw [packBytes]
      by_cases hpart : part.value > 0xff
      · rw [if_pos hpart]
        constructor
        · intro h
          cases h
        · rintro ⟨hall, _⟩
          have := hall part (List.mem_cons_self ..)
          omega
      · have hvalue : acc * 256 ^ (part :: rest).length
              + Numeral.value 256 ((part :: rest).map Ipv4Part.value)
            = (acc * 256 + part.value) * 256 ^ rest.length
              + Numeral.value 256 (rest.map Ipv4Part.value) := by
          rw [List.map_cons, Numeral.value_cons, List.length_cons, List.length_map]
          ring
        rw [if_neg hpart, ih, hvalue, List.forall_mem_cons]
        have hle : part.value ≤ 255 := by omega
        simp only [hle, true_and]

/-- What is packed has 32 bits. -/
theorem packed_lt {k high last : Nat} (few : k ≤ 3) (hhigh : high < 256 ^ k)
    (hlast : last < 256 ^ (4 - k)) : high * 256 ^ (4 - k) + last < 2 ^ 32 := by
  have hbits : 256 ^ k * 256 ^ (4 - k) = 2 ^ 32 := by
    rw [← Nat.pow_add, Nat.add_sub_of_le (by omega)]
    rfl
  have hmul := Nat.mul_le_mul_right (256 ^ (4 - k)) (Nat.succ_le_of_lt hhigh)
  rw [hbits, Nat.succ_mul] at hmul
  omega

/-- The packing of at most three single bytes and a last value. -/
theorem packIpv4_iff {init : List Ipv4Part} {last : Ipv4Part} {full : Nat}
    (few : init.length ≤ 3) : packIpv4 (init ++ [last]) = some full ↔
      (∀ v ∈ init, v.value ≤ 255) ∧ last.value < 256 ^ (4 - init.length) ∧
        full = Numeral.value 256 (init.map Ipv4Part.value) * 256 ^ (4 - init.length)
          + last.value := by
  have hpow : 2 ^ (8 * (4 - ((init ++ [last]).length - 1))) = 256 ^ (4 - init.length) := by
    rw [Nat.pow_mul, List.length_append, List.length_singleton, Nat.add_sub_cancel]
  simp only [packIpv4, List.getLast?_append, List.getLast?_singleton, Option.some_or,
    List.dropLast_concat, Option.bind_eq_bind, Option.bind_some, hpow]
  by_cases hroom : last.value ≥ 256 ^ (4 - init.length)
  · rw [if_pos hroom]
    constructor
    · intro h
      cases h
    · rintro ⟨_, hlast, _⟩
      omega
  · rw [if_neg hroom]
    simp only [Option.bind_eq_some_iff, packBytes_iff, Nat.zero_mul, Nat.zero_add]
    constructor
    · rintro ⟨high, ⟨hall, rfl⟩, hfull⟩
      rw [Option.ite_none_left_eq_some] at hfull
      exact ⟨hall, not_le.mp hroom, (Option.some.inj hfull.2).symm⟩
    · rintro ⟨hall, hlast, rfl⟩
      refine ⟨_, ⟨hall, rfl⟩, ?_⟩
      have hhigh : Numeral.value 256 (init.map Ipv4Part.value) < 256 ^ init.length := by
        have hbytes : ∀ d ∈ init.map Ipv4Part.value, d < 256 := by
          intro d hd
          obtain ⟨v, hv, rfl⟩ := List.mem_map.mp hd
          have hbyte := hall v hv
          omega
        have hlt := Numeral.value_lt hbytes
        rwa [List.length_map] at hlt
      have hlt := packed_lt few hhigh hlast
      rw [if_neg (by omega)]

/-! ### The analysis -/

theorem InetAton.unique {s : Text} {m n : Nat} (hm : InetAton s m) (hn : InetAton s n) : m = n := by
  cases hm with
  | @pack parts part bytes last split few leading final single room =>
      cases hn with
      | @pack parts' part' bytes' last' split' few' leading' final' single' room' =>
          rw [split] at split'
          obtain ⟨rfl, hpart⟩ := List.append_inj' split' rfl
          cases hpart
          have hunique : Relator.RightUnique PartNumeral := fun _ _ _ => PartNumeral.unique
          have hbytes : bytes = bytes' := List.right_unique_forall₂' hunique leading leading'
          rw [hbytes, final.unique final']

theorem InetAton.lt {s : Text} {n : Nat} (h : InetAton s n) : n < 2 ^ 32 := by
  cases h with
  | @pack parts part bytes last split few leading final single room =>
      have hhigh : Numeral.value 256 bytes < 256 ^ parts.length := by
        rw [leading.length_eq]
        exact Numeral.value_lt fun b hb => by
          have := single b hb
          omega
      exact packed_lt few hhigh room

/-- Four plain decimal parts are a strict quad. -/
theorem InetAton.quad {s : Text} {n : Nat} (h : InetAton s n)
    (four : (s.split (unit '.')).length = 4)
    (plain : ∀ p ∈ s.split (unit '.'), ∀ v, PartNumeral p v → p = decimalText v) :
    Ipv4Text s n := by
  cases h with
  | @pack parts part bytes last split few leading final single room =>
      have hjoin := join_split (unit '.') s
      rw [split] at four plain hjoin
      have hthree : parts.length = 3 := by
        rw [List.length_append, List.length_singleton] at four
        omega
      have octet {p : Text} {v : Nat} (hp : p ∈ parts ++ [part]) (hv : PartNumeral p v)
          (hle : v ≤ 255) : parseOctet p = some v :=
        parseOctet_iff.mpr ⟨hle, plain p hp v hv⟩
      have hlast : last ≤ 255 := by
        rw [hthree] at room
        omega
      obtain ⟨a, b, c, rfl⟩ := List.length_eq_three.mp hthree
      simp only [List.forall₂_cons_left_iff, List.forall₂_nil_left_iff] at leading
      obtain ⟨w, _, ha, ⟨x, _, hb, ⟨y, _, hc, rfl, rfl⟩, rfl⟩, rfl⟩ := leading
      have quad := Ipv4Text.quad (octet (by simp) ha (single w (by simp)))
        (octet (by simp) hb (single x (by simp))) (octet (by simp) hc (single y (by simp)))
        (octet (by simp) final hlast)
      rw [← hjoin]
      simpa [Numeral.value] using quad

theorem forall₂_concat_left {α β : Type} {R : α → β → Prop} {l : List α} {a : α} {r : List β}
    (h : List.Forall₂ R (l ++ [a]) r) : ∃ r' b, r = r' ++ [b] ∧ List.Forall₂ R l r' ∧ R a b := by
  induction l generalizing r with
  | nil =>
      simp only [List.nil_append, List.forall₂_cons_left_iff, List.forall₂_nil_left_iff] at h
      obtain ⟨b, _, hab, rfl, rfl⟩ := h
      exact ⟨[], b, rfl, .nil, hab⟩
  | cons x l ih =>
      simp only [List.cons_append, List.forall₂_cons_left_iff] at h
      obtain ⟨y, _, hxy, htail, rfl⟩ := h
      obtain ⟨r', b, rfl, hl, hab⟩ := ih htail
      exact ⟨y :: r', b, rfl, .cons hxy hl, hab⟩

theorem reads_numeral {p : Text} {parts : List Text} {vals : List Ipv4Part}
    (h : List.Forall₂ ReadsPart parts vals) (hp : p ∈ parts) : ∃ part ∈ vals, ReadsPart p part := by
  induction h with
  | nil => cases hp
  | cons head _ ih =>
      rcases List.mem_cons.mp hp with rfl | hp
      · exact ⟨_, List.mem_cons_self .., head⟩
      · obtain ⟨part, hmem, hreads⟩ := ih hp
        exact ⟨part, List.mem_cons_of_mem _ hmem, hreads⟩

/-- What the parts of a text say about its bits. -/
theorem packed_of_reads {s : Text} {vals : List Ipv4Part} {full : Nat}
    (hreads : List.Forall₂ ReadsPart (s.split (unit '.')) vals)
    (few : (s.split (unit '.')).length ≤ 4) (hpack : packIpv4 vals = some full) :
    InetAton s full ∧ ∀ v ∈ vals, v.value < 2 ^ 53 := by
  have hne : s.split (unit '.') ≠ [] := List.splitOn_ne_nil _ _
  obtain ⟨parts, part, hsplit⟩ : ∃ parts part, s.split (unit '.') = parts ++ [part] :=
    ⟨_, _, (List.dropLast_append_getLast hne).symm⟩
  rw [hsplit] at hreads few
  obtain ⟨init, last, rfl, hinit, hlast⟩ := forall₂_concat_left hreads
  rw [List.length_append, List.length_singleton] at few
  have hlen : parts.length = init.length := hinit.length_eq
  obtain ⟨single, room, rfl⟩ := (packIpv4_iff (by omega)).mp hpack
  have hpow : 256 ^ (4 - init.length) ≤ 256 ^ 4 := Nat.pow_le_pow_right (by decide) (by omega)
  have hexact : last.value < 2 ^ 53 := by omega
  refine ⟨?_, ?_⟩
  · rw [← hlen] at room ⊢
    exact .pack hsplit (by omega) (numerals_of_reads hinit single) (hlast.exact hexact).1
      (by simpa using single) room
  · intro v hv
    rcases List.mem_append.mp hv with hv | hv
    · have := single v hv
      omega
    · rw [List.mem_singleton.mp hv]
      exact hexact

theorem reads_of_inetAton {s : Text} {n : Nat} (h : InetAton s n) :
    ∃ vals, List.Forall₂ ReadsPart (s.split (unit '.')) vals ∧
      (s.split (unit '.')).length ≤ 4 ∧ packIpv4 vals = some n := by
  cases h with
  | @pack parts part bytes last split few leading final single room =>
      obtain ⟨init, hinit, hbytes⟩ := reads_of_numerals leading single
      have hpow : 256 ^ (4 - parts.length) ≤ 256 ^ 4 :=
        Nat.pow_le_pow_right (by decide) (by omega)
      obtain ⟨tail, htail, hvalue⟩ := readsPart_of_numeral final (by omega)
      have hlen : parts.length = init.length := hinit.length_eq
      refine ⟨init ++ [tail], ?_, ?_, ?_⟩
      · rw [split]
        exact List.rel_append hinit (.cons htail .nil)
      · rw [split, List.length_append, List.length_singleton]
        omega
      · rw [packIpv4_iff (by omega), hbytes, hvalue, ← hlen]
        refine ⟨fun v hv => single _ ?_, room, rfl⟩
        rw [← hbytes]
        exact List.mem_map_of_mem hv

theorem PartNumeral.ne_nil {p : Text} {v : Nat} (h : PartNumeral p v) : p ≠ [] := by
  cases h with
  | hex => exact List.cons_ne_nil _ _
  | octal => exact List.cons_ne_nil _ _
  | decimal ne => exact ne

theorem stripTrailingRootDot_eq {s : Text} (h : s ≠ [unit '.']) :
    stripTrailingRootDot s = s.dropTrailingDot := by
  rw [stripTrailingRootDot, Text.dropTrailingDot]
  by_cases hlast : s.getLast? = some (unit '.')
  · have hlong : s.length > 1 := by
      cases s with
      | nil => cases hlast
      | cons u rest =>
          cases rest with
          | nil =>
              rw [List.getLast?_singleton, Option.some.injEq] at hlast
              exact absurd (by rw [hlast]) h
          | cons v rest => simp
    rw [if_pos ⟨hlong, hlast⟩, if_pos hlast]
  · rw [if_neg fun hdot => hlast hdot.2, if_neg hlast]

/-- The bare root dot names no address, so it does not matter that it stays. -/
theorem inetAton_root (s : Text) (n : Nat) :
    InetAton (stripTrailingRootDot s) n ↔ InetAton s.dropTrailingDot n := by
  by_cases hdot : s = [unit '.']
  · subst hdot
    have hnone (t : Text) (ht : ∀ p ∈ t.split (unit '.'), p = []) : ¬ InetAton t n := by
      intro h
      cases h with
      | pack split _ _ final _ _ =>
          exact final.ne_nil (ht _ (by simp [split]))
    exact iff_of_false (hnone _ (by decide)) (hnone _ (by decide))
  · rw [stripTrailingRootDot_eq hdot]

theorem analyzeIpv4_quad {s : Text} {n : Nat} (h : Ipv4Text (stripTrailingRootDot s) n) :
    analyzeIpv4 s = some { obfuscated := false, canonical := toDotted n } := by
  have hstrip := stripTrailingRootDot_of_last h.last_ne_dot
  have hanalyzed := h.analyzed
  rw [analyzeIpv4, hstrip] at hanalyzed
  exact hanalyzed

/-- What the analysis finds, in terms of the bits. -/
theorem analyzeIpv4_found {s : Text} {a : Ipv4Analysis} (h : analyzeIpv4 s = some a) :
    ∃ n, InetAton (stripTrailingRootDot s) n ∧ a.canonical = toDotted n ∧
      (a.obfuscated = false ↔ stripTrailingRootDot s = toDotted n) := by
  have hfound := h
  simp only [analyzeIpv4, Option.bind_eq_bind] at h
  rw [Option.ite_none_left_eq_some] at h
  obtain ⟨hfew, h⟩ := h
  simp only [Option.bind_eq_some_iff, mapM_parsePart_iff, Option.some.injEq] at h
  obtain ⟨vals, hreads, full, hpack, rfl⟩ := h
  obtain ⟨hbits, hexact⟩ := packed_of_reads hreads (not_lt.mp hfew) hpack
  refine ⟨full, hbits, rfl, ?_⟩
  constructor
  · intro hplain
    simp only [Bool.or_eq_false_iff, bne_eq_false_iff_eq, List.any_eq_false] at hplain
    obtain ⟨hdecimal, hfour⟩ := hplain
    refine (ipv4Text_iff.mp (hbits.quad (hreads.length_eq.trans hfour) ?_)).2
    intro p hp v hv
    obtain ⟨part, hmem, hpart⟩ := reads_numeral hreads hp
    obtain ⟨hnumeral, hflag⟩ := hpart.exact (hexact part hmem)
    rw [hv.unique hnumeral]
    exact hflag.mp (by simpa using hdecimal part hmem)
  · intro htext
    have hquad := analyzeIpv4_quad (ipv4Text_iff.mpr ⟨hbits.lt, htext⟩)
    rw [hfound, Option.some.injEq] at hquad
    rw [hquad]

theorem analyzeIpv4_of_inetAton {s : Text} {n : Nat} (h : InetAton (stripTrailingRootDot s) n) :
    (analyzeIpv4 s).isSome := by
  obtain ⟨vals, hreads, hfew, hpack⟩ := reads_of_inetAton h
  simp [analyzeIpv4, not_lt.mpr hfew, mapM_parsePart_iff.mpr hreads, hpack]

/-- The analysis of a text, in terms of the bits its numerals denote. -/
structure AnalyzesIpv4 (s : Text) : Prop where
  accepted : (analyzeIpv4 s).isSome ↔ ∃ n, InetAton s.dropTrailingDot n
  bits : ∀ m n, InetAton s.dropTrailingDot m → InetAton s.dropTrailingDot n → m = n
  canonical : ∀ a n, analyzeIpv4 s = some a → InetAton s.dropTrailingDot n →
    ∀ t, Ipv4Text t n ↔ t = a.canonical
  fixed : ∀ a, analyzeIpv4 s = some a →
    analyzeIpv4 a.canonical = some { obfuscated := false, canonical := a.canonical }
  obfuscated : ∀ a, analyzeIpv4 s = some a →
    (a.obfuscated = false ↔ s.dropTrailingDot = a.canonical)

theorem analyzeIpv4_exact (s : Text) : AnalyzesIpv4 s := by
  refine ⟨?_, fun m n hm hn => hm.unique hn, ?_, ?_, ?_⟩
  · constructor
    · intro h
      obtain ⟨a, ha⟩ := Option.isSome_iff_exists.mp h
      obtain ⟨n, hn, _⟩ := analyzeIpv4_found ha
      exact ⟨n, (inetAton_root s n).mp hn⟩
    · rintro ⟨n, hn⟩
      exact analyzeIpv4_of_inetAton ((inetAton_root s n).mpr hn)
  · intro a n ha hn t
    obtain ⟨m, hm, hcanonical, _⟩ := analyzeIpv4_found ha
    obtain rfl := hm.unique ((inetAton_root s n).mpr hn)
    rw [ipv4Text_iff, hcanonical]
    exact ⟨fun h => h.2, fun h => ⟨hm.lt, h⟩⟩
  · intro a ha
    obtain ⟨n, hn, hcanonical, _⟩ := analyzeIpv4_found ha
    rw [hcanonical]
    exact (ipv4Text_iff.mpr ⟨hn.lt, rfl⟩).analyzed
  · intro a ha
    obtain ⟨n, _, hcanonical, hplain⟩ := analyzeIpv4_found ha
    have hdot : s ≠ [unit '.'] := by
      rintro rfl
      have hnone : analyzeIpv4 [unit '.'] = none := by decide
      rw [hnone] at ha
      cases ha
    rw [hplain, hcanonical, stripTrailingRootDot_eq hdot]

end Linklint
