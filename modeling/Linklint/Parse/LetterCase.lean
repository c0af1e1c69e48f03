import Linklint.Parse.InetAton

/-!
# Letter case in address texts

The readers of addresses see digits, hexadecimal digits and the mark of a
hexadecimal part; none of them depends on the case it is written in.
-/

namespace Linklint

/-! ### Units -/

theorem asciiLower_toNat (u : CodeUnit) :
    (asciiLower u).toNat = if 65 ≤ u.toNat ∧ u.toNat ≤ 90 then u.toNat + 32 else u.toNat := by
  simp only [asciiLower, isUpper, Bool.and_eq_true, decide_eq_true_eq]
  split
  · have h32 : (32 : UInt16).toNat = 32 := by decide
    rw [UInt16.toNat_add, h32]
    omega
  · rfl

theorem isDigit_asciiLower (u : CodeUnit) : isDigit (asciiLower u) = isDigit u := by
  simp only [isDigit, asciiLower_toNat]
  split
  · rw [Bool.eq_iff_iff]
    simp only [Bool.and_eq_true, decide_eq_true_eq]
    omega
  · rfl

theorem digitValue_asciiLower (u : CodeUnit) : digitValue (asciiLower u) = digitValue u := by
  by_cases hupper : 65 ≤ u.toNat ∧ u.toNat ≤ 90
  · have hlower : (asciiLower u).toNat = u.toNat + 32 := by rw [asciiLower_toNat, if_pos hupper]
    have hdigit : isDigit u = false := by
      rw [Bool.eq_false_iff, ne_eq, isDigit_iff]
      omega
    simp only [digitValue, isDigit_asciiLower, hdigit, hlower, Bool.and_eq_true,
      decide_eq_true_eq, Bool.false_eq_true, if_false]
    by_cases hhex : u.toNat ≤ 70
    · rw [if_pos (by omega), if_neg (by omega), if_pos (by omega)]
      congr 1
    · rw [if_neg (by omega), if_neg (by omega), if_neg (by omega), if_neg (by omega)]
  · rw [asciiLower, if_neg]
    simpa [isUpper] using hupper

theorem asciiLower_idem (u : CodeUnit) : asciiLower (asciiLower u) = asciiLower u := by
  apply UInt16.toNat_inj.mp
  rw [asciiLower_toNat (asciiLower u), if_neg]
  rw [asciiLower_toNat]
  split
  · omega
  · assumption

/-- A unit that is no letter is the lower case of nothing else. -/
theorem asciiLower_eq_iff {u v : CodeUnit} (hv : isAsciiLetter v = false) :
    asciiLower u = v ↔ u = v := by
  simp only [isAsciiLetter, isUpper, isLower, Bool.or_eq_false_iff, Bool.and_eq_false_iff,
    decide_eq_false_iff_not] at hv
  rw [← UInt16.toNat_inj, ← UInt16.toNat_inj, asciiLower_toNat]
  split
  · omega
  · rfl

theorem asciiLower_of_digit {u : CodeUnit} (h : isDigit u = true) : asciiLower u = u := by
  rw [isDigit_iff] at h
  apply UInt16.toNat_inj.mp
  rw [asciiLower_toNat, if_neg (by omega)]

theorem mem_map_asciiLower {v : CodeUnit} (hv : isAsciiLetter v = false) {s : Text} :
    v ∈ s.map asciiLower ↔ v ∈ s := by
  simp only [List.mem_map, asciiLower_eq_iff hv, exists_eq_right]

theorem map_asciiLower_digits {ds : Text} (h : ∀ u ∈ ds, isDigit u = true) :
    ds.map asciiLower = ds :=
  (List.map_congr_left fun u hu => asciiLower_of_digit (h u hu)).trans (List.map_id _)

theorem numeralValue_asciiLower (base : Nat) (ds : Text) :
    numeralValue base (ds.map asciiLower) = numeralValue base ds := by
  rw [numeralValue, numeralValue, List.map_map]
  congr 1
  exact List.map_congr_left fun u _ => by rw [Function.comp_apply, digitValue_asciiLower]

/-- A map that keeps a separator, and makes no other, works between the separators. -/
theorem splitOn_map {α : Type} [BEq α] [LawfulBEq α] {f : α → α} {sep : α}
    (h : ∀ a, f a = sep ↔ a = sep) (l : List α) :
    (l.map f).splitOn sep = (l.splitOn sep).map (List.map f) := by
  induction l with
  | nil => simp
  | cons a l ih =>
      rw [List.map_cons, List.splitOn_cons_eq_if_modifyHead, List.splitOn_cons_eq_if_modifyHead, ih]
      by_cases ha : a = sep
      · have hfa : f a = sep := (h a).mpr ha
        rw [if_pos (beq_iff_eq.mpr hfa), if_pos (beq_iff_eq.mpr ha), List.map_cons, List.map_nil]
      · have hfa : ¬ f a = sep := fun heq => ha ((h a).mp heq)
        rw [if_neg (by simpa using hfa), if_neg (by simpa using ha)]
        cases l.splitOn sep with
        | nil => rfl
        | cons b bs => rfl

theorem split_dot_asciiLower (s : Text) :
    Text.split (unit '.') (s.map asciiLower) = (s.split (unit '.')).map (List.map asciiLower) :=
  splitOn_map (fun _ => asciiLower_eq_iff (by decide)) s

/-! ### IPv4 -/

theorem PartNumeral.lower {p : Text} {v : Nat} (h : PartNumeral p v) :
    PartNumeral (p.map asciiLower) v := by
  cases h with
  | @hex x ds mark ne digits =>
      have hx : asciiLower x = unit 'x' := by
        rcases mark with rfl | rfl
        · decide
        · decide
      have hdigits : ∀ u ∈ ds.map asciiLower, isHexDigit u = true := by
        intro u hu
        obtain ⟨w, hw, rfl⟩ := List.mem_map.mp hu
        rw [isHexDigit, digitValue_asciiLower]
        exact digits w hw
      rw [List.map_cons, List.map_cons, hx, show asciiLower (unit '0') = unit '0' by decide,
        ← numeralValue_asciiLower]
      exact .hex (Or.inl rfl) (by simpa using ne) hdigits
  | octal ne digits =>
      rw [map_asciiLower_digits]
      · exact .octal ne digits
      · intro u hu
        rcases List.mem_cons.mp hu with rfl | hu
        · decide
        · exact isDigit_of_isOctalDigit (digits u hu)
  | decimal ne digits notOctal =>
      rw [map_asciiLower_digits digits]
      exact .decimal ne digits notOctal

theorem InetAton.lower {s : Text} {n : Nat} (h : InetAton s n) : InetAton (s.map asciiLower) n := by
  cases h with
  | @pack parts part bytes last split few leading final single room =>
      have hsplit : Text.split (unit '.') (s.map asciiLower)
          = parts.map (List.map asciiLower) ++ [part.map asciiLower] := by
        rw [split_dot_asciiLower, split, List.map_append, List.map_singleton]
      have hleading : List.Forall₂ PartNumeral (parts.map (List.map asciiLower)) bytes :=
        List.forall₂_map_left_iff.mpr (leading.imp fun _ _ numeral => numeral.lower)
      have hlength : parts.length = (parts.map (List.map asciiLower)).length := by simp
      rw [hlength] at few room ⊢
      exact .pack hsplit few hleading final.lower single room

theorem isOctalDigit_asciiLower (u : CodeUnit) : isOctalDigit (asciiLower u) = isOctalDigit u := by
  simp only [isOctalDigit, asciiLower_toNat]
  split
  · rw [Bool.eq_iff_iff]
    simp only [Bool.and_eq_true, decide_eq_true_eq]
    omega
  · rfl

theorem hexPartDigits_asciiLower (p : Text) :
    hexPartDigits (p.map asciiLower) = (hexPartDigits p).map (List.map asciiLower) := by
  cases p with
  | nil => rfl
  | cons z p =>
      cases p with
      | nil => rfl
      | cons x rest =>
          have hzero : asciiLower z = unit '0' ↔ z = unit '0' := asciiLower_eq_iff (by decide)
          have hmark : (asciiLower x = unit 'x' ∨ asciiLower x = unit 'X') ↔
              (x = unit 'x' ∨ x = unit 'X') := by
            simp only [← UInt16.toNat_inj, asciiLower_toNat, show (unit 'x').toNat = 120 by decide,
              show (unit 'X').toNat = 88 by decide]
            split
            · omega
            · omega
          have hunit : isHexDigit ∘ asciiLower = isHexDigit := by
            funext u
            rw [Function.comp_apply, isHexDigit, isHexDigit, digitValue_asciiLower]
          have hdigits : (rest.map asciiLower).all isHexDigit = rest.all isHexDigit := by
            rw [List.all_map, hunit]
          simp only [List.map_cons, hexPartDigits, hzero, hmark, hdigits, ne_eq, List.map_eq_nil_iff]
          split
          · rfl
          · rfl

/-- A part is read without regard to its letter case. -/
theorem parsePart_asciiLower (p : Text) : parsePart (p.map asciiLower) = parsePart p := by
  have hoctal : isOctalPart (p.map asciiLower) = isOctalPart p := by
    cases p with
    | nil => rfl
    | cons z rest =>
        have hzero : (asciiLower z == unit '0') = (z == unit '0') := by
          rw [Bool.eq_iff_iff, beq_iff_eq, beq_iff_eq, asciiLower_eq_iff (by decide)]
        have hempty : (rest.map asciiLower != []) = (rest != []) := by
          cases rest with
          | nil => rfl
          | cons => rfl
        simp only [List.map_cons, isOctalPart, hzero, hempty, List.all_map, Function.comp_def,
          isOctalDigit_asciiLower]
  have hdecimal : (p.map asciiLower ≠ [] ∧ (p.map asciiLower).all isDigit = true) ↔
      (p ≠ [] ∧ p.all isDigit = true) := by
    simp only [ne_eq, List.map_eq_nil_iff, List.all_map, Function.comp_def, isDigit_asciiLower]
  rw [parsePart, parsePart, hexPartDigits_asciiLower]
  cases hexPartDigits p with
  | some ds => simp only [Option.map_some, numeralValue_asciiLower]
  | none =>
      simp only [Option.map_none, hoctal, numeralValue_asciiLower]
      by_cases hdigits : p ≠ [] ∧ p.all isDigit = true
      · rw [map_asciiLower_digits (List.all_eq_true.mp hdigits.2)]
      · rw [if_neg hdigits, if_neg (mt hdecimal.mp hdigits)]

theorem stripTrailingRootDot_asciiLower (s : Text) :
    stripTrailingRootDot (s.map asciiLower) = (stripTrailingRootDot s).map asciiLower := by
  have hdot : (s.map asciiLower).getLast? = some (unit '.') ↔ s.getLast? = some (unit '.') := by
    rw [List.getLast?_map, Option.map_eq_some_iff]
    constructor
    · rintro ⟨u, hu, hlower⟩
      rw [hu, (asciiLower_eq_iff (by decide)).mp hlower]
    · intro hu
      exact ⟨_, hu, by decide⟩
  simp only [stripTrailingRootDot, List.length_map, hdot]
  split
  · exact List.map_dropLast.symm
  · rfl

theorem analyzeIpv4_asciiLower (s : Text) : analyzeIpv4 (s.map asciiLower) = analyzeIpv4 s := by
  simp only [analyzeIpv4, stripTrailingRootDot_asciiLower, split_dot_asciiLower, List.length_map,
    List.mapM_map, Function.comp_def, parsePart_asciiLower]

/-- A unit of an IPv4 address in any of its spellings. -/
def IsInetUnit (u : CodeUnit) : Prop := isHexDigit u = true ∨ u ∈ text "xX."

theorem PartNumeral.units {p : Text} {v : Nat} (h : PartNumeral p v) : ∀ u ∈ p, IsInetUnit u := by
  intro u hu
  cases h with
  | hex mark _ digits =>
      rcases List.mem_cons.mp hu with rfl | hu
      · exact Or.inl (by decide)
      · rcases List.mem_cons.mp hu with rfl | hu
        · rcases mark with rfl | rfl
          · exact Or.inr (by decide)
          · exact Or.inr (by decide)
        · exact Or.inl (digits u hu)
  | octal _ digits =>
      rcases List.mem_cons.mp hu with rfl | hu
      · exact Or.inl (by decide)
      · exact Or.inl (isDigit_isHexDigit (isDigit_of_isOctalDigit (digits u hu)))
  | decimal _ digits _ => exact Or.inl (isDigit_isHexDigit (digits u hu))

theorem InetAton.units {s : Text} {n : Nat} (h : InetAton s n) : ∀ u ∈ s, IsInetUnit u := by
  intro u hu
  by_cases hdot : u = unit '.'
  · subst hdot
    exact Or.inr (by decide)
  · rw [← join_split (unit '.') s] at hu
    obtain ⟨p, hp, hmem⟩ := mem_intercalate (by simpa using hdot) hu
    cases h with
    | pack split _ leading final _ _ =>
        rw [split] at hp
        rcases List.mem_append.mp hp with hp | hp
        · have hleading := (List.forall₂_and_left _ _).mp
            (leading.imp fun _ _ numeral => ⟨numeral.units, numeral⟩)
          exact hleading.1 p hp u hmem
        · rw [List.mem_singleton.mp hp] at hmem
          exact final.units u hmem

/-- The last part of an address is no empty label. -/
theorem InetAton.last_ne_dot {s : Text} {n : Nat} (h : InetAton s n) :
    s.getLast? ≠ some (unit '.') := by
  intro hdot
  obtain ⟨init, rfl⟩ := List.getLast?_eq_some_iff.mp hdot
  cases h with
  | pack split _ _ final _ _ =>
      have hroot := List.splitOn_append_cons_self init ([] : Text) (a := unit '.')
      rw [Text.split, hroot, List.splitOn_nil] at split
      have hpart := (List.append_inj' split rfl).2
      exact final.ne_nil (List.singleton_inj.mp hpart).symm

theorem InetAton.no_colon {s : Text} {n : Nat} (h : InetAton s n) : unit ':' ∉ s := by
  have hstrip := stripTrailingRootDot_of_last h.last_ne_dot
  intro hcolon
  have hsome := analyzeIpv4_of_inetAton (hstrip.symm ▸ h)
  rw [analyzeIpv4_colon hcolon] at hsome
  cases hsome

/-! ### IPv6 -/

theorem parseHextet_asciiLower (p : Text) : parseHextet (p.map asciiLower) = parseHextet p := by
  have hdigits : (p.map asciiLower).all isHexDigit = p.all isHexDigit := by
    rw [List.all_map]
    congr 1
    funext u
    rw [Function.comp_apply, isHexDigit, isHexDigit, digitValue_asciiLower]
  rw [parseHextet, parseHextet, List.length_map, hdigits, numeralValue_asciiLower]

theorem Ipv4Text.lower {s : Text} {n : Nat} (h : Ipv4Text s n) : s.map asciiLower = s := by
  refine (List.map_congr_left fun u hu => ?_).trans (List.map_id _)
  obtain ⟨hw, hx, hy, hz⟩ := h
  by_cases hdot : u = unit '.'
  · subst hdot
    decide
  · apply asciiLower_of_digit
    simp only [Text.join, List.intercalate_cons_cons, List.intercalate_singleton, List.mem_append,
      List.mem_singleton, hdot, or_false] at hu
    rcases hu with hu | hu | hu | hu
    · exact parseOctet_digits hw u hu
    · exact parseOctet_digits hx u hu
    · exact parseOctet_digits hy u hu
    · exact parseOctet_digits hz u hu

theorem HextetRun.lower {ps : List Text} {gs : List Nat} (run : HextetRun ps gs) :
    HextetRun (ps.map (List.map asciiLower)) gs := by
  induction run with
  | nil => exact .nil
  | hextet head _ ih => exact .hextet ((parseHextet_asciiLower _).trans head) ih
  | quad quad =>
      rw [List.map_singleton, quad.lower]
      exact .quad quad

theorem colonJoin_asciiLower (ps : List Text) :
    (colonJoin ps).map asciiLower = colonJoin (ps.map (List.map asciiLower)) := by
  induction ps with
  | nil => rfl
  | cons p ps ih =>
      by_cases hps : ps = []
      · subst hps
        simp
      · rw [colonJoin_cons hps, List.map_append, List.map_cons, ih, List.map_cons,
          colonJoin_cons (by simpa using hps), show asciiLower (unit ':') = unit ':' by decide]

theorem Ipv6Text.lower {s : Text} {gs : List Nat} (h : Ipv6Text s gs) :
    Ipv6Text (s.map asciiLower) gs := by
  cases h with
  | full run eight =>
      rw [colonJoin_asciiLower]
      exact .full run.lower eight
  | @elided ls rs left right leftRun rightRun room =>
      have hleft : (ls.map (List.map asciiLower)).mapM parseHextet = some left := by
        rw [List.mapM_map]
        simpa only [Function.comp_def, parseHextet_asciiLower] using leftRun
      have hcolons : (text "::").map asciiLower = text "::" := by decide
      rw [List.map_append, List.map_append, colonJoin_asciiLower, colonJoin_asciiLower, hcolons]
      exact .elided hleft rightRun.lower room

end Linklint
