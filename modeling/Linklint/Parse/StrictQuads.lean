import Linklint.Parse.AddressText

/-!
# Strict quads under the `inet_aton` reader

The permissive IPv4 reader gives a strict dotted quad its own bits, in both
directions of the canonical text, and reads nothing that has a colon.
-/

namespace Linklint

theorem isDigit_ne {u : CodeUnit} {v : CodeUnit} (h : isDigit u = true)
    (hv : isDigit v = false) : u ≠ v := by
  rintro rfl
  rw [h] at hv
  cases hv

theorem hexPartDigits_of_digits {p : Text} (h : ∀ u ∈ p, isDigit u = true) :
    hexPartDigits p = none := by
  rcases p with _ | ⟨z, _ | ⟨x, rest⟩⟩
  · rfl
  · rfl
  · have hx := h x (by simp)
    have hlower : x ≠ unit 'x' := isDigit_ne hx (by decide)
    have hupper : x ≠ unit 'X' := isDigit_ne hx (by decide)
    simp [hexPartDigits, hlower, hupper]

/-- A strict octet is a decimal part. -/
theorem parsePart_octet {p : Text} {n : Nat} (h : parseOctet p = some n) :
    parsePart p = some ⟨n, false⟩ := by
  have hdigits := parseOctet_digits h
  have hle := parseOctet_le h
  have hne := parseOctet_ne_nil h
  simp only [parseOctet, Option.ite_none_right_eq_some, Option.some.injEq] at h
  obtain ⟨⟨_, _, hall, hlead, _⟩, hn⟩ := h
  have hoctal : isOctalPart p = false := by
    cases p with
    | nil => rfl
    | cons z rest =>
        rw [Bool.eq_false_iff]
        intro hoct
        simp only [isOctalPart, Bool.and_eq_true, beq_iff_eq, bne_iff_ne] at hoct
        obtain ⟨⟨rfl, hrest⟩, _⟩ := hoct
        refine hlead ⟨?_, rfl⟩
        have := List.length_pos_iff.mpr hrest
        rw [List.length_cons]
        omega
  have hround : roundToDouble n = some n := roundToDouble_of_lt (by omega)
  simp [parsePart, hexPartDigits_of_digits hdigits, hoctal, hne, hall, hn, hround, hlead]

theorem packIpv4_octets {w x y z : Nat} (hw : w ≤ 255) (hx : x ≤ 255) (hy : y ≤ 255)
    (hz : z ≤ 255) : packIpv4 [⟨w, false⟩, ⟨x, false⟩, ⟨y, false⟩, ⟨z, false⟩]
      = some (((w * 256 + x) * 256 + y) * 256 + z) := by
  have hbytes : packBytes 0 [⟨w, false⟩, ⟨x, false⟩, ⟨y, false⟩]
      = some ((w * 256 + x) * 256 + y) := by
    simp [packBytes, show ¬ 255 < w by omega, show ¬ 255 < x by omega, show ¬ 255 < y by omega]
  simp [packIpv4, hbytes, show ¬ 256 ≤ z by omega,
    show ¬ 4294967295 < ((w * 256 + x) * 256 + y) * 256 + z by omega]

theorem Ipv4Text.last_ne_dot {s : Text} {n : Nat} (h : Ipv4Text s n) :
    s.getLast? ≠ some (unit '.') := by
  obtain ⟨hw, hx, hy, hz⟩ := h
  rename_i a b c d w x y z
  have hne := parseOctet_ne_nil hz
  have hjoin : Text.join [unit '.'] [a, b, c, d]
      = (a ++ unit '.' :: b ++ unit '.' :: c ++ [unit '.']) ++ d := by
    simp [Text.join, List.intercalate_cons_cons]
  rw [hjoin, List.getLast?_append_of_ne_nil _ hne, List.getLast?_eq_some_getLast hne]
  intro hlast
  exact parseOctet_no_dot hz (Option.some.inj hlast ▸ List.getLast_mem hne)

theorem HextetRun.last_ne_dot {ps : List Text} {gs : List Nat} (run : HextetRun ps gs) :
    (colonJoin ps).getLast? ≠ some (unit '.') := by
  induction run with
  | nil => simp
  | @hextet p ps _ _ head tail ih =>
      by_cases hps : ps = []
      · subst hps
        rw [colonJoin_singleton]
        intro hlast
        exact parseHextet_no_dot head (List.mem_of_getLast? hlast)
      · rw [colonJoin_cons hps, List.getLast?_append_of_ne_nil _ (List.cons_ne_nil _ _),
          List.getLast?_cons_of_ne_nil (colonJoin_ne_nil tail.isPiece hps)]
        exact ih
  | quad quad =>
      rw [colonJoin_singleton]
      exact quad.last_ne_dot

theorem Ipv6Text.last_ne_dot {s : Text} {gs : List Nat} (h : Ipv6Text s gs) :
    s.getLast? ≠ some (unit '.') := by
  cases h with
  | full run _ => exact run.last_ne_dot
  | @elided ls rs _ _ _ rightRun _ =>
      by_cases hright : colonJoin rs = []
      · rw [hright, List.append_nil, List.getLast?_append]
        have hcolons : (text "::").getLast? = some (unit ':') := by decide
        rw [hcolons, Option.some_or]
        decide
      · rw [List.getLast?_append_of_ne_nil _ hright]
        exact rightRun.last_ne_dot

theorem stripTrailingRootDot_concat {s : Text} (h : s ≠ []) :
    stripTrailingRootDot (s ++ [unit '.']) = s := by
  have hlong : (s ++ [unit '.']).length > 1 := by
    have := List.length_pos_iff.mpr h
    simp only [List.length_append, List.length_singleton]
    omega
  rw [stripTrailingRootDot, if_pos ⟨hlong, by simp⟩, List.dropLast_concat]

theorem stripTrailingRootDot_of_last {s : Text} (h : s.getLast? ≠ some (unit '.')) :
    stripTrailingRootDot s = s := if_neg fun hdot => h hdot.2

/-- A text is what is left of its root dot, with or without that dot. -/
theorem eq_stripTrailingRootDot (s : Text) :
    s = stripTrailingRootDot s ∨ s = stripTrailingRootDot s ++ [unit '.'] := by
  rw [stripTrailingRootDot]
  split
  · rename_i hdot
    obtain ⟨init, rfl⟩ := List.getLast?_eq_some_iff.mp hdot.2
    rw [List.dropLast_concat]
    exact Or.inr rfl
  · exact Or.inl rfl

/-- The reader gives a strict quad the bits it denotes. -/
theorem Ipv4Text.analyzed {s : Text} {n : Nat} (h : Ipv4Text s n) :
    analyzeIpv4 s = some { obfuscated := false, canonical := toDotted n } := by
  have hstrip := stripTrailingRootDot_of_last h.last_ne_dot
  obtain ⟨hw, hx, hy, hz⟩ := h
  have hsplit := join_quad_split (parseOctet_no_dot hw) (parseOctet_no_dot hx)
    (parseOctet_no_dot hy) (parseOctet_no_dot hz)
  have hpack := packIpv4_octets (parseOctet_le hw) (parseOctet_le hx) (parseOctet_le hy)
    (parseOctet_le hz)
  simp [analyzeIpv4, hstrip, hsplit, parsePart_octet hw, parsePart_octet hx, parsePart_octet hy,
    parsePart_octet hz, hpack]

/-- Nothing with a colon is an IPv4 part. -/
theorem parsePart_colon {p : Text} (h : unit ':' ∈ p) : parsePart p = none := by
  have hhex : hexPartDigits p = none := by
    rcases p with _ | ⟨z, _ | ⟨x, rest⟩⟩
    · rfl
    · rfl
    · rw [hexPartDigits, if_neg]
      rintro ⟨rfl, hx, _, hall⟩
      rcases List.mem_cons.mp h with h | h
      · exact absurd h (by decide)
      · rcases List.mem_cons.mp h with h | h
        · rcases hx with rfl | rfl
          · exact absurd h (by decide)
          · exact absurd h (by decide)
        · exact absurd (List.all_eq_true.mp hall _ h) (by decide)
  have hoctal : isOctalPart p = false := by
    cases p with
    | nil => rfl
    | cons z rest =>
        rw [Bool.eq_false_iff]
        intro hoct
        simp only [isOctalPart, Bool.and_eq_true, beq_iff_eq] at hoct
        obtain ⟨⟨rfl, _⟩, hall⟩ := hoct
        rcases List.mem_cons.mp h with h | h
        · exact absurd h (by decide)
        · exact absurd (List.all_eq_true.mp hall _ h) (by decide)
  have hdigits : ¬ p.all isDigit = true :=
    fun hall => absurd (List.all_eq_true.mp hall _ h) (by decide)
  simp [parsePart, hhex, hoctal, hdigits]

theorem mem_intercalate {α : Type} {sep : List α} {u : α} (hsep : u ∉ sep) {ps : List (List α)}
    (h : u ∈ List.intercalate sep ps) : ∃ p ∈ ps, u ∈ p := by
  induction ps with
  | nil => cases h
  | cons p ps ih =>
      cases ps with
      | nil => exact ⟨p, by simp, by simpa using h⟩
      | cons q qs =>
          rw [List.intercalate_cons_cons] at h
          simp only [List.mem_append] at h
          rcases h with (h | h) | h
          · exact ⟨p, by simp, h⟩
          · exact absurd h hsep
          · obtain ⟨r, hr, hu⟩ := ih h
            exact ⟨r, List.mem_cons_of_mem _ hr, hu⟩

theorem mapM_eq_none {α β : Type} {f : α → Option β} {l : List α} {a : α} (ha : a ∈ l)
    (hf : f a = none) : l.mapM f = none := by
  induction l with
  | nil => cases ha
  | cons b l ih =>
      rcases List.mem_cons.mp ha with rfl | ha
      · simp [hf]
      · simp [ih ha]

theorem analyzeIpv4_colon {s : Text} (h : unit ':' ∈ s) : analyzeIpv4 s = none := by
  have hstrip : unit ':' ∈ stripTrailingRootDot s := by
    rcases eq_stripTrailingRootDot s with heq | heq
    · exact heq ▸ h
    · rw [heq] at h
      rcases List.mem_append.mp h with h | h
      · exact h
      · exact absurd h (by decide)
  rw [← join_split (unit '.') (stripTrailingRootDot s)] at hstrip
  obtain ⟨p, hp, hcolon⟩ := mem_intercalate (by decide) hstrip
  have hnone := mapM_eq_none hp (parsePart_colon hcolon)
  simp only [analyzeIpv4]
  split
  · rfl
  · rw [hnone]
    rfl

end Linklint
