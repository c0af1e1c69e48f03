import Linklint.Parse.Ip

/-!
# The texts of IP addresses

What a dotted quad and an IPv6 literal denote, as a grammar: hextets between
colons, a quad in the last place, one elision. The hand-written parsers read
exactly these texts, and the canonical printer writes one of them.
-/

namespace Linklint

/-- Four octets without a leading zero, joined by dots. -/
inductive Ipv4Text : Text → Nat → Prop
  | quad {a b c d : Text} {w x y z : Nat} (ha : parseOctet a = some w)
      (hb : parseOctet b = some x) (hc : parseOctet c = some y) (hd : parseOctet d = some z) :
      Ipv4Text (Text.join [unit '.'] [a, b, c, d]) (((w * 256 + x) * 256 + y) * 256 + z)

/-- The hextets of the pieces between colons; only the last piece may be a dotted quad. -/
inductive HextetRun : List Text → List Nat → Prop
  | nil : HextetRun [] []
  | hextet {p : Text} {ps : List Text} {g : Nat} {gs : List Nat} (head : parseHextet p = some g)
      (tail : HextetRun ps gs) : HextetRun (p :: ps) (g :: gs)
  | quad {p : Text} {n : Nat} (quad : Ipv4Text p n) : HextetRun [p] [n / 2 ^ 16, n % 2 ^ 16]

/-- The hextets an elision around `left` and `right` stands for. -/
def elide (left right : List Nat) : List Nat :=
  left ++ List.replicate (8 - (left.length + right.length)) 0 ++ right

/-- An IPv6 literal without a zone: all eight hextets, or an elision of at least one. -/
inductive Ipv6Text : Text → List Nat → Prop
  | full {ps : List Text} {gs : List Nat} (run : HextetRun ps gs) (eight : gs.length = 8) :
      Ipv6Text (colonJoin ps) gs
  | elided {ls rs : List Text} {left right : List Nat} (leftRun : ls.mapM parseHextet = some left)
      (rightRun : HextetRun rs right) (room : left.length + right.length < 8) :
      Ipv6Text (colonJoin ls ++ text "::" ++ colonJoin rs) (elide left right)

/-! ### Octets and quads -/

theorem parseOctet_digits {p : Text} {n : Nat} (h : parseOctet p = some n) :
    ∀ u ∈ p, isDigit u = true := by
  simp only [parseOctet, Option.ite_none_right_eq_some] at h
  exact List.all_eq_true.mp h.1.2.2.1

theorem parseOctet_ne_nil {p : Text} {n : Nat} (h : parseOctet p = some n) : p ≠ [] := by
  simp only [parseOctet, Option.ite_none_right_eq_some] at h
  have hlen := h.1.1
  rintro rfl
  exact absurd hlen (by decide)

theorem parseOctet_le {p : Text} {n : Nat} (h : parseOctet p = some n) : n ≤ 255 := by
  simp only [parseOctet, Option.ite_none_right_eq_some, Option.some.injEq] at h
  obtain ⟨⟨_, _, _, _, hle⟩, hn⟩ := h
  omega

theorem isDigit_ne_dot {u : CodeUnit} (h : isDigit u = true) : u ≠ unit '.' := by
  rintro rfl
  exact absurd h (by decide)

theorem parseOctet_no_dot {p : Text} {n : Nat} (h : parseOctet p = some n) : unit '.' ∉ p :=
  fun hmem => isDigit_ne_dot (parseOctet_digits h _ hmem) rfl

theorem join_quad_split {a b c d : Text} (ha : unit '.' ∉ a) (hb : unit '.' ∉ b)
    (hc : unit '.' ∉ c) (hd : unit '.' ∉ d) :
    (Text.join [unit '.'] [a, b, c, d]).split (unit '.') = [a, b, c, d] := by
  refine List.splitOn_intercalate _ ?_ (by simp)
  intro l hl
  simp only [List.mem_cons, List.not_mem_nil, or_false] at hl
  rcases hl with rfl | rfl | rfl | rfl
  · exact ha
  · exact hb
  · exact hc
  · exact hd

/-- The strict quad reader accepts the quad texts and no others. -/
theorem parseStrictDottedQuad_iff {s : Text} {n : Nat} :
    parseStrictDottedQuad s = some n ↔ Ipv4Text s n := by
  constructor
  · intro h
    have hjoin := join_split (unit '.') s
    simp only [parseStrictDottedQuad] at h
    generalize hp : s.split (unit '.') = parts at h hjoin
    by_cases hlen : parts.length = 4
    · obtain ⟨a, b, c, d, rfl⟩ : ∃ a b c d, parts = [a, b, c, d] := by
        match parts, hlen with
        | [a, b, c, d], _ => exact ⟨a, b, c, d, rfl⟩
      simp only [List.length_cons, List.length_nil, ne_eq, not_true_eq_false, if_false,
        List.mapM_cons, List.mapM_nil, Option.map_eq_some_iff, Option.bind_eq_bind,
        Option.bind_eq_some_iff, Option.pure_def, Option.some.injEq] at h
      obtain ⟨octets, ⟨w, hw, _, ⟨x, hx, _, ⟨y, hy, _, ⟨z, hz, _, rfl, rfl⟩, rfl⟩, rfl⟩, rfl⟩, hn⟩ := h
      have hvalue : n = ((w * 256 + x) * 256 + y) * 256 + z := by simpa using hn.symm
      rw [hvalue, ← hjoin]
      exact .quad hw hx hy hz
    · rw [if_pos hlen] at h
      cases h
  · rintro ⟨hw, hx, hy, hz⟩
    have hsplit := join_quad_split (parseOctet_no_dot hw) (parseOctet_no_dot hx)
      (parseOctet_no_dot hy) (parseOctet_no_dot hz)
    simp [parseStrictDottedQuad, hsplit, hw, hx, hy, hz]

theorem Ipv4Text.lt {s : Text} {n : Nat} (h : Ipv4Text s n) : n < 2 ^ 32 := by
  obtain ⟨hw, hx, hy, hz⟩ := h
  have := parseOctet_le hw
  have := parseOctet_le hx
  have := parseOctet_le hy
  have := parseOctet_le hz
  omega

theorem Ipv4Text.units {s : Text} {n : Nat} (h : Ipv4Text s n) :
    ∀ u ∈ s, isDigit u = true ∨ u = unit '.' := by
  obtain ⟨hw, hx, hy, hz⟩ := h
  intro u hu
  simp only [Text.join, List.intercalate_cons_cons, List.intercalate_singleton, List.mem_append,
    List.mem_singleton, or_assoc] at hu
  have hdigit {p : Text} {m : Nat} (hp : parseOctet p = some m) (hmem : u ∈ p) :
      isDigit u = true ∨ u = unit '.' := Or.inl (parseOctet_digits hp u hmem)
  rcases hu with hu | hu | hu | hu | hu | hu | hu
  · exact hdigit hw hu
  · exact Or.inr hu
  · exact hdigit hx hu
  · exact Or.inr hu
  · exact hdigit hy hu
  · exact Or.inr hu
  · exact hdigit hz hu

theorem Ipv4Text.dot_mem {s : Text} {n : Nat} (h : Ipv4Text s n) : unit '.' ∈ s := by
  obtain ⟨hw, hx, hy, hz⟩ := h
  simp [Text.join, List.intercalate_cons_cons]

/-! ### Hextets -/

theorem isDigit_isHexDigit {u : CodeUnit} (h : isDigit u = true) : isHexDigit u = true := by
  simp [isHexDigit, digitValue_of_isDigit h]

theorem parseHextet_units {p : Text} {g : Nat} (h : parseHextet p = some g) :
    ∀ u ∈ p, isHexDigit u = true := by
  simp only [parseHextet, Option.ite_none_right_eq_some] at h
  exact List.all_eq_true.mp h.1.2.2

theorem parseHextet_ne_nil {p : Text} {g : Nat} (h : parseHextet p = some g) : p ≠ [] := by
  simp only [parseHextet, Option.ite_none_right_eq_some] at h
  have hlen := h.1.1
  rintro rfl
  exact absurd hlen (by decide)

theorem parseHextet_no_dot {p : Text} {g : Nat} (h : parseHextet p = some g) : unit '.' ∉ p :=
  fun hmem => absurd (parseHextet_units h _ hmem) (by decide)

theorem parseHextet_eq {p : Text} {g : Nat} (h : parseHextet p = some g) :
    g = numeralValue 16 p := by
  simp only [parseHextet, Option.ite_none_right_eq_some, Option.some.injEq] at h
  exact h.2.symm

theorem hexValue_lt {p : Text} : ∀ d ∈ p.map (fun u => (digitValue u).getD 0), d < 16 := by
  intro d hd
  obtain ⟨u, _, rfl⟩ := List.mem_map.mp hd
  cases hu : digitValue u with
  | none => decide
  | some v => exact digitValue_lt hu

theorem parseHextet_lt {p : Text} {g : Nat} (h : parseHextet p = some g) : g < 2 ^ 16 := by
  rw [parseHextet_eq h]
  simp only [parseHextet, Option.ite_none_right_eq_some] at h
  have hlt := Numeral.value_lt (hexValue_lt (p := p))
  rw [List.length_map] at hlt
  have hpow : 16 ^ p.length ≤ 16 ^ 4 := Nat.pow_le_pow_right (by decide) h.1.2.1
  exact Nat.lt_of_lt_of_le hlt hpow

/-- The code units of a piece: hexadecimal digits and, in a quad, dots. -/
def IsPieceUnit (u : CodeUnit) : Prop := isHexDigit u = true ∨ u = unit '.'

theorem IsPieceUnit.ne_colon {u : CodeUnit} (h : IsPieceUnit u) : u ≠ unit ':' := by
  rintro rfl
  rcases h with h | h
  · exact absurd h (by decide)
  · exact absurd h (by decide)

theorem IsPieceUnit.ne_percent {u : CodeUnit} (h : IsPieceUnit u) : u ≠ unit '%' := by
  rintro rfl
  rcases h with h | h
  · exact absurd h (by decide)
  · exact absurd h (by decide)

/-- A non-empty piece of an address text. -/
structure IsPiece (p : Text) : Prop where
  ne_nil : p ≠ []
  units : ∀ u ∈ p, IsPieceUnit u

theorem IsPiece.no_colon {p : Text} (h : IsPiece p) : unit ':' ∉ p :=
  fun hmem => (h.units _ hmem).ne_colon rfl

theorem parseHextet_isPiece {p : Text} {g : Nat} (h : parseHextet p = some g) : IsPiece p :=
  ⟨parseHextet_ne_nil h, fun u hu => Or.inl (parseHextet_units h u hu)⟩

theorem Ipv4Text.isPiece {s : Text} {n : Nat} (h : Ipv4Text s n) : IsPiece s := by
  refine ⟨List.ne_nil_of_mem h.dot_mem, ?_⟩
  intro u hu
  rcases h.units u hu with hd | hd
  · exact Or.inl (isDigit_isHexDigit hd)
  · exact Or.inr hd

theorem HextetRun.isPiece {ps : List Text} {gs : List Nat} (run : HextetRun ps gs) :
    ∀ p ∈ ps, IsPiece p := by
  induction run with
  | nil => simp
  | hextet head _ ih =>
      intro q hq
      rcases List.mem_cons.mp hq with rfl | hq
      · exact parseHextet_isPiece head
      · exact ih q hq
  | quad quad =>
      intro q hq
      rw [List.mem_singleton.mp hq]
      exact quad.isPiece

theorem HextetRun.lt {ps : List Text} {gs : List Nat} (run : HextetRun ps gs) :
    ∀ g ∈ gs, g < 2 ^ 16 := by
  induction run with
  | nil => simp
  | hextet head _ ih =>
      intro g hg
      rcases List.mem_cons.mp hg with rfl | hg
      · exact parseHextet_lt head
      · exact ih g hg
  | quad quad =>
      have hn := quad.lt
      intro g hg
      simp only [List.mem_cons, List.not_mem_nil, or_false] at hg
      omega

theorem hextetRun_of_mapM {ls : List Text} {left : List Nat}
    (h : ls.mapM parseHextet = some left) : HextetRun ls left := by
  induction ls generalizing left with
  | nil =>
      simp only [List.mapM_nil, Option.pure_def, Option.some.injEq] at h
      exact h ▸ .nil
  | cons p ps ih =>
      simp only [List.mapM_cons, Option.bind_eq_bind, Option.bind_eq_some_iff, Option.pure_def,
        Option.some.injEq] at h
      obtain ⟨g, hg, gs, hgs, rfl⟩ := h
      exact .hextet hg (ih hgs)

/-- A run without a dot has no quad. -/
theorem HextetRun.mapM_eq {ps : List Text} {gs : List Nat} (run : HextetRun ps gs)
    (dotless : ∀ p ∈ ps, unit '.' ∉ p) : ps.mapM parseHextet = some gs := by
  induction run with
  | nil => rfl
  | hextet head _ ih =>
      have htail := ih (fun p hp => dotless p (List.mem_cons_of_mem _ hp))
      simp [head, htail]
  | quad quad => exact absurd quad.dot_mem (dotless _ (List.mem_singleton.mpr rfl))

theorem includes_iff {s : Text} {u : CodeUnit} : s.includes u = true ↔ u ∈ s := by
  simp [Text.includes]

theorem parseHextetParts_iff {ps : List Text} {gs : List Nat} :
    parseHextetParts ps = some gs ↔ HextetRun ps gs := by
  constructor
  · intro h
    induction ps generalizing gs with
    | nil =>
        simp only [parseHextetParts, Option.some.injEq] at h
        exact h ▸ .nil
    | cons p rest ih =>
        simp only [parseHextetParts] at h
        by_cases hdot : p.includes (unit '.') = true
        · rw [if_pos hdot] at h
          by_cases hrest : rest = []
          · simp only [hrest, ne_eq, not_true_eq_false, if_false, Option.map_eq_some_iff] at h
            obtain ⟨n, hn, rfl⟩ := h
            rw [hrest]
            exact .quad (parseStrictDottedQuad_iff.mp hn)
          · rw [if_pos hrest] at h
            cases h
        · simp only [if_neg hdot, Option.bind_eq_bind, Option.bind_eq_some_iff,
            Option.some.injEq] at h
          obtain ⟨g, hg, gs', hgs, rfl⟩ := h
          exact .hextet hg (ih hgs)
  · intro run
    induction run with
    | nil => rfl
    | @hextet p _ _ _ head _ ih =>
        have hdot : ¬ p.includes (unit '.') = true :=
          fun h => parseHextet_no_dot head (includes_iff.mp h)
        simp only [parseHextetParts, if_neg hdot, head, ih, Option.bind_eq_bind, Option.bind_some]
    | @quad p n quad =>
        have hdot : p.includes (unit '.') = true := includes_iff.mpr quad.dot_mem
        simp [parseHextetParts, hdot, parseStrictDottedQuad_iff.mpr quad]

/-! ### Runs between colons -/

theorem colonJoin_cons {p : Text} {ps : List Text} (h : ps ≠ []) :
    colonJoin (p :: ps) = p ++ unit ':' :: colonJoin ps := by
  cases ps with
  | nil => exact absurd rfl h
  | cons q qs => simp [colonJoin, Text.join, List.intercalate_cons_cons]

@[simp] theorem colonJoin_nil : colonJoin [] = [] := rfl

@[simp] theorem colonJoin_singleton (p : Text) : colonJoin [p] = p := by
  simp [colonJoin, Text.join]

theorem colonJoin_ne_nil {ps : List Text} (pieces : ∀ p ∈ ps, IsPiece p) (h : ps ≠ []) :
    colonJoin ps ≠ [] := by
  obtain ⟨p, qs, rfl⟩ := List.exists_cons_of_ne_nil h
  have hp := (pieces p (List.mem_cons_self ..)).ne_nil
  cases qs with
  | nil => simpa using hp
  | cons q qs => simp [colonJoin_cons]

theorem colonJoin_units {ps : List Text} (pieces : ∀ p ∈ ps, IsPiece p) :
    ∀ u ∈ colonJoin ps, IsPieceUnit u ∨ u = unit ':' := by
  induction ps with
  | nil => simp
  | cons p ps ih =>
      have hp := pieces p (List.mem_cons_self ..)
      have hps : ∀ q ∈ ps, IsPiece q := fun q hq => pieces q (List.mem_cons_of_mem _ hq)
      by_cases h : ps = []
      · subst h
        intro u hu
        rw [colonJoin_singleton] at hu
        exact Or.inl (hp.units u hu)
      · rw [colonJoin_cons h]
        intro u hu
        rcases List.mem_append.mp hu with hu | hu
        · exact Or.inl (hp.units u hu)
        · rcases List.mem_cons.mp hu with hu | hu
          · exact Or.inr hu
          · exact ih hps u hu

theorem parseHextets_iff {s : Text} {gs : List Nat} :
    parseHextets s = some gs ↔ ∃ ps, HextetRun ps gs ∧ s = colonJoin ps := by
  constructor
  · intro h
    by_cases hs : s = []
    · simp only [parseHextets, hs, if_true, Option.some.injEq] at h
      exact ⟨[], h ▸ .nil, by simpa using hs⟩
    · simp only [parseHextets, if_neg hs] at h
      exact ⟨_, parseHextetParts_iff.mp h, (List.intercalate_splitOn _).symm⟩
  · rintro ⟨ps, run, rfl⟩
    by_cases hps : ps = []
    · subst hps
      cases run
      rfl
    · have hsplit : (colonJoin ps).split (unit ':') = ps :=
        List.splitOn_intercalate _ (fun p hp => (run.isPiece p hp).no_colon) hps
      rw [parseHextets, if_neg (colonJoin_ne_nil run.isPiece hps), hsplit]
      exact parseHextetParts_iff.mpr run

/-! ### The elision -/

theorem cutDoubleColon_append {p s : Text} (h : unit ':' ∉ p) :
    cutDoubleColon (p ++ s) = (cutDoubleColon s).map fun cut => (p ++ cut.1, cut.2) := by
  induction p with
  | nil => simp
  | cons c p ih =>
      have hc : c ≠ unit ':' := fun heq => h (heq ▸ List.mem_cons_self ..)
      have hp := ih (fun hmem => h (List.mem_cons_of_mem _ hmem))
      cases hs : p ++ s with
      | nil =>
          obtain ⟨rfl, rfl⟩ := List.append_eq_nil_iff.mp hs
          rfl
      | cons d rest =>
          rw [List.cons_append, hs, cutDoubleColon, if_neg (fun both => hc both.1), ← hs, hp]
          simp [Option.map_map, Function.comp_def]

theorem cutDoubleColon_colon {s : Text} (h : s.head? ≠ some (unit ':')) :
    cutDoubleColon (unit ':' :: s)
      = (cutDoubleColon s).map fun cut => (unit ':' :: cut.1, cut.2) := by
  cases s with
  | nil => rfl
  | cons d rest =>
      have hd : d ≠ unit ':' := fun heq => h (by simp [heq])
      rw [cutDoubleColon, if_neg (fun both => hd both.2)]

theorem IsPiece.head {p : Text} (h : IsPiece p) (s : Text) :
    (p ++ s).head? ≠ some (unit ':') := by
  obtain ⟨u, rest, rfl⟩ := List.exists_cons_of_ne_nil h.ne_nil
  have hu := (h.units u (List.mem_cons_self ..)).ne_colon
  simpa using hu

/-- A run of pieces has no double colon, and neither has what precedes an elision. -/
theorem cutDoubleColon_colonJoin_append {ps : List Text} (pieces : ∀ p ∈ ps, IsPiece p)
    (s : Text) : cutDoubleColon (colonJoin ps ++ s)
      = (cutDoubleColon s).map fun cut => (colonJoin ps ++ cut.1, cut.2) := by
  induction ps with
  | nil => simp
  | cons p ps ih =>
      have hp := pieces p (List.mem_cons_self ..)
      have hps : ∀ q ∈ ps, IsPiece q := fun q hq => pieces q (List.mem_cons_of_mem _ hq)
      by_cases h : ps = []
      · subst h
        rw [colonJoin_singleton]
        exact cutDoubleColon_append hp.no_colon
      · have hhead : (colonJoin ps ++ s).head? ≠ some (unit ':') := by
          obtain ⟨q, qs, rfl⟩ := List.exists_cons_of_ne_nil h
          have hq := hps q (List.mem_cons_self ..)
          by_cases hqs : qs = []
          · rw [hqs, colonJoin_singleton]
            exact hq.head s
          · rw [colonJoin_cons hqs, List.append_assoc]
            exact hq.head _
        rw [colonJoin_cons h, List.append_assoc, cutDoubleColon_append hp.no_colon,
          List.cons_append, cutDoubleColon_colon hhead, ih hps]
        simp [Option.map_map, Function.comp_def]

theorem cutDoubleColon_colonJoin {ps : List Text} (pieces : ∀ p ∈ ps, IsPiece p) :
    cutDoubleColon (colonJoin ps) = none := by
  have h := cutDoubleColon_colonJoin_append pieces []
  simpa [cutDoubleColon] using h

theorem cutDoubleColon_elision {ls : List Text} (pieces : ∀ p ∈ ls, IsPiece p) (s : Text) :
    cutDoubleColon (colonJoin ls ++ text "::" ++ s) = some (colonJoin ls, s) := by
  have hcut : cutDoubleColon (text "::" ++ s) = some ([], s) := rfl
  rw [List.append_assoc, cutDoubleColon_colonJoin_append pieces, hcut]
  simp

theorem eq_of_cutDoubleColon {s l r : Text} (h : cutDoubleColon s = some (l, r)) :
    s = l ++ text "::" ++ r := by
  induction s generalizing l with
  | nil => cases h
  | cons c s ih =>
      cases s with
      | nil => cases h
      | cons d rest =>
          by_cases hcolon : c = unit ':' ∧ d = unit ':'
          · rw [cutDoubleColon, if_pos hcolon] at h
            obtain ⟨rfl, rfl⟩ := hcolon
            cases h
            rfl
          · rw [cutDoubleColon, if_neg hcolon] at h
            obtain ⟨⟨l', r'⟩, hcut, heq⟩ := Option.map_eq_some_iff.mp h
            cases heq
            rw [ih hcut]
            rfl

/-- The regular-expression count and the search for the first double colon agree. -/
theorem doubleColons_eq (s : Text) : doubleColons s =
    match cutDoubleColon s with
    | none => 0
    | some cut => 1 + doubleColons cut.2 := by
  induction s with
  | nil => rfl
  | cons c s ih =>
      cases s with
      | nil => rfl
      | cons d rest =>
          by_cases hcolon : c = unit ':' ∧ d = unit ':'
          · rw [doubleColons, cutDoubleColon, if_pos hcolon, if_pos hcolon]
          · rw [doubleColons, cutDoubleColon, if_neg hcolon, if_neg hcolon, ih]
            cases cutDoubleColon (d :: rest) <;> rfl

/-! ### The hand-written parser reads the grammar -/

theorem dotless_left {ls : List Text} (h : (colonJoin ls).includes (unit '.') = false) :
    ∀ p ∈ ls, unit '.' ∉ p := by
  induction ls with
  | nil => simp
  | cons p ps ih =>
      have hnot : unit '.' ∉ colonJoin (p :: ps) := by
        intro hmem
        rw [includes_iff.mpr hmem] at h
        cases h
      by_cases hps : ps = []
      · subst hps
        simpa using hnot
      · rw [colonJoin_cons hps] at hnot
        have htail : (colonJoin ps).includes (unit '.') = false := by
          rw [Bool.eq_false_iff]
          intro hinc
          exact hnot (List.mem_append_right _ (List.mem_cons_of_mem _ (includes_iff.mp hinc)))
        intro q hq
        rcases List.mem_cons.mp hq with rfl | hq
        · exact fun hmem => hnot (List.mem_append_left _ hmem)
        · exact ih htail q hq

theorem elide_length {left right : List Nat} (room : left.length + right.length < 8) :
    (elide left right).length = 8 := by
  simp only [elide, List.length_append, List.length_replicate]
  omega

/-- What the parser asks of a text before it looks for hextets. -/
def LooksLikeIpv6 (s : Text) : Prop :=
  s ≠ [] ∧ unit ':' ∈ s ∧ unit '%' ∉ s ∧ doubleColons s ≤ 1

theorem ipv6Groups_unlike {s : Text} (h : ¬ LooksLikeIpv6 s) : ipv6Groups s = none := by
  simp only [ipv6Groups]
  split
  · rfl
  rename_i hunits
  rw [if_pos]
  simp only [includes_iff, not_or, not_not] at hunits
  by_contra hcount
  exact h ⟨hunits.1, hunits.2.1, hunits.2.2, not_lt.mp hcount⟩

theorem ipv6Groups_full {s : Text} (like : LooksLikeIpv6 s) (hcut : cutDoubleColon s = none)
    {gs : List Nat} :
    ipv6Groups s = some gs ↔ parseHextets s = some gs ∧ gs.length = 8 := by
  obtain ⟨hne, hcolon, hpercent, hcount⟩ := like
  have hunits : ¬ (s = [] ∨ ¬ s.includes (unit ':') = true ∨ s.includes (unit '%') = true) := by
    simp [hne, includes_iff, hcolon, hpercent]
  rw [ipv6Groups, if_neg hunits, if_neg (not_lt.mpr hcount)]
  simp only [hcut, Option.bind_eq_bind, Option.bind_eq_some_iff]
  constructor
  · rintro ⟨groups, hgroups, hlen⟩
    split at hlen
    · cases hlen
    · rename_i height
      cases hlen
      exact ⟨hgroups, not_not.mp height⟩
  · rintro ⟨hgroups, hlen⟩
    exact ⟨gs, hgroups, by simp [hlen]⟩

theorem ipv6Groups_elided {s l r : Text} (like : LooksLikeIpv6 s)
    (hcut : cutDoubleColon s = some (l, r)) {gs : List Nat} :
    ipv6Groups s = some gs ↔ l.includes (unit '.') = false ∧ ∃ left right,
      parseHextets l = some left ∧ parseHextets r = some right ∧
      left.length + right.length < 8 ∧ gs = elide left right := by
  obtain ⟨hne, hcolon, hpercent, hcount⟩ := like
  have hunits : ¬ (s = [] ∨ ¬ s.includes (unit ':') = true ∨ s.includes (unit '%') = true) := by
    simp [hne, includes_iff, hcolon, hpercent]
  rw [ipv6Groups, if_neg hunits, if_neg (not_lt.mpr hcount)]
  simp only [hcut, Option.bind_eq_bind]
  by_cases hdot : l.includes (unit '.') = true
  · simp [hdot]
  · rw [if_neg hdot]
    simp only [Option.bind_eq_some_iff]
    constructor
    · rintro ⟨left, hleft, right, hright, hsum⟩
      refine ⟨Bool.eq_false_iff.mpr hdot, left, right, hleft, hright, ?_⟩
      split at hsum
      · cases hsum
      · rename_i hroom
        rw [Option.bind_some] at hsum
        split at hsum
        · cases hsum
        · exact ⟨by omega, (Option.some.inj hsum).symm⟩
    · rintro ⟨_, left, right, hleft, hright, hroom, rfl⟩
      refine ⟨left, hleft, right, hright, ?_⟩
      rw [if_neg (by omega), Option.bind_some]
      exact if_neg (not_not.mpr (elide_length hroom))

theorem Ipv6Text.of_groups {s : Text} {gs : List Nat} (h : ipv6Groups s = some gs) :
    Ipv6Text s gs := by
  by_cases like : LooksLikeIpv6 s
  · cases hcut : cutDoubleColon s with
    | none =>
        obtain ⟨hgroups, eight⟩ := (ipv6Groups_full like hcut).mp h
        obtain ⟨ps, run, rfl⟩ := parseHextets_iff.mp hgroups
        exact .full run eight
    | some cut =>
        obtain ⟨l, r⟩ := cut
        obtain ⟨hdot, left, right, hleft, hright, room, rfl⟩ :=
          (ipv6Groups_elided like hcut).mp h
        obtain ⟨ls, leftRun, rfl⟩ := parseHextets_iff.mp hleft
        obtain ⟨rs, rightRun, rfl⟩ := parseHextets_iff.mp hright
        rw [eq_of_cutDoubleColon hcut]
        exact .elided (leftRun.mapM_eq (dotless_left hdot)) rightRun room
  · rw [ipv6Groups_unlike like] at h
    cases h

theorem eq_of_mem_colons {u : CodeUnit} (h : u ∈ text "::") : u = unit ':' := by
  have hcolons : text "::" = [unit ':', unit ':'] := by decide
  simpa [hcolons] using h

theorem Ipv6Text.units {s : Text} {gs : List Nat} (h : Ipv6Text s gs) :
    ∀ u ∈ s, IsPieceUnit u ∨ u = unit ':' := by
  cases h with
  | full run _ => exact colonJoin_units run.isPiece
  | elided leftRun rightRun _ =>
      intro u hu
      rcases List.mem_append.mp hu with hu | hu
      · rcases List.mem_append.mp hu with hu | hu
        · exact colonJoin_units (hextetRun_of_mapM leftRun).isPiece u hu
        · exact Or.inr (eq_of_mem_colons hu)
      · exact colonJoin_units rightRun.isPiece u hu

theorem Ipv6Text.no_percent {s : Text} {gs : List Nat} (h : Ipv6Text s gs) : unit '%' ∉ s := by
  intro hmem
  rcases h.units _ hmem with hu | hu
  · exact hu.ne_percent rfl
  · exact absurd hu (by decide)

/-- A run of eight hextets has at least two pieces, so it has a colon. -/
theorem HextetRun.colon_mem {ps : List Text} {gs : List Nat} (run : HextetRun ps gs)
    (h : 2 < gs.length) : unit ':' ∈ colonJoin ps := by
  cases run with
  | nil => cases h
  | quad => exact absurd h (by simp)
  | @hextet p ps' _ _ _ tail =>
      by_cases hps : ps' = []
      · subst hps
        cases tail
        exact absurd h (by simp)
      · rw [colonJoin_cons hps]
        exact List.mem_append_right _ (List.mem_cons_self ..)

theorem Ipv6Text.colon_mem {s : Text} {gs : List Nat} (h : Ipv6Text s gs) : unit ':' ∈ s := by
  cases h with
  | full run eight => exact run.colon_mem (by omega)
  | elided =>
      have hcolon : unit ':' ∈ text "::" := by decide
      exact List.mem_append_left _ (List.mem_append_right _ hcolon)

theorem Ipv6Text.like {s : Text} {gs : List Nat} (h : Ipv6Text s gs) : LooksLikeIpv6 s := by
  refine ⟨List.ne_nil_of_mem h.colon_mem, h.colon_mem, h.no_percent, ?_⟩
  rw [doubleColons_eq]
  cases h with
  | full run _ => simp [cutDoubleColon_colonJoin run.isPiece]
  | elided leftRun rightRun _ =>
      rw [cutDoubleColon_elision (hextetRun_of_mapM leftRun).isPiece]
      simp [doubleColons_eq, cutDoubleColon_colonJoin rightRun.isPiece]

theorem colonJoin_dotless {ls : List Text} {left : List Nat}
    (h : ls.mapM parseHextet = some left) : (colonJoin ls).includes (unit '.') = false := by
  induction ls generalizing left with
  | nil => rfl
  | cons p ps ih =>
      simp only [List.mapM_cons, Option.bind_eq_bind, Option.bind_eq_some_iff, Option.pure_def,
        Option.some.injEq] at h
      obtain ⟨g, hg, gs, hgs, rfl⟩ := h
      have hp : unit '.' ∉ p := parseHextet_no_dot hg
      have hps := ih hgs
      rw [Bool.eq_false_iff, ne_eq, includes_iff] at hps ⊢
      by_cases hnil : ps = []
      · subst hnil
        simpa using hp
      · rw [colonJoin_cons hnil]
        intro hmem
        rcases List.mem_append.mp hmem with hmem | hmem
        · exact hp hmem
        · rcases List.mem_cons.mp hmem with hmem | hmem
          · exact absurd hmem (by decide)
          · exact hps hmem

/-- The parser accepts the IPv6 literals of the grammar, with the hextets they denote. -/
theorem ipv6Groups_iff {s : Text} {gs : List Nat} : ipv6Groups s = some gs ↔ Ipv6Text s gs := by
  constructor
  · exact Ipv6Text.of_groups
  · intro h
    have like := h.like
    cases h with
    | full run eight =>
        rw [ipv6Groups_full like (cutDoubleColon_colonJoin run.isPiece)]
        exact ⟨parseHextets_iff.mpr ⟨_, run, rfl⟩, eight⟩
    | elided leftRun rightRun room =>
        have left := hextetRun_of_mapM leftRun
        rw [ipv6Groups_elided like (cutDoubleColon_elision left.isPiece _)]
        exact ⟨colonJoin_dotless leftRun, _, _, parseHextets_iff.mpr ⟨_, left, rfl⟩,
          parseHextets_iff.mpr ⟨_, rightRun, rfl⟩, room, rfl⟩

theorem Ipv6Text.length {s : Text} {gs : List Nat} (h : Ipv6Text s gs) : gs.length = 8 := by
  cases h with
  | full _ eight => exact eight
  | elided _ _ room => exact elide_length room

theorem Ipv6Text.lt {s : Text} {gs : List Nat} (h : Ipv6Text s gs) : ∀ g ∈ gs, g < 2 ^ 16 := by
  cases h with
  | full run _ => exact run.lt
  | elided leftRun rightRun _ =>
      intro g hg
      simp only [elide, List.mem_append, List.mem_replicate] at hg
      rcases hg with (hg | hg) | hg
      · exact (hextetRun_of_mapM leftRun).lt g hg
      · omega
      · exact rightRun.lt g hg

end Linklint
