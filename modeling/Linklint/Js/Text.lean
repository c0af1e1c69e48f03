import Linklint.Lib.Numeral
import Mathlib.Data.List.Basic
import Mathlib.Data.List.TakeWhile

/-!
# JavaScript strings

A string is a list of UTF-16 code units, so lengths, slices and the default sort
are those of the language and a lone surrogate is a string like any other.
-/

namespace Linklint

abbrev CodeUnit := UInt16
abbrev Text := List CodeUnit

instance : LawfulBEq Text := inferInstance

/-- The code unit of a character of the basic plane. -/
def unit (c : Char) : CodeUnit := UInt16.ofNat c.toNat

def encodeCodePoint (cp : Nat) : Text :=
  if cp < 0x10000 then [UInt16.ofNat cp]
  else [UInt16.ofNat (0xD800 + (cp - 0x10000) / 0x400),
    UInt16.ofNat (0xDC00 + (cp - 0x10000) % 0x400)]

/-- A string literal of the source. -/
def text (literal : String) : Text :=
  literal.toList.flatMap fun c => encodeCodePoint c.toNat

def isHighSurrogate (u : CodeUnit) : Bool := 0xD800 ≤ u.toNat && u.toNat ≤ 0xDBFF
def isLowSurrogate (u : CodeUnit) : Bool := 0xDC00 ≤ u.toNat && u.toNat ≤ 0xDFFF

/-- `for (const ch of s)`: surrogate pairs are joined, a lone surrogate stands for itself. -/
def codePoints : Text → List Nat
  | [] => []
  | [u] => [u.toNat]
  | u :: v :: rest =>
      if isHighSurrogate u && isLowSurrogate v then
        (0x10000 + (u.toNat - 0xD800) * 0x400 + (v.toNat - 0xDC00)) :: codePoints rest
      else u.toNat :: codePoints (v :: rest)

/-- `\s`, and the code units `trim` removes. -/
def isSpace (u : CodeUnit) : Bool :=
  (9 ≤ u.toNat && u.toNat ≤ 13) || u.toNat == 0x20 || u.toNat == 0xA0 || u.toNat == 0x1680
    || (0x2000 ≤ u.toNat && u.toNat ≤ 0x200A) || u.toNat == 0x2028 || u.toNat == 0x2029
    || u.toNat == 0x202F || u.toNat == 0x205F || u.toNat == 0x3000 || u.toNat == 0xFEFF

def isDigit (u : CodeUnit) : Bool := 48 ≤ u.toNat && u.toNat ≤ 57
def isUpper (u : CodeUnit) : Bool := 65 ≤ u.toNat && u.toNat ≤ 90
def isLower (u : CodeUnit) : Bool := 97 ≤ u.toNat && u.toNat ≤ 122
def isAsciiLetter (u : CodeUnit) : Bool := isUpper u || isLower u

def asciiLower (u : CodeUnit) : CodeUnit := if isUpper u then u + 32 else u

/-- The value of a digit of any base up to sixteen. -/
def digitValue (u : CodeUnit) : Option Nat :=
  if isDigit u then some (u.toNat - 48)
  else if 97 ≤ u.toNat && u.toNat ≤ 102 then some (u.toNat - 87)
  else if 65 ≤ u.toNat && u.toNat ≤ 70 then some (u.toNat - 55)
  else none

def digitUnit (d : Nat) : CodeUnit := UInt16.ofNat (if d < 10 then 48 + d else 87 + d)

def isHexDigit (u : CodeUnit) : Bool := (digitValue u).isSome

/-- `n.toString(base)` for a base up to sixteen. -/
def numeralText (base n : Nat) : Text := (Numeral.digits base n).map digitUnit

abbrev decimalText (n : Nat) : Text := numeralText 10 n

/-- The exact number a run of digits denotes. -/
def numeralValue (base : Nat) (s : Text) : Nat :=
  Numeral.value base (s.map fun u => (digitValue u).getD 0)

namespace Text

def trim (s : Text) : Text :=
  ((s.dropWhile isSpace).reverse.dropWhile isSpace).reverse

def includes (s : Text) (u : CodeUnit) : Bool := s.contains u

/-- The part before the first `sep` and, when there is one, the part after it. -/
def cutFirst (sep : CodeUnit) (s : Text) : Text × Option Text :=
  let head := s.takeWhile (· != sep)
  (head, (s.drop head.length).tail?)

/-- The part before the last `sep`, when there is one, and the part after it. -/
def cutLast (sep : CodeUnit) (s : Text) : Option Text × Text :=
  let cut := cutFirst sep s.reverse
  (cut.2.map List.reverse, cut.1.reverse)

def startsWith (s p : Text) : Bool := p.isPrefixOf s

def endsWith (s p : Text) : Bool := p.isSuffixOf s

def join (sep : Text) (parts : List Text) : Text := List.intercalate sep parts

/-- `s.split(sep)` for a separator of one code unit. -/
def split (sep : CodeUnit) (s : Text) : List Text := s.splitOn sep

/-- `s.replace(/\.$/, "")`. -/
def dropTrailingDot (s : Text) : Text :=
  if s.getLast? = some (unit '.') then s.dropLast else s

/-- `s.replace(/^\./, "")`. -/
def dropLeadingDot (s : Text) : Text :=
  if s.head? = some (unit '.') then s.tail else s

end Text

theorem cutFirst_of_not_mem {sep : CodeUnit} {s : Text} (h : sep ∉ s) :
    Text.cutFirst sep s = (s, none) := by
  have htake : s.takeWhile (· != sep) = s := by
    rw [List.takeWhile_eq_self_iff]
    exact fun u hu => bne_iff_ne.mpr (ne_of_mem_of_not_mem hu h)
  simp [Text.cutFirst, htake]

theorem cutFirst_append {sep : CodeUnit} {s t : Text} (h : sep ∉ s) :
    Text.cutFirst sep (s ++ sep :: t) = (s, some t) := by
  have htake : (s ++ sep :: t).takeWhile (· != sep) = s := by
    rw [List.takeWhile_append_of_pos fun u hu => bne_iff_ne.mpr (ne_of_mem_of_not_mem hu h)]
    simp
  simp [Text.cutFirst, htake]

theorem eq_of_cutFirst {sep : CodeUnit} {s body rest : Text}
    (h : Text.cutFirst sep s = (body, some rest)) : s = body ++ sep :: rest := by
  by_cases hmem : sep ∈ s
  · obtain ⟨l, r, rfl, hl⟩ := List.eq_append_cons_of_mem hmem
    rw [cutFirst_append hl] at h
    cases h
    rfl
  · rw [cutFirst_of_not_mem hmem] at h
    cases h

theorem eq_of_cutFirst_none {sep : CodeUnit} {s body : Text}
    (h : Text.cutFirst sep s = (body, none)) : s = body := by
  by_cases hmem : sep ∈ s
  · obtain ⟨l, r, rfl, hl⟩ := List.eq_append_cons_of_mem hmem
    rw [cutFirst_append hl] at h
    cases h
  · rw [cutFirst_of_not_mem hmem] at h
    cases h
    rfl

theorem not_mem_cutFirst (sep : CodeUnit) (s : Text) : sep ∉ (Text.cutFirst sep s).1 := by
  intro h
  have hkept := List.mem_takeWhile_imp h
  simp at hkept

theorem cutLast_of_not_mem {sep : CodeUnit} {s : Text} (h : sep ∉ s) :
    Text.cutLast sep s = (none, s) := by
  simp [Text.cutLast, cutFirst_of_not_mem (show sep ∉ s.reverse by simpa using h)]

theorem cutLast_append {sep : CodeUnit} {s t : Text} (h : sep ∉ t) :
    Text.cutLast sep (s ++ sep :: t) = (some s, t) := by
  have hreverse : (s ++ sep :: t).reverse = t.reverse ++ sep :: s.reverse := by simp
  simp [Text.cutLast, hreverse, cutFirst_append (show sep ∉ t.reverse by simpa using h)]

theorem exists_last_split {sep : CodeUnit} {s : Text} (h : sep ∈ s) :
    ∃ head rest, s = head ++ sep :: rest ∧ sep ∉ rest := by
  obtain ⟨l, r, hsplit, hl⟩ := List.eq_append_cons_of_mem (List.mem_reverse.mpr h)
  refine ⟨r.reverse, l.reverse, ?_, by simpa using hl⟩
  rw [← List.reverse_reverse s, hsplit]
  simp

theorem eq_of_cutLast {sep : CodeUnit} {s head rest : Text}
    (h : Text.cutLast sep s = (some head, rest)) : s = head ++ sep :: rest := by
  by_cases hmem : sep ∈ s
  · obtain ⟨l, r, rfl, hr⟩ := exists_last_split hmem
    rw [cutLast_append hr] at h
    cases h
    rfl
  · rw [cutLast_of_not_mem hmem] at h
    cases h

theorem eq_of_cutLast_none {sep : CodeUnit} {s rest : Text}
    (h : Text.cutLast sep s = (none, rest)) : s = rest := by
  by_cases hmem : sep ∈ s
  · obtain ⟨l, r, rfl, hr⟩ := exists_last_split hmem
    rw [cutLast_append hr] at h
    cases h
  · rw [cutLast_of_not_mem hmem] at h
    cases h
    rfl

theorem not_mem_of_mem_split {sep : CodeUnit} {s label : Text} (h : label ∈ s.split sep) :
    sep ∉ label := by
  rw [Text.split] at h
  induction s generalizing label with
  | nil =>
      obtain rfl := List.mem_singleton.mp h
      exact List.not_mem_nil
  | cons u s ih =>
      rw [List.splitOn_cons_eq_if_modifyHead] at h
      split at h
      · rcases List.mem_cons.mp h with rfl | hrest
        · exact List.not_mem_nil
        · exact ih hrest
      · rename_i hne
        cases hlabels : s.splitOn sep with
        | nil => exact absurd hlabels (List.splitOn_ne_nil sep s)
        | cons first labels =>
            rw [hlabels] at h ih
            rcases List.mem_cons.mp h with rfl | hrest
            · have hfirst := ih (List.mem_cons_self ..)
              simp only [beq_iff_eq] at hne
              exact fun hmem => (List.mem_cons.mp hmem).elim (fun heq => hne heq.symm) hfirst
            · exact ih (List.mem_cons_of_mem _ hrest)

theorem join_split (sep : CodeUnit) (s : Text) : Text.join [sep] (s.split sep) = s :=
  List.intercalate_splitOn sep

theorem join_dot_cons (label : Text) {labels : List Text} (h : labels ≠ []) :
    Text.join [unit '.'] (label :: labels) = label ++ unit '.' :: Text.join [unit '.'] labels := by
  obtain ⟨next, labels, rfl⟩ := List.exists_cons_of_ne_nil h
  rw [Text.join, List.intercalate_cons_cons]
  simp [Text.join]

/-- The last labels of a name are the end of its text. -/
theorem join_dot_drop_suffix (k : Nat) (labels : List Text) :
    Text.join [unit '.'] (labels.drop k) <:+ Text.join [unit '.'] labels := by
  induction labels generalizing k with
  | nil => simp
  | cons label labels ih =>
      cases k with
      | zero => exact List.suffix_refl _
      | succ k =>
          rw [List.drop_succ_cons]
          by_cases hlabels : labels = []
          · subst hlabels
            simp [Text.join]
          · rw [join_dot_cons label hlabels]
            exact (ih k).trans ((List.suffix_cons _ _).trans (List.suffix_append _ _))

theorem dropTrailingDot_of_last {s : Text} (h : s.getLast? ≠ some (unit '.')) :
    s.dropTrailingDot = s := if_neg h

theorem dropTrailingDot_concat (s : Text) : (s ++ [unit '.']).dropTrailingDot = s := by
  rw [Text.dropTrailingDot, if_pos (by simp), List.dropLast_concat]

theorem isDigit_iff (u : CodeUnit) : isDigit u = true ↔ 48 ≤ u.toNat ∧ u.toNat ≤ 57 := by
  simp [isDigit]

@[simp] theorem digitValue_digitUnit {d : Nat} (hd : d < 16) : digitValue (digitUnit d) = some d := by
  have small : ∀ e < 16, digitValue (digitUnit e) = some e := by decide
  exact small d hd

theorem isDigit_digitUnit {d : Nat} (hd : d < 10) : isDigit (digitUnit d) = true := by
  have small : ∀ e < 10, isDigit (digitUnit e) = true := by decide
  exact small d hd

theorem digitValue_lt {u : CodeUnit} {d : Nat} (h : digitValue u = some d) : d < 16 := by
  unfold digitValue isDigit at h
  grind

theorem digitValue_of_isDigit {u : CodeUnit} (h : isDigit u = true) :
    digitValue u = some (u.toNat - 48) := by
  simp [digitValue, h]

theorem mem_numeralText {base n : Nat} (hb : 1 < base) {u : CodeUnit}
    (h : u ∈ numeralText base n) : ∃ d, d < base ∧ u = digitUnit d := by
  obtain ⟨d, hd, rfl⟩ := List.mem_map.mp h
  exact ⟨d, Numeral.digits_lt hb n d hd, rfl⟩

theorem numeralText_ne_nil {base : Nat} (hb : 1 < base) (n : Nat) : numeralText base n ≠ [] := by
  simpa [numeralText] using Numeral.digits_ne_nil hb n

/-- A number is read back from the text written for it. -/
@[simp] theorem numeralValue_numeralText {base : Nat} (hb : 1 < base) (h16 : base ≤ 16) (n : Nat) :
    numeralValue base (numeralText base n) = n := by
  have hmap : (numeralText base n).map (fun u => (digitValue u).getD 0) = Numeral.digits base n := by
    rw [numeralText, List.map_map]
    refine (List.map_congr_left ?_).trans (List.map_id _)
    intro d hd
    have hlt := Numeral.digits_lt hb n d hd
    simp [digitValue_digitUnit (show d < 16 by omega)]
  rw [numeralValue, hmap, Numeral.value_digits hb]

theorem decimalText_isDigit (n : Nat) : ∀ u ∈ decimalText n, isDigit u = true := by
  intro u hu
  obtain ⟨d, hd, rfl⟩ := mem_numeralText (by decide) hu
  exact isDigit_digitUnit hd

/-! ### Visible text -/

def VisibleAscii (u : CodeUnit) : Prop := 0x20 < u.toNat ∧ u.toNat < 0x7F

theorem VisibleAscii.not_space {u : CodeUnit} (h : VisibleAscii u) : isSpace u = false := by
  obtain ⟨hlow, hhigh⟩ := h
  simp only [isSpace, Bool.or_eq_false_iff, Bool.and_eq_false_iff, decide_eq_false_iff_not,
    beq_eq_false_iff_ne, ne_eq]
  omega

theorem trim_of_visible {s : Text} (h : ∀ u ∈ s, VisibleAscii u) : s.trim = s := by
  have hdrop {t : Text} (ht : ∀ u ∈ t, VisibleAscii u) : t.dropWhile isSpace = t := by
    cases t with
    | nil => rfl
    | cons u t => rw [List.dropWhile_cons_of_neg (by simp [(ht u (List.mem_cons_self ..)).not_space])]
  rw [Text.trim, hdrop h, hdrop fun u hu => h u (List.mem_reverse.mp hu), List.reverse_reverse]

end Linklint
