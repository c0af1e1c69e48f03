import Linklint.Detectors.LocaleCaseCollapse
import Linklint.Detectors.OpenRedirectParam
import Linklint.Parse.LetterCase
import Linklint.Transport.Address

/-!
# The authority of an address

An address has many spellings and should have one site. The suffix lookup is
asked first, though, and reads a dotted spelling that is no plain quad as a name
of which it keeps the last two labels.
-/

namespace Linklint

/-- The address the analyzers recognize in a text, by its canonical text. -/
def Recognizes (s : Text) : Address → Prop
  | .v4 n => n < 2 ^ 32 ∧ (analyzeIpv4 s).map Ipv4Analysis.canonical = some (toDotted n)
  | .v6 gs => IsHextets gs ∧
      (analyzeIpv6 s).map Ipv6Analysis.canonical = some (canonicalizeIpv6 gs)

/-- A host is a text as it is, with a root dot, in brackets, or both. -/
inductive HostForm (s : Text) : Text → Prop
  | plain : HostForm s s
  | rooted (h : s.getLast? ≠ some (unit '.')) : HostForm s (s ++ [unit '.'])
  | bracketed : HostForm s (unit '[' :: s ++ [unit ']'])
  | bracketedRooted : HostForm s (unit '[' :: s ++ [unit ']'] ++ [unit '.'])

def Address.canonicalText : Address → Text
  | .v4 n => toDotted n
  | .v6 gs => canonicalizeIpv6 gs

/-- The name the lookup cuts a spelling to: the last two labels of a dotted one that it does not
take for a quad. -/
def shortened (isQuad : Text → Bool) (s : Text) : Option Text :=
  let h := (stripTrailingRootDot s).map asciiLower
  if unit '.' ∈ h ∧ unit ':' ∉ h ∧ isQuad h = false then some (lastLabels 2 h) else none

section
variable (P : Platform)

def siteOf (host : Text) : Option Text := (authorityOf P host).map Authority.site

def FindsDomain (host : Text) (domain : Option Text) : Prop :=
  ∃ r, P.tldtsParse false host = .ok r ∧ r.domain = domain

/-- The suffix lookup of address texts. No suffix is listed that ends in a numeral, so a dotted
text has its last two labels as the domain, unless it is a plain decimal quad. -/
structure AddressLookup (isQuad : Text → Bool) : Prop where
  ipv6 : ∀ s gs, Ipv6Text s gs → FindsDomain P s none
  numeral : ∀ s n, InetAton s n → unit '.' ∉ s → FindsDomain P s none
  dotted : ∀ s n, InetAton s n → unit '.' ∈ s →
    FindsDomain P s (if isQuad s then none else some (lastLabels 2 s))
  root : DropsRootDot P

end

/-! ### The texts of addresses -/

theorem visible_of_hexDigit {u : CodeUnit} (h : isHexDigit u = true) : VisibleAscii u := by
  simp only [isHexDigit, digitValue, isDigit, Bool.and_eq_true, decide_eq_true_eq] at h
  rw [VisibleAscii]
  split at h
  · omega
  · split at h
    · omega
    · split at h
      · omega
      · cases h

/-- What an address text is made of, between brackets. -/
def AddressUnit (u : CodeUnit) : Prop := VisibleAscii u ∧ u ≠ unit '[' ∧ u ≠ unit ']'

theorem addressUnit_of_hexDigit {u : CodeUnit} (h : isHexDigit u = true) : AddressUnit u := by
  refine ⟨visible_of_hexDigit h, ?_, ?_⟩
  · rintro rfl
    exact absurd h (by decide)
  · rintro rfl
    exact absurd h (by decide)

theorem addressUnit_of_char {c : Char} (h : c ∈ ['.', ':', 'x', 'X', '0']) :
    AddressUnit (unit c) := by
  simp only [List.mem_cons, List.not_mem_nil, or_false] at h
  rcases h with rfl | rfl | rfl | rfl | rfl
  all_goals exact ⟨⟨by decide, by decide⟩, by decide, by decide⟩

theorem IsInetUnit.addressUnit {u : CodeUnit} (h : IsInetUnit u) : AddressUnit u := by
  rcases h with hhex | hmark
  · exact addressUnit_of_hexDigit hhex
  · rw [show text "xX." = [unit 'x', unit 'X', unit '.'] by decide] at hmark
    simp only [List.mem_cons, List.not_mem_nil, or_false] at hmark
    rcases hmark with rfl | rfl | rfl
    all_goals exact addressUnit_of_char (by decide)

theorem Ipv6Text.addressUnits {s : Text} {gs : List Nat} (h : Ipv6Text s gs) :
    ∀ u ∈ s, AddressUnit u := by
  intro u hu
  rcases h.units u hu with (hhex | rfl) | rfl
  · exact addressUnit_of_hexDigit hhex
  · exact addressUnit_of_char (by decide)
  · exact addressUnit_of_char (by decide)

theorem InetAton.ne_nil {s : Text} {n : Nat} (h : InetAton s n) : s ≠ [] := by
  rintro rfl
  cases h with
  | pack split _ _ final _ _ =>
      have hempty : Text.split (unit '.') [] = [] ++ [[]] := rfl
      rw [hempty] at split
      have hpart := (List.append_inj' split rfl).2
      exact final.ne_nil (List.singleton_inj.mp hpart).symm

/-- A recognized text without its root dot, in lower case, denotes the address. -/
inductive AddressSpelling : Text → Address → Prop
  | v4 {t : Text} {n : Nat} (numerals : InetAton t n) : AddressSpelling t (.v4 n)
  | v6 {t : Text} {gs : List Nat} (literal : Ipv6Text t gs) : AddressSpelling t (.v6 gs)

theorem AddressSpelling.units {t : Text} {a : Address} (h : AddressSpelling t a) :
    ∀ u ∈ t, AddressUnit u := by
  cases h with
  | v4 numerals => exact fun u hu => (numerals.units u hu).addressUnit
  | v6 literal => exact literal.addressUnits

theorem AddressSpelling.ne_nil {t : Text} {a : Address} (h : AddressSpelling t a) : t ≠ [] := by
  cases h with
  | v4 numerals => exact numerals.ne_nil
  | v6 literal => exact List.ne_nil_of_mem literal.colon_mem

theorem AddressSpelling.last_ne_dot {t : Text} {a : Address} (h : AddressSpelling t a) :
    t.getLast? ≠ some (unit '.') := by
  cases h with
  | v4 numerals => exact numerals.last_ne_dot
  | v6 literal => exact literal.last_ne_dot

theorem AddressSpelling.lower {t : Text} {a : Address} (h : AddressSpelling t a) :
    AddressSpelling (t.map asciiLower) a := by
  cases h with
  | v4 numerals => exact .v4 numerals.lower
  | v6 literal => exact .v6 literal.lower

theorem toDotted_inj {m n : Nat} (hm : m < 2 ^ 32) (hn : n < 2 ^ 32) (h : toDotted m = toDotted n) :
    m = n := by
  have hvalue := dottedToInt_toDotted hm
  rw [h, dottedToInt_toDotted hn] at hvalue
  exact hvalue.symm

theorem Recognizes.literal {s : Text} {gs : List Nat} (h : Recognizes s (.v6 gs)) :
    Ipv6Text s gs := by
  obtain ⟨hgs, hcanonical⟩ := h
  obtain ⟨r, hr, htext⟩ := Option.map_eq_some_iff.mp hcanonical
  obtain ⟨hs, hgroups, rfl⟩ := Option.map_eq_some_iff.mp hr
  have literal := ipv6Groups_iff.mp hgroups
  rwa [← canonicalizeIpv6_inj literal.isHextets hgs htext]

theorem Recognizes.spelling {s : Text} {a : Address} (h : Recognizes s a) :
    AddressSpelling (stripTrailingRootDot s) a := by
  cases a with
  | v4 n =>
      obtain ⟨hn, hcanonical⟩ := h
      obtain ⟨r, hr, hdotted⟩ := Option.map_eq_some_iff.mp hcanonical
      obtain ⟨m, hm, hcanon, -⟩ := analyzeIpv4_found hr
      rw [← toDotted_inj hm.lt hn (hcanon.symm.trans hdotted)]
      exact .v4 hm
  | v6 gs =>
      rw [stripTrailingRootDot_of_last h.literal.last_ne_dot]
      exact .v6 h.literal

theorem recognizes_of_inetAton {s : Text} {n : Nat} (h : InetAton (stripTrailingRootDot s) n) :
    Recognizes s (.v4 n) := by
  obtain ⟨r, hr⟩ := Option.isSome_iff_exists.mp (analyzeIpv4_of_inetAton h)
  obtain ⟨m, hm, hcanonical, -⟩ := analyzeIpv4_found hr
  rw [hm.unique h] at hcanonical
  exact ⟨h.lt, Option.map_eq_some_iff.mpr ⟨r, hr, hcanonical⟩⟩

theorem recognizes_of_ipv6Text {s : Text} {gs : List Nat} (h : Ipv6Text s gs) :
    Recognizes s (.v6 gs) := by
  refine ⟨h.isHextets, ?_⟩
  rw [analyzeIpv6, ipv6Groups_iff.mpr h]
  rfl

/-! ### From a host to the text that is looked up -/

theorem unbracket_brackets (s : Text) : unbracket (unit '[' :: s ++ [unit ']']) = s := by
  have hlast : (unit '[' :: s ++ [unit ']']).getLast? = some (unit ']') := by
    rw [List.getLast?_append]
    rfl
  rw [unbracket, if_pos ⟨rfl, hlast⟩]
  simp

theorem unbracket_bare {s : Text} (h : unit '[' ∉ s) : unbracket s = s :=
  if_neg fun hbrackets => h (List.mem_of_head? hbrackets.1)

section
variable {P : Platform}

/-- Whatever the form, the text that is looked up is the spelling in lower case, or that and the
root dot that stood between the brackets. -/
theorem authorityText_form {s host : Text} (hform : HostForm s host)
    (hunits : ∀ u ∈ stripTrailingRootDot s, AddressUnit u) (hne : stripTrailingRootDot s ≠ []) :
    authorityText P host = (stripTrailingRootDot s).map asciiLower ∨
      authorityText P host = s.map asciiLower := by
  have hdot : AddressUnit (unit '.') := addressUnit_of_char (by decide)
  have hs : ∀ u ∈ s, AddressUnit u := by
    intro u hu
    rcases eq_stripTrailingRootDot s with heq | heq
    · exact hunits u (heq ▸ hu)
    · rw [heq] at hu
      rcases List.mem_append.mp hu with hu | hu
      · exact hunits u hu
      · exact List.mem_singleton.mp hu ▸ hdot
  have hbare {t : Text} (ht : ∀ u ∈ t, AddressUnit u) :
      unbracket (P.toLowerCase t) = t.map asciiLower := by
    rw [toLowerCase_visible fun u hu => (ht u hu).1, unbracket_bare]
    rw [mem_map_asciiLower (by decide)]
    exact fun hopen => (ht _ hopen).2.1 rfl
  have hbrackets : ∀ u ∈ unit '[' :: s ++ [unit ']'], VisibleAscii u := by
    intro u hu
    rcases List.mem_append.mp hu with hu | hu
    · rcases List.mem_cons.mp hu with rfl | hu
      · exact ⟨by decide, by decide⟩
      · exact (hs u hu).1
    · rw [List.mem_singleton.mp hu]
      exact ⟨by decide, by decide⟩
  have hinner : unbracket (P.toLowerCase (unit '[' :: s ++ [unit ']'])) = s.map asciiLower := by
    rw [toLowerCase_visible hbrackets, List.map_append, List.map_cons, List.map_singleton,
      show asciiLower (unit '[') = unit '[' by decide, show asciiLower (unit ']') = unit ']' by decide,
      unbracket_brackets]
  have hrooted {t : Text} (ht : ∀ u ∈ t, VisibleAscii u) : ∀ u ∈ t ++ [unit '.'], VisibleAscii u := by
    intro u hu
    rcases List.mem_append.mp hu with hu | hu
    · exact ht u hu
    · exact List.mem_singleton.mp hu ▸ hdot.1
  rw [authorityText]
  cases hform with
  | plain =>
      rw [trim_of_visible fun u hu => (hs u hu).1]
      exact Or.inl (hbare hunits)
  | rooted hroot =>
      have hsame := stripTrailingRootDot_of_last hroot
      rw [hsame] at hne
      rw [trim_of_visible (hrooted fun u hu => (hs u hu).1), stripTrailingRootDot_concat hne]
      exact Or.inr (hbare hs)
  | bracketed =>
      have hclosed : (unit '[' :: s ++ [unit ']']).getLast? ≠ some (unit '.') := by
        simp only [List.getLast?_append, List.getLast?_singleton, Option.some_or]
        decide
      rw [trim_of_visible hbrackets, stripTrailingRootDot_of_last hclosed]
      exact Or.inr hinner
  | bracketedRooted =>
      rw [trim_of_visible (hrooted hbrackets), stripTrailingRootDot_concat (by simp)]
      exact Or.inr hinner

theorem registrableDomainOf_found {host : Text} {domain : Option Text}
    (h : FindsDomain P host domain) : registrableDomainOf P host = domain := by
  obtain ⟨r, hr, rfl⟩ := h
  rw [registrableDomainOf, analyzeHost, hr]
  rfl

theorem FindsDomain.root_dot {host : Text} {domain : Option Text} (hroot : DropsRootDot P)
    (hlast : host.getLast? ≠ some (unit '.')) (h : FindsDomain P host domain) :
    FindsDomain P (host ++ [unit '.']) domain := by
  obtain ⟨r, hr, rfl⟩ := h
  obtain ⟨r', hr', hdomain, -⟩ := hroot host r hlast hr
  exact ⟨r', hr', hdomain⟩

/-- The domain of an address text in lower case. -/
theorem AddressLookup.finds {isQuad : Text → Bool} (h : AddressLookup P isQuad) {t : Text}
    {a : Address} (ht : AddressSpelling t a) : FindsDomain P t
      (if unit '.' ∈ t ∧ unit ':' ∉ t ∧ isQuad t = false then some (lastLabels 2 t) else none) := by
  cases ht with
  | v4 numerals =>
      by_cases hdot : unit '.' ∈ t
      · have hfound := h.dotted _ _ numerals hdot
        cases hquad : isQuad t with
        | false => simpa [hdot, numerals.no_colon, hquad] using hfound
        | true => simpa [hquad] using hfound
      · simpa [hdot] using h.numeral _ _ numerals hdot
  | v6 literal => simpa [literal.colon_mem] using h.ipv6 _ _ literal

/-! ### The site of an address -/

theorem lastLabels_suffix (n : Nat) (s : Text) : lastLabels n s <:+ s := by
  calc lastLabels n s <:+ Text.join [unit '.'] (s.split (unit '.')) := join_dot_drop_suffix _ _
    _ = s := join_split _ s

def labelCount (s : Text) : Nat := (s.split (unit '.')).length

theorem labelCount_lastLabels {s : Text} (h : unit '.' ∈ s) : labelCount (lastLabels 2 s) = 2 := by
  have htwo : 2 ≤ (s.split (unit '.')).length := by
    obtain ⟨l, r, rfl, -⟩ := List.eq_append_cons_of_mem h
    rw [Text.split, List.splitOn_append_cons_self, List.length_append]
    have := List.length_pos_iff.mpr (List.splitOn_ne_nil (unit '.') l)
    have := List.length_pos_iff.mpr (List.splitOn_ne_nil (unit '.') r)
    omega
  have hlength : ((s.split (unit '.')).drop ((s.split (unit '.')).length - 2)).length = 2 := by
    rw [List.length_drop]
    omega
  have hsplit : (lastLabels 2 s).split (unit '.')
      = (s.split (unit '.')).drop ((s.split (unit '.')).length - 2) := by
    refine List.splitOn_intercalate _ (fun label hlabel => ?_) ?_
    · exact not_mem_of_mem_split (List.mem_of_mem_drop hlabel)
    · exact List.ne_nil_of_length_pos (by omega)
  rw [labelCount, hsplit, hlength]

theorem labelCount_canonicalText (a : Address) : labelCount a.canonicalText ≠ 2 := by
  cases a with
  | v4 n =>
      rw [Address.canonicalText, labelCount, toDotted_split]
      simp
  | v6 gs =>
      rw [Address.canonicalText, labelCount, Text.split,
        List.splitOn_eq_singleton (canonicalizeIpv6_dotless gs)]
      simp

theorem canonicalText_ne_nil {s : Text} {a : Address} (h : Recognizes s a) :
    a.canonicalText ≠ [] := by
  cases a with
  | v4 n =>
      have hquad := ipv4Text_iff.mpr ⟨h.1, rfl⟩
      exact List.ne_nil_of_mem hquad.dot_mem
  | v6 gs => exact List.ne_nil_of_mem (canonicalizeIpv6_text h.1.eight h.1.small).colon_mem

theorem canonicalText_inj {s t : Text} {a b : Address} (ha : Recognizes s a) (hb : Recognizes t b)
    (h : a.canonicalText = b.canonicalText) : a = b := by
  have hmixed {n : Nat} {gs : List Nat} (hn : n < 2 ^ 32) : toDotted n ≠ canonicalizeIpv6 gs := by
    intro heq
    exact canonicalizeIpv6_dotless gs (heq ▸ (ipv4Text_iff.mpr ⟨hn, rfl⟩).dot_mem)
  cases a with
  | v4 m =>
      cases b with
      | v4 n => rw [toDotted_inj ha.1 hb.1 h]
      | v6 hs => exact absurd h (hmixed ha.1)
  | v6 gs =>
      cases b with
      | v4 n => exact absurd h.symm (hmixed hb.1)
      | v6 hs => rw [canonicalizeIpv6_inj ha.1 hb.1 h]

variable {isQuad : Text → Bool}

theorem labelCount_shortened {s name : Text} (h : shortened isQuad s = some name) :
    labelCount name = 2 := by
  simp only [shortened, Option.ite_none_right_eq_some, Option.some.injEq] at h
  obtain ⟨⟨hdot, -⟩, rfl⟩ := h
  exact labelCount_lastLabels hdot

/-- A shortened spelling is ASCII in lower case. -/
theorem toLowerCase_shortened {s name : Text} (hunits : ∀ u ∈ stripTrailingRootDot s, AddressUnit u)
    (h : shortened isQuad s = some name) : P.toLowerCase name = name := by
  simp only [shortened, Option.ite_none_right_eq_some, Option.some.injEq] at h
  obtain ⟨-, rfl⟩ := h
  have hmem := (lastLabels_suffix 2 ((stripTrailingRootDot s).map asciiLower)).subset
  have hascii : ∀ u ∈ lastLabels 2 ((stripTrailingRootDot s).map asciiLower), u.toNat < 128 := by
    intro u hu
    obtain ⟨v, hv, rfl⟩ := List.mem_map.mp (hmem hu)
    have hvisible := (hunits v hv).1
    rw [VisibleAscii] at hvisible
    rw [asciiLower_toNat]
    split
    · omega
    · omega
  rw [P.toLowerCase_ascii _ hascii]
  refine (List.map_congr_left fun u hu => ?_).trans (List.map_id _)
  obtain ⟨v, -, rfl⟩ := List.mem_map.mp (hmem hu)
  exact asciiLower_idem v

/-- Without a registrable domain the site is the canonical text. -/
theorem authorityOf_canonical {host x : Text} {a : Address} (hx : authorityText P host = x)
    (hnone : registrableDomainOf P x = none) (h : Recognizes x a) :
    authorityOf P host = some { site := a.canonicalText, registrableDomain := none } := by
  have hne : x ≠ [] := by
    rintro rfl
    exact h.spelling.ne_nil rfl
  rw [authorityOf, hx]
  simp only [if_neg hne, hnone]
  cases a with
  | v4 n =>
      obtain ⟨r, hr, hcanonical⟩ := Option.map_eq_some_iff.mp h.2
      have hcolon : x.includes (unit ':') = false := by
        rw [Bool.eq_false_iff, ne_eq, includes_iff]
        intro hmem
        rw [analyzeIpv4_colon hmem] at hr
        cases hr
      simp only [hcolon, hr, Bool.false_eq_true, if_false]
      rw [hcanonical, Address.canonicalText]
  | v6 gs =>
      obtain ⟨r, hr, hcanonical⟩ := Option.map_eq_some_iff.mp h.2
      have hcolon : x.includes (unit ':') = true := includes_iff.mpr h.literal.colon_mem
      simp only [hcolon, hr, if_true]
      rw [hcanonical, Address.canonicalText]

/-- The text that is looked up: recognized as the address, with the domain of the spelling. -/
theorem looksUp_address (hlookup : AddressLookup P isQuad) {s host : Text} {a : Address}
    (hform : HostForm s host) (h : Recognizes s a) :
    Recognizes (authorityText P host) a ∧
      registrableDomainOf P (authorityText P host) = shortened isQuad s := by
  have hspelling := h.spelling
  have hlower := hspelling.lower
  have hfound := hlookup.finds hlower
  have hbare : Recognizes ((stripTrailingRootDot s).map asciiLower) a ∧
      registrableDomainOf P ((stripTrailingRootDot s).map asciiLower) = shortened isQuad s := by
    refine ⟨?_, registrableDomainOf_found hfound⟩
    cases hlower with
    | v4 numerals =>
        apply recognizes_of_inetAton
        rwa [stripTrailingRootDot_of_last numerals.last_ne_dot]
    | v6 literal => exact recognizes_of_ipv6Text literal
  rcases authorityText_form (P := P) hform hspelling.units hspelling.ne_nil with htext | htext
  · rw [htext]
    exact hbare
  · rw [htext]
    rcases eq_stripTrailingRootDot s with heq | heq
    · rw [← heq] at hbare
      exact hbare
    · have hroot := hfound.root_dot hlookup.root hlower.last_ne_dot
      have hdot : s.map asciiLower = (stripTrailingRootDot s).map asciiLower ++ [unit '.'] := by
        conv_lhs => rw [heq]
        rw [List.map_append]
        rfl
      rw [hdot]
      refine ⟨?_, registrableDomainOf_found hroot⟩
      cases a with
      | v4 n =>
          apply recognizes_of_inetAton
          rw [stripTrailingRootDot_concat hlower.ne_nil]
          cases hlower with
          | v4 numerals => exact numerals
      | v6 gs => exact absurd (by rw [heq]; simp) h.literal.last_ne_dot

/-- What the identity function makes of a recognized address: the shortened name, or the
canonical text. -/
theorem authorityOf_address (hlookup : AddressLookup P isQuad) {s host : Text} {a : Address}
    (hform : HostForm s host) (h : Recognizes s a) :
    authorityOf P host = some
      { site := (shortened isQuad s).getD a.canonicalText, registrableDomain := shortened isQuad s } := by
  obtain ⟨haddress, hdomain⟩ := looksUp_address hlookup hform h
  cases hshort : shortened isQuad s with
  | none => exact authorityOf_canonical rfl (hdomain.trans hshort) haddress
  | some name =>
      have hne : authorityText P host ≠ [] := by
        intro hempty
        rw [hempty] at haddress
        exact haddress.spelling.ne_nil rfl
      rw [authorityOf]
      simp only [if_neg hne, hdomain, hshort, toLowerCase_shortened h.spelling.units hshort,
        Option.getD_some]

/-! ### One site for each address -/

/-- Two sites are the same when the spellings are shortened to the same name, or neither is and
the address is the same. -/
theorem siteOf_eq_iff (hlookup : AddressLookup P isQuad) {s t host target : Text} {a b : Address}
    (hhost : HostForm s host) (ha : Recognizes s a) (htarget : HostForm t target)
    (hb : Recognizes t b) : siteOf P host = siteOf P target ↔
      shortened isQuad s = shortened isQuad t ∧ (shortened isQuad s = none → a = b) := by
  rw [siteOf, siteOf, authorityOf_address hlookup hhost ha, authorityOf_address hlookup htarget hb,
    Option.map_some, Option.map_some, Option.some.injEq]
  cases hs : shortened isQuad s with
  | none =>
      cases ht : shortened isQuad t with
      | none => simpa using ⟨canonicalText_inj ha hb, fun hsame => by rw [hsame]⟩
      | some name =>
          simp only [Option.getD_none, Option.getD_some, reduceCtorEq, false_and, iff_false]
          intro heq
          exact labelCount_canonicalText a (heq ▸ labelCount_shortened ht)
  | some name =>
      cases ht : shortened isQuad t with
      | none =>
          simp only [Option.getD_none, Option.getD_some, reduceCtorEq, false_and, iff_false]
          intro heq
          exact labelCount_canonicalText b (heq ▸ labelCount_shortened hs)
      | some name' => simp

/-! ### The finding -/

variable (P) in
def surfacePairs (ctx : InspectionContext) (surface : Option Text) : List QueryPair :=
  ((truthy surface).map fun query =>
    queryPairs P query ctx.runtime.maxDecodeDepth (unit '&')).getD []

variable (P) in
/-- A redirect parameter with a value, among the pairs of the query or of the fragment. -/
structure RedirectPair (ctx : InspectionContext) (pairs : List QueryPair) (pair : QueryPair) :
    Prop where
  surface : ∃ surface ∈ [ctx.query, fragmentQueryLike ctx.fragment], pairs = surfacePairs P ctx surface
  mem : pair ∈ pairs
  name : pair.key ∈ REDIRECT_PARAMS
  value : pair.rawValue ≠ []

def pairTarget (api : UrlApi) (ctx : InspectionContext) (pair : QueryPair) : Option Text :=
  targetHost api (boundedDecode pair.rawValue ctx.runtime.maxDecodeDepth).value

theorem openRedirectParamPayloads_eq (api : UrlApi) (ctx : InspectionContext)
    (surface : Option Text) {site : Text} (hsite : site ≠ []) :
    openRedirectParamPayloads P api surface (some site) ctx.runtime.maxDecodeDepth
      = (surfacePairs P ctx surface).filterMap (pairPayload P api site ctx.runtime.maxDecodeDepth
          (isAuthorizationRequest (surfacePairs P ctx surface))) := by
  have hinput : truthy (some site) = some site := by simp [truthy, hsite]
  rw [openRedirectParamPayloads, surfacePairs, hinput]
  cases truthy surface with
  | none => rfl
  | some query => rfl

/-- No surface gives a payload when no pair of it has one. -/
theorem surfaces_silent_iff {api : UrlApi} {ctx : InspectionContext} {site : Text} (hsite : site ≠ []) :
    (∀ surface ∈ [ctx.query, fragmentQueryLike ctx.fragment], ∀ pair ∈ surfacePairs P ctx surface,
      pairPayload P api site ctx.runtime.maxDecodeDepth
        (isAuthorizationRequest (surfacePairs P ctx surface)) pair = none) ↔
      [(text "redirect parameter", ctx.query),
        (text "fragment redirect parameter", fragmentQueryLike ctx.fragment)].filterMap
          (fun (label, surface) => (openRedirectParamPayloads P api surface (some site)
            ctx.runtime.maxDecodeDepth).head?.map (label, ·)) = [] := by
  simp only [openRedirectParamPayloads_eq api ctx _ hsite, List.filterMap_eq_nil_iff,
    List.forall_mem_cons, Option.map_eq_none_iff, List.head?_eq_none_iff, List.not_mem_nil,
    false_imp_iff, implies_true]

/-- The detector is silent when no pair of a surface has a payload and no fallback is executable. -/
theorem openRedirectParam_eq_nil_iff {api : UrlApi} {ctx : InspectionContext} {authority : Authority}
    (h : authorityOf P ctx.host = some authority) (hsite : authority.site ≠ []) :
    openRedirectParam P api ctx = [] ↔
      (∀ surface ∈ [ctx.query, fragmentQueryLike ctx.fragment], ∀ pair ∈ surfacePairs P ctx surface,
        pairPayload P api authority.site ctx.runtime.maxDecodeDepth
          (isAuthorizationRequest (surfacePairs P ctx surface)) pair = none) ∧
      intentFallbackPayload P ctx.fragment ctx.runtime.maxDecodeDepth = none := by
  have hfound : openRedirectParam P api ctx = [] ↔ foundPayloads P api ctx authority.site = [] := by
    simp only [openRedirectParam, h]
    cases hpayloads : foundPayloads P api ctx authority.site with
    | nil => simp
    | cons found rest => simp
  rw [hfound, foundPayloads, surfaces_silent_iff hsite]
  split
  · rename_i hnone
    rw [Option.toList_eq_nil_iff, Option.map_eq_none_iff]
    exact ⟨fun hfallback => ⟨hnone, hfallback⟩, And.right⟩
  · rename_i hsome
    exact ⟨fun hnil => absurd hnil hsome, fun hboth => absurd hboth.1 hsome⟩

/-- A redirect pair is silent when its target has the site of the link or is exempt. -/
theorem pairPayload_eq_none_iff {api : UrlApi} {ctx : InspectionContext} {pairs : List QueryPair}
    {pair : QueryPair} (h : RedirectPair P ctx pairs pair) {target site : Text} {authority : Authority}
    (htarget : pairTarget api ctx pair = some target)
    (hauthority : authorityOf P target = some authority) :
    pairPayload P api site ctx.runtime.maxDecodeDepth (isAuthorizationRequest pairs) pair = none ↔
      authority.site = site ∨ (pair.key = OAUTH_REDIRECT_PARAM ∧
        isAuthorizationRequest pairs = true ∧ authority.registrableDomain.isSome = true) := by
  rw [pairTarget] at htarget
  rw [pairPayload, if_neg (not_not.mpr h.name), if_neg h.value]
  simp only [htarget, hauthority]
  split
  · rename_i hsame
    exact iff_of_true rfl (Or.inl hsame)
  · rename_i hother
    split
    · rename_i hexempt
      exact iff_of_true rfl (Or.inr hexempt)
    · rename_i hscope
      refine iff_of_false (by simp) ?_
      rintro (hsame | hexempt)
      · exact hother hsame
      · exact hscope hexempt

variable (P) in
/-- A link on a host of the address whose redirect parameters all target the address, in some
spelling, and whose fragment has no executable fallback. -/
structure SameAddressLink (api : UrlApi) (ctx : InspectionContext) (s : Text) (a : Address) :
    Prop where
  form : HostForm s ctx.host
  address : Recognizes s a
  targets : ∀ {pairs pair}, RedirectPair P ctx pairs pair → ∃ target t,
    pairTarget api ctx pair = some target ∧ HostForm t target ∧ Recognizes t a
  noFallback : intentFallbackPayload P ctx.fragment ctx.runtime.maxDecodeDepth = none

variable (P) in
/-- When addresses and sites correspond. For one pair of hosts: the same address has one site when
the spellings are shortened alike, and different addresses have different sites when they are not
shortened to one name. A link to its own address has no finding when each of its targets is
shortened as its host is, or is a shortened one that an authorization request may name. -/
structure AuthorityIdentity (isQuad : Text → Bool) : Prop where
  sites : ∀ {s t host target a b}, HostForm s host → Recognizes s a → HostForm t target →
    Recognizes t b → ((siteOf P host = siteOf P target ↔ a = b) ↔
      (a = b → shortened isQuad s = shortened isQuad t) ∧
      (a ≠ b → shortened isQuad s = none ∨ shortened isQuad s ≠ shortened isQuad t))
  findings : ∀ {api ctx s a}, SameAddressLink P api ctx s a → (openRedirectParam P api ctx = [] ↔
    ∀ pairs pair target t, RedirectPair P ctx pairs pair → pairTarget api ctx pair = some target →
      HostForm t target → Recognizes t a → shortened isQuad s = shortened isQuad t ∨
        (pair.key = OAUTH_REDIRECT_PARAM ∧ isAuthorizationRequest pairs = true ∧
          (shortened isQuad t).isSome = true))

end

/-! ### A loopback link -/

/-- Four runs of decimal digits. -/
def isPlainQuad (s : Text) : Bool :=
  let labels := s.split (unit '.')
  labels.length == 4 && labels.all fun label => label != [] && label.all isDigit

def literalDomain (name : Text) : Option Text :=
  if unit '.' ∈ name ∧ unit ':' ∉ name ∧ isPlainQuad name = false then some (lastLabels 2 name)
  else none

/-- A platform that knows ASCII and whose suffix list is that of the last label. -/
def literalPlatform : Platform :=
  { Platform.ascii with
    tldtsParse := fun _ host => .ok
      { domain := literalDomain host.dropTrailingDot, publicSuffix := none, subdomain := none,
        isIp := some (literalDomain host.dropTrailingDot).isNone, isIcann := some false } }

theorem literalLookup : AddressLookup literalPlatform isPlainQuad := by
  have hfinds {s : Text} (h : s.getLast? ≠ some (unit '.')) :
      FindsDomain literalPlatform s (literalDomain s) := by
    refine ⟨_, rfl, ?_⟩
    simp only [dropTrailingDot_of_last h]
  refine ⟨?_, ?_, ?_, ?_⟩
  · intro s gs literal
    have hnone : literalDomain s = none := if_neg fun h => h.2.1 literal.colon_mem
    exact hnone ▸ hfinds literal.last_ne_dot
  · intro s n numerals hdot
    have hnone : literalDomain s = none := if_neg fun h => hdot h.1
    exact hnone ▸ hfinds numerals.last_ne_dot
  · intro s n numerals hdot
    have hdomain : literalDomain s = if isPlainQuad s then none else some (lastLabels 2 s) := by
      rw [literalDomain]
      cases hquad : isPlainQuad s with
      | false => simp [hdot, numerals.no_colon]
      | true => simp
    exact hdomain ▸ hfinds numerals.last_ne_dot
  · intro host r hlast hr
    cases hr
    refine ⟨_, rfl, ?_, ?_⟩
    · simp only [dropTrailingDot_concat, dropTrailingDot_of_last hlast]
    · simp only [dropTrailingDot_concat, dropTrailingDot_of_last hlast]

def loopback : Address := .v4 0x7f000001

/-- The URL reader on the one value that is read here. -/
def loopbackApi : UrlApi where
  parse raw :=
    if raw = text "http://127.0.0.1/" then
      some { protocol := text "http:", username := [], password := [], hostname := text "127.0.0.1",
             port := [], pathname := text "/", search := [], hash := [] }
    else none
  resolve _ _ := none
  href _ := []

def LOOPBACK_LINK : Text := text "http://0x7f.0.0.1/?next=http://127.0.0.1/"

theorem recognizes_hex : Recognizes (text "0x7f.0.0.1") loopback := by
  constructor
  · decide
  · decide +kernel

theorem recognizes_quad : Recognizes (text "127.0.0.1") loopback := by
  constructor
  · decide
  · decide +kernel

/-- The link on `0x7f.0.0.1` targets `127.0.0.1`, and nothing else. -/
theorem loopback_link {ctx : InspectionContext}
    (h : parseInput literalPlatform LOOPBACK_LINK (depthRuntime 4) = .ok (some ctx)) :
    SameAddressLink literalPlatform loopbackApi ctx (text "0x7f.0.0.1") loopback := by
  have hparsed : ctx.host = text "0x7f.0.0.1" ∧ ctx.query = some (text "next=http://127.0.0.1/") ∧
      ctx.fragment = none ∧ ctx.runtime.maxDecodeDepth = 4 := by
    cases h
    decide +kernel
  obtain ⟨hhost, hquery, hfragment, hdepth⟩ := hparsed
  refine ⟨?_, recognizes_hex, ?_, ?_⟩
  · rw [hhost]
    exact .plain
  · intro pairs pair hpair
    obtain ⟨surface, hsurface, rfl⟩ := hpair.surface
    have hmem := hpair.mem
    rw [hquery, hfragment, List.mem_pair] at hsurface
    rw [surfacePairs, hdepth] at hmem
    rcases hsurface with rfl | rfl
    · have hpairs : queryPairs literalPlatform (text "next=http://127.0.0.1/") 4 (unit '&')
          = [{ key := text "next", rawValue := text "http://127.0.0.1/" }] := by decide +kernel
      have hsome : truthy (some (text "next=http://127.0.0.1/"))
          = some (text "next=http://127.0.0.1/") := by decide
      rw [hsome, Option.map_some, Option.getD_some, hpairs, List.mem_singleton] at hmem
      subst hmem
      refine ⟨text "127.0.0.1", text "127.0.0.1", ?_, .plain, recognizes_quad⟩
      rw [pairTarget, hdepth]
      decide +kernel
    · cases hmem
  · rw [hfragment]
    rfl

end Linklint
