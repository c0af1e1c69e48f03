import Linklint.Compare.RebuiltUrl
import Linklint.Parse.NumericHost

/-!
# Canonical hosts

The canonical host of a parsed input is a function of its host without the root dot:
an address takes its canonical text and a name its ToASCII form.
-/

namespace Linklint

/-- What parsing leaves of a host: an IPv6 literal, or the labels of a name. -/
inductive SpelledHost (host : Text) : Prop
  | ipv6 (groups : List Nat) (address : Rfc4291Address host groups)
  | name (units : ∀ u ∈ host, u.toNat < 128 → isHostUnit u = true)
      (labels : [] ∉ host.dropTrailingDot.split (unit '.'))

/-- What the platform's lookup and ToASCII do with a host: the lookup recognizes an IP literal by
its name, and ToASCII is idempotent, folds case, lower-cases ASCII text and refuses none of it
without a hyphen. -/
structure HostLaws (P : Platform)
    (tr46ToAscii : (transitional : Bool) → Text → Except Thrown (Option Text))
    (literal : Text → Bool) : Prop where
  lookup : ∀ allowPrivate host, ∃ r, P.tldtsParse allowPrivate host = .ok r
  isIp : ∀ host r, SpelledHost host → P.tldtsParse false host = .ok r →
    (r.isIp = some true ↔ literal (pslName host) = true)
  literalUnits : ∀ s, literal s = true → ∀ u ∈ s, isHexDigit u = true ∨ u ∈ text "[:.]"
  ace : ∀ host s, tr46ToAscii false host = .ok (some s) → ∀ u ∈ s, u.toNat < 128
  idempotent : ∀ host s, tr46ToAscii false host = .ok (some s) → tr46ToAscii false s = .ok (some s)
  lowers : ∀ host s, (∀ u ∈ host, u.toNat < 128) → tr46ToAscii false host = .ok (some s) →
    s = host.map asciiLower
  folds : ∀ host, tr46ToAscii false (host.map asciiLower) = tr46ToAscii false host
  plain : ∀ host, (∀ u ∈ host, u.toNat < 128) → unit '-' ∉ host →
    tr46ToAscii false host = .ok (some (host.map asciiLower))

/-- The canonical form of a host without a root dot. -/
def hostForm (tr46ToAscii : (transitional : Bool) → Text → Except Thrown (Option Text))
    (literal : Text → Bool) (bare : Text) : Option Text :=
  match analyzeIpv4 bare, analyzeIpv6 bare with
  | some v4, _ => some v4.canonical
  | none, some v6 => some v6.canonical
  | none, none =>
      if literal (pslName bare) then some (bare.map asciiLower) else toAsciiUnder tr46ToAscii bare false

/-- A canonical IPv6 text, or a rootless name that is no other spelling of an address. -/
inductive NormalHost (P : Platform) (host : Text) : Prop
  | ipv6 (a : Ipv6Analysis) (analyzed : analyzeIpv6 host = some a) (fixed : a.canonical = host)
  | name (valid : hostIsValid P host = true) (visible : stripInvisible host = host)
      (rootless : host.getLast? ≠ some (unit '.'))
      (ipv4 : ∀ a, analyzeIpv4 host = some a → a.canonical = host)

variable {P : Platform} {tr46ToAscii : (transitional : Bool) → Text → Except Thrown (Option Text)}
  {literal : Text → Bool}

/-! ### Spelled hosts -/

theorem mem_codePoints_ascii {s : Text} {u : CodeUnit} (hu : u ∈ s) (hascii : u.toNat < 128) :
    u.toNat ∈ codePoints s := by
  induction s using codePoints.induct with
  | case1 => cases hu
  | case2 v =>
      obtain rfl := List.mem_singleton.mp hu
      exact List.mem_singleton_self _
  | case3 v w rest hpair ih =>
      rw [codePoints, if_pos hpair]
      simp only [isHighSurrogate, isLowSurrogate, Bool.and_eq_true, decide_eq_true_eq] at hpair
      rcases List.mem_cons.mp hu with rfl | hu
      · omega
      · rcases List.mem_cons.mp hu with rfl | hu
        · omega
        · exact List.mem_cons_of_mem _ (ih hu)
  | case4 v w rest hpair ih =>
      rw [codePoints, if_neg hpair]
      rcases List.mem_cons.mp hu with rfl | hu
      · exact List.mem_cons_self ..
      · exact List.mem_cons_of_mem _ (ih hu)

theorem spelledHost_of_valid {rawHost : Text} (h : hostIsValid P rawHost = true) :
    SpelledHost (stripInvisible rawHost) := by
  simp only [hostIsValid, Bool.and_eq_true, Bool.not_eq_true', List.all_eq_true,
    List.contains_eq_mem, decide_eq_false_iff_not] at h
  obtain ⟨⟨-, hpoints⟩, hlabels⟩ := h
  refine .name (fun u hu hascii => ?_) hlabels
  rw [← isHostCodePoint_ascii (P := P) hascii]
  exact hpoints _ (mem_codePoints_ascii hu hascii)

theorem parsed_spelled {input : Text} {ctx : InspectionContext}
    (h : parseDefault P input = .ok (some ctx)) (hne : ctx.host ≠ []) : SpelledHost ctx.host := by
  obtain ⟨raw, hraw, reads⟩ := parseDefault_raw h
  have hrawHost : raw.rawHost ≠ [] := by
    intro hempty
    rw [reads.host, hempty] at hne
    exact hne rfl
  rw [reads.host]
  rcases (parseRawParts_valid hraw).host hrawHost with ⟨groups, address⟩ | hvalid
  · have hstrip : stripInvisible raw.rawHost = raw.rawHost := stripInvisible_visible fun u hu =>
      isAuthorityUnit_visible ((WrittenHost.ipv6 (P := P) groups address).units u hu)
    rw [hstrip]
    exact .ipv6 groups address
  · exact spelledHost_of_valid hvalid

/-! ### Bare hosts -/

theorem SpelledHost.bare_last {host : Text} (h : SpelledHost host) :
    (stripTrailingRootDot host).getLast? ≠ some (unit '.') := by
  cases h with
  | ipv6 groups address =>
      have hlast := (ipv6Text_iff.mpr address).last_ne_dot
      rwa [stripTrailingRootDot_of_last hlast]
  | name units labels =>
      have hroot : host ≠ [unit '.'] := by
        rintro rfl
        exact labels (by decide)
      rw [stripTrailingRootDot_eq hroot]
      intro hlast
      obtain ⟨init, hinit⟩ := List.getLast?_eq_some_iff.mp hlast
      rw [hinit, NumericHost.split_root_dot] at labels
      exact labels (by simp)

theorem SpelledHost.bare_strip {host : Text} (h : SpelledHost host) :
    stripTrailingRootDot (stripTrailingRootDot host) = stripTrailingRootDot host :=
  stripTrailingRootDot_of_last h.bare_last

theorem SpelledHost.bare_ne_nil {host : Text} (h : SpelledHost host) :
    stripTrailingRootDot host ≠ [] := by
  cases h with
  | ipv6 groups address =>
      rw [stripTrailingRootDot_of_last (ipv6Text_iff.mpr address).last_ne_dot]
      rintro rfl
      cases (ipv6Text_iff.mpr address).colon_mem
  | name units labels =>
      have hroot : host ≠ [unit '.'] := by
        rintro rfl
        exact labels (by decide)
      rw [stripTrailingRootDot_eq hroot]
      intro hempty
      rw [hempty] at labels
      exact labels (by decide)

/-- Only an address literal has a colon. -/
theorem SpelledHost.address_of_colon {host : Text} (h : SpelledHost host)
    (hcolon : unit ':' ∈ stripTrailingRootDot host) :
    stripTrailingRootDot host = host ∧ ∃ groups, Rfc4291Address host groups := by
  cases h with
  | ipv6 groups address =>
      exact ⟨stripTrailingRootDot_of_last (ipv6Text_iff.mpr address).last_ne_dot, groups, address⟩
  | name units labels =>
      have hmem : unit ':' ∈ host := by
        rcases eq_stripTrailingRootDot host with heq | heq
        · rwa [heq]
        · rw [heq]
          exact List.mem_append_left _ hcolon
      exact absurd (units _ hmem (by decide)) (by decide)

theorem SpelledHost.no_colon {host : Text} (h : SpelledHost host)
    (hsix : analyzeIpv6 (stripTrailingRootDot host) = none) :
    unit ':' ∉ stripTrailingRootDot host := by
  intro hmem
  obtain ⟨hbare, address⟩ := h.address_of_colon hmem
  have hsome := analyzeIpv6_isSome_iff.mpr address
  rw [← hbare, hsix] at hsome
  cases hsome

/-- The analyzers or the lookup read a bare host as an address. -/
def IsAddress (literal : Text → Bool) (bare : Text) : Prop :=
  (analyzeIpv4 bare).isSome ∨ (analyzeIpv6 bare).isSome ∨ literal (pslName bare) = true

theorem hostForm_name {bare : Text} (h : ¬ IsAddress literal bare) :
    hostForm tr46ToAscii literal bare = toAsciiUnder tr46ToAscii bare false := by
  simp only [IsAddress, not_or, Option.not_isSome_iff_eq_none] at h
  rw [hostForm, h.1, h.2.1]
  exact if_neg h.2.2

theorem toAsciiUnder_eq_some {host a : Text} {transitional : Bool} :
    toAsciiUnder tr46ToAscii host transitional = some a ↔
      tr46ToAscii transitional host = .ok (some a) := by
  rw [toAsciiUnder]
  split
  · rename_i ace hconverted
    rw [hconverted, Except.ok.injEq]
  · rename_i hthrown
    simp [hthrown]

theorem SpelledHost.isIpHost_iff {host : Text} (h : SpelledHost host) : isIpHost host = true ↔
    (analyzeIpv4 (stripTrailingRootDot host)).isSome ∨
      (analyzeIpv6 (stripTrailingRootDot host)).isSome := by
  refine ⟨isIpHost_strip, ?_⟩
  have hne : (host != []) = true := by
    rw [bne_iff_ne]
    rintro rfl
    exact h.bare_ne_nil rfl
  rintro (hfour | hsix)
  · have hsame : analyzeIpv4 host = analyzeIpv4 (stripTrailingRootDot host) := by
      rw [analyzeIpv4, analyzeIpv4, h.bare_strip]
    rw [isIpHost, hne, hsame, hfour]
    rfl
  · obtain ⟨groups, address⟩ := analyzeIpv6_isSome_iff.mp hsix
    have hcolon := (ipv6Text_iff.mpr address).colon_mem
    obtain ⟨hbare, -⟩ := h.address_of_colon hcolon
    rw [hbare] at hcolon hsix
    rw [isIpHost, hne, includes_iff.mpr hcolon, hsix]
    simp

/-! ### The units of addresses -/

/-- A unit of an address in any of its spellings. -/
def IsAddressUnit (u : CodeUnit) : Prop := isHexDigit u = true ∨ u ∈ text "xX[:.]"

theorem IsAddressUnit.plain {u : CodeUnit} (h : IsAddressUnit u) : u.toNat < 128 ∧ u ≠ unit '-' := by
  rcases h with h | h
  · have hvisible := (isHostUnit_visible (isHostUnit_of_isHexDigit h)).2
    refine ⟨by omega, ?_⟩
    rintro rfl
    revert h
    decide
  · have hlist : (text "xX[:.]").all (fun v => decide (v.toNat < 128) && v != unit '-') = true := by
      decide
    simpa using List.all_eq_true.mp hlist u h

theorem IsInetUnit.address {u : CodeUnit} (h : IsInetUnit u) : IsAddressUnit u := by
  rcases h with hhex | hmark
  · exact Or.inl hhex
  · have hlist : (text "xX.").all (fun v => (text "xX[:.]").contains v) = true := by decide
    exact Or.inr (List.contains_iff_mem.mp (List.all_eq_true.mp hlist u hmark))

/-- The form of an address does not depend on its letter case. -/
theorem hostForm_lower {host : Text} (h : SpelledHost host)
    (haddress : IsAddress literal (stripTrailingRootDot host)) :
    hostForm tr46ToAscii literal ((stripTrailingRootDot host).map asciiLower) =
      hostForm tr46ToAscii literal (stripTrailingRootDot host) := by
  rw [hostForm, hostForm, analyzeIpv4_asciiLower]
  cases hfour : analyzeIpv4 (stripTrailingRootDot host) with
  | some v4 => rfl
  | none =>
      cases hsix : analyzeIpv6 (stripTrailingRootDot host) with
      | some v6 =>
          obtain ⟨groups, address⟩ := analyzeIpv6_isSome_iff.mp (Option.isSome_of_mem hsix)
          have lowered := ipv6Text_iff.mp (ipv6Text_iff.mpr address).lower
          obtain ⟨v6', hsix'⟩ := Option.isSome_iff_exists.mp
            (analyzeIpv6_isSome_iff.mpr ⟨groups, lowered⟩)
          rw [hsix']
          dsimp only
          rw [(analyzeIpv6_found hsix address).1, (analyzeIpv6_found hsix' lowered).1]
      | none =>
          have hcolon := h.no_colon hsix
          have hsix' : analyzeIpv6 ((stripTrailingRootDot host).map asciiLower) = none := by
            rw [← Option.not_isSome_iff_eq_none, analyzeIpv6_isSome_iff]
            rintro ⟨groups, address⟩
            exact hcolon ((mem_map_asciiLower (by decide)).mp (ipv6Text_iff.mpr address).colon_mem)
          have hliteral : literal (pslName (stripTrailingRootDot host)) = true := by
            simpa [IsAddress, hfour, hsix] using haddress
          have hidem : asciiLower ∘ asciiLower = asciiLower := funext asciiLower_idem
          rw [hsix']
          dsimp only
          rw [pslName_lower, hliteral, List.map_map, hidem, if_pos rfl, if_pos rfl]

/-! ### Settled hosts -/

/-- A host that a rebuilt URL brings back. -/
structure Settled (P : Platform)
    (tr46ToAscii : (transitional : Bool) → Text → Except Thrown (Option Text))
    (literal : Text → Bool) (host : Text) : Prop where
  written : WrittenHost P host
  rootless : host.getLast? ≠ some (unit '.')
  fixed : hostForm tr46ToAscii literal host = some host

theorem writtenHost_of_units {host : Text} (hne : host ≠ [])
    (hunits : ∀ u ∈ host, isHostUnit u = true) (hlast : host.getLast? ≠ some (unit '.'))
    (hlabels : [] ∉ host.split (unit '.')) : WrittenHost P host := by
  have hvisible : ∀ u ∈ host, VisibleAscii u := fun u hu => isHostUnit_visible (hunits u hu)
  have hascii : ∀ u ∈ host, u.toNat < 128 := by
    intro u hu
    have := (hvisible u hu).2
    omega
  have hstrip := stripInvisible_visible hvisible
  refine .name hascii hstrip ((hostIsValid_ascii hascii hstrip).mpr ⟨hne, hunits, ?_⟩)
  rwa [dropTrailingDot_of_last hlast]

theorem settled_quad {n : Nat} (hn : n < 2 ^ 32) : Settled P tr46ToAscii literal (toDotted n) := by
  have quad := ipv4Text_iff.mpr ⟨hn, rfl⟩
  have hunits : ∀ u ∈ toDotted n, isHostUnit u = true := by
    intro u hu
    rcases quad.units u hu with hdigit | rfl
    · exact isHostUnit_of_isHexDigit (isDigit_isHexDigit hdigit)
    · decide
  have hlabels : [] ∉ (toDotted n).split (unit '.') := by
    have hne (m : Nat) : [] ≠ decimalText m := (numeralText_ne_nil (by decide) m).symm
    simp [toDotted_split, hne]
  refine ⟨writtenHost_of_units (List.ne_nil_of_mem quad.dot_mem) hunits quad.last_ne_dot hlabels,
    quad.last_ne_dot, ?_⟩
  rw [hostForm, quad.analyzed]

theorem settled_ipv6 {groups : List Nat} (h : IsHextets groups) :
    Settled P tr46ToAscii literal (canonicalizeIpv6 groups) := by
  have printed := canonicalizeIpv6_text h.eight h.small
  refine ⟨.ipv6 groups (ipv6Text_iff.mp printed), printed.last_ne_dot, ?_⟩
  rw [hostForm, analyzeIpv4_colon printed.colon_mem, analyzeIpv6_canonical h]

theorem isHostUnit_asciiLower {u : CodeUnit} (h : isHostUnit u = true) :
    isHostUnit (asciiLower u) = true := by
  by_cases hupper : isUpper u = true
  · have hlower : isLower (asciiLower u) = true := by
      simp only [isUpper, isLower, Bool.and_eq_true, decide_eq_true_eq, asciiLower_toNat] at hupper ⊢
      rw [if_pos hupper]
      omega
    simp [isHostUnit, isAsciiLetter, hlower]
  · rwa [asciiLower, if_neg hupper]

/-- The lower case of an ASCII name is a written host. -/
theorem SpelledHost.written_lower {host : Text} (h : SpelledHost host)
    (hname : unit ':' ∉ stripTrailingRootDot host)
    (hascii : ∀ u ∈ stripTrailingRootDot host, u.toNat < 128) :
    WrittenHost P ((stripTrailingRootDot host).map asciiLower) := by
  cases h with
  | ipv6 groups address =>
      have printed := ipv6Text_iff.mpr address
      rw [stripTrailingRootDot_of_last printed.last_ne_dot] at hname
      exact absurd printed.colon_mem hname
  | name units labels =>
      have spelled := SpelledHost.name units labels
      have hroot : host ≠ [unit '.'] := by
        rintro rfl
        exact labels (by decide)
      rw [← stripTrailingRootDot_eq hroot] at labels
      have hbare : ∀ u ∈ stripTrailingRootDot host, u ∈ host := by
        intro u hu
        rcases eq_stripTrailingRootDot host with heq | heq
        · rwa [heq]
        · rw [heq]
          exact List.mem_append_left _ hu
      apply writtenHost_of_units
      · simpa using spelled.bare_ne_nil
      · intro u hu
        obtain ⟨v, hv, rfl⟩ := List.mem_map.mp hu
        exact isHostUnit_asciiLower (units v (hbare v hv) (hascii v hv))
      · intro hlast
        rw [List.getLast?_map, Option.map_eq_some_iff] at hlast
        obtain ⟨u, hu, hdot⟩ := hlast
        rw [asciiLower_eq_iff (by decide)] at hdot
        exact spelled.bare_last (hdot ▸ hu)
      · rw [split_dot_asciiLower]
        simpa using labels

/-- What a rebuilt URL brings back is normal. -/
theorem Settled.normal {host : Text} (h : Settled P tr46ToAscii literal host) : NormalHost P host := by
  have hfixed := h.fixed
  rw [hostForm] at hfixed
  cases h.written with
  | ipv6 groups address =>
      obtain ⟨a, ha⟩ := Option.isSome_iff_exists.mp (analyzeIpv6_isSome_iff.mpr ⟨groups, address⟩)
      rw [analyzeIpv4_colon (ipv6Text_iff.mpr address).colon_mem, ha, Option.some.injEq] at hfixed
      exact .ipv6 a ha hfixed
  | name ascii visible valid =>
      refine .name valid visible h.rootless fun a ha => ?_
      rw [ha, Option.some.injEq] at hfixed
      exact hfixed

/-! ### The canonical host of a parsed input -/

section
variable (laws : HostLaws P tr46ToAscii literal)
include laws

/-- The units of an address are ASCII and no hyphens. -/
theorem HostLaws.address_units {host : Text} (h : SpelledHost host)
    (haddress : IsAddress literal (stripTrailingRootDot host)) :
    (∀ u ∈ stripTrailingRootDot host, u.toNat < 128) ∧ unit '-' ∉ stripTrailingRootDot host := by
  have hplain {s : Text} (hunits : ∀ u ∈ s, IsAddressUnit u) :
      (∀ u ∈ s, u.toNat < 128) ∧ unit '-' ∉ s :=
    ⟨fun u hu => (hunits u hu).plain.1, fun hmem => (hunits _ hmem).plain.2 rfl⟩
  rcases haddress with hfour | hsix | hliteral
  · obtain ⟨a, ha⟩ := Option.isSome_iff_exists.mp hfour
    obtain ⟨n, hn, -⟩ := analyzeIpv4_found ha
    rw [h.bare_strip] at hn
    exact hplain fun u hu => (hn.units u hu).address
  · obtain ⟨groups, address⟩ := analyzeIpv6_isSome_iff.mp hsix
    apply hplain
    intro u hu
    rcases (ipv6Text_iff.mpr address).units u hu with (hhex | rfl) | rfl
    · exact Or.inl hhex
    · exact Or.inr (by decide)
    · exact Or.inr (by decide)
  · have hunits := laws.literalUnits _ hliteral
    have hlist : (text "[:.]").all (fun u => (text "xX[:.]").contains u) = true := by decide
    have hinclude (u : CodeUnit) (hu : u ∈ text "[:.]") : u ∈ text "xX[:.]" :=
      List.contains_iff_mem.mp (List.all_eq_true.mp hlist u hu)
    rw [pslName_of_last h.bare_last] at hunits
    obtain ⟨hascii, hhyphen⟩ := hplain fun u hu => (hunits u hu).imp_right (hinclude u)
    rw [← pslName_of_last h.bare_last] at hascii
    exact ⟨pslName_ascii hascii, mt (mem_map_asciiLower (by decide)).mpr hhyphen⟩

/-- The canonical host of a parsed input. -/
theorem HostLaws.canonicalHost_form {input : Text} {ctx : InspectionContext}
    (h : parseDefault P input = .ok (some ctx)) (hne : ctx.host ≠ []) :
    canonicalHost P tr46ToAscii ctx.host ctx.isIp =
      hostForm tr46ToAscii literal (stripTrailingRootDot ctx.host) ∧
    (ctx.isIp = true ↔ IsAddress literal (stripTrailingRootDot ctx.host)) := by
  have spelled := parsed_spelled h hne
  obtain ⟨raw, hraw, reads⟩ := parseDefault_raw h
  have hip : ctx.isIp = true ↔ IsAddress literal (stripTrailingRootDot ctx.host) := by
    obtain ⟨r, hr⟩ := laws.lookup false ctx.host
    rw [reads.isIp, ReadAsAddress, spelled.isIpHost_iff, IsAddress, or_assoc, pslName_root,
      ← laws.isIp _ _ spelled hr]
    simp [hne, hr]
  refine ⟨?_, hip⟩
  rw [canonicalHost, if_neg hne]
  simp only [if_neg spelled.bare_ne_nil]
  rw [hostForm]
  cases hflag : ctx.isIp with
  | true =>
      cases hfour : analyzeIpv4 (stripTrailingRootDot ctx.host) with
      | some v4 => simp
      | none =>
          cases hsix : analyzeIpv6 (stripTrailingRootDot ctx.host) with
          | some v6 => simp
          | none =>
              have haddress := hip.mp hflag
              have hliteral : literal (pslName (stripTrailingRootDot ctx.host)) = true := by
                simpa [IsAddress, hfour, hsix] using haddress
              have hascii := (laws.address_units spelled haddress).1
              simp [hliteral, P.toLowerCase_ascii _ hascii]
  | false =>
      have hname : ¬ IsAddress literal (stripTrailingRootDot ctx.host) := by
        rw [← hip, hflag]
        exact Bool.false_ne_true
      simp only [IsAddress, not_or, Option.not_isSome_iff_eq_none] at hname
      simp [hname]

/-! ### Forms of forms -/

/-- A normal ToASCII form is its own form. -/
theorem HostLaws.hostForm_normal {a : Text} (h : NormalHost P a) (hascii : ∀ u ∈ a, u.toNat < 128)
    (hfixed : tr46ToAscii false a = .ok (some a)) : hostForm tr46ToAscii literal a = some a := by
  have hlower : a.map asciiLower = a := (laws.lowers a a hascii hfixed).symm
  rw [hostForm]
  cases hfour : analyzeIpv4 a with
  | some v4 =>
      cases h with
      | ipv6 v6 analyzed fixed =>
          obtain ⟨groups, address⟩ := analyzeIpv6_isSome_iff.mp (Option.isSome_of_mem analyzed)
          rw [analyzeIpv4_colon (ipv6Text_iff.mpr address).colon_mem] at hfour
          cases hfour
      | name valid visible rootless ipv4 => exact congrArg some (ipv4 v4 hfour)
  | none =>
      cases hsix : analyzeIpv6 a with
      | some v6 =>
          cases h with
          | ipv6 v6' analyzed fixed =>
              cases analyzed.symm.trans hsix
              exact congrArg some fixed
          | name valid visible rootless ipv4 =>
              obtain ⟨groups, address⟩ := analyzeIpv6_isSome_iff.mp (Option.isSome_of_mem hsix)
              have hunits := ((hostIsValid_ascii hascii visible).mp valid).2.1
              exact absurd rfl (isHostUnit_not_mark (hunits _ (ipv6Text_iff.mpr address).colon_mem)).1
      | none =>
          dsimp only
          rw [hlower, toAsciiUnder, hfixed, ite_self]

/-- The form of a host is that of its ToASCII form. -/
theorem HostLaws.hostForm_mapped {host : Text} (h : SpelledHost host)
    (hnormal : ¬ IsAddress literal (stripTrailingRootDot host) → ∀ a,
      tr46ToAscii false (stripTrailingRootDot host) = .ok (some a) → NormalHost P a) :
    hostForm tr46ToAscii literal (stripTrailingRootDot host) =
      (toAsciiUnder tr46ToAscii (stripTrailingRootDot host) false).bind
        (hostForm tr46ToAscii literal) := by
  by_cases haddress : IsAddress literal (stripTrailingRootDot host)
  · obtain ⟨hascii, hhyphen⟩ := laws.address_units h haddress
    rw [toAsciiUnder, laws.plain _ hascii hhyphen, Option.bind_some,
      hostForm_lower h haddress]
  · rw [hostForm_name haddress]
    cases hace : toAsciiUnder tr46ToAscii (stripTrailingRootDot host) false with
    | none => rfl
    | some a =>
        have hmapped := toAsciiUnder_eq_some.mp hace
        rw [Option.bind_some, laws.hostForm_normal (hnormal haddress a hmapped)
          (laws.ace _ _ hmapped) (laws.idempotent _ _ hmapped)]

theorem HostLaws.settled_of_form {host form : Text} (h : SpelledHost host)
    (hform : hostForm tr46ToAscii literal (stripTrailingRootDot host) = some form)
    (hnormal : ¬ IsAddress literal (stripTrailingRootDot host) → NormalHost P form) :
    Settled P tr46ToAscii literal form := by
  by_cases haddress : IsAddress literal (stripTrailingRootDot host)
  · have hcase : hostForm tr46ToAscii literal ((stripTrailingRootDot host).map asciiLower) =
        hostForm tr46ToAscii literal (stripTrailingRootDot host) := hostForm_lower h haddress
    rw [hform] at hcase
    cases hfour : analyzeIpv4 (stripTrailingRootDot host) with
    | some v4 =>
        rw [hostForm, hfour, Option.some.injEq] at hform
        obtain ⟨n, hn, hcanonical, -⟩ := analyzeIpv4_found hfour
        rw [← hform, hcanonical]
        exact settled_quad hn.lt
    | none =>
        cases hsix : analyzeIpv6 (stripTrailingRootDot host) with
        | some v6 =>
            rw [hostForm, hfour, hsix, Option.some.injEq] at hform
            obtain ⟨groups, address⟩ := analyzeIpv6_isSome_iff.mp (Option.isSome_of_mem hsix)
            rw [← hform, (analyzeIpv6_found hsix address).1]
            exact settled_ipv6 address.isHextets
        | none =>
            have hliteral : literal (pslName (stripTrailingRootDot host)) = true := by
              simpa [IsAddress, hfour, hsix] using haddress
            rw [hostForm, hfour, hsix] at hform
            dsimp only at hform
            rw [if_pos hliteral, Option.some.injEq] at hform
            subst hform
            refine ⟨h.written_lower (h.no_colon hsix) (laws.address_units h haddress).1, ?_, hcase⟩
            rw [← pslName_of_last h.bare_last]
            exact pslName_last _
  · rw [hostForm_name haddress] at hform
    have hmapped := toAsciiUnder_eq_some.mp hform
    have hascii := laws.ace _ _ hmapped
    refine ⟨?_, ?_, laws.hostForm_normal (hnormal haddress) hascii (laws.idempotent _ _ hmapped)⟩
    · cases hnormal haddress with
      | ipv6 a analyzed fixed =>
          obtain ⟨groups, address⟩ := analyzeIpv6_isSome_iff.mp (Option.isSome_of_mem analyzed)
          exact .ipv6 groups address
      | name valid visible rootless ipv4 => exact .name hascii visible valid
    · cases hnormal haddress with
      | ipv6 a analyzed fixed =>
          obtain ⟨groups, address⟩ := analyzeIpv6_isSome_iff.mp (Option.isSome_of_mem analyzed)
          exact (ipv6Text_iff.mpr address).last_ne_dot
      | name valid visible rootless ipv4 => exact rootless

end

end Linklint
