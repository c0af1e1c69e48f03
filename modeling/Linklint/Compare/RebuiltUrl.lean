import Linklint.Compare.Relations
import Linklint.Parse.LetterCase
import Linklint.Parse.Lossless

/-!
# Rebuilt URLs

The URL of a tuple scheme, a host and a port parses to these again when the parser
accepts the host. Whatever else such a text parses to has a shorter host.
-/

namespace Linklint

/-- The URL of a scheme, a canonical host and a port; an IPv6 host is in brackets. -/
def rebuiltUrl (scheme host : Text) (port : Option Nat) : Text :=
  scheme ++ text "://" ++
    (hostText (analyzeIpv6 host).isSome host ++ startedBy (unit ':') (port.map decimalText))

variable {P : Platform}

/-! ### Host units -/

/-- `[A-Za-z0-9._%-]` -/
def isHostUnit (u : CodeUnit) : Bool := isDigit u || isAsciiLetter u || (text "._%-").contains u

theorem codePoints_ascii {s : Text} (h : ∀ u ∈ s, u.toNat < 128) :
    codePoints s = s.map UInt16.toNat := by
  induction s using codePoints.induct with
  | case1 => rfl
  | case2 u => rfl
  | case3 u v rest hpair ih =>
      have hu := h u (List.mem_cons_self ..)
      simp only [isHighSurrogate, Bool.and_eq_true, decide_eq_true_eq] at hpair
      omega
  | case4 u v rest hpair ih =>
      rw [codePoints, if_neg hpair, ih fun w hw => h w (List.mem_cons_of_mem _ hw)]
      rfl

theorem stripInvisible_ascii {s : Text} (h : ∀ u ∈ s, u.toNat < 128) :
    stripInvisible s = s.filter fun u => !isInvisible u.toNat := by
  have hencode : ∀ u ∈ s.filter (fun u => !isInvisible u.toNat), encodeCodePoint u.toNat = [u] := by
    intro u hu
    have hsmall := h u (List.mem_of_mem_filter hu)
    rw [encodeCodePoint, if_pos (by omega), UInt16.ofNat_toNat]
  rw [stripInvisible, codePoints_ascii h, List.filter_map, List.flatMap_map]
  exact (List.flatMap_congr hencode).trans (List.flatMap_singleton' _)

theorem stripInvisible_visible {s : Text} (h : ∀ u ∈ s, VisibleAscii u) : stripInvisible s = s := by
  rw [stripInvisible_ascii fun u hu => by have := (h u hu).2; omega, List.filter_eq_self]
  intro u hu
  obtain ⟨hlow, hhigh⟩ := h u hu
  simp only [isInvisible, Bool.not_eq_true', Bool.or_eq_false_iff, Bool.and_eq_false_iff,
    decide_eq_false_iff_not, beq_eq_false_iff_ne]
  omega

theorem isHostUnit_visible {u : CodeUnit} (h : isHostUnit u = true) : VisibleAscii u := by
  simp only [isHostUnit, isDigit, isAsciiLetter, isUpper, isLower, Bool.or_eq_true,
    Bool.and_eq_true, decide_eq_true_eq, List.contains_iff_mem] at h
  rcases h with (h | h | h) | h
  · exact ⟨by omega, by omega⟩
  · exact ⟨by omega, by omega⟩
  · exact ⟨by omega, by omega⟩
  · have hlist : (text "._%-").all (fun v => decide (0x20 < v.toNat ∧ v.toNat < 0x7F)) = true := by decide
    simpa [VisibleAscii] using List.all_eq_true.mp hlist u h

theorem isHostUnit_not_mark {u : CodeUnit} (h : isHostUnit u = true) :
    u ≠ unit ':' ∧ u ≠ unit '[' ∧ u ≠ unit ']' := by
  refine ⟨?_, ?_, ?_⟩
  all_goals
    rintro rfl
    revert h
    decide

theorem isHostCodePoint_ascii {u : CodeUnit} (h : u.toNat < 128) :
    isHostCodePoint P u.toNat = isHostUnit u := by
  have hunit (n : Nat) (hn : n < 128) : (u.toNat == n) = (u == UInt16.ofNat n) := by
    rw [Bool.eq_iff_iff, beq_iff_eq, beq_iff_eq, ← UInt16.toNat_inj, UInt16.toNat_ofNat',
      Nat.mod_eq_of_lt (by omega)]
  rw [isHostCodePoint, P.isLetterMarkNumber_ascii _ h, UInt16.ofNat_toNat, hunit _ (by decide),
    hunit _ (by decide), hunit _ (by decide), hunit _ (by decide), isHostUnit,
    show text "._%-" = [UInt16.ofNat 0x2E, UInt16.ofNat 0x5F, UInt16.ofNat 0x25, UInt16.ofNat 0x2D]
      by decide]
  simp only [List.contains_cons, List.contains_nil, Bool.or_assoc, Bool.or_false]

theorem isHostUnit_legal {u : CodeUnit} (h : isHostUnit u = true) : isIllegalHostUnit u = false := by
  have hnone : (text "<>\"\x7b\x7d|\\^").all (!isHostUnit ·) = true := by decide
  have htick : isHostUnit (UInt16.ofNat 0x60) = false := by decide
  simp only [isIllegalHostUnit, Bool.or_eq_false_iff, beq_eq_false_iff_ne]
  refine ⟨⟨(isHostUnit_visible h).not_space, ?_⟩, ?_⟩
  · rw [Bool.eq_false_iff]
    intro hillegal
    have hoff := List.all_eq_true.mp hnone u (List.contains_iff_mem.mp hillegal)
    simp [h] at hoff
  · intro heq
    rw [← heq, UInt16.ofNat_toNat, h] at htick
    cases htick

/-- What the parser accepts as an ASCII host. -/
theorem hostIsValid_ascii {s : Text} (hascii : ∀ u ∈ s, u.toNat < 128)
    (hstrip : stripInvisible s = s) : hostIsValid P s = true ↔
      s ≠ [] ∧ (∀ u ∈ s, isHostUnit u = true) ∧ [] ∉ s.dropTrailingDot.split (unit '.') := by
  have hpoints : (codePoints s).all (isHostCodePoint P) = true ↔ ∀ u ∈ s, isHostUnit u = true := by
    rw [codePoints_ascii hascii, List.all_map, List.all_eq_true]
    refine forall₂_congr fun u hu => ?_
    rw [Function.comp_apply, isHostCodePoint_ascii (hascii u hu)]
  simp only [hostIsValid, hstrip, Bool.and_eq_true, hpoints, bne_iff_ne, Bool.not_eq_true',
    List.contains_eq_mem, decide_eq_false_iff_not]
  constructor
  · rintro ⟨⟨⟨hne, -⟩, hunits⟩, hlabels⟩
    exact ⟨hne, hunits, hlabels⟩
  · rintro ⟨hne, hunits, hlabels⟩
    refine ⟨⟨⟨hne, ?_⟩, hunits⟩, hlabels⟩
    rw [List.any_eq_false]
    intro u hu
    simp [isHostUnit_legal (hunits u hu)]

/-! ### Tokens -/

theorem splitScheme_tuple {scheme : Text} (hscheme : scheme ∈ TUPLE_ORIGIN_SCHEMES) (rest : Text) :
    splitScheme (scheme ++ text "://" ++ rest) = (some (scheme, scheme), text "//" ++ rest) := by
  simp only [TUPLE_ORIGIN_SCHEMES, List.map_cons, List.map_nil, List.mem_cons, List.not_mem_nil,
    or_false] at hscheme
  rcases hscheme with rfl | rfl | rfl | rfl | rfl
  all_goals rfl

/-- The tokens after a tuple scheme. -/
structure TupleTokens (scheme rest : Text) (tokens : RawUrlTokens) : Prop where
  scheme : tokens.scheme = some scheme
  notOpaque : tokens.isOpaque = false
  introducer : tokens.authorityIntroducer = text "//" ++ rest.takeWhile isSlash
  authority : tokens.authority =
    (rest.drop (rest.takeWhile isSlash).length).takeWhile (!isAuthorityEnd ·)

theorem tokenizeRawUrl_tuple {scheme : Text} (hscheme : scheme ∈ TUPLE_ORIGIN_SCHEMES) (rest : Text) :
    TupleTokens scheme rest (tokenizeRawUrl (scheme ++ text "://" ++ rest)) := by
  have hfile : some scheme ≠ some (text "file") := by
    rw [Ne, Option.some.injEq]
    rintro rfl
    revert hscheme
    decide
  have hopaque : isOpaqueScheme scheme = false := by
    revert scheme
    decide
  have hintroducer : leadingAuthorityIntroducer (text "//" ++ rest) (some scheme) false =
      text "//" ++ rest.takeWhile isSlash := by
    rw [leadingAuthorityIntroducer, if_neg (by simp), if_pos (by rfl)]
    rfl
  have hdrop : (text "//" ++ rest).drop (text "//" ++ rest.takeWhile isSlash).length =
      rest.drop (rest.takeWhile isSlash).length := by
    rw [List.length_append, List.drop_length_add_append]
  constructor
  all_goals
    simp only [tokenizeRawUrl, splitScheme_tuple hscheme, Option.map_some, Option.any_some, hopaque,
      Bool.false_and, Bool.false_eq_true, if_false, if_neg hfile, Option.isNone_some, hintroducer,
      hdrop]

/-! ### A host and its port -/

/-- A unit of a host, a port or their marks. -/
def isAuthorityUnit (u : CodeUnit) : Bool := isHostUnit u || (text ":[]").contains u

theorem isAuthorityUnit_visible {u : CodeUnit} (h : isAuthorityUnit u = true) : VisibleAscii u := by
  rw [isAuthorityUnit, Bool.or_eq_true] at h
  rcases h with h | h
  · exact isHostUnit_visible h
  · have hlist : (text ":[]").all (fun v => decide (0x20 < v.toNat ∧ v.toNat < 0x7F)) = true := by decide
    simpa [VisibleAscii] using List.all_eq_true.mp hlist u (List.contains_iff_mem.mp h)

theorem isAuthorityUnit_not_end {u : CodeUnit} (h : isAuthorityUnit u = true) :
    isSlash u = false ∧ isAuthorityEnd u = false ∧ u ≠ unit '@' := by
  have hnone : (text "/\\?#@").all (!isAuthorityUnit ·) = true := by decide
  have hoff : u ∉ text "/\\?#@" := by
    intro hmem
    have hunit := List.all_eq_true.mp hnone u hmem
    simp [h] at hunit
  rw [show text "/\\?#@" = [unit '/', unit '\\', unit '?', unit '#', unit '@'] by decide] at hoff
  simp only [List.mem_cons, List.not_mem_nil, or_false, not_or] at hoff
  simp [isSlash, isAuthorityEnd, hoff]

theorem isHostUnit_of_isHexDigit {u : CodeUnit} (h : isHexDigit u = true) : isHostUnit u = true := by
  rw [isHexDigit, digitValue] at h
  simp only [isHostUnit, isAsciiLetter, isUpper, isLower, Bool.or_eq_true, Bool.and_eq_true,
    decide_eq_true_eq]
  split_ifs at h with hdigit hlower hupper
  · exact Or.inl (Or.inl hdigit)
  · simp only [Bool.and_eq_true, decide_eq_true_eq] at hlower
    exact Or.inl (Or.inr (Or.inr ⟨hlower.1, by omega⟩))
  · simp only [Bool.and_eq_true, decide_eq_true_eq] at hupper
    exact Or.inl (Or.inr (Or.inl ⟨hupper.1, by omega⟩))
  · cases h

variable (P) in
/-- A host that the parser accepts and leaves as it is. -/
inductive WrittenHost (host : Text) : Prop
  | ipv6 (groups : List Nat) (address : Rfc4291Address host groups)
  | name (ascii : ∀ u ∈ host, u.toNat < 128) (visible : stripInvisible host = host)
      (valid : hostIsValid P host = true)

theorem WrittenHost.units {host : Text} (h : WrittenHost P host) :
    ∀ u ∈ host, isAuthorityUnit u = true := by
  intro u hu
  rw [isAuthorityUnit, Bool.or_eq_true]
  cases h with
  | ipv6 groups address =>
      rcases (ipv6Text_iff.mpr address).units u hu with (hhex | rfl) | rfl
      · exact Or.inl (isHostUnit_of_isHexDigit hhex)
      · exact Or.inl (by decide)
      · exact Or.inr (by decide)
  | name ascii visible valid =>
      exact Or.inl (((hostIsValid_ascii ascii visible).mp valid).2.1 u hu)

theorem WrittenHost.ne_nil {host : Text} (h : WrittenHost P host) : host ≠ [] := by
  cases h with
  | ipv6 groups address => exact List.ne_nil_of_mem (ipv6Text_iff.mpr address).colon_mem
  | name ascii visible valid => exact ((hostIsValid_ascii ascii visible).mp valid).1

theorem decimalText_port {n : Nat} (hn : n ≤ MAX_PORT) :
    isPortDigits (decimalText n) = true ∧ toPort (decimalText n) = some n := by
  have hvalue : numeralValue 10 (decimalText n) = n :=
    numeralValue_numeralText (by decide) (by decide) n
  constructor
  · rw [isPortDigits, Bool.and_eq_true, bne_iff_ne, List.all_eq_true]
    exact ⟨numeralText_ne_nil (by decide) n, decimalText_isDigit n⟩
  · rw [toPort, hvalue, if_neg (Nat.not_lt.mpr hn)]

theorem splitHostPort_ipv6 {host : Text} {groups : List Nat} (address : Rfc4291Address host groups)
    {port : Option Nat} (hport : ∀ n, port = some n → n ≤ MAX_PORT) :
    splitHostPort (hostText true host ++ startedBy (unit ':') (port.map decimalText)) =
      some { rawHost := host, port, bracketed := true } := by
  have hclose : unit ']' ∉ unit '[' :: host := by
    intro hmem
    rcases List.mem_cons.mp hmem with heq | hmem
    · revert heq
      decide
    · rcases (ipv6Text_iff.mpr address).units _ hmem with (hhex | heq) | heq
      · revert hhex
        decide
      · revert heq
        decide
      · revert heq
        decide
  have hcut (tail : Text) :
      Text.cutFirst (unit ']') (hostText true host ++ tail) = (unit '[' :: host, some tail) := by
    simpa [hostText] using cutFirst_append (t := tail) hclose
  rw [splitHostPort, if_pos (by rfl), splitBracketed, hcut]
  cases port with
  | none => rfl
  | some n =>
      obtain ⟨hdigits, hvalue⟩ := decimalText_port (hport n rfl)
      simp [startedBy, hdigits, hvalue]

theorem splitHostPort_name {host : Text} (hne : host ≠ []) (hunits : ∀ u ∈ host, isHostUnit u = true)
    {port : Option Nat} (hport : ∀ n, port = some n → n ≤ MAX_PORT) :
    splitHostPort (hostText false host ++ startedBy (unit ':') (port.map decimalText)) =
      some { rawHost := host, port, bracketed := false } := by
  obtain ⟨first, rest, rfl⟩ := List.exists_cons_of_ne_nil hne
  have hopen : first ≠ unit '[' := (isHostUnit_not_mark (hunits first (List.mem_cons_self ..))).2.1
  have hfirst : ((first :: rest) ++ startedBy (unit ':') (port.map decimalText)).head? ≠
      some (unit '[') := by
    simpa using hopen
  rw [splitHostPort, hostText, if_neg Bool.false_ne_true, if_neg hfirst, splitUnbracketed]
  cases port with
  | none =>
      have hcolon : unit ':' ∉ first :: rest := fun hmem =>
        (isHostUnit_not_mark (hunits _ hmem)).1 rfl
      rw [Option.map_none, startedBy, Option.elim_none, List.append_nil, cutLast_of_not_mem hcolon]
  | some n =>
      obtain ⟨hdigits, hvalue⟩ := decimalText_port (hport n rfl)
      have hcolon : unit ':' ∉ decimalText n := by
        intro hmem
        have hdigit := decimalText_isDigit n _ hmem
        revert hdigit
        decide
      rw [Option.map_some, startedBy, Option.elim_some, cutLast_append hcolon]
      simp [hdigits, hvalue]

/-! ### Parsing -/

theorem WrittenHost.split {host : Text} (h : WrittenHost P host) {port : Option Nat}
    (hport : ∀ n, port = some n → n ≤ MAX_PORT) :
    ∃ bracketed, splitHostPort
        (hostText (analyzeIpv6 host).isSome host ++ startedBy (unit ':') (port.map decimalText)) =
      some { rawHost := host, port, bracketed } ∧
      (if bracketed then (analyzeIpv6 host).isSome else hostIsValid P host) = true := by
  cases h with
  | ipv6 groups address =>
      have hsome : (analyzeIpv6 host).isSome = true := analyzeIpv6_isSome_iff.mpr ⟨groups, address⟩
      rw [hsome]
      exact ⟨true, splitHostPort_ipv6 address hport, rfl⟩
  | name ascii visible valid =>
      obtain ⟨hne, hunits, -⟩ := (hostIsValid_ascii ascii visible).mp valid
      have hnone : (analyzeIpv6 host).isSome = false := by
        rw [Bool.eq_false_iff, Ne, analyzeIpv6_isSome_iff]
        rintro ⟨groups, address⟩
        exact (isHostUnit_not_mark (hunits _ (ipv6Text_iff.mpr address).colon_mem)).1 rfl
      rw [hnone]
      exact ⟨false, splitHostPort_name hne hunits hport, valid⟩

theorem WrittenHost.authority {host : Text} (h : WrittenHost P host) (port : Option Nat) :
    ∀ u ∈ hostText (analyzeIpv6 host).isSome host ++ startedBy (unit ':') (port.map decimalText),
      isAuthorityUnit u = true := by
  intro u hu
  rcases List.mem_append.mp hu with hu | hu
  · rw [hostText] at hu
    split at hu
    · rcases List.mem_append.mp hu with hu | hu
      · rcases List.mem_cons.mp hu with rfl | hu
        · decide
        · exact h.units u hu
      · rw [List.mem_singleton.mp hu]
        decide
    · exact h.units u hu
  · cases port with
    | none => cases hu
    | some n =>
        rcases List.mem_cons.mp hu with rfl | hu
        · decide
        · simp [isAuthorityUnit, isHostUnit, decimalText_isDigit n u hu]

theorem parseRawParts_of_scheme {tokens : RawUrlTokens} {split : SplitParts}
    (h : splitRawParts P tokens = some split) (hscheme : split.parts.scheme ≠ none) :
    parseRawParts P tokens = some split.parts := by
  have hbare : isBareSingleLabel split = false := by
    rw [isBareSingleLabel, if_pos (Or.inl hscheme)]
  rw [parseRawParts, h]
  dsimp only
  rw [hbare, if_neg Bool.false_ne_true]

theorem parseRawParts_rebuilt {scheme host : Text} (hscheme : scheme ∈ TUPLE_ORIGIN_SCHEMES)
    (hhost : WrittenHost P host) {port : Option Nat} (hport : ∀ n, port = some n → n ≤ MAX_PORT) :
    ∃ raw, parseRawParts P (tokenizeRawUrl (rebuiltUrl scheme host port)) = some raw ∧
      raw.scheme = some scheme ∧ raw.rawHost = host ∧ raw.port = port := by
  obtain ⟨bracketed, hsplit, hvalid⟩ := hhost.split hport
  have hunits := hhost.authority port
  have tokens := tokenizeRawUrl_tuple hscheme
    (hostText (analyzeIpv6 host).isSome host ++ startedBy (unit ':') (port.map decimalText))
  rw [← rebuiltUrl] at tokens
  generalize hostText (analyzeIpv6 host).isSome host ++ startedBy (unit ':') (port.map decimalText) =
    rest at hsplit hunits tokens
  have hslash : rest.takeWhile isSlash = [] := by
    cases rest with
    | nil => rfl
    | cons u rest =>
        rw [List.takeWhile_cons_of_neg]
        simp [(isAuthorityUnit_not_end (hunits u (List.mem_cons_self ..))).1]
  have hauthority : (tokenizeRawUrl (rebuiltUrl scheme host port)).authority = rest := by
    rw [tokens.authority, hslash, List.length_nil, List.drop_zero, List.takeWhile_eq_self_iff]
    intro u hu
    simp [(isAuthorityUnit_not_end (hunits u hu)).2.1]
  have hintroducer : (tokenizeRawUrl (rebuiltUrl scheme host port)).authorityIntroducer =
      text "//" := by
    rw [tokens.introducer, hslash, List.append_nil]
  have hat : unit '@' ∉ rest := fun hmem => (isAuthorityUnit_not_end (hunits _ hmem)).2.2 rfl
  have hfile : some scheme ≠ some (text "file") := by
    rw [Ne, Option.some.injEq]
    rintro rfl
    revert hscheme
    decide
  have hparseable : hasParseableAuthorityIntroducer (tokenizeRawUrl (rebuiltUrl scheme host port)) =
      true := by
    rw [hasParseableAuthorityIntroducer, tokens.scheme, if_neg (Option.some_ne_none _), hintroducer]
    rfl
  have hraw : splitRawParts P (tokenizeRawUrl (rebuiltUrl scheme host port)) = some
      { bracketed
        parts :=
          { scheme := (tokenizeRawUrl (rebuiltUrl scheme host port)).scheme, userinfo := none
            rawHost := host, port
            path := (tokenizeRawUrl (rebuiltUrl scheme host port)).path
            query := (tokenizeRawUrl (rebuiltUrl scheme host port)).query
            fragment := (tokenizeRawUrl (rebuiltUrl scheme host port)).fragment } } := by
    rw [splitRawParts, if_neg (by simp [tokens.notOpaque]),
      if_neg (by simp [tokens.scheme, hfile]), if_neg (by simp [hparseable]), hauthority,
      cutLast_of_not_mem hat]
    simp only [hsplit, Option.bind_eq_bind, Option.bind_some]
    exact if_pos hvalid
  exact ⟨_, parseRawParts_of_scheme hraw (by simp [tokens.scheme]), tokens.scheme, rfl, rfl⟩

variable (P) in
/-- The program's own analyzers or the lookup read the host as an address. -/
def ReadAsAddress (host : Text) : Prop :=
  isIpHost host = true ∨ host ≠ [] ∧ ∃ r, P.tldtsParse false host = .ok r ∧ r.isIp = some true

variable (P) in
/-- What a parsed input takes from its raw parts. -/
structure ReadsRaw (raw : RawParts) (ctx : InspectionContext) : Prop where
  scheme : ctx.scheme = raw.scheme
  host : ctx.host = stripInvisible raw.rawHost
  port : ctx.port = raw.port
  isIp : ctx.isIp = true ↔ ReadAsAddress P ctx.host

theorem deriveHostFacts_read {rawHost : Text} {facts : HostFacts}
    (h : deriveHostFacts P rawHost = .ok facts) :
    facts.host = stripInvisible rawHost ∧ (facts.psl.isIp = true ↔ ReadAsAddress P facts.host) := by
  rw [deriveHostFacts] at h
  split at h
  · rename_i hread
    obtain ⟨psl, hpsl, hfacts⟩ := bind_eq_ok.mp h
    cases hpsl
    cases hfacts
    refine ⟨rfl, ?_⟩
    change isIpHost (stripInvisible rawHost) = true ↔ _
    rcases hread with hempty | hread
    · simp [ReadAsAddress, hempty]
    · exact iff_of_true hread (Or.inl hread)
  · rename_i hread
    rw [not_or] at hread
    obtain ⟨psl, hpsl, hfacts⟩ := bind_eq_ok.mp h
    obtain ⟨r, hr, hpsl⟩ := bind_eq_ok.mp hpsl
    cases hpsl
    cases hfacts
    refine ⟨rfl, ?_⟩
    have hflag : r.isIp.getD false = true ↔ r.isIp = some true := by
      cases r.isIp with
      | none => simp
      | some flag => simp
    change r.isIp.getD false = true ↔ _
    rw [hflag]
    constructor
    · intro hip
      exact Or.inr ⟨hread.1, r, hr, hip⟩
    · rintro (hip | ⟨-, r', hr', hip⟩)
      · exact absurd hip hread.2
      · cases hr.symm.trans hr'
        exact hip

theorem parseDefault_raw {input : Text} {ctx : InspectionContext}
    (h : parseDefault P input = .ok (some ctx)) :
    ∃ raw, parseRawParts P (tokenizeRawUrl (prepare input)) = some raw ∧ ReadsRaw P raw ctx := by
  obtain ⟨runtime, -, h⟩ := bind_eq_ok.mp h
  unfold parseInput parsePrepared at h
  split at h
  · cases h
  · split at h
    · cases h
    · rename_i raw hraw
      obtain ⟨facts, hfacts, hctx⟩ := bind_eq_ok.mp h
      cases hctx
      obtain ⟨hhost, hip⟩ := deriveHostFacts_read hfacts
      exact ⟨raw, hraw, rfl, hhost, rfl, hip⟩

theorem parseDefault_of_raw {input : Text} {raw : RawParts}
    (hlookup : ∀ host, ∃ r, P.tldtsParse false host = .ok r) (hne : prepare input ≠ [])
    (hraw : parseRawParts P (tokenizeRawUrl (prepare input)) = some raw) :
    ∃ ctx, parseDefault P input = .ok (some ctx) ∧ ReadsRaw P raw ctx := by
  obtain ⟨parsed, hparsed⟩ := parseDefault_returns hlookup input
  cases parsed with
  | none =>
      obtain ⟨runtime, -, h⟩ := bind_eq_ok.mp hparsed
      rw [parseInput, if_neg hne, parsePrepared, hraw] at h
      obtain ⟨facts, -, hctx⟩ := bind_eq_ok.mp h
      cases hctx
  | some ctx =>
      obtain ⟨raw', hraw', reads⟩ := parseDefault_raw hparsed
      cases hraw.symm.trans hraw'
      exact ⟨ctx, hparsed, reads⟩

/-- A rebuilt URL parses to its parts. -/
theorem parseDefault_rebuilt {scheme host : Text} (hscheme : scheme ∈ TUPLE_ORIGIN_SCHEMES)
    (hlookup : ∀ host, ∃ r, P.tldtsParse false host = .ok r) (hhost : WrittenHost P host)
    {port : Option Nat} (hport : ∀ n, port = some n → n ≤ MAX_PORT) :
    ∃ ctx, parseDefault P (rebuiltUrl scheme host port) = .ok (some ctx) ∧
      ctx.scheme = some scheme ∧ ctx.host = host ∧ ctx.port = port ∧
      (ctx.isIp = true ↔ ReadAsAddress P host) := by
  obtain ⟨raw, hraw, hscheme', hhost', hport'⟩ := parseRawParts_rebuilt hscheme hhost hport
  have hvisible : ∀ u ∈ rebuiltUrl scheme host port, VisibleAscii u := by
    have hlist : (TUPLE_ORIGIN_SCHEMES.all fun scheme => (scheme ++ text "://").all
      fun v => decide (0x20 < v.toNat ∧ v.toNat < 0x7F)) = true := by decide
    intro u hu
    rcases List.mem_append.mp hu with hu | hu
    · simpa [VisibleAscii] using
        List.all_eq_true.mp (List.all_eq_true.mp hlist scheme hscheme) u hu
    · exact isAuthorityUnit_visible (hhost.authority port u hu)
  have hprepare : prepare (rebuiltUrl scheme host port) = rebuiltUrl scheme host port :=
    trim_of_visible hvisible
  have hne : prepare (rebuiltUrl scheme host port) ≠ [] := by
    rw [hprepare, rebuiltUrl, List.append_assoc]
    exact List.append_ne_nil_of_right_ne_nil _ (List.cons_ne_nil _ _)
  obtain ⟨ctx, hctx, reads⟩ := parseDefault_of_raw hlookup hne (by rw [hprepare]; exact hraw)
  have hstrip : stripInvisible host = host :=
    stripInvisible_visible fun u hu => isAuthorityUnit_visible (hhost.units u hu)
  have hctxHost : ctx.host = host := by rw [reads.host, hhost', hstrip]
  refine ⟨ctx, hctx, reads.scheme.trans hscheme', hctxHost, reads.port.trans hport', ?_⟩
  rw [← hctxHost]
  exact reads.isIp

/-! ### What a rebuilt URL can parse to -/

variable (P) in
/-- The host of parsed parts is an address literal, a name or missing, and the port is in range. -/
structure ValidParts (raw : RawParts) : Prop where
  host : raw.rawHost ≠ [] →
    (∃ groups, Rfc4291Address raw.rawHost groups) ∨ hostIsValid P raw.rawHost = true
  port : ∀ n, raw.port = some n → n ≤ MAX_PORT

theorem splitRawParts_valid {tokens : RawUrlTokens} {split : SplitParts}
    (h : splitRawParts P tokens = some split) : ValidParts P split.parts := by
  have hostless {scheme : Option Text} {path : Text} {query fragment : Option Text} :
      ValidParts P (hostlessParts scheme path query fragment).parts :=
    ⟨fun hne => absurd rfl hne, fun n hn => by cases hn⟩
  rw [splitRawParts] at h
  split at h
  · cases h
    exact hostless
  · split at h
    · cases h
      exact hostless
    · split at h
      · cases h
      · obtain ⟨hostPort, hhostPort, h⟩ := Option.bind_eq_some_iff.mp h
        rw [Option.ite_none_right_eq_some] at h
        obtain ⟨hvalid, hsplit⟩ := h
        cases hsplit
        refine ⟨fun _ => ?_, (splitHostPort_written hhostPort).range⟩
        cases hbracketed : hostPort.bracketed with
        | true =>
            rw [hbracketed, if_pos rfl] at hvalid
            exact Or.inl (analyzeIpv6_isSome_iff.mp hvalid)
        | false =>
            rw [hbracketed, if_neg Bool.false_ne_true] at hvalid
            exact Or.inr hvalid

theorem split_of_parseRawParts {tokens : RawUrlTokens} {raw : RawParts}
    (h : parseRawParts P tokens = some raw) :
    ∃ split, splitRawParts P tokens = some split ∧ split.parts = raw := by
  rw [parseRawParts] at h
  split at h
  · cases h
  · rename_i split hsplit
    rw [Option.ite_none_left_eq_some] at h
    exact ⟨split, hsplit, Option.some.inj h.2⟩

theorem parseRawParts_valid {tokens : RawUrlTokens} {raw : RawParts}
    (h : parseRawParts P tokens = some raw) : ValidParts P raw := by
  obtain ⟨split, hsplit, rfl⟩ := split_of_parseRawParts h
  exact splitRawParts_valid hsplit

/-- Only the end of a text after a tuple scheme is trimmed. -/
theorem prepare_tuple {scheme : Text} (hscheme : scheme ∈ TUPLE_ORIGIN_SCHEMES) (rest : Text) :
    ∃ kept, kept <+: rest ∧ prepare (scheme ++ text "://" ++ rest) = scheme ++ text "://" ++ kept := by
  have hend : (scheme ++ text "://").reverse.dropWhile isSpace = (scheme ++ text "://").reverse := by
    revert scheme
    decide
  have hstart : (scheme ++ text "://" ++ rest).dropWhile isSpace = scheme ++ text "://" ++ rest := by
    simp only [TUPLE_ORIGIN_SCHEMES, List.map_cons, List.map_nil, List.mem_cons, List.not_mem_nil,
      or_false] at hscheme
    rcases hscheme with rfl | rfl | rfl | rfl | rfl
    all_goals rfl
  rw [prepare, Text.trim, hstart, List.reverse_append, List.dropWhile_append, hend]
  split
  · exact ⟨[], List.nil_prefix, by simp⟩
  · refine ⟨(rest.reverse.dropWhile isSpace).reverse, ?_, by simp⟩
    rw [← List.reverse_suffix, List.reverse_reverse]
    exact List.dropWhile_suffix _

/-- The authority of a parsed text after a tuple scheme starts what follows the scheme. -/
theorem authority_tuple {scheme rest : Text} (hscheme : scheme ∈ TUPLE_ORIGIN_SCHEMES)
    {raw : RawParts} (hraw : parseRawParts P (tokenizeRawUrl (prepare (scheme ++ text "://" ++ rest))) =
      some raw) :
    ∃ userinfo bracketed zeros, endedBy userinfo (unit '@') ++ hostText bracketed raw.rawHost ++
      startedBy (unit ':') (raw.port.map (portText zeros)) <+: rest := by
  obtain ⟨kept, hkept, hprepare⟩ := prepare_tuple hscheme rest
  rw [hprepare] at hraw
  have tokens := tokenizeRawUrl_tuple hscheme kept
  generalize tokenizeRawUrl (scheme ++ text "://" ++ kept) = lexed at hraw tokens
  obtain ⟨split, hsplit, rfl⟩ := split_of_parseRawParts hraw
  have hfile : ¬(lexed.scheme = some (text "file") ∧ lexed.authority = []) := by
    rw [tokens.scheme, Option.some.injEq]
    rintro ⟨rfl, -⟩
    revert hscheme
    decide
  have hnotOpaque : ¬lexed.isOpaque = true := by simp [tokens.notOpaque]
  have hparseable : hasParseableAuthorityIntroducer lexed = true := by
    by_contra hnot
    rw [splitRawParts, if_neg hnotOpaque, if_neg hfile, if_pos (by simpa using hnot)] at hsplit
    cases hsplit
  have hslash : kept.takeWhile isSlash = [] := by
    rw [hasParseableAuthorityIntroducer, tokens.scheme, if_neg (Option.some_ne_none _),
      tokens.introducer, Bool.or_eq_true, beq_iff_eq, beq_iff_eq] at hparseable
    rcases hparseable with hempty | hpair
    · exact (List.append_eq_nil_iff.mp hempty).2
    · exact List.append_right_eq_self.mp hpair
  have hauthority : lexed.authority <+: rest := by
    rw [tokens.authority, hslash, List.length_nil, List.drop_zero]
    exact (List.takeWhile_prefix _).trans hkept
  have hnonempty : lexed.authority ≠ [] := by
    intro hempty
    rw [splitRawParts, if_neg hnotOpaque, if_neg hfile, if_neg (by simp [hparseable]), hempty] at hsplit
    cases hsplit
  obtain ⟨bracketed, zeros, hwritten, -⟩ :=
    (readsAuthority_of_splitRawParts tokens.notOpaque hnonempty hsplit).written
  exact ⟨split.parts.userinfo, bracketed, zeros, hwritten ▸ hauthority⟩

theorem mem_of_rawHost {scheme rest : Text} (hscheme : scheme ∈ TUPLE_ORIGIN_SCHEMES)
    {raw : RawParts} (hraw : parseRawParts P (tokenizeRawUrl (prepare (scheme ++ text "://" ++ rest))) =
      some raw) {u : CodeUnit} (hu : u ∈ raw.rawHost) : u ∈ rest := by
  obtain ⟨userinfo, bracketed, zeros, hprefix⟩ := authority_tuple hscheme hraw
  apply hprefix.subset
  apply List.mem_append_left
  apply List.mem_append_right
  rw [hostText]
  split
  · exact List.mem_append_left _ (List.mem_cons_of_mem _ hu)
  · exact hu

theorem hostText_length (bracketed : Bool) (host : Text) :
    host.length ≤ (hostText bracketed host).length := by
  rw [hostText]
  split
  · simp only [List.length_append, List.length_cons]
    omega
  · exact Nat.le_refl _

/-- A parsed host that is as long as the one of the rebuilt URL is that host. -/
theorem rawHost_rebuilt {scheme host : Text} (hscheme : scheme ∈ TUPLE_ORIGIN_SCHEMES)
    (hname : (analyzeIpv6 host).isSome = false) {port : Option Nat} {raw : RawParts}
    (hraw : parseRawParts P (tokenizeRawUrl (prepare (rebuiltUrl scheme host port))) = some raw)
    (hport : ∀ n, port = some n → raw.port = some n) (hlong : host.length ≤ raw.rawHost.length) :
    raw.rawHost = host := by
  rw [rebuiltUrl, hname, show hostText false host = host from rfl] at hraw
  obtain ⟨userinfo, bracketed, zeros, hprefix⟩ := authority_tuple hscheme hraw
  have hports : (startedBy (unit ':') (port.map decimalText)).length ≤
      (startedBy (unit ':') (raw.port.map (portText zeros))).length := by
    cases port with
    | none => exact Nat.zero_le _
    | some n =>
        rw [hport n rfl]
        simp [startedBy, portText]
  have hhost := hostText_length bracketed raw.rawHost
  have hshort := hprefix.length_le
  simp only [List.length_append] at hshort
  have huserinfo : endedBy userinfo (unit '@') = [] := by
    apply List.eq_nil_of_length_eq_zero
    omega
  have hplain : hostText bracketed raw.rawHost = raw.rawHost := by
    cases bracketed with
    | false => rfl
    | true =>
        simp only [hostText, if_true, List.length_append, List.length_cons] at hshort
        omega
  rw [huserinfo, hplain, List.nil_append] at hprefix
  have hhead : raw.rawHost <+: host ++ startedBy (unit ':') (port.map decimalText) :=
    (List.prefix_append ..).trans hprefix
  rw [hplain] at hshort
  have hlength : raw.rawHost.length = host.length := by omega
  exact (List.prefix_of_prefix_length_le hhead (List.prefix_append ..) hlength.le).eq_of_length hlength

end Linklint
