import Linklint.Compare.SuffixList
import Linklint.Detectors.IpClassification
import Linklint.Parse.Ipv6Forms

/-!
# Origins and sites agree

Both sites of a side are functions of its canonical host, and the ICANN site is one
of the other site. So equal origins have equal sites, and equal sites equal ICANN sites.
-/

namespace Linklint

variable {P : Platform} {tr46ToAscii : Bool → Text → Except Thrown (Option Text)}
  {literal : Text → Bool} {icann further : List (SuffixRules.Rule Text)}

/-! ### Written addresses -/

theorem analyzeIpv4_strip {s : Text} (h : (analyzeIpv4 s).isSome) :
    (analyzeIpv4 (stripTrailingRootDot s)).isSome := by
  obtain ⟨a, ha⟩ := Option.isSome_iff_exists.mp h
  obtain ⟨n, hn, -⟩ := analyzeIpv4_found ha
  apply analyzeIpv4_of_inetAton
  rwa [stripTrailingRootDot_of_last hn.last_ne_dot]

theorem analyzeIpv6_strip {s : Text} (h : (analyzeIpv6 s).isSome) :
    (analyzeIpv6 (stripTrailingRootDot s)).isSome := by
  obtain ⟨gs, address⟩ := analyzeIpv6_isSome_iff.mp h
  have literal := ipv6Text_iff.mpr address
  rwa [stripTrailingRootDot_of_last literal.last_ne_dot]

theorem isIpHost_strip {s : Text} (h : isIpHost s = true) :
    (analyzeIpv4 (stripTrailingRootDot s)).isSome ∨ (analyzeIpv6 (stripTrailingRootDot s)).isSome := by
  simp only [isIpHost, Bool.and_eq_true, Bool.or_eq_true] at h
  rcases h.2 with hv4 | ⟨-, hv6⟩
  · exact Or.inl (analyzeIpv4_strip hv4)
  · exact Or.inr (analyzeIpv6_strip hv6)

/-- What makes a host an address: the program's own analyzers or the lookup. -/
def ReadAsIp (P : Platform) (host : Text) : Prop :=
  isIpHost host = true ∨ ∃ r, P.tldtsParse false host = .ok r ∧ r.isIp = some true

theorem deriveHostFacts_isIp {rawHost : Text} {facts : HostFacts}
    (h : deriveHostFacts P rawHost = .ok facts) (hip : facts.psl.isIp = true) :
    ReadAsIp P facts.host := by
  rw [deriveHostFacts] at h
  split at h
  · obtain ⟨psl, hpsl, hfacts⟩ := bind_eq_ok.mp h
    cases hpsl
    cases hfacts
    exact Or.inl hip
  · obtain ⟨psl, hpsl, hfacts⟩ := bind_eq_ok.mp h
    obtain ⟨r, hr, hpsl⟩ := bind_eq_ok.mp hpsl
    cases hpsl
    cases hfacts
    refine Or.inr ⟨r, hr, ?_⟩
    cases hflag : r.isIp with
    | none => simp [hflag] at hip
    | some flag => simpa [hflag] using hip

theorem parseDefault_isIp {input : Text} {ctx : InspectionContext}
    (h : parseDefault P input = .ok (some ctx)) (hip : ctx.isIp = true) : ReadAsIp P ctx.host := by
  obtain ⟨runtime, -, h⟩ := bind_eq_ok.mp h
  unfold parseInput parsePrepared at h
  split at h
  · cases h
  · split at h
    · cases h
    · obtain ⟨facts, hfacts, hctx⟩ := bind_eq_ok.mp h
      cases hctx
      exact deriveHostFacts_isIp hfacts hip

theorem deriveHostFacts_returns {rawHost : Text}
    (hlookup : ∃ r, P.tldtsParse false (stripInvisible rawHost) = .ok r) :
    ∃ facts, deriveHostFacts P rawHost = .ok facts := by
  obtain ⟨r, hr⟩ := hlookup
  rw [deriveHostFacts]
  split
  · exact ⟨_, rfl⟩
  · apply bind_returns_iff.mpr
    exact ⟨_, bind_eq_ok.mpr ⟨r, hr, rfl⟩, _, rfl⟩

/-- Parsing returns whenever the lookup does. -/
theorem parseDefault_returns (hlookup : ∀ host, ∃ r, P.tldtsParse false host = .ok r)
    (input : Text) : ∃ parsed, parseDefault P input = .ok parsed := by
  apply bind_returns_iff.mpr
  refine ⟨_, rfl, ?_⟩
  unfold parseInput parsePrepared
  split
  · exact ⟨_, rfl⟩
  · split
    · exact ⟨_, rfl⟩
    · rename_i raw _
      obtain ⟨facts, hfacts⟩ := deriveHostFacts_returns (hlookup (stripInvisible raw.rawHost))
      exact ⟨_, bind_eq_ok.mpr ⟨facts, hfacts, rfl⟩⟩

section
variable (list : SuffixList P tr46ToAscii literal icann further)
include list

/-- The canonical host of an address is an IP literal of the suffix list. -/
theorem SuffixList.canonical_literal {ctx : InspectionContext} {host : Text}
    (hip : ReadAsIp P ctx.host)
    (h : canonicalHost P tr46ToAscii ctx.host true = some host) : literal (pslName host) = true := by
  simp only [canonicalHost, if_true, Option.ite_none_left_eq_some] at h
  obtain ⟨-, -, h⟩ := h
  cases hv4 : analyzeIpv4 (stripTrailingRootDot ctx.host) with
  | some v4 =>
      rw [hv4, Option.some.injEq] at h
      obtain ⟨n, hn, hcanonical, -⟩ := analyzeIpv4_found hv4
      have quad := ipv4Text_iff.mpr ⟨hn.lt, rfl⟩
      rw [← h, hcanonical, pslName_of_plain quad.last_ne_dot quad.lower]
      exact list.ipv4 n hn.lt
  | none =>
      cases hv6 : analyzeIpv6 (stripTrailingRootDot ctx.host) with
      | some v6 =>
          rw [hv4, hv6, Option.some.injEq] at h
          obtain ⟨gs, hgs, rfl⟩ := Option.map_eq_some_iff.mp hv6
          have address := ipv6Groups_iff.mp hgs
          have printed := canonicalizeIpv6_text address.length address.lt
          rw [← h, pslName_of_plain printed.last_ne_dot (canonicalizeIpv6_lower gs)]
          exact list.ipv6 gs address.length address.lt
      | none =>
          rw [hv4, hv6, Option.some.injEq] at h
          have hunread : isIpHost ctx.host ≠ true := by
            intro hread
            rcases isIpHost_strip hread with hsome | hsome
            · simp [hv4] at hsome
            · simp [hv6] at hsome
          obtain ⟨r, hr, hflag⟩ := hip.resolve_left hunread
          obtain ⟨r', hr', hliteral⟩ := list.written ctx.host
          cases hr.symm.trans hr'
          have hwritten := hliteral hflag
          have hascii := pslName_ascii (list.asciiLiteral _ hwritten)
          have hbare : ∀ u ∈ stripTrailingRootDot ctx.host, u.toNat < 128 := by
            intro u hu
            apply hascii
            rcases eq_stripTrailingRootDot ctx.host with heq | heq
            · rwa [heq]
            · rw [heq]
              exact List.mem_append_left _ hu
          rw [← h, P.toLowerCase_ascii _ hbare, pslName_lower, pslName_root]
          exact hwritten

/-! ### The view of a side -/

/-- A side has no host and no tuple origin, or a host that its sites are functions of. -/
inductive Viewed (literal : Text → Bool) (icann further : List (SuffixRules.Rule Text))
    (side : ComparedUrl) : Prop where
  | hostless (host : side.host = none) (site : side.site = none) (siteIcann : side.siteIcann = none)
      (kind : side.originKind ≠ .tupleOrigin)
  | hosted (name : Text) (host : side.host = some name)
      (site : side.site = some (siteUnder literal (icann ++ further) name))
      (siteIcann : side.siteIcann = some (siteUnder literal icann name))

theorem SuffixList.hostSide_viewed (input : Text) {name : Text} {ctx : InspectionContext}
    (hip : ctx.isIp = true → literal (pslName name) = true)
    (hascii : ctx.isIp = false → ∀ u ∈ name, u.toNat < 128) :
    ∃ side, hostSide P input ctx name = .ok side ∧ Viewed literal icann further side := by
  cases hflag : ctx.isIp with
  | true =>
      have hsite (rules : List (SuffixRules.Rule Text)) : siteUnder literal rules name = name := by
        simp [siteUnder, hip hflag]
      refine ⟨_, by simp only [hostSide, hflag, if_true]; rfl, ?_⟩
      exact .hosted name rfl (congrArg some (hsite _).symm) (congrArg some (hsite _).symm)
  | false =>
      obtain ⟨r, hr, hdomain⟩ := list.lookup true name (hascii hflag)
      obtain ⟨r', hr', hdomain'⟩ := list.lookup false name (hascii hflag)
      refine ⟨_, by simp only [hostSide, privateRegistrableDomain, analyzeHost, hflag, hr, hr']; rfl, ?_⟩
      refine .hosted name rfl ?_ ?_
      · simpa [siteUnder] using congrArg (Option.getD · name) hdomain
      · simpa [siteUnder] using congrArg (Option.getD · name) hdomain'

theorem SuffixList.describe_viewed (input : InputVal) :
    ∃ side, describe P tr46ToAscii input = .ok side ∧ Viewed literal icann further side := by
  cases input with
  | nonString typeName asString =>
      exact ⟨_, rfl, .hostless rfl rfl rfl (by decide)⟩
  | string input =>
      have hlookup (host : Text) : ∃ r, P.tldtsParse false host = .ok r :=
        (list.written host).imp fun _ h => h.1
      obtain ⟨parsed, hparsed⟩ := parseDefault_returns hlookup input
      cases parsed with
      | none =>
          exact ⟨_, bind_eq_ok.mpr ⟨none, hparsed, rfl⟩, .hostless rfl rfl rfl OriginKind.noConfusion⟩
      | some ctx =>
          cases hhost : canonicalHost P tr46ToAscii ctx.host ctx.isIp with
          | none =>
              refine ⟨hostlessSide input ctx,
                bind_eq_ok.mpr ⟨some ctx, hparsed, by simp only [hhost]; rfl⟩, ?_⟩
              refine .hostless rfl rfl rfl ?_
              simp only [hostlessSide]
              split
              · decide
              · decide
          | some name =>
              have hip (hflag : ctx.isIp = true) : literal (pslName name) = true := by
                rw [hflag] at hhost
                exact list.canonical_literal (parseDefault_isIp hparsed hflag) hhost
              have hascii (hflag : ctx.isIp = false) : ∀ u ∈ name, u.toNat < 128 := by
                simp only [canonicalHost, hflag, Bool.false_eq_true, if_false,
                  Option.ite_none_left_eq_some, toAsciiUnder] at hhost
                obtain ⟨-, -, hace⟩ := hhost
                split at hace
                · rename_i converted hconverted
                  rw [hace] at hconverted
                  exact list.ace _ _ hconverted
                · cases hace
              obtain ⟨side, hside, viewed⟩ := list.hostSide_viewed input hip hascii
              refine ⟨side, bind_eq_ok.mpr ⟨some ctx, hparsed, ?_⟩, viewed⟩
              simp only [hhost]
              exact hside

end

/-! ### The relations of two views -/

theorem relateOrigin_same {left right : ComparedUrl} (h : relateOrigin left right = .same) :
    left.originKind = .tupleOrigin ∧ right.originKind = .tupleOrigin ∧ left.host = right.host := by
  have hkind {side : ComparedUrl} (hknown : side.originKind ≠ .undetermined)
      (hshared : side.originKind ≠ .opaqueOrigin) : side.originKind = .tupleOrigin := by
    cases hkind : side.originKind with
    | tupleOrigin => rfl
    | opaqueOrigin => exact absurd hkind hshared
    | undetermined => exact absurd hkind hknown
  rw [relateOrigin] at h
  split_ifs at h with hundetermined hopaque hequal
  rw [not_or] at hundetermined hopaque
  exact ⟨hkind hundetermined.1 hopaque.1, hkind hundetermined.2 hopaque.2, hequal.2.1⟩

theorem relateSite_same {left right : ComparedUrl} {pick : ComparedUrl → Option Text} :
    relateSite left right pick = .same ↔
      ¬ siteUndetermined left ∧ ¬ siteUndetermined right ∧ pick left ≠ none ∧
        pick left = pick right := by
  rw [relateSite]
  split_ifs with hundetermined hnone hequal
  · simp only [false_iff]
    rintro ⟨hleft, hright, -⟩
    exact hundetermined.elim hleft hright
  · simp only [false_iff]
    rintro ⟨-, -, hleft, hequal⟩
    exact hnone.elim hleft fun hright => hleft (hequal.trans hright)
  · rw [not_or] at hundetermined hnone
    exact iff_of_true rfl ⟨hundetermined.1, hundetermined.2, hnone.1, hequal⟩
  · simp [hequal]

theorem Viewed.host_of_tuple {side : ComparedUrl} (h : Viewed literal icann further side)
    (hkind : side.originKind = .tupleOrigin) : ¬ siteUndetermined side ∧ side.site ≠ none := by
  cases h with
  | hostless host site siteIcann kind => exact absurd hkind kind
  | hosted name host site siteIcann => simp [siteUndetermined, hkind, site]

theorem Viewed.site_of_host {left right : ComparedUrl} (hleft : Viewed literal icann further left)
    (hright : Viewed literal icann further right) (h : left.host = right.host) :
    left.site = right.site := by
  cases hleft with
  | hostless host site _ _ =>
      cases hright with
      | hostless host' site' _ _ => rw [site, site']
      | hosted name host' _ _ => simp [host, host'] at h
  | hosted name host site _ =>
      cases hright with
      | hostless host' _ _ _ => simp [host, host'] at h
      | hosted name' host' site' _ =>
          rw [host, host', Option.some.injEq] at h
          rw [site, site', h]

theorem Viewed.icann_of_site {left right : ComparedUrl}
    (list : SuffixList P tr46ToAscii literal icann further)
    (hleft : Viewed literal icann further left) (hright : Viewed literal icann further right)
    (hsite : left.site ≠ none) (h : left.site = right.site) :
    left.siteIcann ≠ none ∧ left.siteIcann = right.siteIcann := by
  cases hleft with
  | hostless _ site _ _ => exact absurd site hsite
  | hosted name _ site siteIcann =>
      cases hright with
      | hostless _ site' _ _ => exact absurd (h.trans site') hsite
      | hosted name' _ site' siteIcann' =>
          rw [site, site', Option.some.injEq] at h
          rw [siteIcann, siteIcann', ← list.site_nested name, h, list.site_nested name']
          exact ⟨Option.some_ne_none _, rfl⟩

theorem relateOrigin_comm (left right : ComparedUrl) :
    relateOrigin left right = relateOrigin right left := by
  simp only [relateOrigin, or_comm, eq_comm]

theorem relateSite_comm (left right : ComparedUrl) (pick : ComparedUrl → Option Text) :
    relateSite left right pick = relateSite right left pick := by
  simp only [relateSite, or_comm, eq_comm]

variable (P tr46ToAscii)

/-- What holds of the relations of any two inputs. -/
structure RelationsAgree : Prop where
  returns : ∀ left right, ∃ comparison, compareUrls P tr46ToAscii left right = .ok comparison
  origin_site : ∀ left right comparison, compareUrls P tr46ToAscii left right = .ok comparison →
    comparison.sameOrigin = .same → comparison.sameSite = .same
  site_icann : ∀ left right comparison, compareUrls P tr46ToAscii left right = .ok comparison →
    comparison.sameSite = .same → comparison.sameSiteIcann = .same
  swap : ∀ left right comparison, compareUrls P tr46ToAscii left right = .ok comparison →
    compareUrls P tr46ToAscii right left =
      .ok { comparison with left := comparison.right, right := comparison.left }
  opaque_side : ∀ left right comparison, compareUrls P tr46ToAscii left right = .ok comparison →
    comparison.left.originKind = .opaqueOrigin ∨ comparison.right.originKind = .opaqueOrigin →
      comparison.sameOrigin ≠ .same

variable {P tr46ToAscii}

/-- A comparison reads the two described sides. -/
theorem compareUrls_eq_ok {left right : InputVal} {comparison : UrlComparison} :
    compareUrls P tr46ToAscii left right = .ok comparison ↔
      describe P tr46ToAscii left = .ok comparison.left ∧
      describe P tr46ToAscii right = .ok comparison.right ∧
      comparison.sameOrigin = relateOrigin comparison.left comparison.right ∧
      comparison.sameSite = relateSite comparison.left comparison.right ComparedUrl.site ∧
      comparison.sameSiteIcann = relateSite comparison.left comparison.right ComparedUrl.siteIcann ∧
      comparison.pslSnapshot = currentPslSnapshot P.now := by
  simp only [compareUrls, bind_eq_ok, pure_eq_ok]
  constructor
  · rintro ⟨a, ha, b, hb, rfl⟩
    exact ⟨ha, hb, rfl, rfl, rfl, rfl⟩
  · rintro ⟨ha, hb, horigin, hsite, hicann, hpsl⟩
    refine ⟨_, ha, _, hb, ?_⟩
    rw [← horigin, ← hsite, ← hicann, ← hpsl]

theorem SuffixList.described (list : SuffixList P tr46ToAscii literal icann further)
    {input : InputVal} {side : ComparedUrl} (h : describe P tr46ToAscii input = .ok side) :
    Viewed literal icann further side := by
  obtain ⟨side', hside, viewed⟩ := list.describe_viewed input
  rw [h, Except.ok.injEq] at hside
  rwa [hside]

theorem relations_agree (list : SuffixList P tr46ToAscii literal icann further) :
    RelationsAgree P tr46ToAscii where
  returns left right := by
    obtain ⟨a, ha, -⟩ := list.describe_viewed left
    obtain ⟨b, hb, -⟩ := list.describe_viewed right
    exact ⟨_, bind_eq_ok.mpr ⟨a, ha, bind_eq_ok.mpr ⟨b, hb, rfl⟩⟩⟩
  origin_site left right comparison h hsame := by
    obtain ⟨ha, hb, horigin, hsite, -⟩ := compareUrls_eq_ok.mp h
    have viewed := list.described ha
    have viewed' := list.described hb
    rw [horigin] at hsame
    obtain ⟨hkind, hkind', hhost⟩ := relateOrigin_same hsame
    rw [hsite, relateSite_same]
    obtain ⟨hknown, hnonempty⟩ := viewed.host_of_tuple hkind
    exact ⟨hknown, (viewed'.host_of_tuple hkind').1, hnonempty, viewed.site_of_host viewed' hhost⟩
  site_icann left right comparison h hsame := by
    obtain ⟨ha, hb, -, hsite, hicann, -⟩ := compareUrls_eq_ok.mp h
    rw [hsite, relateSite_same] at hsame
    obtain ⟨hknown, hknown', hnonempty, hequal⟩ := hsame
    rw [hicann, relateSite_same]
    exact ⟨hknown, hknown',
      (list.described ha).icann_of_site list (list.described hb) hnonempty hequal⟩
  swap left right comparison h := by
    obtain ⟨ha, hb, horigin, hsite, hicann, hpsl⟩ := compareUrls_eq_ok.mp h
    apply compareUrls_eq_ok.mpr
    refine ⟨hb, ha, ?_, ?_, ?_, hpsl⟩
    · exact horigin.trans (relateOrigin_comm _ _)
    · exact hsite.trans (relateSite_comm _ _ _)
    · exact hicann.trans (relateSite_comm _ _ _)
  opaque_side left right comparison h hside hsame := by
    obtain ⟨-, -, horigin, -⟩ := compareUrls_eq_ok.mp h
    rw [horigin] at hsame
    obtain ⟨hkind, hkind', -⟩ := relateOrigin_same hsame
    rw [hkind, hkind'] at hside
    exact hside.elim OriginKind.noConfusion OriginKind.noConfusion

/-! ### Two tenants of one platform -/

def ICANN_RULES : List (SuffixRules.Rule Text) := [[some (text "com")], [some (text "io")]]

def PRIVATE_RULES : List (SuffixRules.Rule Text) := [[some (text "github"), some (text "io")]]

/-- An address without dots, or four runs of digits. -/
def isLiteralText (s : Text) : Bool :=
  (s.all fun u => decide (u.toNat < 128)) &&
    (s.includes (unit ':') && !s.includes (unit '.') ||
      ((labelsOf s).length == 4 && (labelsOf s).all fun label => label.all isDigit))

/-- A platform that knows ASCII and whose suffix list has three rules. -/
def tenantPlatform : Platform :=
  { Platform.ascii with
    tldtsParse := fun allowPrivate host => .ok
      { domain :=
          if isLiteralText (pslName host) then none
          else registrableDomain
            (if allowPrivate then ICANN_RULES ++ PRIVATE_RULES else ICANN_RULES) (pslName host)
        publicSuffix := none, subdomain := none
        isIp := some (isLiteralText (pslName host)), isIcann := none } }

def asciiOnly (_ : Bool) (host : Text) : Except Thrown (Option Text) :=
  .ok (if host.all fun u => decide (u.toNat < 128) then some (host.map asciiLower) else none)

theorem isLiteralText_quad {n : Nat} (hn : n < 2 ^ 32) : isLiteralText (toDotted n) = true := by
  have quad := ipv4Text_iff.mpr ⟨hn, rfl⟩
  have hascii : ((toDotted n).all fun u => decide (u.toNat < 128)) = true := by
    simp only [List.all_eq_true, decide_eq_true_eq]
    intro u hu
    rcases quad.units u hu with hdigit | rfl
    · rw [isDigit_iff] at hdigit
      omega
    · decide
  have hdigits (m : Nat) : (decimalText m).all isDigit = true :=
    List.all_eq_true.mpr (decimalText_isDigit m)
  rw [isLiteralText, hascii, labelsOf, toDotted_split]
  simp [hdigits]

theorem isLiteralText_ipv6 {gs : List Nat} (eight : gs.length = 8) (small : ∀ g ∈ gs, g < 2 ^ 16) :
    isLiteralText (canonicalizeIpv6 gs) = true := by
  have printed := canonicalizeIpv6_text eight small
  have hhex {u : CodeUnit} (h : isHexDigit u = true) : u.toNat < 128 := by
    simp only [isHexDigit, digitValue, isDigit, Bool.and_eq_true, decide_eq_true_eq] at h
    split_ifs at h
    · omega
    · omega
    · omega
    · cases h
  have hascii : ((canonicalizeIpv6 gs).all fun u => decide (u.toNat < 128)) = true := by
    simp only [List.all_eq_true, decide_eq_true_eq]
    intro u hu
    rcases printed.units u hu with (hdigit | rfl) | rfl
    · exact hhex hdigit
    · decide
    · decide
  have hcolon := includes_iff.mpr printed.colon_mem
  have hdotless : (canonicalizeIpv6 gs).includes (unit '.') = false :=
    Bool.eq_false_iff.mpr (mt includes_iff.mp (canonicalizeIpv6_dotless gs))
  rw [isLiteralText, hascii, hcolon, hdotless]
  rfl

theorem tenantList :
    SuffixList tenantPlatform asciiOnly isLiteralText ICANN_RULES PRIVATE_RULES where
  lookup _ _ _ := ⟨_, rfl, rfl⟩
  written _ := ⟨_, rfl, Option.some.inj⟩
  ace host s h := by
    simp only [asciiOnly, Except.ok.injEq, Option.ite_none_right_eq_some, Option.some.injEq,
      List.all_eq_true, decide_eq_true_eq] at h
    obtain ⟨hascii, rfl⟩ := h
    intro u hu
    obtain ⟨v, hv, rfl⟩ := List.mem_map.mp hu
    have := hascii v hv
    rw [asciiLower_toNat]
    split
    · omega
    · omega
  named := by
    intro rule hrule
    simp only [ICANN_RULES, PRIVATE_RULES, List.cons_append, List.nil_append, List.mem_cons,
      List.not_mem_nil, or_false] at hrule
    rcases hrule with rfl | rfl | rfl
    · exact ⟨text "com", rfl, by decide⟩
    · exact ⟨text "io", rfl, by decide⟩
    · exact ⟨text "io", rfl, by decide⟩
  ipv4 _ := isLiteralText_quad
  ipv6 _ := isLiteralText_ipv6
  asciiLiteral s h := by
    simp only [isLiteralText, Bool.and_eq_true, List.all_eq_true, decide_eq_true_eq] at h
    exact h.1
  dottedLiteral s h hdot := by
    simp only [isLiteralText, Bool.and_eq_true, Bool.or_eq_true, Bool.not_eq_true', beq_iff_eq] at h
    obtain ⟨hfour, hdigits⟩ := h.2.resolve_left fun hcolon => by
      rw [includes_iff.mpr hdot] at hcolon
      cases hcolon.2
    have hne : labelsOf s ≠ [] := List.splitOn_ne_nil _ _
    exact ⟨hfour.ge, _, List.getLast?_eq_some_getLast hne,
      List.all_eq_true.mp hdigits _ (List.getLast_mem hne)⟩

/-- Two tenants of a platform of the private rules share the ICANN site and nothing else. -/
theorem relations_agree_tenants :
    RelationsAgree tenantPlatform asciiOnly ∧
      (compareUrls tenantPlatform asciiOnly (.string (text "https://alice.github.io/"))
        (.string (text "https://Mallory.GitHub.io.:443/"))).toOption.map
          (fun comparison => (comparison.sameOrigin, comparison.sameSite, comparison.sameSiteIcann)) =
        some (.different, .different, .same) :=
  ⟨relations_agree tenantList, by decide +kernel⟩

end Linklint
