import Linklint.Compare.HostForm

/-!
# Rebuilt inputs

An input compares as the same origin with the URL rebuilt from its canonical view exactly
when its ToASCII form is normal, and then no respelling of its host changes the answer.
-/

namespace Linklint

variable {P : Platform} {tr46ToAscii : (transitional : Bool) → Text → Except Thrown (Option Text)}
  {literal : Text → Bool}

/-! ### Tuple sides -/

/-- The port that a side compares: the default of the scheme is left out. -/
def comparedPort (scheme : Text) (port : Option Nat) : Option Nat :=
  if port ≠ none ∧ port = DEFAULT_PORTS.lookup scheme then none else port

theorem comparedPort_some {scheme : Text} {port : Option Nat} {n : Nat}
    (h : comparedPort scheme port = some n) : port = some n := by
  rw [comparedPort] at h
  split at h
  · cases h
  · exact h

theorem comparedPort_idem (scheme : Text) (port : Option Nat) :
    comparedPort scheme (comparedPort scheme port) = comparedPort scheme port := by
  by_cases hdefault : port ≠ none ∧ port = DEFAULT_PORTS.lookup scheme
  · rw [show comparedPort scheme port = none from if_pos hdefault]
    rfl
  · rw [show comparedPort scheme port = port from if_neg hdefault]
    exact if_neg hdefault

/-- A side of a tuple origin. -/
structure TupleSide (scheme host : Text) (port : Option Nat) (side : ComparedUrl) : Prop where
  kind : side.originKind = .tupleOrigin
  scheme : side.scheme = some scheme
  host : side.host = some host
  port : side.port = port

/-- An input with a tuple scheme and a host, as it was parsed. -/
structure ParsedTuple (P : Platform) (scheme : Text) (written : Text) (ctx : InspectionContext) :
    Prop where
  parsed : parseDefault P written = .ok (some ctx)
  tupleScheme : scheme ∈ TUPLE_ORIGIN_SCHEMES
  scheme : ctx.scheme = some scheme
  hosted : ctx.host ≠ []

theorem scheme_of_tuple {scheme : Option Text} (h : originKindOf scheme = .tupleOrigin) :
    ∃ name, scheme = some name ∧ name ∈ TUPLE_ORIGIN_SCHEMES := by
  cases scheme with
  | none => cases h
  | some name =>
      rw [originKindOf] at h
      split at h
      · rename_i hmem
        exact ⟨name, rfl, hmem⟩
      · cases h

theorem hostSide_fields {written host : Text} {ctx : InspectionContext} {side : ComparedUrl}
    (h : hostSide P written ctx host = .ok side) :
    side.originKind = originKindOf ctx.scheme ∧ side.scheme = ctx.scheme ∧ side.host = some host ∧
      side.port = comparedPort (ctx.scheme.getD []) ctx.port := by
  cases hflag : ctx.isIp with
  | true =>
      simp only [hostSide, hflag, if_true] at h
      cases h
      exact ⟨rfl, rfl, rfl, rfl⟩
  | false =>
      simp only [hostSide, hflag, Bool.false_eq_true, if_false] at h
      obtain ⟨domain, -, h⟩ := bind_eq_ok.mp h
      obtain ⟨site, -, h⟩ := bind_eq_ok.mp h
      obtain ⟨psl, -, h⟩ := bind_eq_ok.mp h
      obtain ⟨siteIcann, -, h⟩ := bind_eq_ok.mp h
      cases h
      exact ⟨rfl, rfl, rfl, rfl⟩

theorem hostSide_returns (hlookup : ∀ allowPrivate host, ∃ r, P.tldtsParse allowPrivate host = .ok r)
    (written host : Text) (ctx : InspectionContext) : ∃ side, hostSide P written ctx host = .ok side := by
  obtain ⟨r, hr⟩ := hlookup true host
  obtain ⟨r', hr'⟩ := hlookup false host
  cases hflag : ctx.isIp with
  | true => exact ⟨_, by simp only [hostSide, hflag, if_true]; rfl⟩
  | false =>
      exact ⟨_, by simp only [hostSide, privateRegistrableDomain, analyzeHost, hflag, hr, hr']; rfl⟩

theorem describe_of_parsed (hlookup : ∀ allowPrivate host, ∃ r, P.tldtsParse allowPrivate host = .ok r)
    {scheme written host : Text} {ctx : InspectionContext} (h : ParsedTuple P scheme written ctx)
    (hhost : canonicalHost P tr46ToAscii ctx.host ctx.isIp = some host) :
    ∃ side, describe P tr46ToAscii (.string written) = .ok side ∧
      TupleSide scheme host (comparedPort scheme ctx.port) side := by
  obtain ⟨side, hside⟩ := hostSide_returns hlookup written host ctx
  obtain ⟨hkind, hscheme, hsideHost, hport⟩ := hostSide_fields hside
  rw [h.scheme] at hkind hscheme hport
  refine ⟨side, bind_eq_ok.mpr ⟨some ctx, h.parsed, ?_⟩, ?_, hscheme, hsideHost, hport⟩
  · simp only [hhost]
    exact hside
  · rw [hkind, originKindOf, if_pos h.tupleScheme]

/-- A tuple side comes from a parsed input with a canonical host. -/
theorem parsed_of_describe {input : InputVal} {side : ComparedUrl}
    (h : describe P tr46ToAscii input = .ok side) (hkind : side.originKind = .tupleOrigin) :
    ∃ written ctx scheme host, input = .string written ∧ ParsedTuple P scheme written ctx ∧
      canonicalHost P tr46ToAscii ctx.host ctx.isIp = some host ∧
      TupleSide scheme host (comparedPort scheme ctx.port) side := by
  cases input with
  | nonString typeName asString =>
      cases h
      cases hkind
  | string written =>
      obtain ⟨parsed, hparsed, h⟩ := bind_eq_ok.mp h
      cases parsed with
      | none =>
          cases h
          cases hkind
      | some ctx =>
          cases hhost : canonicalHost P tr46ToAscii ctx.host ctx.isIp with
          | none =>
              simp only [hhost] at h
              cases h
              simp only [hostlessSide] at hkind
              split at hkind
              · cases hkind
              · cases hkind
          | some host =>
              simp only [hhost] at h
              obtain ⟨hsideKind, hsideScheme, hsideHost, hport⟩ := hostSide_fields h
              obtain ⟨scheme, hscheme, hmem⟩ := scheme_of_tuple (hsideKind.symm.trans hkind)
              rw [hscheme] at hsideScheme hport
              have hhosted : ctx.host ≠ [] := by
                intro hempty
                rw [canonicalHost, if_pos hempty] at hhost
                cases hhost
              exact ⟨written, ctx, scheme, host, rfl, ⟨hparsed, hmem, hscheme, hhosted⟩, hhost,
                hkind, hsideScheme, hsideHost, hport⟩

theorem TupleSide.origin {scheme host : Text} {port : Option Nat} {left right : ComparedUrl}
    (hleft : TupleSide scheme host port left) (hright : TupleSide scheme host port right) :
    relateOrigin left right = .same := by
  simp [relateOrigin, hleft.kind, hright.kind, hleft.scheme, hright.scheme, hleft.host, hright.host,
    hleft.port, hright.port]

theorem relateOrigin_parts {left right : ComparedUrl} (h : relateOrigin left right = .same) :
    left.scheme = right.scheme ∧ left.host = right.host ∧ left.port = right.port := by
  rw [relateOrigin] at h
  split_ifs at h with hundetermined hopaque hequal
  exact hequal

/-! ### Reproduced inputs -/

variable (P tr46ToAscii)

/-- An input compares as the same origin with the URL rebuilt from its canonical view. -/
def Reproduced (input : InputVal) : Prop :=
  ∀ side scheme host, describe P tr46ToAscii input = .ok side → side.originKind = .tupleOrigin →
    side.scheme = some scheme → side.host = some host →
    ∃ comparison, compareUrls P tr46ToAscii input (.string (rebuiltUrl scheme host side.port)) =
      .ok comparison ∧ comparison.sameOrigin = .same

/-- When the host of a tuple origin is no written address, its ToASCII form is normal. -/
def NormalInput (input : InputVal) : Prop :=
  ∀ written ctx scheme a, input = .string written → ParsedTuple P scheme written ctx →
    ctx.isIp = false → tr46ToAscii false (stripTrailingRootDot ctx.host) = .ok (some a) →
    NormalHost P a

variable {P tr46ToAscii}

section
variable (laws : HostLaws P tr46ToAscii literal)
include laws

/-- A name whose rebuilt URL parses to a name with this ToASCII form is its own ToASCII form. -/
theorem HostLaws.normal_of_rebuilt {scheme a : Text} (hscheme : scheme ∈ TUPLE_ORIGIN_SCHEMES)
    (hascii : ∀ u ∈ a, u.toNat < 128) {port : Option Nat} {ctx : InspectionContext}
    (hparsed : parseDefault P (rebuiltUrl scheme a port) = .ok (some ctx)) (hne : ctx.host ≠ [])
    (hport : ∀ n, port = some n → ctx.port = some n)
    (hname : ¬ IsAddress literal (stripTrailingRootDot ctx.host))
    (hmapped : tr46ToAscii false (stripTrailingRootDot ctx.host) = .ok (some a)) :
    NormalHost P a := by
  have spelled := parsed_spelled hparsed hne
  obtain ⟨raw, hraw, reads⟩ := parseDefault_raw hparsed
  have hrawAscii : ∀ u ∈ raw.rawHost, u.toNat < 128 := by
    intro u hu
    rcases List.mem_append.mp (mem_of_rawHost hscheme hraw hu) with hu | hu
    · rw [hostText] at hu
      split at hu
      · rcases List.mem_append.mp hu with hu | hu
        · rcases List.mem_cons.mp hu with rfl | hu
          · decide
          · exact hascii u hu
        · rw [List.mem_singleton.mp hu]
          decide
      · exact hascii u hu
    · cases port with
      | none => cases hu
      | some n =>
          rcases List.mem_cons.mp hu with rfl | hu
          · decide
          · have hdigit := decimalText_isDigit n u hu
            rw [isDigit_iff] at hdigit
            omega
  have hfilter := stripInvisible_ascii hrawAscii
  have hhostAscii : ∀ u ∈ ctx.host, u.toNat < 128 := by
    intro u hu
    rw [reads.host, hfilter] at hu
    exact hrawAscii u (List.mem_of_mem_filter hu)
  have hbareAscii : ∀ u ∈ stripTrailingRootDot ctx.host, u.toNat < 128 := by
    intro u hu
    apply hhostAscii
    rcases eq_stripTrailingRootDot ctx.host with heq | heq
    · rwa [heq]
    · rw [heq]
      exact List.mem_append_left _ hu
  have hlower := laws.lowers _ _ hbareAscii hmapped
  have hlength : a.length = (stripTrailingRootDot ctx.host).length := by
    rw [hlower, List.length_map]
  have hbareLength : (stripTrailingRootDot ctx.host).length ≤ ctx.host.length := by
    rcases eq_stripTrailingRootDot ctx.host with heq | heq
    · exact (congrArg List.length heq).ge
    · rw [congrArg List.length heq, List.length_append]
      omega
  have hhostLength : ctx.host.length ≤ raw.rawHost.length := by
    rw [reads.host, hfilter]
    exact List.length_filter_le _ _
  have hsix : (analyzeIpv6 a).isSome = false := by
    rw [Bool.eq_false_iff, Ne, analyzeIpv6_isSome_iff]
    rintro ⟨groups, address⟩
    have hcolon := (ipv6Text_iff.mpr address).colon_mem
    rw [hlower, mem_map_asciiLower (by decide)] at hcolon
    obtain ⟨hbare, haddress⟩ := spelled.address_of_colon hcolon
    apply hname
    rw [hbare]
    exact Or.inr (Or.inl (analyzeIpv6_isSome_iff.mpr haddress))
  -- The host of the rebuilt URL is as long as its own ToASCII form, so nothing of it is cut off.
  have hrawHost : raw.rawHost = a := rawHost_rebuilt hscheme hsix hraw
    (fun n hn => reads.port ▸ hport n hn) (by omega)
  rw [hrawHost] at hhostLength hfilter
  have hsub : ctx.host.Sublist a := by
    rw [reads.host, hrawHost, hfilter]
    exact List.filter_sublist
  have hhost : ctx.host = a := hsub.eq_of_length (by omega)
  have hbare : stripTrailingRootDot ctx.host = a := by
    rw [← hhost]
    rcases eq_stripTrailingRootDot ctx.host with heq | heq
    · exact heq.symm
    · have hlonger := congrArg List.length heq
      rw [List.length_append, List.length_singleton, hhost] at hlonger
      rw [hhost] at hlength
      omega
  have hvisible : stripInvisible a = a := by
    rw [← hrawHost, ← reads.host, hrawHost, hhost]
  have hvalid : hostIsValid P a = true := by
    have hcases := (parseRawParts_valid hraw).host (by rw [hrawHost, ← hhost]; exact hne)
    rw [hrawHost] at hcases
    refine hcases.resolve_left fun haddress => ?_
    rw [← analyzeIpv6_isSome_iff, hsix] at haddress
    cases haddress
  refine .name hvalid hvisible (hbare ▸ spelled.bare_last) fun v4 hv4 => ?_
  rw [hbare] at hname
  exact absurd (Or.inl (Option.isSome_of_mem hv4)) hname

/-- The canonical host of an input is settled, and its ToASCII form unless it is an address. -/
theorem HostLaws.settled_of_parsed {scheme written host : Text} {ctx : InspectionContext}
    (parsed : ParsedTuple P scheme written ctx)
    (hhost : canonicalHost P tr46ToAscii ctx.host ctx.isIp = some host)
    (hnormal : NormalInput P tr46ToAscii (.string written)) :
    Settled P tr46ToAscii literal host := by
  obtain ⟨hform, hip⟩ := laws.canonicalHost_form parsed.parsed parsed.hosted
  rw [hform] at hhost
  refine laws.settled_of_form (parsed_spelled parsed.parsed parsed.hosted) hhost fun hname => ?_
  rw [hostForm_name hname] at hhost
  have hflag : ctx.isIp = false := by
    rw [Bool.eq_false_iff]
    exact mt hip.mp hname
  exact hnormal written ctx scheme host rfl parsed hflag (toAsciiUnder_eq_some.mp hhost)

theorem HostLaws.reproduced_of_normal {input : InputVal}
    (hnormal : NormalInput P tr46ToAscii input) : Reproduced P tr46ToAscii input := by
  intro side scheme host hside hkind hscheme hhost
  obtain ⟨written, ctx, scheme', host', rfl, parsed, hcanonical, tuple⟩ :=
    parsed_of_describe hside hkind
  cases tuple.scheme.symm.trans hscheme
  cases tuple.host.symm.trans hhost
  have settled := laws.settled_of_parsed parsed hcanonical hnormal
  have hport : ∀ n, side.port = some n → n ≤ MAX_PORT := by
    intro n hn
    obtain ⟨raw, hraw, reads⟩ := parseDefault_raw parsed.parsed
    rw [tuple.port] at hn
    exact (parseRawParts_valid hraw).port n (reads.port.symm.trans (comparedPort_some hn))
  obtain ⟨ctx', hparsed', hscheme', hhost', hport', -⟩ :=
    parseDefault_rebuilt parsed.tupleScheme (laws.lookup false) settled.written hport
  have hne : ctx'.host ≠ [] := by
    rw [hhost']
    exact settled.written.ne_nil
  have parsed' : ParsedTuple P scheme (rebuiltUrl scheme host side.port) ctx' :=
    ⟨hparsed', parsed.tupleScheme, hscheme', hne⟩
  have hcanonical' : canonicalHost P tr46ToAscii ctx'.host ctx'.isIp = some host := by
    rw [(laws.canonicalHost_form hparsed' hne).1, hhost',
      stripTrailingRootDot_of_last settled.rootless, settled.fixed]
  obtain ⟨side', hside', tuple'⟩ := describe_of_parsed laws.lookup parsed' hcanonical'
  rw [hport', tuple.port, comparedPort_idem] at tuple'
  exact ⟨_, bind_eq_ok.mpr ⟨side, hside, bind_eq_ok.mpr ⟨side', hside', rfl⟩⟩, tuple.origin tuple'⟩

theorem HostLaws.normal_of_reproduced {input : InputVal}
    (hreproduced : Reproduced P tr46ToAscii input) : NormalInput P tr46ToAscii input := by
  rintro written ctx scheme a rfl parsed hflag hmapped
  have hname : ¬ IsAddress literal (stripTrailingRootDot ctx.host) := by
    rw [← (laws.canonicalHost_form parsed.parsed parsed.hosted).2, hflag]
    exact Bool.false_ne_true
  have hcanonical : canonicalHost P tr46ToAscii ctx.host ctx.isIp = some a := by
    rw [(laws.canonicalHost_form parsed.parsed parsed.hosted).1, hostForm_name hname]
    exact toAsciiUnder_eq_some.mpr hmapped
  obtain ⟨side, hside, tuple⟩ := describe_of_parsed laws.lookup parsed hcanonical
  obtain ⟨comparison, hcompared, hsame⟩ :=
    hreproduced side scheme a hside tuple.kind tuple.scheme tuple.host
  obtain ⟨hleft, hright, horigin, -⟩ := compareUrls_eq_ok.mp hcompared
  rw [hside, Except.ok.injEq] at hleft
  rw [horigin, ← hleft] at hsame
  obtain ⟨-, hkind, -⟩ := relateOrigin_same hsame
  obtain ⟨hsameScheme, hsameHost, hsamePort⟩ := relateOrigin_parts hsame
  obtain ⟨written', ctx', scheme', host', hwritten', parsed', hcanonical', tuple'⟩ :=
    parsed_of_describe hright hkind
  cases hwritten'
  have hscheme' : scheme' = scheme := Option.some.inj
    (tuple'.scheme.symm.trans (hsameScheme.symm.trans tuple.scheme))
  have hhost' : host' = a := Option.some.inj
    (tuple'.host.symm.trans (hsameHost.symm.trans tuple.host))
  subst hscheme' hhost'
  have hform' := (laws.canonicalHost_form parsed'.parsed parsed'.hosted).1
  rw [hcanonical'] at hform'
  by_cases haddress : IsAddress literal (stripTrailingRootDot ctx'.host)
  · exact (laws.settled_of_form (parsed_spelled parsed'.parsed parsed'.hosted) hform'.symm
      (absurd haddress)).normal
  · rw [hostForm_name haddress] at hform'
    refine laws.normal_of_rebuilt parsed'.tupleScheme (laws.ace _ _ hmapped) parsed'.parsed
      parsed'.hosted (fun n hn => ?_) haddress (toAsciiUnder_eq_some.mp hform'.symm)
    rw [hsamePort, tuple'.port] at hn
    exact comparedPort_some hn

end

/-! ### Respellings -/

variable (tr46ToAscii) in
/-- One host spelled in two ways. Letters mapped by UTS-46, among them the full-width ones, and the
two labels of an internationalized name share a ToASCII form. -/
inductive HostRespelling (host host' : Text) : Prop
  | letterCase (same : host'.map asciiLower = host.map asciiLower)
  | rootDot (same : stripTrailingRootDot host' = stripTrailingRootDot host)
  | mapped (same : tr46ToAscii false (stripTrailingRootDot host') =
      tr46ToAscii false (stripTrailingRootDot host))
  | ipv4 {a a' : Ipv4Analysis} (analyzed : analyzeIpv4 host = some a)
      (analyzed' : analyzeIpv4 host' = some a') (same : a'.canonical = a.canonical)

variable (P tr46ToAscii) in
/-- Two inputs with one tuple scheme and one port, but for the default port, and a respelled host. -/
structure Respelled (input input' : InputVal) : Prop where
  respelled : ∃ scheme written written' ctx ctx', input = .string written ∧
    input' = .string written' ∧ ParsedTuple P scheme written ctx ∧
    ParsedTuple P scheme written' ctx' ∧ comparedPort scheme ctx'.port = comparedPort scheme ctx.port ∧
    HostRespelling tr46ToAscii ctx.host ctx'.host

variable (P tr46ToAscii) in
/-- Any number of respellings, each between inputs whose ToASCII forms are normal. -/
def RespelledAs : InputVal → InputVal → Prop :=
  Relation.ReflTransGen fun input input' =>
    NormalInput P tr46ToAscii input ∧ NormalInput P tr46ToAscii input' ∧
      Respelled P tr46ToAscii input input'

section
variable (laws : HostLaws P tr46ToAscii literal)
include laws

theorem HostLaws.form_of_mapped {host host' : Text} (spelled : SpelledHost host)
    (spelled' : SpelledHost host')
    (hnormal : ¬ IsAddress literal (stripTrailingRootDot host) → ∀ a,
      tr46ToAscii false (stripTrailingRootDot host) = .ok (some a) → NormalHost P a)
    (hnormal' : ¬ IsAddress literal (stripTrailingRootDot host') → ∀ a,
      tr46ToAscii false (stripTrailingRootDot host') = .ok (some a) → NormalHost P a)
    (hsame : tr46ToAscii false (stripTrailingRootDot host') =
      tr46ToAscii false (stripTrailingRootDot host)) :
    hostForm tr46ToAscii literal (stripTrailingRootDot host') =
      hostForm tr46ToAscii literal (stripTrailingRootDot host) := by
  rw [laws.hostForm_mapped spelled hnormal, laws.hostForm_mapped spelled' hnormal', toAsciiUnder,
    toAsciiUnder, hsame]

/-- Respelling a host keeps its canonical form. -/
theorem HostLaws.form_of_respelling {host host' : Text} (spelled : SpelledHost host)
    (spelled' : SpelledHost host')
    (hnormal : ¬ IsAddress literal (stripTrailingRootDot host) → ∀ a,
      tr46ToAscii false (stripTrailingRootDot host) = .ok (some a) → NormalHost P a)
    (hnormal' : ¬ IsAddress literal (stripTrailingRootDot host') → ∀ a,
      tr46ToAscii false (stripTrailingRootDot host') = .ok (some a) → NormalHost P a)
    (h : HostRespelling tr46ToAscii host host') :
    hostForm tr46ToAscii literal (stripTrailingRootDot host') =
      hostForm tr46ToAscii literal (stripTrailingRootDot host) := by
  cases h with
  | letterCase same =>
      apply laws.form_of_mapped spelled spelled' hnormal hnormal'
      rw [← laws.folds, ← stripTrailingRootDot_asciiLower, same, stripTrailingRootDot_asciiLower,
        laws.folds]
  | rootDot same => rw [same]
  | mapped same => exact laws.form_of_mapped spelled spelled' hnormal hnormal' same
  | @ipv4 a a' analyzed analyzed' same =>
      have hbare (s : Text) (h : SpelledHost s) :
          analyzeIpv4 (stripTrailingRootDot s) = analyzeIpv4 s := by
        rw [analyzeIpv4, analyzeIpv4, h.bare_strip]
      rw [hostForm, hostForm, hbare _ spelled, hbare _ spelled', analyzed, analyzed']
      exact congrArg some same

theorem HostLaws.normal_form_of_name {scheme written : Text} {ctx : InspectionContext}
    (parsed : ParsedTuple P scheme written ctx)
    (hnormal : NormalInput P tr46ToAscii (.string written))
    (hname : ¬ IsAddress literal (stripTrailingRootDot ctx.host)) (a : Text)
    (hmapped : tr46ToAscii false (stripTrailingRootDot ctx.host) = .ok (some a)) :
    NormalHost P a := by
  have hflag : ctx.isIp = false := by
    rw [Bool.eq_false_iff]
    exact mt (laws.canonicalHost_form parsed.parsed parsed.hosted).2.mp hname
  exact hnormal written ctx scheme a rfl parsed hflag hmapped

/-- A respelled input has the same tuple origin. -/
theorem HostLaws.tuple_of_respelled {input input' : InputVal} (h : Respelled P tr46ToAscii input input')
    (hnormal : NormalInput P tr46ToAscii input) (hnormal' : NormalInput P tr46ToAscii input')
    {side : ComparedUrl} {scheme host : Text} {port : Option Nat}
    (hside : describe P tr46ToAscii input = .ok side) (tuple : TupleSide scheme host port side) :
    ∃ side', describe P tr46ToAscii input' = .ok side' ∧ TupleSide scheme host port side' := by
  obtain ⟨scheme₁, written, written', ctx, ctx', rfl, rfl, parsed, parsed', hport, hrespelled⟩ :=
    h.respelled
  obtain ⟨written₂, ctx₂, scheme₂, host₂, hwritten₂, parsed₂, hcanonical, tuple₂⟩ :=
    parsed_of_describe hside tuple.kind
  cases hwritten₂
  cases parsed.parsed.symm.trans parsed₂.parsed
  cases parsed.scheme.symm.trans parsed₂.scheme
  cases tuple₂.scheme.symm.trans tuple.scheme
  cases tuple₂.host.symm.trans tuple.host
  have hsame := laws.form_of_respelling (parsed_spelled parsed.parsed parsed.hosted)
    (parsed_spelled parsed'.parsed parsed'.hosted) (laws.normal_form_of_name parsed hnormal)
    (laws.normal_form_of_name parsed' hnormal') hrespelled
  have hcanonical' : canonicalHost P tr46ToAscii ctx'.host ctx'.isIp = some host := by
    rw [(laws.canonicalHost_form parsed'.parsed parsed'.hosted).1, hsame,
      ← (laws.canonicalHost_form parsed.parsed parsed.hosted).1, hcanonical]
  obtain ⟨side', hside', tuple'⟩ := describe_of_parsed laws.lookup parsed' hcanonical'
  rw [hport, ← tuple₂.port, tuple.port] at tuple'
  exact ⟨side', hside', tuple'⟩

theorem HostLaws.tuple_of_chain {input input' : InputVal} (h : RespelledAs P tr46ToAscii input input')
    {side : ComparedUrl} {scheme host : Text} {port : Option Nat}
    (hside : describe P tr46ToAscii input = .ok side) (tuple : TupleSide scheme host port side) :
    ∃ side', describe P tr46ToAscii input' = .ok side' ∧ TupleSide scheme host port side' := by
  induction h with
  | refl => exact ⟨side, hside, tuple⟩
  | tail _ step ih =>
      obtain ⟨side', hside', tuple'⟩ := ih
      obtain ⟨hnormal, hnormal', hrespelled⟩ := step
      exact laws.tuple_of_respelled hrespelled hnormal hnormal' hside' tuple'

end

variable (P tr46ToAscii) in
/-- The canonical view of an input is a normal form exactly for the normal inputs, and among these
respelling either side of a comparison keeps two inputs of one origin together. -/
structure ClosedForm : Prop where
  reproduced : ∀ input, Reproduced P tr46ToAscii input ↔ NormalInput P tr46ToAscii input
  respelled : ∀ left left' right right' comparison, RespelledAs P tr46ToAscii left left' →
    RespelledAs P tr46ToAscii right right' →
    compareUrls P tr46ToAscii left right = .ok comparison → comparison.sameOrigin = .same →
    ∃ comparison', compareUrls P tr46ToAscii left' right' = .ok comparison' ∧
      comparison'.sameOrigin = .same

theorem closed_form (laws : HostLaws P tr46ToAscii literal) : ClosedForm P tr46ToAscii where
  reproduced _ := ⟨laws.normal_of_reproduced, laws.reproduced_of_normal⟩
  respelled left left' right right' comparison hleft hright hcompared hsame := by
    obtain ⟨hleftSide, hrightSide, horigin, -⟩ := compareUrls_eq_ok.mp hcompared
    rw [horigin] at hsame
    obtain ⟨hleftKind, hrightKind, -⟩ := relateOrigin_same hsame
    obtain ⟨hscheme, hhost, hport⟩ := relateOrigin_parts hsame
    obtain ⟨_, _, scheme, host, -, -, -, leftTuple⟩ := parsed_of_describe hleftSide hleftKind
    have rightTuple : TupleSide scheme host _ comparison.right :=
      ⟨hrightKind, hscheme ▸ leftTuple.scheme, hhost ▸ leftTuple.host, hport ▸ leftTuple.port⟩
    obtain ⟨a, ha, leftTuple'⟩ := laws.tuple_of_chain hleft hleftSide leftTuple
    obtain ⟨b, hb, rightTuple'⟩ := laws.tuple_of_chain hright hrightSide rightTuple
    exact ⟨_, bind_eq_ok.mpr ⟨a, ha, bind_eq_ok.mpr ⟨b, hb, rfl⟩⟩, leftTuple'.origin rightTuple'⟩

/-! ### A full-width address -/

/-- The mapping of a unit that is ASCII or full-width. -/
def narrowUnit (u : CodeUnit) : CodeUnit :=
  asciiLower (if 0xFF01 ≤ u.toNat ∧ u.toNat ≤ 0xFF5E then u - 0xFEE0 else u)

def narrowToAscii (_ : Bool) (host : Text) : Except Thrown (Option Text) :=
  .ok (if (host.map narrowUnit).all (·.toNat < 128) then some (host.map narrowUnit) else none)

/-- Four labels of digits. -/
def isQuadText (s : Text) : Bool :=
  (labelsOf s).length == 4 && s.all fun u => isDigit u || u == unit '.'

/-- A platform that knows ASCII, its full-width forms and the quads. -/
def narrowPlatform : Platform :=
  { Platform.ascii with
    isLetterMarkNumber := fun cp =>
      Platform.ascii.isLetterMarkNumber cp || (0xFF10 ≤ cp && cp ≤ 0xFF19) ||
        (0xFF21 ≤ cp && cp ≤ 0xFF3A) || (0xFF41 ≤ cp && cp ≤ 0xFF5A)
    tldtsParse := fun _ host => .ok
      { domain := if isQuadText (pslName host) then none else some host
        publicSuffix := if isQuadText (pslName host) then none else (labelsOf host).getLast?
        subdomain := some [], isIp := some (isQuadText (pslName host)), isIcann := some false }
    isLetterMarkNumber_ascii := by
      intro cp hcp
      have hnarrow : (decide (0xFF10 ≤ cp) = false ∧ decide (0xFF21 ≤ cp) = false) ∧
          decide (0xFF41 ≤ cp) = false := by
        simp only [decide_eq_false_iff_not]
        omega
      simp [Platform.ascii.isLetterMarkNumber_ascii cp hcp, hnarrow] }

theorem narrowUnit_ascii {u : CodeUnit} (h : u.toNat < 128) : narrowUnit u = asciiLower u := by
  rw [narrowUnit, if_neg (by omega)]

theorem narrowUnit_lower (u : CodeUnit) : narrowUnit (asciiLower u) = narrowUnit u := by
  have hrange : (0xFF01 ≤ (asciiLower u).toNat ∧ (asciiLower u).toNat ≤ 0xFF5E) ↔
      (0xFF01 ≤ u.toNat ∧ u.toNat ≤ 0xFF5E) := by
    rw [asciiLower_toNat]
    split
    · omega
    · rfl
  by_cases hwide : 0xFF01 ≤ u.toNat ∧ u.toNat ≤ 0xFF5E
  · have hkept : asciiLower u = u := by
      rw [asciiLower, if_neg]
      simp only [isUpper, Bool.and_eq_true, decide_eq_true_eq]
      omega
    rw [hkept]
  · rw [narrowUnit, narrowUnit, if_neg hwide, if_neg (mt hrange.mp hwide), asciiLower_idem]

theorem narrowToAscii_ascii {host : Text} (h : ∀ u ∈ host, u.toNat < 128) :
    narrowToAscii false host = .ok (some (host.map asciiLower)) := by
  have hmap : host.map narrowUnit = host.map asciiLower :=
    List.map_congr_left fun u hu => narrowUnit_ascii (h u hu)
  rw [narrowToAscii, hmap, if_pos]
  simp only [List.all_map, List.all_eq_true, Function.comp_apply, decide_eq_true_eq]
  intro u hu
  have := h u hu
  rw [asciiLower_toNat]
  split
  · omega
  · omega

theorem narrowToAscii_some {host s : Text} (h : narrowToAscii false host = .ok (some s)) :
    s = host.map narrowUnit ∧ ∀ u ∈ s, u.toNat < 128 := by
  simp only [narrowToAscii, Except.ok.injEq, Option.ite_none_right_eq_some, Option.some.injEq,
    List.all_eq_true, decide_eq_true_eq] at h
  obtain ⟨hascii, rfl⟩ := h
  exact ⟨rfl, hascii⟩

theorem narrowLaws : HostLaws narrowPlatform narrowToAscii isQuadText where
  lookup _ _ := ⟨_, rfl⟩
  isIp host r _ h := by
    cases h
    exact Option.some_inj
  literalUnits s h u hu := by
    simp only [isQuadText, Bool.and_eq_true, List.all_eq_true, Bool.or_eq_true, beq_iff_eq] at h
    rcases h.2 u hu with hdigit | rfl
    · exact Or.inl (isDigit_isHexDigit hdigit)
    · exact Or.inr (by decide)
  ace _ _ h := (narrowToAscii_some h).2
  idempotent host s h := by
    obtain ⟨hmap, hascii⟩ := narrowToAscii_some h
    have hlower : s.map asciiLower = s := by
      have hidem : asciiLower ∘ narrowUnit = narrowUnit := by
        funext u
        rw [Function.comp_apply, narrowUnit, asciiLower_idem]
      rw [hmap, List.map_map, hidem]
    rw [narrowToAscii_ascii hascii, hlower]
  lowers host s hascii h := by
    rw [narrowToAscii_ascii hascii, Except.ok.injEq, Option.some.injEq] at h
    exact h.symm
  folds host := by
    have hlower : narrowUnit ∘ asciiLower = narrowUnit := funext narrowUnit_lower
    rw [narrowToAscii, narrowToAscii, List.map_map, hlower]
  plain _ hascii _ := narrowToAscii_ascii hascii

def narrowOrigin (left right : Text) : Option UrlRelation :=
  (compareUrls narrowPlatform narrowToAscii (.string left) (.string right)).toOption.map
    UrlComparison.sameOrigin

theorem closed_form_narrow : ClosedForm narrowPlatform narrowToAscii ∧
    narrowOrigin (text "https://0X7F.1:443/") (text "https://127.0.0.1.") = some .same :=
  ⟨closed_form narrowLaws, by decide +kernel⟩

/-- A full-width zero hides the hexadecimal spelling of the loopback address. -/
theorem fullwidth_differs : (¬ ∀ input, Reproduced narrowPlatform narrowToAscii input) ∧
    narrowOrigin (text "https://0x7f.1/") (text "https://127.0.0.1/") = some .same ∧
    narrowOrigin (text "https://０x7f.1/") (text "https://127.0.0.1/") = some .different := by
  refine ⟨fun hreproduced => ?_, by decide +kernel, by decide +kernel⟩
  have hview : (describe narrowPlatform narrowToAscii (.string (text "https://０x7f.1/"))).toOption.map
      (fun side => (side.originKind, side.scheme, side.host, side.port)) =
      some (.tupleOrigin, some (text "https"), some (text "0x7f.1"), none) := by decide +kernel
  cases hside : describe narrowPlatform narrowToAscii (.string (text "https://０x7f.1/")) with
  | error e =>
      rw [hside] at hview
      cases hview
  | ok side =>
      simp only [hside, Except.toOption, Option.map_some, Option.some.injEq, Prod.mk.injEq] at hview
      obtain ⟨hkind, hscheme, hhost, hport⟩ := hview
      obtain ⟨comparison, hcompared, hsame⟩ := hreproduced _ side _ _ hside hkind hscheme hhost
      have hdiffers : narrowOrigin (text "https://０x7f.1/")
          (rebuiltUrl (text "https") (text "0x7f.1") none) = some .different := by decide +kernel
      rw [hport] at hcompared
      rw [narrowOrigin, hcompared, Except.toOption, Option.map_some, hsame, Option.some.injEq] at hdiffers
      cases hdiffers

end Linklint
