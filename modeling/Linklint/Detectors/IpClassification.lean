import Linklint.Data.CloudMetadata
import Linklint.Data.IpRanges
import Linklint.Parse.CanonicalIpv6
import Linklint.Parse.StrictQuads
import Mathlib.Data.List.TakeWhile

/-!
# Literal IP classification

Classifies a literal IP host into one bucket: the metadata table first, then the
longest prefix, and an IPv6 wrapper by the IPv4 address inside it.
-/

namespace Linklint

open PrefixTable

inductive Bucket where
  | ipCloudMetadata
  | range (bucket : IpRangeBucket)
deriving DecidableEq

/-- A bucket decision with the attribution that goes with it. -/
structure BucketMatch where
  bucket : Bucket
  provider : Option Text := none
  endpointKind : Option CloudEndpointKind := none
  rangeName : Option Text := none
  rangeRfc : Option Text := none

/-- The 32-bit value of a canonical dotted quad. -/
def dottedToInt (dotted : Text) : Nat :=
  (dotted.split (unit '.')).foldl (fun n p => n * 256 + numeralValue 10 p) 0 % 2 ^ 32

def METADATA_IPV4 : List (Nat × CloudMetadataEndpoint) :=
  CLOUD_METADATA_ENDPOINTS.filterMap fun endpoint =>
    (analyzeIpv4 endpoint.address).map fun v4 => (dottedToInt v4.canonical, endpoint)

def METADATA_IPV6 : List (Text × CloudMetadataEndpoint) :=
  CLOUD_METADATA_ENDPOINTS.filterMap fun endpoint =>
    if (analyzeIpv4 endpoint.address).isSome then none
    else (analyzeIpv6 endpoint.address).map fun v6 => (v6.canonical, endpoint)

def metadataMatch (endpoint : CloudMetadataEndpoint) : BucketMatch :=
  { bucket := .ipCloudMetadata
    provider := some endpoint.provider
    endpointKind := some (endpoint.kind.getD .instanceMetadata) }

def rangeMatch (range : IpRangeMatch) : BucketMatch :=
  { bucket := .range range.bucket, rangeName := some range.name, rangeRfc := some range.rfc }

/-- `parseInt(h, 16)` of a piece between colons: its leading hexadecimal digits. -/
def parseIntHex (h : Text) : Option Nat :=
  let ds := h.takeWhile isHexDigit
  if ds = [] then none else some (numeralValue 16 ds)

/-- The pieces of a colon-separated run. -/
def hextetGroups (s : Text) : List (Option Nat) :=
  if s = [] then [] else (s.split (unit ':')).map parseIntHex

/-- The eight hextets of a canonical text. -/
def hextetsOf (canonical : Text) : Option (List Nat) := do
  let out ← match cutDoubleColon canonical with
    | none => some (hextetGroups canonical)
    | some (leftText, rightText) =>
        let left := hextetGroups leftText
        let right := hextetGroups rightText
        if 8 < left.length + right.length then none
        else some (left ++ List.replicate (8 - left.length - right.length) (some 0) ++ right)
  if out.length ≠ 8 then none else out.mapM id

def classifyIpv4 (dotted : Text) : Option BucketMatch :=
  let n := dottedToInt dotted
  match METADATA_IPV4.lookup n with
  | some endpoint => some (metadataMatch endpoint)
  | none => (matchIpv4Range n).map rangeMatch

def classifyIpv6 (canonical : Text) : Option BucketMatch :=
  let c := canonical.map asciiLower
  match METADATA_IPV6.lookup c with
  | some endpoint => some (metadataMatch endpoint)
  | none => do
      let hextets ← hextetsOf c
      (matchIpv6Range hextets).map rangeMatch

structure IpClassification where
  found : BucketMatch
  shown : Text
  canonical : Text
  embeddedVia : Option Text := none

/-- The host as an IPv6 literal is shown in a detail. -/
def bracketed (host : Text) : Text := unit '[' :: host ++ [unit ']']

def classifyHost (host : Text) : Option IpClassification :=
  if host = [] then none
  else
    match analyzeIpv4 host with
    | some ip4 =>
        (classifyIpv4 ip4.canonical).map fun found =>
          { found, shown := host, canonical := ip4.canonical }
    | none =>
        match analyzeIpv6 host with
        | none => none
        | some ip6 =>
            let embedded := ip6.embeddedIpv4.bind fun address =>
              (classifyIpv4 address).map fun found =>
                { found, shown := bracketed host, canonical := address,
                  embeddedVia := ip6.embeddedIpv4Via : IpClassification }
            match embedded with
            | some classification => some classification
            | none =>
                (classifyIpv6 ip6.canonical).map fun found =>
                  { found, shown := bracketed host, canonical := ip6.canonical }

/-! ### The canonical texts keep the bits -/

theorem toDotted_split (n : Nat) : (toDotted n).split (unit '.') =
    [decimalText (n / 2 ^ 24 % 256), decimalText (n / 2 ^ 16 % 256), decimalText (n / 2 ^ 8 % 256),
      decimalText (n % 256)] := by
  have hdot (m : Nat) : unit '.' ∉ decimalText m := numeralText_dotless (by decide) (by decide) m
  exact join_quad_split (hdot _) (hdot _) (hdot _) (hdot _)

theorem dottedToInt_toDotted {n : Nat} (hn : n < 2 ^ 32) : dottedToInt (toDotted n) = n := by
  have hvalue (m : Nat) : numeralValue 10 (decimalText m) = m :=
    numeralValue_numeralText (by decide) (by decide) m
  rw [dottedToInt, toDotted_split]
  simp only [List.foldl_cons, List.foldl_nil, hvalue]
  omega

theorem parseIntHex_hextet {p : Text} {g : Nat} (h : parseHextet p = some g) :
    parseIntHex p = some g := by
  have hall : p.takeWhile isHexDigit = p := List.takeWhile_eq_self_iff.mpr (parseHextet_units h)
  simp only [parseIntHex, hall, if_neg (parseHextet_ne_nil h), parseHextet_eq h]

theorem hextetGroups_colonJoin {ps : List Text} {gs : List Nat}
    (h : ps.mapM parseHextet = some gs) : hextetGroups (colonJoin ps) = gs.map some := by
  have run := hextetRun_of_mapM h
  have hmap : ps.map parseIntHex = gs.map some := by
    clear run
    induction ps generalizing gs with
    | nil =>
        simp only [List.mapM_nil, Option.pure_def, Option.some.injEq] at h
        rw [← h]
        rfl
    | cons p ps ih =>
        simp only [List.mapM_cons, Option.bind_eq_bind, Option.bind_eq_some_iff, Option.pure_def,
          Option.some.injEq] at h
        obtain ⟨g, hg, gs', hgs, rfl⟩ := h
        rw [List.map_cons, List.map_cons, parseIntHex_hextet hg, ih hgs]
  by_cases hps : ps = []
  · subst hps
    rw [← hmap]
    rfl
  · have hsplit : (colonJoin ps).split (unit ':') = ps :=
      List.splitOn_intercalate _ (fun p hp => (run.isPiece p hp).no_colon) hps
    rw [hextetGroups, if_neg (colonJoin_ne_nil run.isPiece hps), hsplit, hmap]

theorem dotless_pieces {s : Text} {ps : List Text} (hs : unit '.' ∉ s)
    (hsub : ∀ u ∈ colonJoin ps, u ∈ s) : ∀ p ∈ ps, unit '.' ∉ p := by
  refine dotless_left ?_
  rw [Bool.eq_false_iff, ne_eq, includes_iff]
  exact fun hmem => hs (hsub _ hmem)

/-- Without a dotted tail the expansion reads what the parser reads. -/
theorem hextetsOf_text {c : Text} {gs : List Nat} (h : Ipv6Text c gs) (dotless : unit '.' ∉ c) :
    hextetsOf c = some gs := by
  have hid (l : List Nat) : (l.map some).mapM id = some l := by
    induction l with
    | nil => rfl
    | cons g l ih => simp [ih]
  cases h with
  | full run eight =>
      have hps := run.mapM_eq (dotless_pieces dotless fun _ hu => hu)
      simp [hextetsOf, cutDoubleColon_colonJoin run.isPiece, hextetGroups_colonJoin hps, eight, hid]
  | @elided ls rs left right leftRun rightRun room =>
      have hrs := rightRun.mapM_eq (dotless_pieces dotless fun _ hu => List.mem_append_right _ hu)
      have hpieces := (hextetRun_of_mapM leftRun).isPiece
      have hfill : left.map some ++ List.replicate (8 - left.length - right.length) (some 0)
          ++ right.map some = (elide left right).map some := by
        rw [elide, Nat.sub_sub]
        simp
      simp only [hextetsOf, cutDoubleColon_elision hpieces, hextetGroups_colonJoin leftRun,
        hextetGroups_colonJoin hrs, List.length_map, Option.bind_eq_bind]
      rw [if_neg (by omega), Option.bind_some, hfill, List.length_map, elide_length room,
        if_neg (not_not.mpr rfl), hid]

theorem hextetsOf_canonicalizeIpv6 {gs : List Nat} (h : IsHextets gs) :
    hextetsOf (canonicalizeIpv6 gs) = some gs :=
  hextetsOf_text (canonicalizeIpv6_text h.eight h.small) (canonicalizeIpv6_dotless gs)

/-! ### The metadata maps are keyed by bits -/

theorem lookup_isSome_iff {κ β : Type} [BEq κ] [LawfulBEq κ] {k : κ} {l : List (κ × β)} :
    (l.lookup k).isSome ↔ ∃ b, (k, b) ∈ l := by
  induction l with
  | nil => simp
  | cons e l ih =>
      obtain ⟨k', b'⟩ := e
      by_cases h : k = k'
      · subst h
        simp only [List.lookup_cons_self, Option.isSome_some, true_iff]
        exact ⟨b', List.mem_cons_self ..⟩
      · have hbeq : (k == k') = false := beq_eq_false_iff_ne.mpr h
        rw [List.lookup_cons, hbeq, ih]
        simp [h]

theorem metadata_rows_strict : ∀ endpoint ∈ CLOUD_METADATA_ENDPOINTS,
    (analyzeIpv4 endpoint.address).isSome →
      (parseStrictDottedQuad endpoint.address).isSome := by
  decide +kernel

theorem metadataIpv4_iff {n : Nat} : (METADATA_IPV4.lookup n).isSome ↔
    ∃ endpoint ∈ CLOUD_METADATA_ENDPOINTS, Ipv4Text endpoint.address n := by
  rw [lookup_isSome_iff]
  simp only [METADATA_IPV4, List.mem_filterMap, Option.map_eq_some_iff, Prod.mk.injEq]
  constructor
  · rintro ⟨_, endpoint, hmem, v4, hv4, hkey, rfl⟩
    have hstrict := metadata_rows_strict endpoint hmem (by simp [hv4])
    obtain ⟨m, hm⟩ := Option.isSome_iff_exists.mp hstrict
    have quad := parseStrictDottedQuad_iff.mp hm
    rw [quad.analyzed] at hv4
    cases hv4
    rw [dottedToInt_toDotted quad.lt] at hkey
    exact ⟨endpoint, hmem, hkey ▸ quad⟩
  · rintro ⟨endpoint, hmem, quad⟩
    exact ⟨endpoint, endpoint, hmem, _, quad.analyzed, dottedToInt_toDotted quad.lt, rfl⟩

theorem canonicalizeIpv6_inj {gs hs : List Nat} (hg : IsHextets gs) (hh : IsHextets hs)
    (h : canonicalizeIpv6 gs = canonicalizeIpv6 hs) : gs = hs := by
  have hparse := ipv6Groups_canonicalizeIpv6 hg.eight hg.small
  rw [h, ipv6Groups_canonicalizeIpv6 hh.eight hh.small] at hparse
  exact (Option.some.inj hparse).symm

theorem Ipv6Text.isHextets {s : Text} {gs : List Nat} (h : Ipv6Text s gs) : IsHextets gs :=
  ⟨h.length, h.lt⟩

theorem metadataIpv6_iff {gs : List Nat} (h : IsHextets gs) :
    (METADATA_IPV6.lookup (canonicalizeIpv6 gs)).isSome ↔
      ∃ endpoint ∈ CLOUD_METADATA_ENDPOINTS, Ipv6Text endpoint.address gs := by
  rw [lookup_isSome_iff]
  simp only [METADATA_IPV6, List.mem_filterMap]
  constructor
  · rintro ⟨_, endpoint, hmem, hkey⟩
    split at hkey
    · cases hkey
    · obtain ⟨v6, hv6, heq⟩ := Option.map_eq_some_iff.mp hkey
      obtain ⟨groups, hgroups, rfl⟩ := Option.map_eq_some_iff.mp hv6
      have literal := ipv6Groups_iff.mp hgroups
      have hcanonical : canonicalizeIpv6 groups = canonicalizeIpv6 gs := (Prod.mk.inj heq).1
      rw [canonicalizeIpv6_inj literal.isHextets h hcanonical] at literal
      exact ⟨endpoint, hmem, literal⟩
  · rintro ⟨endpoint, hmem, literal⟩
    refine ⟨endpoint, endpoint, hmem, ?_⟩
    simp [analyzeIpv4_colon literal.colon_mem, analyzeIpv6, ipv6Groups_iff.mpr literal]

/-! ### What is classified -/

theorem classifyIpv4_toDotted {n : Nat} (hn : n < 2 ^ 32) : (classifyIpv4 (toDotted n)).isSome ↔
    (METADATA_IPV4.lookup n).isSome ∨ (matchIpv4Range n).isSome := by
  rw [classifyIpv4, dottedToInt_toDotted hn]
  cases METADATA_IPV4.lookup n <;> simp

theorem classifyIpv6_canonical {gs : List Nat} (h : IsHextets gs) :
    (classifyIpv6 (canonicalizeIpv6 gs)).isSome ↔
      (METADATA_IPV6.lookup (canonicalizeIpv6 gs)).isSome ∨ (matchIpv6Range gs).isSome := by
  rw [classifyIpv6, canonicalizeIpv6_lower]
  cases METADATA_IPV6.lookup (canonicalizeIpv6 gs) with
  | some endpoint => simp
  | none => simp [hextetsOf_canonicalizeIpv6 h]

/-- A quad is classified by its bits. -/
theorem classifyHost_quad {s : Text} {n : Nat} (h : Ipv4Text s n) :
    (classifyHost s).isSome ↔ (METADATA_IPV4.lookup n).isSome ∨ (matchIpv4Range n).isSome := by
  have hne : s ≠ [] := List.ne_nil_of_mem h.dot_mem
  rw [← classifyIpv4_toDotted h.lt, classifyHost, if_neg hne, h.analyzed]
  simp

/-- A literal is classified through its wrapper or by its own bits. -/
theorem classifyHost_literal {s : Text} {gs : List Nat} (h : Ipv6Text s gs) :
    (classifyHost s).isSome ↔
      ((unwrapLow32Ipv4 gs).bind fun e => classifyIpv4 e.address).isSome ∨
        (METADATA_IPV6.lookup (canonicalizeIpv6 gs)).isSome ∨ (matchIpv6Range gs).isSome := by
  have hne : s ≠ [] := List.ne_nil_of_mem h.colon_mem
  rw [← classifyIpv6_canonical h.isHextets, classifyHost, if_neg hne,
    analyzeIpv4_colon h.colon_mem, analyzeIpv6, ipv6Groups_iff.mpr h]
  cases hwrapped : unwrapLow32Ipv4 gs with
  | none => simp [hwrapped]
  | some e =>
      cases hv4 : classifyIpv4 e.address with
      | none => simp [hwrapped, hv4]
      | some found => simp [hwrapped, hv4]

/-- A text with a zone is no literal of the core parser. -/
theorem classifyHost_percent {s : Text} (hcolon : unit ':' ∈ s) (hpercent : unit '%' ∈ s) :
    classifyHost s = none := by
  have hgroups : ipv6Groups s = none := by
    cases hg : ipv6Groups s with
    | none => rfl
    | some gs => exact absurd hpercent (ipv6Groups_iff.mp hg).no_percent
  rw [classifyHost, if_neg (List.ne_nil_of_mem hcolon), analyzeIpv4_colon hcolon, analyzeIpv6,
    hgroups]
  rfl

end Linklint
