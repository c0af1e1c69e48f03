import Linklint.Transport.Address

/-!
# Refused addresses

Which bits the connection boundary refuses, whatever their spelling, and what a
zone suffix changes.
-/

namespace Linklint

open PrefixTable

/-! ### The texts of addresses -/

theorem not_quad_of_colon {s : Text} (h : unit ':' ∈ s) : parseStrictDottedQuad s = none := by
  cases hquad : parseStrictDottedQuad s with
  | none => rfl
  | some n => exact absurd h (parseStrictDottedQuad_iff.mp hquad).isPiece.no_colon

/-- The address reader reads the texts of the grammar. -/
theorem readAddress_iff {s : Text} {a : Address} :
    readAddress s = some a ↔ ∃ zone, AddressText s zone a := by
  constructor
  · intro h
    simp only [readAddress] at h
    cases hquad : parseStrictDottedQuad s with
    | some n =>
        rw [hquad] at h
        cases h
        exact ⟨none, .quad (parseStrictDottedQuad_iff.mp hquad)⟩
    | none =>
        rw [hquad] at h
        rcases hcut : Text.cutFirst (unit '%') s with ⟨body, _ | zone⟩
        · rw [hcut] at h
          obtain ⟨gs, hgs, rfl⟩ := Option.map_eq_some_iff.mp h
          exact ⟨none, eq_of_cutFirst_none hcut ▸ .literal (ipv6Groups_iff.mp hgs)⟩
        · simp only [hcut] at h
          split at h
          · rename_i hzone
            obtain ⟨gs, hgs, rfl⟩ := Option.map_eq_some_iff.mp h
            rw [eq_of_cutFirst hcut]
            exact ⟨some zone, .zoned (ipv6Groups_iff.mp hgs) hzone.1 hzone.2⟩
          · cases h
  · rintro ⟨zone, h⟩
    cases h with
    | quad quad => simp [readAddress, parseStrictDottedQuad_iff.mpr quad]
    | literal literal =>
        simp [readAddress, not_quad_of_colon literal.colon_mem,
          cutFirst_of_not_mem literal.no_percent, ipv6Groups_iff.mpr literal]
    | zoned literal ne units =>
        rename_i body zone _
        have hquad : parseStrictDottedQuad (body ++ unit '%' :: zone) = none :=
          not_quad_of_colon (List.mem_append_left _ literal.colon_mem)
        simp only [readAddress, hquad, cutFirst_append literal.no_percent,
          if_pos (And.intro ne units), ipv6Groups_iff.mpr literal, Option.map_some]

theorem AddressText.read {s : Text} {zone : Option Text} {a : Address}
    (h : AddressText s zone a) : readAddress s = some a :=
  readAddress_iff.mpr ⟨zone, h⟩

theorem AddressText.to_quad {s : Text} {n : Nat} (h : AddressText s none (.v4 n)) :
    Ipv4Text s n := by
  cases h with
  | quad quad => exact quad

theorem AddressText.to_literal {s : Text} {gs : List Nat} (h : AddressText s none (.v6 gs)) :
    Ipv6Text s gs := by
  cases h with
  | literal literal => exact literal

/-! ### The bits to refuse -/

def InMetadataRow (a : Address) : Prop :=
  ∃ endpoint ∈ CLOUD_METADATA_ENDPOINTS, AddressText endpoint.address none a

/-- A bucketed row of the special-purpose tables covers the bits. -/
def InSpecialRow : Address → Prop
  | .v4 n => InLabelledRow Ipv4RangeRow.block Ipv4RangeRow.bucket IPV4_RANGES n
  | .v6 gs => InLabelledRow Ipv6RangeRow.block Ipv6RangeRow.bucket IPV6_RANGES (addressValue gs)

def Supplemental (a : Address) : Prop := ∃ range ∈ SUPPLEMENTAL_RANGES, range.Contains a

instance (a : Address) : Decidable (Supplemental a) :=
  inferInstanceAs (Decidable (∃ range ∈ SUPPLEMENTAL_RANGES, _))

/-- The hextets carry the IPv4 address `n` behind a recognized prefix. -/
def Wraps (gs : List Nat) (n : Nat) : Prop :=
  ∃ wrapper ∈ LOW32_WRAPPERS, gs.take 6 = wrapper.hextets ∧ low32 gs = n

/-- The bits no connection may go to. -/
inductive Dangerous : Address → Prop
  | special {a : Address} (row : InSpecialRow a) : Dangerous a
  | metadata {a : Address} (row : InMetadataRow a) : Dangerous a
  | supplemental {a : Address} (range : Supplemental a) : Dangerous a
  | wrapped {gs : List Nat} {n : Nat} (wraps : Wraps gs n) (inner : Dangerous (.v4 n)) :
      Dangerous (.v6 gs)

/-! ### The tables against each other -/

def SupplementalRange.blockV4 (range : SupplementalRange) : Option (Block 32) :=
  match readAddress range.network with
  | some (.v4 n) => some ⟨n, range.prefixLength⟩
  | _ => none

def SupplementalRange.blockV6 (range : SupplementalRange) : Option (Block 128) :=
  match readAddress range.network with
  | some (.v6 gs) => some ⟨addressValue gs, range.prefixLength⟩
  | _ => none

def supplementalV4 : List (Block 32) := SUPPLEMENTAL_RANGES.filterMap SupplementalRange.blockV4

def supplementalV6 : List (Block 128) := SUPPLEMENTAL_RANGES.filterMap SupplementalRange.blockV6

theorem supplemental_v4 {n : Nat} :
    Supplemental (.v4 n) ↔ ∃ block ∈ supplementalV4, block.Covers n := by
  constructor
  · rintro ⟨range, hmem, hcontains⟩
    simp only [SupplementalRange.Contains] at hcontains
    split at hcontains
    · rename_i hread heq
      cases heq
      refine ⟨_, List.mem_filterMap.mpr ⟨range, hmem, ?_⟩, hcontains⟩
      simp [SupplementalRange.blockV4, hread]
    · rename_i heq
      cases heq
    · exact hcontains.elim
  · rintro ⟨block, hmem, hcovers⟩
    obtain ⟨range, hrange, hblock⟩ := List.mem_filterMap.mp hmem
    simp only [SupplementalRange.blockV4] at hblock
    split at hblock
    · rename_i hread
      cases hblock
      exact ⟨range, hrange, by simpa [SupplementalRange.Contains, hread] using hcovers⟩
    · cases hblock

theorem supplemental_v6 {gs : List Nat} :
    Supplemental (.v6 gs) ↔ ∃ block ∈ supplementalV6, block.Covers (addressValue gs) := by
  constructor
  · rintro ⟨range, hmem, hcontains⟩
    simp only [SupplementalRange.Contains] at hcontains
    split at hcontains
    · rename_i heq
      cases heq
    · rename_i hread heq
      cases heq
      refine ⟨_, List.mem_filterMap.mpr ⟨range, hmem, ?_⟩, hcontains⟩
      simp [SupplementalRange.blockV6, hread]
    · exact hcontains.elim
  · rintro ⟨block, hmem, hcovers⟩
    obtain ⟨range, hrange, hblock⟩ := List.mem_filterMap.mp hmem
    simp only [SupplementalRange.blockV6] at hblock
    split at hblock
    · rename_i hread
      cases hblock
      exact ⟨range, hrange, by simpa [SupplementalRange.Contains, hread] using hcovers⟩
    · cases hblock

/-- Every exception of the core table inside a bucketed row is a supplemental range. -/
theorem ipv4_exceptions :
    ExceptionsCovered Ipv4RangeRow.block Ipv4RangeRow.bucket IPV4_RANGES supplementalV4 := by
  decide +kernel

theorem ipv6_exceptions :
    ExceptionsCovered Ipv6RangeRow.block Ipv6RangeRow.bucket IPV6_RANGES supplementalV6 := by
  decide +kernel

/-- The bits behind a wrapper prefix. -/
def Low32Wrapper.block (wrapper : Low32Wrapper) : Block 128 :=
  ⟨addressValue (wrapper.hextets ++ [0, 0]), 96⟩

theorem wrappers_supplemental : ∀ wrapper ∈ LOW32_WRAPPERS, ∃ block ∈ supplementalV6,
    block.length ≤ 96 ∧ block.Covers wrapper.block.base := by
  decide +kernel

theorem wrapper_hextets : ∀ wrapper ∈ LOW32_WRAPPERS, IsHextets (wrapper.hextets ++ [0, 0]) := by
  intro wrapper hmem
  simp only [LOW32_WRAPPERS, List.mem_cons, List.not_mem_nil, or_false] at hmem
  rcases hmem with rfl | rfl | rfl | rfl
  · exact ⟨rfl, by decide⟩
  · exact ⟨rfl, by decide⟩
  · exact ⟨rfl, by decide⟩
  · exact ⟨rfl, by decide⟩

/-- Every wrapped address is in a supplemental range, public or not. -/
theorem Wraps.supplemental {gs : List Nat} {n : Nat} (hextets : IsHextets gs) (h : Wraps gs n) :
    Supplemental (.v6 gs) := by
  obtain ⟨wrapper, hmem, htake, _⟩ := h
  obtain ⟨block, hblock, hlength, hbase⟩ := wrappers_supplemental wrapper hmem
  have hwrapper := wrapper_hextets wrapper hmem
  have hsix : wrapper.hextets.length = 6 := by
    have := hwrapper.eight
    simpa using this
  have htakes : gs.take 6 = (wrapper.hextets ++ [0, 0]).take 6 := by
    rw [htake, ← hsix, List.take_left]
  have hcovers : wrapper.block.Covers (addressValue gs) :=
    (hextets.take_eq_iff hwrapper 6).mp htakes
  exact supplemental_v6.mpr ⟨block, hblock, hcovers.mono hbase hlength⟩

theorem unwrapped_wraps {gs : List Nat} {e : EmbeddedIpv4} (h : unwrapLow32Ipv4 gs = some e) :
    Wraps gs (low32 gs) := by
  simp only [unwrapLow32Ipv4] at h
  cases hwrapper : matchedWrapper gs with
  | none =>
      rw [hwrapper] at h
      cases h
  | some wrapper =>
      exact ⟨wrapper, List.mem_of_find?_eq_some hwrapper, by simpa using List.find?_some hwrapper, rfl⟩

/-- The longest-prefix answer names a bucketed row. -/
theorem special_of_match {Row : Type} {width : Nat} {block : Row → Block width}
    {bucket : Row → Option IpRangeBucket} {table : List Row} {a : Nat} {row : Row}
    (h : firstMatch block table a = some row) (hbucket : (bucket row).isSome) :
    InLabelledRow block bucket table a :=
  ⟨row, firstMatch_mem h, hbucket, firstMatch_covers h⟩

theorem matchIpv4Range_isSome {n : Nat} : (matchIpv4Range n).isSome ↔
    ∃ row, firstMatch Ipv4RangeRow.block IPV4_RANGES n = some row ∧ row.bucket.isSome := by
  rw [matchIpv4Range_eq]
  cases firstMatch Ipv4RangeRow.block IPV4_RANGES n <;> simp

theorem matchIpv6Range_isSome {gs : List Nat} (h : IsHextets gs) : (matchIpv6Range gs).isSome ↔
    ∃ row, firstMatch Ipv6RangeRow.block IPV6_RANGES (addressValue gs) = some row ∧
      row.bucket.isSome := by
  rw [matchIpv6Range_eq h]
  cases firstMatch Ipv6RangeRow.block IPV6_RANGES (addressValue gs) <;> simp

/-! ### The decision -/

theorem SUPPLEMENTAL_RANGES_family : ∀ range ∈ SUPPLEMENTAL_RANGES,
    (readAddress range.network).map Address.family = some range.family := by
  decide +kernel

theorem SupplementalRange.Contains.family {range : SupplementalRange} {a : Address}
    (h : range.Contains a) : (readAddress range.network).map Address.family = some a.family := by
  simp only [SupplementalRange.Contains] at h
  split at h
  · rename_i hread
    rw [hread]
    rfl
  · rename_i hread
    rw [hread]
    rfl
  · exact h.elim

/-- The second half of the decision looks at the bits alone. -/
theorem rules_isSome {s : Text} {a : Address} (h : readAddress s = some a) :
    (SUPPLEMENTAL_RANGES.find? fun rule => rule.family == a.family && rule.check s).isSome ↔
      Supplemental a := by
  rw [List.find?_isSome]
  constructor
  · rintro ⟨range, hmem, hrule⟩
    simp only [SupplementalRange.check, h, Bool.and_eq_true, decide_eq_true_eq] at hrule
    exact ⟨range, hmem, hrule.2⟩
  · rintro ⟨range, hmem, hcontains⟩
    have hfamily := hcontains.family
    rw [SUPPLEMENTAL_RANGES_family range hmem, Option.some.injEq] at hfamily
    exact ⟨range, hmem, by simp [SupplementalRange.check, h, hcontains, hfamily]⟩

/-- An accepted text is refused by the core classifier or by a supplemental rule. -/
theorem allowed_eq_false_iff {s : Text} {a : Address} (h : readAddress s = some a) :
    (classifyTransportAddress s).allowed = false ↔ (classifyHost s).isSome ∨ Supplemental a := by
  have hip : isIP s = some a.family := by rw [isIP, h, Option.map_some]
  rw [← rules_isSome h, classifyTransportAddress, hip]
  cases classifyHost s with
  | some classification => simp
  | none =>
      cases hrule : SUPPLEMENTAL_RANGES.find? fun rule =>
          rule.family == a.family && rule.check s with
      | some rule => simp [hrule]
      | none => simp [hrule]

/-- A quad is refused for its bits. -/
theorem quad_refused_iff {s : Text} {n : Nat} (h : Ipv4Text s n) :
    (classifyTransportAddress s).allowed = false ↔ Dangerous (.v4 n) := by
  have text : AddressText s none (.v4 n) := .quad h
  rw [allowed_eq_false_iff text.read, classifyHost_quad h, metadataIpv4_iff, matchIpv4Range_isSome]
  constructor
  · rintro ((⟨endpoint, hmem, quad⟩ | ⟨row, hmatch, hbucket⟩) | hsupplemental)
    · exact .metadata ⟨endpoint, hmem, .quad quad⟩
    · exact .special (special_of_match hmatch hbucket)
    · exact .supplemental hsupplemental
  · intro hdanger
    cases hdanger with
    | special row =>
        rcases labelled_or_backstop IPV4_RANGES_sorted ipv4_exceptions row with hmatch | hstop
        · exact Or.inl (Or.inr hmatch)
        · exact Or.inr (supplemental_v4.mpr hstop)
    | metadata row =>
        obtain ⟨endpoint, hmem, row⟩ := row
        exact Or.inl (Or.inl ⟨endpoint, hmem, row.to_quad⟩)
    | supplemental range => exact Or.inr range

/-- So is an IPv6 literal without a zone. -/
theorem literal_refused_iff {s : Text} {gs : List Nat} (h : Ipv6Text s gs) :
    (classifyTransportAddress s).allowed = false ↔ Dangerous (.v6 gs) := by
  have text : AddressText s none (.v6 gs) := .literal h
  have hextets := h.isHextets
  rw [allowed_eq_false_iff text.read, classifyHost_literal h, metadataIpv6_iff hextets,
    matchIpv6Range_isSome hextets]
  constructor
  · rintro ((hembedded | ⟨endpoint, hmem, literal⟩ | ⟨row, hmatch, hbucket⟩) | hsupplemental)
    · cases hunwrap : unwrapLow32Ipv4 gs with
      | none =>
          rw [hunwrap] at hembedded
          cases hembedded
      | some e => exact .supplemental ((unwrapped_wraps hunwrap).supplemental hextets)
    · exact .metadata ⟨endpoint, hmem, .literal literal⟩
    · exact .special (special_of_match hmatch hbucket)
    · exact .supplemental hsupplemental
  · intro hdanger
    cases hdanger with
    | special row =>
        rcases labelled_or_backstop IPV6_RANGES_sorted ipv6_exceptions row with hmatch | hstop
        · exact Or.inl (Or.inr (Or.inr hmatch))
        · exact Or.inr (supplemental_v6.mpr hstop)
    | metadata row =>
        obtain ⟨endpoint, hmem, row⟩ := row
        exact Or.inl (Or.inr (Or.inl ⟨endpoint, hmem, row.to_literal⟩))
    | supplemental range => exact Or.inr range
    | wrapped wraps _ => exact Or.inr (wraps.supplemental hextets)

/-- With a zone the core classifier is silent and only the supplemental rules are left. -/
theorem zoned_refused_iff {s zone : Text} {a : Address} (h : AddressText s (some zone) a) :
    (classifyTransportAddress s).allowed = false ↔ Supplemental a := by
  have hsilent : classifyHost s = none := by
    cases h with
    | zoned literal ne units =>
        exact classifyHost_percent (List.mem_append_left _ literal.colon_mem)
          (List.mem_append_right _ (List.mem_cons_self ..))
  rw [allowed_eq_false_iff h.read, hsilent]
  simp

theorem refused_iff {s : Text} {zone : Option Text} {a : Address} (h : AddressText s zone a) :
    (classifyTransportAddress s).allowed = false ↔
      Dangerous a ∧ (zone = none ∨ Supplemental a) := by
  cases zone with
  | some zone =>
      rw [zoned_refused_iff h]
      constructor
      · exact fun hs => ⟨.supplemental hs, Or.inr hs⟩
      · rintro ⟨_, hzone | hs⟩
        · cases hzone
        · exact hs
  | none =>
      have hrefused : (classifyTransportAddress s).allowed = false ↔ Dangerous a := by
        cases h with
        | quad quad => exact quad_refused_iff quad
        | literal literal => exact literal_refused_iff literal
      simp [hrefused]

/-- The decision is fail-closed and the same for two spellings of the same bits exactly when no
zone suffix hides bits that only the core classifier knows. -/
theorem classifyTransportAddress_iff {s s' : Text} {zone zone' : Option Text} {a : Address}
    (h : AddressText s zone a) (h' : AddressText s' zone' a) :
    ((Dangerous a → (classifyTransportAddress s).allowed = false) ↔
      (zone = none ∨ Supplemental a ∨ ¬ Dangerous a)) ∧
    ((classifyTransportAddress s).allowed = (classifyTransportAddress s').allowed ↔
      ((zone = none ↔ zone' = none) ∨ Supplemental a ∨ ¬ Dangerous a)) := by
  have hrefused := refused_iff h
  have hrefused' := refused_iff h'
  constructor
  · rw [hrefused]
    by_cases hs : Supplemental a
    · simp [hs]
    · by_cases hd : Dangerous a <;> simp [hs, hd]
  · have hsame : (classifyTransportAddress s).allowed = (classifyTransportAddress s').allowed ↔
        ((classifyTransportAddress s).allowed = false ↔
          (classifyTransportAddress s').allowed = false) := by
      cases (classifyTransportAddress s).allowed <;>
        cases (classifyTransportAddress s').allowed <;> simp
    rw [hsame, hrefused, hrefused']
    by_cases hs : Supplemental a
    · simp [hs]
    · by_cases hd : Dangerous a <;> simp [hs, hd]

/-- The bits of the link-local literal `fe80::1`. -/
def linkLocalOne : Address := .v6 [0xfe80, 0, 0, 0, 0, 0, 0, 1]

theorem linkLocal_text : AddressText (text "fe80::1") none linkLocalOne :=
  .literal (ipv6Groups_iff.mp (by decide +kernel))

theorem linkLocal_zone_text :
    AddressText (text "fe80::1%eth0") (some (text "eth0")) linkLocalOne :=
  @AddressText.zoned (text "fe80::1") (text "eth0") _ linkLocal_text.to_literal (by decide)
    (by decide)

theorem linkLocal_dangerous : Dangerous linkLocalOne :=
  (refused_iff linkLocal_text).mp (by decide +kernel) |>.1

theorem linkLocal_not_supplemental : ¬ Supplemental linkLocalOne := by decide +kernel

theorem classifyTransportAddress_iff_linkLocal :
    (Dangerous linkLocalOne → (classifyTransportAddress (text "fe80::1")).allowed = false) ∧
      (classifyTransportAddress (text "fe80::1")).allowed
        ≠ (classifyTransportAddress (text "fe80::1%eth0")).allowed := by
  have both := classifyTransportAddress_iff linkLocal_text linkLocal_zone_text
  refine ⟨both.1.mpr (Or.inl rfl), fun hsame => ?_⟩
  rcases both.2.mp hsame with hzone | hsupplemental | hsafe
  · cases hzone.mp rfl
  · exact linkLocal_not_supplemental hsupplemental
  · exact hsafe linkLocal_dangerous

/-- A zone suffix lets a link-local address through, and the two spellings disagree. -/
theorem linkLocal_zone_allowed :
    AddressText (text "fe80::1%eth0") (some (text "eth0")) linkLocalOne ∧ Dangerous linkLocalOne ∧
      (classifyTransportAddress (text "fe80::1%eth0")).allowed = true ∧
      AddressText (text "fe80::1") none linkLocalOne ∧
      (classifyTransportAddress (text "fe80::1")).allowed = false :=
  ⟨linkLocal_zone_text, linkLocal_dangerous, by decide +kernel, linkLocal_text, by decide +kernel⟩

end Linklint
