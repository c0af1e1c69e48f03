import Linklint.Detectors.IpClassification
import Linklint.Parse.Ipv6Forms

/-!
# Canonical texts as keys

The canonical text of an address and the mixed one are read back to the hextets
they were printed from, so a map keyed by canonical texts is keyed by bits.
-/

namespace Linklint

variable {gs : List Nat}

/-- The text is analyzed as these hextets, and so is the canonical text the analysis gives it. -/
def DecodesTo (s : Text) (gs : List Nat) : Prop :=
  ipv6Groups s = some gs ∧
    ∃ a, analyzeIpv6 s = some a ∧ a.canonical = canonicalizeIpv6 gs ∧ hextetsOf a.canonical = some gs

theorem decodesTo_of_text {s : Text} (literal : Ipv6Text s gs) : DecodesTo s gs := by
  have hgroups := ipv6Groups_iff.mpr literal
  have hexpanded := hextetsOf_canonicalizeIpv6 literal.isHextets
  cases hanalysis : analyzeIpv6 s with
  | none => simp [analyzeIpv6, hgroups] at hanalysis
  | some a =>
      have hcanonical : a.canonical = canonicalizeIpv6 gs := by
        rw [analyzeIpv6, hgroups, Option.map_some] at hanalysis
        rw [← Option.some.inj hanalysis]
      exact ⟨hgroups, a, hanalysis, hcanonical, by rw [hcanonical, hexpanded]⟩

/-! ### The mixed text -/

theorem IsHextets.upper_split (h : IsHextets gs) :
    (gs.take 6).length = 6 ∧ gs.take 6 ++ [low32 gs / 2 ^ 16, low32 gs % 2 ^ 16] = gs := by
  obtain ⟨eight, small⟩ := h
  match gs, eight with
  | [a, b, c, d, e, f, g, i], _ =>
      have hi : i < 2 ^ 16 := small i (by simp)
      have hhigh : low32 [a, b, c, d, e, f, g, i] / 2 ^ 16 = g := by
        simp only [low32, List.getD_cons_succ, List.getD_cons_zero]
        omega
      have hlow : low32 [a, b, c, d, e, f, g, i] % 2 ^ 16 = i := by
        simp only [low32, List.getD_cons_succ, List.getD_cons_zero]
        omega
      rw [hhigh, hlow]
      exact ⟨rfl, rfl⟩

theorem hextetRun_numerals {us : List Nat} (small : ∀ u ∈ us, u < 2 ^ 16) {q : Text} {n : Nat}
    (quad : Ipv4Text q n) :
    Rfc4291Groups (us.map (numeralText 16) ++ [q]) (us ++ [n / 2 ^ 16, n % 2 ^ 16]) :=
  .quad (hextets_iff.mp (mapM_numeralText small)) (dottedQuad_iff.mp quad)

/-- The mixed text denotes the hextets it was printed from, whatever their prefix. -/
theorem mixedCanonicalIpv6_text (h : IsHextets gs) :
    Ipv6Text (mixedCanonicalIpv6 gs (toDotted (low32 gs))) gs := by
  obtain ⟨six, hsplit⟩ := h.upper_split
  have quad : Ipv4Text (toDotted (low32 gs)) (low32 gs) := ipv4Text_iff.mpr ⟨h.low_split.2, rfl⟩
  have small : ∀ u ∈ gs.take 6, u < 2 ^ 16 := fun u hu => h.small u (List.mem_of_mem_take hu)
  have hne : gs.take 6 ≠ [] := List.ne_nil_of_length_pos (by omega)
  have hform := mixedCanonicalIpv6_form gs (toDotted (low32 gs)) hne
  apply ipv6Text_iff.mpr
  generalize mixedCanonicalIpv6 gs (toDotted (low32 gs)) = t at *
  generalize gs.take 6 = upper at *
  cases hform with
  | full none =>
      have hgroups := hextetRun_numerals small quad
      rw [hsplit] at hgroups
      exact .full hgroups h.eight
  | @compressed left right len run =>
      obtain ⟨rfl, two, _, _⟩ := run
      have hleft : List.Forall₂ Hextet (left.map (numeralText 16)) left :=
        hextets_iff.mp (mapM_numeralText fun u hu => small u (by simp [hu]))
      have hsmall : ∀ u ∈ right, u < 2 ^ 16 := fun u hu => small u (by simp [hu])
      have hright := hextetRun_numerals hsmall quad
      have hlen : left.length + len + right.length = 6 := by
        simpa [Nat.add_assoc] using six
      have haddress := Rfc4291Address.elided hleft hright (by simp; omega)
      have hmissing : 8 - (left.length + (right ++ [low32 gs / 2 ^ 16, low32 gs % 2 ^ 16]).length) =
          len := by
        simp
        omega
      rw [hmissing, ← List.append_assoc, hsplit] at haddress
      exact haddress

theorem unwrapLow32Ipv4_address {e : EmbeddedIpv4} (h : unwrapLow32Ipv4 gs = some e) :
    e.address = toDotted (low32 gs) := by
  rw [unwrapLow32Ipv4] at h
  cases hmatched : matchedWrapper gs with
  | none =>
      rw [hmatched] at h
      cases h
  | some wrapper =>
      simp only [hmatched, Option.ite_none_left_eq_some, Option.some.injEq] at h
      rw [← h.2]

/-! ### The metadata map -/

/-- The curated rows under the hextets of their addresses. -/
def metadataRows : List (List Nat × CloudMetadataEndpoint) :=
  CLOUD_METADATA_ENDPOINTS.filterMap fun endpoint =>
    (ipv6Groups endpoint.address).map fun groups => (groups, endpoint)

theorem metadataIpv6_rows :
    METADATA_IPV6 = metadataRows.map (Prod.map canonicalizeIpv6 id) := by
  rw [METADATA_IPV6, metadataRows, List.map_filterMap]
  apply List.filterMap_congr
  intro endpoint _
  cases hgroups : ipv6Groups endpoint.address with
  | none => simp [analyzeIpv6, hgroups]
  | some groups =>
      have hcolon := (ipv6Groups_iff.mp hgroups).colon_mem
      simp [analyzeIpv4_colon hcolon, analyzeIpv6, hgroups]

theorem metadataRows_hextets : ∀ row ∈ metadataRows, IsHextets row.1 := by
  intro row hrow
  obtain ⟨endpoint, _, hkey⟩ := List.mem_filterMap.mp hrow
  obtain ⟨groups, hgroups, rfl⟩ := Option.map_eq_some_iff.mp hkey
  exact (ipv6Groups_iff.mp hgroups).isHextets

/-- No two rows share an address, so inserting in order and finding the first agree. -/
theorem metadataRows_nodup : (metadataRows.map Prod.fst).Nodup := by
  decide +kernel

theorem lookup_map_key {κ κ' β : Type} [BEq κ] [LawfulBEq κ] [BEq κ'] [LawfulBEq κ']
    {f : κ → κ'} {k : κ} {rows : List (κ × β)} (inj : ∀ row ∈ rows, f k = f row.1 → k = row.1) :
    (rows.map (Prod.map f id)).lookup (f k) = rows.lookup k := by
  induction rows with
  | nil => rfl
  | cons row rows ih =>
      obtain ⟨k', b⟩ := row
      have hrest := ih fun r hr => inj r (List.mem_cons_of_mem _ hr)
      have hkeys : (f k == f k') = (k == k') := by
        rw [Bool.eq_iff_iff, beq_iff_eq, beq_iff_eq]
        exact ⟨inj (k', b) (List.mem_cons_self ..), congrArg f⟩
      simp only [List.map_cons, Prod.map_apply, List.lookup_cons, id_eq, hkeys, hrest]

/-- The canonical text of an address stands for its bits. -/
structure KeyedByBits (gs : List Nat) : Prop where
  expanded : hextetsOf (canonicalizeIpv6 gs) = some gs
  canonical : DecodesTo (canonicalizeIpv6 gs) gs
  mixed : ∀ e, unwrapLow32Ipv4 gs = some e → DecodesTo (mixedCanonicalIpv6 gs e.address) gs
  injective : ∀ hs, IsHextets hs → canonicalizeIpv6 hs = canonicalizeIpv6 gs → hs = gs
  keyed : METADATA_IPV6.lookup (canonicalizeIpv6 gs) = metadataRows.lookup gs
  distinct : (METADATA_IPV6.map Prod.fst).Nodup ∧ (metadataRows.map Prod.fst).Nodup

theorem canonical_keyed_by_bits (h : IsHextets gs) : KeyedByBits gs where
  expanded := hextetsOf_canonicalizeIpv6 h
  canonical := decodesTo_of_text (canonicalizeIpv6_text h.eight h.small)
  mixed e wrapped := by
    rw [unwrapLow32Ipv4_address wrapped]
    exact decodesTo_of_text (mixedCanonicalIpv6_text h)
  injective hs hhs same := canonicalizeIpv6_inj hhs h same
  keyed := by
    rw [metadataIpv6_rows]
    apply lookup_map_key
    intro row hrow
    exact canonicalizeIpv6_inj h (metadataRows_hextets row hrow)
  distinct := by
    refine ⟨?_, metadataRows_nodup⟩
    rw [metadataIpv6_rows, List.map_map, show Prod.fst ∘ Prod.map canonicalizeIpv6 id =
      canonicalizeIpv6 ∘ @Prod.fst (List Nat) CloudMetadataEndpoint from rfl, ← List.map_map]
    refine metadataRows_nodup.map_on fun a ha b hb => ?_
    obtain ⟨row, hrow, rfl⟩ := List.mem_map.mp ha
    obtain ⟨row', hrow', rfl⟩ := List.mem_map.mp hb
    exact canonicalizeIpv6_inj (metadataRows_hextets row hrow) (metadataRows_hextets row' hrow')

/-- The first row of the table that is an IPv6 address. -/
theorem imds_keyed_by_bits : IsHextets [0xfd00, 0xec2, 0, 0, 0, 0, 0, 0x254] ∧
    KeyedByBits [0xfd00, 0xec2, 0, 0, 0, 0, 0, 0x254] := by
  have h : IsHextets [0xfd00, 0xec2, 0, 0, 0, 0, 0, 0x254] := ⟨rfl, by decide⟩
  exact ⟨h, canonical_keyed_by_bits h⟩

end Linklint
