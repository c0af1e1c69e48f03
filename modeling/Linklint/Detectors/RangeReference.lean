import Linklint.Detectors.IpClassification
import Linklint.Parse.Ipv6Forms

/-!
# Classification on the bits

What the bucket of an address is, said of its bits and of the range tables in no
particular order, and that the classifier gives it to every spelling.
-/

namespace Linklint

open PrefixTable

/-- The rows of a family before they are sorted. -/
def ipv4Rows : List Ipv4RangeRow := IPV4_SPECIAL_RANGES ++ [MULTICAST_IPV4]

def ipv6Rows : List Ipv6RangeRow := IPV6_SPECIAL_RANGES ++ [MULTICAST_IPV6]

/-- The bits of a host that is an address. -/
inductive HostBits where
  | v4 (n : Nat)
  | v6 (n : Nat)

/-- The host strings of an address. -/
inductive Spells (s : Text) : HostBits → Prop
  | v4 {n : Nat} (spelled : InetAton s.dropTrailingDot n) : Spells s (.v4 n)
  | v6 {gs : List Nat} (spelled : Rfc4291Address s gs) : Spells s (.v6 (addressValue gs))

/-- The address is one of the metadata table. -/
def IsMetadata (a : HostBits) : Prop := ∃ endpoint ∈ CLOUD_METADATA_ENDPOINTS,
  Spells endpoint.address a

/-- The bucket of an IPv4 address: metadata, or the most specific row. -/
def Ipv4Bucket (n : Nat) (bucket : Option Bucket) : Prop :=
  (IsMetadata (.v4 n) ∧ bucket = some .ipCloudMetadata) ∨
    (¬ IsMetadata (.v4 n) ∧ ∃ range,
      Answers Ipv4RangeRow.block Ipv4RangeRow.bucket ipv4Rows n range ∧ bucket = range.map .range)

/-- The bucket of an IPv6 address by its own bits. -/
def OwnIpv6Bucket (n : Nat) (bucket : Option Bucket) : Prop :=
  (IsMetadata (.v6 n) ∧ bucket = some .ipCloudMetadata) ∨
    (¬ IsMetadata (.v6 n) ∧ ∃ range,
      Answers Ipv6RangeRow.block Ipv6RangeRow.bucket ipv6Rows n range ∧ bucket = range.map .range)

/-- The reference: an address behind a wrapper has the bucket of the IPv4 inside it, when that one
has any. -/
def ReferenceBucket (bucket : Option Bucket) : HostBits → Prop
  | .v4 n => Ipv4Bucket n bucket
  | .v6 n =>
      (∃ low inner, WrappedIpv4 n low ∧ Ipv4Bucket low (some inner) ∧ bucket = some inner) ∨
        ((∀ low, WrappedIpv4 n low → Ipv4Bucket low none) ∧ OwnIpv6Bucket n bucket)

/-- The bucket the classifier gives a host. -/
def hostBucket (host : Text) : Option Bucket :=
  (classifyHost host).map fun classification => classification.found.bucket

/-! ### The tables -/

theorem ipv4Rows_consistent : Consistent Ipv4RangeRow.block Ipv4RangeRow.bucket ipv4Rows := by
  decide +kernel

theorem ipv6Rows_consistent : Consistent Ipv6RangeRow.block Ipv6RangeRow.bucket ipv6Rows := by
  decide +kernel

theorem ipv4_answers_iff (n : Nat) (range : Option IpRangeBucket) :
    Answers Ipv4RangeRow.block Ipv4RangeRow.bucket ipv4Rows n range ↔
      (matchIpv4Range n).map IpRangeMatch.bucket = range := by
  have hsorted : IPV4_RANGES.Perm ipv4Rows := List.perm_insertionSort _ _
  rw [answers_iff ipv4Rows_consistent hsorted IPV4_RANGES_sorted,
    matchIpv4Range_eq]
  cases firstMatch Ipv4RangeRow.block IPV4_RANGES n with
  | none => rfl
  | some row => cases hbucket : row.bucket <;> simp [hbucket]

/-- The scan of the rows in any longest-first order answers as the sorted table does. -/
theorem matchIpv4Range_bucket {rows : List Ipv4RangeRow} (perm : rows.Perm ipv4Rows)
    (sorted : LongestFirst Ipv4RangeRow.block rows) (n : Nat) :
    (rows.find? fun row => (n ^^^ row.base) >>> (32 - row.prefixLength) == 0).bind
        Ipv4RangeRow.bucket = (matchIpv4Range n).map IpRangeMatch.bucket := by
  have hfind := @find?_eq_firstMatch _ _ Ipv4RangeRow.block rows n
    (fun row => (n ^^^ row.base) >>> (32 - row.prefixLength) == 0) fun row _ => by
      simp [Block.covers_iff_xor, Ipv4RangeRow.block]
  rw [hfind]
  exact (answers_iff ipv4Rows_consistent perm sorted).mp ((ipv4_answers_iff n _).mpr rfl)

theorem ipv6_answers_iff {gs : List Nat} (h : IsHextets gs) (range : Option IpRangeBucket) :
    Answers Ipv6RangeRow.block Ipv6RangeRow.bucket ipv6Rows (addressValue gs) range ↔
      (matchIpv6Range gs).map IpRangeMatch.bucket = range := by
  have hsorted : IPV6_RANGES.Perm ipv6Rows := List.perm_insertionSort _ _
  rw [answers_iff ipv6Rows_consistent hsorted IPV6_RANGES_sorted,
    matchIpv6Range_eq h]
  cases firstMatch Ipv6RangeRow.block IPV6_RANGES (addressValue gs) with
  | none => rfl
  | some row => cases hbucket : row.bucket <;> simp [hbucket]

theorem matchIpv6Range_bucket {rows : List Ipv6RangeRow} (perm : rows.Perm ipv6Rows)
    (sorted : LongestFirst Ipv6RangeRow.block rows) {gs : List Nat} (h : IsHextets gs) :
    (rows.find? fun row => row.matchesHextets gs).bind Ipv6RangeRow.bucket
      = (matchIpv6Range gs).map IpRangeMatch.bucket := by
  have hsorted : IPV6_RANGES.Perm ipv6Rows := List.perm_insertionSort _ _
  have hfind := @find?_eq_firstMatch _ _ Ipv6RangeRow.block rows (addressValue gs)
    (fun row => row.matchesHextets gs) fun row hrow =>
      Ipv6RangeRow.matchesHextets_iff
        (IPV6_RANGES_wellFormed row (hsorted.mem_iff.mpr (perm.mem_iff.mp hrow))) h
  rw [hfind]
  exact (answers_iff ipv6Rows_consistent perm sorted).mp ((ipv6_answers_iff h _).mpr rfl)

/-! ### The metadata table -/

theorem Ipv4Text.inetAton {s : Text} {n : Nat} (h : Ipv4Text s n) : InetAton s.dropTrailingDot n := by
  obtain ⟨m, hm, hcanonical, _⟩ := analyzeIpv4_found h.analyzed
  have hmn : m = n := by
    rw [← dottedToInt_toDotted hm.lt, ← hcanonical, dottedToInt_toDotted h.lt]
  exact hmn ▸ (inetAton_root s m).mp hm

theorem Rfc4291Address.not_inetAton {s : Text} {gs : List Nat} (h : Rfc4291Address s gs) (n : Nat) :
    ¬ InetAton s.dropTrailingDot n := by
  intro hn
  have hsome := analyzeIpv4_of_inetAton ((inetAton_root s n).mpr hn)
  rw [analyzeIpv4_colon (ipv6Text_iff.mpr h).colon_mem] at hsome
  cases hsome

theorem metadata_v4_iff (n : Nat) : (METADATA_IPV4.lookup n).isSome ↔ IsMetadata (.v4 n) := by
  rw [metadataIpv4_iff]
  constructor
  · rintro ⟨endpoint, hmem, quad⟩
    exact ⟨endpoint, hmem, .v4 quad.inetAton⟩
  · rintro ⟨endpoint, hmem, spelled⟩
    cases spelled with
    | v4 spelled =>
        have hsome := analyzeIpv4_of_inetAton ((inetAton_root _ n).mpr spelled)
        obtain ⟨m, hm⟩ := Option.isSome_iff_exists.mp (metadata_rows_strict endpoint hmem hsome)
        have quad := parseStrictDottedQuad_iff.mp hm
        exact ⟨endpoint, hmem, spelled.unique quad.inetAton ▸ quad⟩

theorem metadata_v6_iff {gs : List Nat} (h : IsHextets gs) :
    (METADATA_IPV6.lookup (canonicalizeIpv6 gs)).isSome ↔ IsMetadata (.v6 (addressValue gs)) := by
  rw [metadataIpv6_iff h]
  constructor
  · rintro ⟨endpoint, hmem, literal⟩
    exact ⟨endpoint, hmem, .v6 (ipv6Text_iff.mp literal)⟩
  · rintro ⟨endpoint, hmem, spelled⟩
    generalize hbits : HostBits.v6 (addressValue gs) = a at spelled
    cases spelled with
    | v4 => cases hbits
    | @v6 hs spelled =>
        have heq : gs = hs := h.eq_of_bits spelled.isHextets (HostBits.v6.inj hbits)
        exact ⟨endpoint, hmem, heq ▸ ipv6Text_iff.mpr spelled⟩

/-! ### The classifier -/

/-- Metadata first, then the range. -/
theorem bucket_cases {metadata : Prop} {range bucket : Option Bucket} {found : Option Bucket}
    (yes : metadata → found = some .ipCloudMetadata) (no : ¬ metadata → found = range) :
    (metadata ∧ bucket = some .ipCloudMetadata) ∨ (¬ metadata ∧ range = bucket) ↔ found = bucket := by
  by_cases hmetadata : metadata
  · simp [hmetadata, yes hmetadata, eq_comm]
  · simp [hmetadata, no hmetadata]

theorem classifyIpv4_bucket {n : Nat} (hn : n < 2 ^ 32) (bucket : Option Bucket) :
    Ipv4Bucket n bucket ↔ (classifyIpv4 (toDotted n)).map BucketMatch.bucket = bucket := by
  have hrange : (∃ range, Answers Ipv4RangeRow.block Ipv4RangeRow.bucket ipv4Rows n range ∧
      bucket = range.map .range) ↔ ((matchIpv4Range n).map IpRangeMatch.bucket).map .range = bucket := by
    simp only [ipv4_answers_iff, exists_eq_left']
    exact eq_comm
  rw [Ipv4Bucket, hrange]
  refine bucket_cases ?_ ?_
  · intro hmetadata
    obtain ⟨endpoint, hlookup⟩ := Option.isSome_iff_exists.mp ((metadata_v4_iff n).mpr hmetadata)
    simp [classifyIpv4, dottedToInt_toDotted hn, hlookup, metadataMatch]
  · intro hmetadata
    have hlookup : METADATA_IPV4.lookup n = none := by
      rwa [← metadata_v4_iff, Option.not_isSome_iff_eq_none] at hmetadata
    simp [classifyIpv4, dottedToInt_toDotted hn, hlookup, Function.comp_def, rangeMatch]

theorem classifyIpv6_bucket {gs : List Nat} (h : IsHextets gs) (bucket : Option Bucket) :
    OwnIpv6Bucket (addressValue gs) bucket ↔
      (classifyIpv6 (canonicalizeIpv6 gs)).map BucketMatch.bucket = bucket := by
  have hrange : (∃ range, Answers Ipv6RangeRow.block Ipv6RangeRow.bucket ipv6Rows (addressValue gs)
      range ∧ bucket = range.map .range) ↔
        ((matchIpv6Range gs).map IpRangeMatch.bucket).map .range = bucket := by
    simp only [ipv6_answers_iff h, exists_eq_left']
    exact eq_comm
  rw [OwnIpv6Bucket, hrange]
  refine bucket_cases ?_ ?_
  · intro hmetadata
    obtain ⟨endpoint, hlookup⟩ := Option.isSome_iff_exists.mp ((metadata_v6_iff h).mpr hmetadata)
    simp [classifyIpv6, canonicalizeIpv6_lower, hlookup, metadataMatch]
  · intro hmetadata
    have hlookup : METADATA_IPV6.lookup (canonicalizeIpv6 gs) = none := by
      rwa [← metadata_v6_iff h, Option.not_isSome_iff_eq_none] at hmetadata
    simp [classifyIpv6, canonicalizeIpv6_lower, hlookup, hextetsOf_canonicalizeIpv6 h,
      Function.comp_def, rangeMatch]

theorem hostBucket_v4 {s : Text} {n : Nat} (h : InetAton s.dropTrailingDot n) :
    hostBucket s = (classifyIpv4 (toDotted n)).map BucketMatch.bucket := by
  obtain ⟨a, ha⟩ := Option.isSome_iff_exists.mp (analyzeIpv4_of_inetAton ((inetAton_root s n).mpr h))
  obtain ⟨m, hm, hcanonical, _⟩ := analyzeIpv4_found ha
  have hne : s ≠ [] := by
    rintro rfl
    have hnone : analyzeIpv4 [] = none := by decide
    rw [hnone] at ha
    cases ha
  rw [← hm.unique ((inetAton_root s n).mpr h), ← hcanonical, hostBucket, classifyHost, if_neg hne, ha]
  simp [Function.comp_def]

/-- A literal has the bucket of the wrapped IPv4, or else its own. -/
theorem hostBucket_v6 {s : Text} {gs : List Nat} (h : Rfc4291Address s gs) :
    hostBucket s = (((unwrapLow32Ipv4 gs).bind fun e =>
      (classifyIpv4 e.address).map BucketMatch.bucket).or
        ((classifyIpv6 (canonicalizeIpv6 gs)).map BucketMatch.bucket)) := by
  have literal := ipv6Text_iff.mpr h
  have hne : s ≠ [] := List.ne_nil_of_mem literal.colon_mem
  rw [hostBucket, classifyHost, if_neg hne, analyzeIpv4_colon literal.colon_mem, analyzeIpv6,
    ipv6Groups_iff.mpr literal]
  cases hwrapped : unwrapLow32Ipv4 gs with
  | none => simp [hwrapped, Function.comp_def]
  | some e =>
      cases hv4 : classifyIpv4 e.address with
      | none => simp [hwrapped, hv4, Function.comp_def]
      | some found => simp [hwrapped, hv4]

theorem unwrapLow32Ipv4_cases {gs : List Nat} (h : IsHextets gs) :
    (unwrapLow32Ipv4 gs = none ∧ ∀ low, ¬ WrappedIpv4 (addressValue gs) low) ∨
      ∃ e, unwrapLow32Ipv4 gs = some e ∧ e.address = toDotted (low32 gs) ∧
        ∀ low, WrappedIpv4 (addressValue gs) low ↔ low = low32 gs := by
  cases hunwrap : unwrapLow32Ipv4 gs with
  | none =>
      refine Or.inl ⟨rfl, fun low wrapped => ?_⟩
      have hlt : low < 2 ^ 32 := wrapped.choose_spec.2.1
      have quad := dottedQuad_iff.mp (ipv4Text_iff.mpr ⟨hlt, rfl⟩)
      have hsome := (unwrapLow32Ipv4_iff h).mpr ⟨low, wrapped, quad⟩
      rw [hunwrap] at hsome
      cases hsome
  | some e =>
      obtain ⟨low, wrapped, quad⟩ := (unwrapLow32Ipv4_iff h).mp (by rw [hunwrap, Option.map_some])
      obtain ⟨rfl, _⟩ := (wrappedIpv4_iff h).mp wrapped
      refine Or.inr ⟨e, rfl, (ipv4Text_iff.mp (dottedQuad_iff.mpr quad)).2, fun m => ?_⟩
      exact ⟨fun hm => ((wrappedIpv4_iff h).mp hm).1, fun hm => hm ▸ wrapped⟩

theorem hostBucket_reference {s : Text} {a : HostBits} (h : Spells s a) (bucket : Option Bucket) :
    ReferenceBucket bucket a ↔ hostBucket s = bucket := by
  cases h with
  | v4 spelled =>
      rw [hostBucket_v4 spelled]
      exact classifyIpv4_bucket spelled.lt bucket
  | @v6 gs spelled =>
      have hextets := spelled.isHextets
      rw [hostBucket_v6 spelled, ReferenceBucket, classifyIpv6_bucket hextets]
      rcases unwrapLow32Ipv4_cases hextets with ⟨hunwrap, hnone⟩ | ⟨e, hunwrap, haddress, hlow⟩
      · simp [hunwrap, hnone]
      · have hinner (inner : Option Bucket) : Ipv4Bucket (low32 gs) inner ↔
            (classifyIpv4 e.address).map BucketMatch.bucket = inner := by
          rw [haddress]
          exact classifyIpv4_bucket hextets.low_split.2 inner
        obtain ⟨found, hfound⟩ : ∃ found, (classifyIpv4 e.address).map BucketMatch.bucket = found :=
          ⟨_, rfl⟩
        rw [hfound] at hinner
        rw [hunwrap, Option.bind_some, hfound]
        cases found with
        | none => simp [hlow, hinner]
        | some inner => simp [hlow, hinner, eq_comm]

theorem recognized_iff {s : Text} :
    ((analyzeIpv4 s).isSome ∨ (analyzeIpv6 s).isSome) ↔ ∃ a, Spells s a := by
  rw [(analyzeIpv4_exact s).accepted, analyzeIpv6_isSome_iff]
  constructor
  · rintro (⟨n, h⟩ | ⟨gs, h⟩)
    · exact ⟨_, .v4 h⟩
    · exact ⟨_, .v6 h⟩
  · rintro ⟨_, h | h⟩
    · exact Or.inl ⟨_, h⟩
    · exact Or.inr ⟨_, h⟩

/-- The classifier is the reference on the bits of a host that is an address. -/
structure ClassifiesBits : Prop where
  recognized : ∀ s, ((analyzeIpv4 s).isSome ∨ (analyzeIpv6 s).isSome) ↔ ∃ a, Spells s a
  reference : ∀ s a, Spells s a → ∀ bucket, ReferenceBucket bucket a ↔ hostBucket s = bucket
  spellings : ∀ s t a, Spells s a → Spells t a → hostBucket s = hostBucket t
  ipv4Order : ∀ rows : List Ipv4RangeRow, rows.Perm ipv4Rows →
    LongestFirst Ipv4RangeRow.block rows → ∀ n,
      (rows.find? fun row => (n ^^^ row.base) >>> (32 - row.prefixLength) == 0).bind
        Ipv4RangeRow.bucket = (matchIpv4Range n).map IpRangeMatch.bucket
  ipv6Order : ∀ rows : List Ipv6RangeRow, rows.Perm ipv6Rows →
    LongestFirst Ipv6RangeRow.block rows → ∀ gs, IsHextets gs →
      (rows.find? fun row => row.matchesHextets gs).bind Ipv6RangeRow.bucket
        = (matchIpv6Range gs).map IpRangeMatch.bucket

theorem classifyHost_bits : ClassifiesBits := by
  refine ⟨fun s => recognized_iff, fun s a => hostBucket_reference, ?_,
    fun rows => matchIpv4Range_bucket, fun rows perm sorted gs => matchIpv6Range_bucket perm sorted⟩
  intro s t a hs ht
  exact ((hostBucket_reference ht _).mp ((hostBucket_reference hs _).mpr rfl)).symm

end Linklint
