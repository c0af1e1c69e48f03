import Linklint.Data.Brands
import Linklint.Lib.KeyedIndex
import Linklint.Policy.Axes
import Linklint.Unicode.Skeleton

/-!
# Homographs of ASCII names

Both detectors examine the Unicode form of the registrable domain when it is not
ASCII and compatibility folding does not make it so. One reports a name that reads
as ASCII throughout, the other one that reads as a brand of the watchlist.
-/

namespace Linklint

/-- `hasNonAscii(s)` -/
def hasNonAscii (s : Text) : Bool := s.any fun u => decide (0x7F < u.toNat)

/-- `BRAND_SKELETONS.get(skel)`; of two brands with one skeleton the later one stands. -/
def brandOfSkeleton (U : UnicodeData) (skel : Text) : Option Text :=
  (BRAND_DOMAINS.map fun brand => (skeleton U brand, brand)).reverse.lookup skel

section
variable (P : Platform) (U : UnicodeData)

/-- The registrable domain as written and in Unicode, for a host that is not ASCII in any
compatibility form. -/
def homographHost (ctx : InspectionContext) : Option (Text × Text) :=
  match truthy ctx.registrableDomain with
  | none => none
  | some input =>
      if ctx.isIp then none
      else
        let host := P.toUnicode (P.toLowerCase input)
        if !hasNonAscii host then none
        else if !hasNonAscii (U.nfkc host) then none
        else some (input, host)

/-- The public suffix in Unicode, empty when there is none. -/
def unicodeSuffix (ctx : InspectionContext) : Text :=
  match truthy ctx.publicSuffix with
  | some suffix => P.toUnicode (P.toLowerCase suffix)
  | none => []

/-- What the registrant chose of a host. -/
def registrantLabel (ctx : InspectionContext) (host : Text) : Text :=
  let suffix := unicodeSuffix P ctx
  if suffix ≠ [] ∧ host.endsWith (unit '.' :: suffix) = true then
    host.take (host.length - (suffix.length + 1))
  else host

/-- The domain by what was written, with its Unicode form when that is another one. -/
def shownDomain (input host : Text) : Text :=
  if host = P.toLowerCase input then text "'" ++ input ++ text "'"
  else text "'" ++ input ++ text "' (Unicode form '" ++ host ++ text "')"

def latinDetail (input host : Text) : Text :=
  text "registrable domain " ++ shownDomain P input host
    ++ text " is non-Latin but its UTS#39 confusable skeleton '" ++ U.nfc (skeleton U host)
    ++ text "' is pure ASCII-Latin (the Basic Latin block, digits included) — a whole-label "
    ++ text "homograph masquerading as an ASCII domain"

def latinSkeletonHomograph (ctx : InspectionContext) : List CollectedFinding :=
  match homographHost P U ctx with
  | none => []
  | some (input, host) =>
      if !hasNonAscii (registrantLabel P ctx host) then []
      else if hasNonAscii (skeleton U host) then []
      else [{ code := .homographLatinSkeleton, detail := latinDetail P U input host }]

def collisionDetail (input host skel brand : Text) : Text :=
  text "registrable domain " ++ shownDomain P input host
    ++ text " has the same UTS#39 confusable skeleton ('" ++ skel ++ text "') as the known brand '"
    ++ brand ++ text "' — a single-script whole-label homograph"

def skeletonCollision (ctx : InspectionContext) : List CollectedFinding :=
  match homographHost P U ctx with
  | none => []
  | some (input, host) =>
      let skel := skeleton U host
      match brandOfSkeleton U skel with
      | none => []
      | some brand =>
          [{ code := .homographSkeletonCollision
             detail := collisionDetail P input host skel brand }]

end

/-! ### ASCII -/

theorem hasNonAscii_eq_false {s : Text} : hasNonAscii s = false ↔ ∀ u ∈ s, u.toNat < 128 := by
  rw [hasNonAscii, List.any_eq_false]
  constructor
  · intro h u hu
    have := h u hu
    rw [decide_eq_true_eq] at this
    omega
  · intro h u hu
    have := h u hu
    rw [decide_eq_true_eq]
    omega

theorem hasNonAscii_append (s t : Text) :
    hasNonAscii (s ++ t) = (hasNonAscii s || hasNonAscii t) := by
  rw [hasNonAscii, List.any_append]
  rfl

/-- Every brand of the watchlist is an ASCII name. -/
theorem brand_ascii {brand : Text} (h : brand ∈ BRAND_DOMAINS) : ∀ u ∈ brand, u.toNat < 128 := by
  have all : (BRAND_DOMAINS.all fun name => !hasNonAscii name) = true := by decide +kernel
  have hbrand := List.all_eq_true.mp all brand h
  rw [Bool.not_eq_true'] at hbrand
  exact hasNonAscii_eq_false.mp hbrand

section
variable {P : Platform} {U : UnicodeData}

theorem skeleton_brand {brand : Text} (h : brand ∈ BRAND_DOMAINS) : skeleton U brand = brand :=
  skeleton_ascii (brand_ascii h)

/-- A brand is found under its own name, and under no other. -/
theorem brandOfSkeleton_eq_some {skel brand : Text} :
    brandOfSkeleton U skel = some brand ↔ skel ∈ BRAND_DOMAINS ∧ brand = skel := by
  constructor
  · intro h
    have hmem := List.mem_reverse.mp (KeyedIndex.mem_of_lookup h)
    obtain ⟨name, hname, heq⟩ := List.mem_map.mp hmem
    rw [skeleton_brand hname, Prod.mk.injEq] at heq
    obtain ⟨rfl, rfl⟩ := heq
    exact ⟨hname, rfl⟩
  · rintro ⟨hskel, rfl⟩
    have hkey : ((BRAND_DOMAINS.map fun brand => (skeleton U brand, brand)).reverse.lookup
        brand).isSome = true := by
      rw [List.lookup_isSome_iff]
      refine ⟨(skeleton U brand, brand), List.mem_reverse.mpr (List.mem_map_of_mem hskel), ?_⟩
      rw [skeleton_brand hskel]
      exact beq_self_eq_true brand
    obtain ⟨found, hfound⟩ := Option.isSome_iff_exists.mp hkey
    have hmem := List.mem_reverse.mp (KeyedIndex.mem_of_lookup hfound)
    obtain ⟨name, hname, heq⟩ := List.mem_map.mp hmem
    rw [skeleton_brand hname, Prod.mk.injEq] at heq
    rw [brandOfSkeleton, hfound, ← heq.2, heq.1]

/-! ### A host under its suffix -/

theorem canonicalOrder_ascii_append {cps more : List Nat} (h : ∀ cp ∈ cps, cp < 128) :
    U.canonicalOrder (cps ++ more) = cps ++ U.canonicalOrder more := by
  induction cps with
  | nil => rfl
  | cons cp cps ih =>
      obtain ⟨hcp, hcps⟩ := List.forall_mem_cons.mp h
      rw [List.cons_append, UnicodeData.canonicalOrder, List.insertionSort_cons,
        ← UnicodeData.canonicalOrder, ih hcps]
      apply StableSort.orderedInsert_of_forall
      intro next _
      refine Or.inr ?_
      rw [U.ascii_starter cp hcp]
      exact Nat.zero_le _

theorem decomposed_ascii_append {cps more : List Nat} (h : ∀ cp ∈ cps, cp < 128) :
    U.decomposed (cps ++ more) = cps ++ U.decomposed more := by
  rw [UnicodeData.decomposed, List.flatMap_append,
    Substitution.flatMap_fixed fun cp hcp => U.decomposition_ascii cp (h cp hcp),
    canonicalOrder_ascii_append h]
  rfl

theorem skeletonPoints_ascii_append {cps more : List Nat} (h : ∀ cp ∈ cps, cp < 128) :
    skeletonPoints U (cps ++ more) = cps ++ skeletonPoints U more := by
  rw [skeletonPoints, decomposed_ascii_append h, List.flatMap_append,
    Substitution.flatMap_fixed fun cp hcp => substitute_ascii (h cp hcp),
    decomposed_ascii_append h]
  rfl

theorem codePoints_ascii_append {s t : Text} (h : ∀ u ∈ s, u.toNat < 128) :
    codePoints (s ++ t) = codePoints s ++ codePoints t := by
  induction s with
  | nil => rfl
  | cons u s ih =>
      obtain ⟨hu, hs⟩ := List.forall_mem_cons.mp h
      have hlow : ¬ isHighSurrogate u = true := by
        rw [isHighSurrogate_iff]
        omega
      rw [List.cons_append, codePoints_single fun v _ hhigh => absurd hhigh hlow, ih hs,
        codePoints_single fun v _ hhigh => absurd hhigh hlow, List.cons_append]

/-- What is written in ASCII before a name stays before its skeleton. -/
theorem skeleton_ascii_append {s t : Text} (h : ∀ u ∈ s, u.toNat < 128) :
    skeleton U (s ++ t) = s ++ skeleton U t := by
  have hpoints := (ascii_codePoints_iff s).mpr h
  rw [skeleton_eq, codePoints_ascii_append h, skeletonPoints_ascii_append hpoints,
    List.flatMap_append, encode_codePoints, ← skeleton_eq]

/-- A host is its registrant's part, with the suffix behind it if that was cut off. -/
theorem registrantLabel_spec (ctx : InspectionContext) (host : Text) :
    registrantLabel P ctx host = host ∨
      (unicodeSuffix P ctx ≠ [] ∧
        host = registrantLabel P ctx host ++ unit '.' :: unicodeSuffix P ctx) := by
  by_cases hcut : unicodeSuffix P ctx ≠ [] ∧ host.endsWith (unit '.' :: unicodeSuffix P ctx) = true
  · refine Or.inr ⟨hcut.1, ?_⟩
    obtain ⟨front, hfront⟩ := List.isSuffixOf_iff_suffix.mp hcut.2
    have hlength : host.length - ((unicodeSuffix P ctx).length + 1) = front.length := by
      rw [← hfront, List.length_append, List.length_cons]
      omega
    have htake : host.take front.length = front := by
      rw [← hfront, List.take_left]
    rw [registrantLabel]
    simp only [if_pos hcut]
    rw [hlength, htake, hfront]
  · left
    rw [registrantLabel]
    simp only [if_neg hcut]

/-! ### The detectors -/

/-- The two detectors look at the registrable domain `input` through its Unicode form. -/
structure Examined (P : Platform) (U : UnicodeData) (ctx : InspectionContext)
    (input host : Text) : Prop where
  domain : ctx.registrableDomain = some input
  written : input ≠ []
  name : ctx.isIp = false
  unicode : host = P.toUnicode (P.toLowerCase input)
  nonAscii : hasNonAscii host = true
  folded : hasNonAscii (U.nfkc host) = true

theorem homographHost_eq_some {ctx : InspectionContext} {input host : Text} :
    homographHost P U ctx = some (input, host) ↔ Examined P U ctx input host := by
  rw [homographHost.eq_def]
  constructor
  · intro h
    split at h
    · cases h
    · rename_i written hdomain
      obtain ⟨hsome, hne⟩ := truthy_eq_some.mp hdomain
      split at h
      · cases h
      rename_i hip
      simp only at h
      split at h
      · cases h
      rename_i hhost
      split at h
      · cases h
      rename_i hfold
      cases h
      exact ⟨hsome, hne, Bool.not_eq_true _ ▸ hip, rfl, by simpa using hhost, by simpa using hfold⟩
  · rintro ⟨hdomain, hne, hip, rfl, hhost, hfold⟩
    rw [truthy_eq_some.mpr ⟨hdomain, hne⟩]
    simp only [hip, hhost, hfold, Bool.not_true, Bool.false_eq_true, if_false]

/-- A context has one domain to look at. -/
theorem Examined.unique {ctx : InspectionContext} {input host input' host' : Text}
    (h : Examined P U ctx input host) (h' : Examined P U ctx input' host') :
    input' = input ∧ host' = host := by
  have hinput : input' = input := Option.some_inj.mp (h'.domain.symm.trans h.domain)
  refine ⟨hinput, ?_⟩
  rw [h'.unicode, h.unicode, hinput]

theorem not_examined {ctx : InspectionContext} (h : homographHost P U ctx = none) (input host : Text) :
    ¬ Examined P U ctx input host := by
  intro hexamined
  rw [homographHost_eq_some.mpr hexamined] at h
  cases h

theorem mem_latin_iff {ctx : InspectionContext} {finding : CollectedFinding} :
    finding ∈ latinSkeletonHomograph P U ctx ↔
      ∃ input host, Examined P U ctx input host ∧
        hasNonAscii (registrantLabel P ctx host) = true ∧ hasNonAscii (skeleton U host) = false ∧
        finding = { code := .homographLatinSkeleton, detail := latinDetail P U input host } := by
  rw [latinSkeletonHomograph.eq_def]
  cases hhost : homographHost P U ctx with
  | none =>
      refine iff_of_false List.not_mem_nil ?_
      rintro ⟨input, host, hexamined, -⟩
      exact not_examined hhost input host hexamined
  | some found =>
      obtain ⟨input, host⟩ := found
      have hexamined := homographHost_eq_some.mp hhost
      simp only
      split
      · rename_i hlabel
        refine iff_of_false List.not_mem_nil ?_
        rintro ⟨input', host', hother, hlabel', -⟩
        obtain ⟨rfl, rfl⟩ := hexamined.unique hother
        rw [hlabel'] at hlabel
        cases hlabel
      rename_i hlabel
      rw [Bool.not_eq_true', Bool.not_eq_false] at hlabel
      split
      · rename_i hskel
        refine iff_of_false List.not_mem_nil ?_
        rintro ⟨input', host', hother, -, hskel', -⟩
        obtain ⟨rfl, rfl⟩ := hexamined.unique hother
        rw [hskel'] at hskel
        cases hskel
      · rename_i hskel
        rw [Bool.not_eq_true] at hskel
        rw [List.mem_singleton]
        constructor
        · rintro rfl
          exact ⟨input, host, hexamined, hlabel, hskel, rfl⟩
        · rintro ⟨input', host', hother, -, -, rfl⟩
          obtain ⟨rfl, rfl⟩ := hexamined.unique hother
          rfl

theorem mem_collision_iff {ctx : InspectionContext} {finding : CollectedFinding} :
    finding ∈ skeletonCollision P U ctx ↔
      ∃ input host brand, Examined P U ctx input host ∧ brand ∈ BRAND_DOMAINS ∧
        LooksLike U host brand ∧
        finding = { code := .homographSkeletonCollision
                    detail := collisionDetail P input host brand brand } := by
  rw [skeletonCollision.eq_def]
  cases hhost : homographHost P U ctx with
  | none =>
      refine iff_of_false List.not_mem_nil ?_
      rintro ⟨input, host, brand, hexamined, -⟩
      exact not_examined hhost input host hexamined
  | some found =>
      obtain ⟨input, host⟩ := found
      have hexamined := homographHost_eq_some.mp hhost
      simp only
      cases hbrand : brandOfSkeleton U (skeleton U host) with
      | none =>
          refine iff_of_false List.not_mem_nil ?_
          rintro ⟨input', host', brand, hother, hmem, hlike, -⟩
          obtain ⟨rfl, rfl⟩ := hexamined.unique hother
          rw [LooksLike, skeleton_brand hmem] at hlike
          rw [brandOfSkeleton_eq_some.mpr ⟨hlike ▸ hmem, rfl⟩] at hbrand
          cases hbrand
      | some brand =>
          obtain ⟨hmem, hskel⟩ := brandOfSkeleton_eq_some.mp hbrand
          rw [← hskel] at hmem ⊢
          rw [List.mem_singleton]
          constructor
          · rintro rfl
            refine ⟨input, host, brand, hexamined, hmem, ?_, rfl⟩
            rw [LooksLike, skeleton_brand hmem, hskel]
          · rintro ⟨input', host', brand', hother, hmem', hlike, rfl⟩
            obtain ⟨rfl, rfl⟩ := hexamined.unique hother
            rw [LooksLike, skeleton_brand hmem', ← hskel] at hlike
            rw [hlike]

theorem latin_ne_nil_iff {ctx : InspectionContext} :
    latinSkeletonHomograph P U ctx ≠ [] ↔
      ∃ input host, Examined P U ctx input host ∧
        hasNonAscii (registrantLabel P ctx host) = true ∧
        ∀ cp ∈ (codePoints host).flatMap U.decomposition, ReadsAscii cp := by
  constructor
  · intro h
    obtain ⟨finding, hfinding⟩ := List.exists_mem_of_ne_nil _ h
    obtain ⟨input, host, hexamined, hlabel, hskel, -⟩ := mem_latin_iff.mp hfinding
    exact ⟨input, host, hexamined, hlabel, (skeleton_ascii_iff host).mp (hasNonAscii_eq_false.mp hskel)⟩
  · rintro ⟨input, host, hexamined, hlabel, hreads⟩
    have hskel := hasNonAscii_eq_false.mpr ((skeleton_ascii_iff host).mpr hreads)
    exact List.ne_nil_of_mem (mem_latin_iff.mpr ⟨input, host, hexamined, hlabel, hskel, rfl⟩)

/-- The brand's own label, written in ASCII, under a suffix that only reads as the brand's. -/
structure BorrowedLabel (P : Platform) (U : UnicodeData) (ctx : InspectionContext)
    (host brand : Text) : Prop where
  label : hasNonAscii (registrantLabel P ctx host) = false
  cut : host = registrantLabel P ctx host ++ unit '.' :: unicodeSuffix P ctx
  brand : brand = registrantLabel P ctx host ++ skeleton U (unit '.' :: unicodeSuffix P ctx)
  suffix : hasNonAscii (unicodeSuffix P ctx) = true

theorem borrowedLabel_of_ascii_label {ctx : InspectionContext} {input host brand : Text}
    (hexamined : Examined P U ctx input host) (hbrand : brand ∈ BRAND_DOMAINS)
    (hlike : LooksLike U host brand) (hlabel : hasNonAscii (registrantLabel P ctx host) = false) :
    BorrowedLabel P U ctx host brand := by
  have hcut : host = registrantLabel P ctx host ++ unit '.' :: unicodeSuffix P ctx := by
    rcases registrantLabel_spec (P := P) ctx host with hwhole | ⟨-, hcut⟩
    · rw [hwhole, hexamined.nonAscii] at hlabel
      cases hlabel
    · exact hcut
  refine ⟨hlabel, hcut, ?_, ?_⟩
  · rw [← skeleton_ascii_append (hasNonAscii_eq_false.mp hlabel), ← hcut, hlike,
      skeleton_brand hbrand]
  · have hhost := hexamined.nonAscii
    rw [hcut, hasNonAscii_append, hlabel, Bool.false_or, hasNonAscii, List.any_cons] at hhost
    have hdot : decide (0x7F < (unit '.').toNat) = false := by decide
    rwa [hdot, Bool.false_or] at hhost

theorem length_latin_le (ctx : InspectionContext) :
    (latinSkeletonHomograph P U ctx).length ≤ 1 := by
  rw [latinSkeletonHomograph.eq_def]
  split
  · exact Nat.zero_le 1
  · split
    · exact Nat.zero_le 1
    · split
      · exact Nat.zero_le 1
      · exact Nat.le_refl 1

theorem length_collision_le (ctx : InspectionContext) :
    (skeletonCollision P U ctx).length ≤ 1 := by
  rw [skeletonCollision.eq_def]
  split
  · exact Nat.zero_le 1
  · simp only
    split
    · exact Nat.zero_le 1
    · exact Nat.le_refl 1

end

end Linklint
