import Linklint.Detectors.Homograph
import Linklint.Lib.Disguise

/-!
# Digits that stand for letters

`0`, `1` and `5` look like `o`, `l` and `s`. One detector names the brand that a
registrable domain or a hyphen token of a host spells with such digits, the other
one lists the labels that spell any word with them.
-/

namespace Linklint

open Disguise

/-- `ASCII_DIGIT_HOMOGLYPHS[ch]` -/
def ASCII_DIGIT_HOMOGLYPHS (u : CodeUnit) : Option CodeUnit :=
  if u = unit '0' then some (unit 'o')
  else if u = unit '1' then some (unit 'l')
  else if u = unit '5' then some (unit 's')
  else none

def foldAsciiDigitHomoglyphs (s : Text) : Text := fold ASCII_DIGIT_HOMOGLYPHS s

/-- The label of a brand left of its public suffix. -/
def significantLabel (brandDomain : Text) : Text := (brandDomain.cutFirst (unit '.')).1

def BRAND_LABELS : List Text := BRAND_DOMAINS.map significantLabel

/-- `/^[a-z]+$/` -/
def isLowerWord (s : Text) : Bool := s != [] && s.all isLower

/-- `/^[a-z0-9]+$/` -/
def isAlnumWord (s : Text) : Bool := s != [] && s.all fun u => isLower u || isDigit u

/-- `/[a-z]/.test(s) && /^[a-z.]+$/.test(s)` -/
def isLowerName (s : Text) : Bool := s.any isLower && s.all fun u => isLower u || u == unit '.'

def asciiRegistrableBrandCandidate (ctx : InspectionContext) : Option Text :=
  match truthy ctx.registrableDomain with
  | none => none
  | some input =>
      if ctx.isIp then none
      else if hasNonAscii input then none
      else ctx.registrableDomainLower.filter fun raw => !isExactBrandDomain raw

/-- Tier 1: the registrable domain as one unit. -/
def domainTier (ctx : InspectionContext) : Option (Text × Text) :=
  (asciiRegistrableBrandCandidate ctx).bind fun raw =>
    let skel := foldAsciiDigitHomoglyphs raw
    if skel ≠ raw ∧ isExactBrandDomain skel = true ∧ isLowerName skel = true then some (raw, skel)
    else none

/-- One hyphen token and the brand label it folds to. -/
def tokenFold (token : Text) : Option (Text × Text) :=
  if isAlnumWord token then
    let tokenSkel := foldAsciiDigitHomoglyphs token
    if tokenSkel = token then none
    else if !isLowerWord tokenSkel then none
    else if !BRAND_LABELS.contains tokenSkel then none
    else some (token, tokenSkel)
  else none

section
variable (P : Platform)

/-- The hyphen tokens of a label, none of a punycode one. -/
def labelTokens (rawLabel : Text) : List Text :=
  let label := P.toLowerCase rawLabel
  if label.startsWith (text "xn--") then [] else label.split (unit '-')

/-- Tier 2: the first hyphen token of the first label that has one. -/
def tokenTier (ctx : InspectionContext) : Option (Text × Text) :=
  ctx.hostLabels.findSome? fun rawLabel => (labelTokens P rawLabel).findSome? tokenFold

def domainFoldDetail (raw skel : Text) : Text :=
  text "registrable domain '" ++ raw ++ text "' folds to the known brand '" ++ skel
    ++ text "' via ASCII digit look-alikes (0->o, 1->l, 5->s)"

def tokenFoldDetail (token tokenSkel : Text) : Text :=
  text "host token '" ++ token ++ text "' folds to the known brand label '" ++ tokenSkel
    ++ text "' via ASCII digit look-alikes (0->o, 1->l, 5->s)"

def brandHomoglyph (ctx : InspectionContext) : List CollectedFinding :=
  if ctx.isIp then []
  else
    match domainTier ctx with
    | some (raw, skel) => [{ code := .brandHomoglyph, detail := domainFoldDetail raw skel }]
    | none =>
        match tokenTier P ctx with
        | some (token, tokenSkel) =>
            [{ code := .brandHomoglyph, detail := tokenFoldDetail token tokenSkel }]
        | none => []

end

/-! ### Look-alikes -/

theorem homoglyph_lower {u v : CodeUnit} (h : ASCII_DIGIT_HOMOGLYPHS u = some v) :
    isDigit u = true ∧ isLower v = true := by
  unfold ASCII_DIGIT_HOMOGLYPHS at h
  split at h
  · rename_i hu
    cases h
    rw [hu]
    decide
  · split at h
    · rename_i hu
      cases h
      rw [hu]
      decide
    · split at h
      · rename_i hu
        cases h
        rw [hu]
        decide
      · cases h

theorem not_digit_of_lower {u : CodeUnit} (h : isLower u = true) : isDigit u = false := by
  simp only [isLower, isDigit, Bool.and_eq_true, decide_eq_true_eq] at h ⊢
  rw [Bool.and_eq_false_iff, decide_eq_false_iff_not, decide_eq_false_iff_not]
  omega

theorem homoglyph_none_of_not_digit {u : CodeUnit} (h : isDigit u = false) :
    ASCII_DIGIT_HOMOGLYPHS u = none := by
  cases hlooks : ASCII_DIGIT_HOMOGLYPHS u with
  | none => rfl
  | some v =>
      rw [(homoglyph_lower hlooks).1] at h
      cases h

theorem isLowerWord_iff {s : Text} : isLowerWord s = true ↔ s ≠ [] ∧ ∀ u ∈ s, isLower u = true := by
  rw [isLowerWord, Bool.and_eq_true, bne_iff_ne, List.all_eq_true]

theorem honest_of_lower {s : Text} (h : ∀ u ∈ s, isLower u = true) :
    Honest ASCII_DIGIT_HOMOGLYPHS s :=
  fun u hu => homoglyph_none_of_not_digit (not_digit_of_lower (h u hu))

theorem honest_of_lowerName {s : Text} (h : isLowerName s = true) :
    Honest ASCII_DIGIT_HOMOGLYPHS s := by
  rw [isLowerName, Bool.and_eq_true, List.all_eq_true] at h
  intro u hu
  have hunit := h.2 u hu
  rw [Bool.or_eq_true, beq_iff_eq] at hunit
  apply homoglyph_none_of_not_digit
  rcases hunit with hlower | rfl
  · exact not_digit_of_lower hlower
  · decide

/-- No brand is written with a digit that looks like a letter. -/
theorem brand_honest {brand : Text} (h : brand ∈ BRAND_DOMAINS) :
    Honest ASCII_DIGIT_HOMOGLYPHS brand := by
  have all : (BRAND_DOMAINS.all fun name => name.all fun u =>
      (ASCII_DIGIT_HOMOGLYPHS u).isNone) = true := by decide +kernel
  intro u hu
  exact Option.isNone_iff_eq_none.mp (List.all_eq_true.mp (List.all_eq_true.mp all brand h) u hu)

theorem disguises_iff_fold {raw plain : Text} (h : Honest ASCII_DIGIT_HOMOGLYPHS plain) :
    Disguises ASCII_DIGIT_HOMOGLYPHS raw plain ↔
      foldAsciiDigitHomoglyphs raw = plain ∧ foldAsciiDigitHomoglyphs raw ≠ raw := disguises_iff h

/-! ### The domain tier -/

/-- The registrable domain spells a brand in letters and digits that look like letters. -/
structure DomainDisguise (ctx : InspectionContext) (raw brand : Text) : Prop where
  name : ctx.isIp = false
  ascii : ∃ input, ctx.registrableDomain = some input ∧ input ≠ [] ∧ hasNonAscii input = false
  lower : ctx.registrableDomainLower = some raw
  watched : brand ∈ BRAND_DOMAINS
  alphabetic : isLowerName brand = true
  disguise : Disguises ASCII_DIGIT_HOMOGLYPHS raw brand

theorem candidate_eq_some {ctx : InspectionContext} {raw : Text} :
    asciiRegistrableBrandCandidate ctx = some raw ↔
      ctx.isIp = false ∧
        (∃ input, ctx.registrableDomain = some input ∧ input ≠ [] ∧ hasNonAscii input = false) ∧
        ctx.registrableDomainLower = some raw ∧ raw ∉ BRAND_DOMAINS := by
  rw [asciiRegistrableBrandCandidate.eq_def]
  constructor
  · intro h
    split at h
    · cases h
    · rename_i input hinput
      split at h
      · cases h
      rename_i hip
      split at h
      · cases h
      rename_i hascii
      obtain ⟨hsome, hne⟩ := truthy_eq_some.mp hinput
      obtain ⟨hlower, hbrand⟩ := Option.filter_eq_some_iff.mp h
      rw [Bool.not_eq_true] at hip hascii
      rw [Bool.not_eq_true', isExactBrandDomain] at hbrand
      refine ⟨hip, ⟨input, hsome, hne, hascii⟩, hlower, fun hmem => ?_⟩
      rw [List.contains_iff_mem.mpr hmem] at hbrand
      cases hbrand
  · rintro ⟨hip, ⟨input, hsome, hne, hascii⟩, hlower, hbrand⟩
    rw [truthy_eq_some.mpr ⟨hsome, hne⟩]
    simp only [hip, hascii, Bool.false_eq_true, if_false]
    refine Option.filter_eq_some_iff.mpr ⟨hlower, ?_⟩
    rw [Bool.not_eq_true', isExactBrandDomain, Bool.eq_false_iff, Ne, List.contains_iff_mem]
    exact hbrand

theorem domainTier_eq_some {ctx : InspectionContext} {raw brand : Text} :
    domainTier ctx = some (raw, brand) ↔ DomainDisguise ctx raw brand := by
  rw [domainTier, Option.bind_eq_some_iff]
  constructor
  · rintro ⟨candidate, hcandidate, h⟩
    obtain ⟨hip, hascii, hlower, -⟩ := candidate_eq_some.mp hcandidate
    simp only at h
    split at h
    · rename_i hguard
      cases h
      obtain ⟨hfold, hbrand, hname⟩ := hguard
      refine ⟨hip, hascii, hlower, List.contains_iff_mem.mp hbrand, hname, ?_⟩
      exact (disguises_iff_fold (honest_of_lowerName hname)).mpr ⟨rfl, hfold⟩
    · cases h
  · intro h
    obtain ⟨hfold, hne⟩ := (disguises_iff_fold (honest_of_lowerName h.alphabetic)).mp h.disguise
    -- a brand spells no other brand, so the domain is none of the watchlist
    have hraw : raw ∉ BRAND_DOMAINS := fun hmem =>
      not_disguises_of_honest (honest_of_lowerName h.alphabetic) (brand_honest hmem) h.disguise
    refine ⟨raw, candidate_eq_some.mpr ⟨h.name, h.ascii, h.lower, hraw⟩, ?_⟩
    have hguard : foldAsciiDigitHomoglyphs raw ≠ raw
        ∧ isExactBrandDomain (foldAsciiDigitHomoglyphs raw) = true
        ∧ isLowerName (foldAsciiDigitHomoglyphs raw) = true := by
      refine ⟨hne, ?_, ?_⟩
      · rw [hfold]
        exact List.contains_iff_mem.mpr h.watched
      · rw [hfold]
        exact h.alphabetic
    simp only [if_pos hguard]
    rw [hfold]

/-! ### The token tier -/

/-- A hyphen token of the host spells a brand's label. -/
structure TokenDisguise (P : Platform) (ctx : InspectionContext) (token label : Text) : Prop where
  written : ∃ rawLabel ∈ ctx.hostLabels, token ∈ labelTokens P rawLabel
  watched : label ∈ BRAND_LABELS
  alphabetic : isLowerWord label = true
  disguise : Disguises ASCII_DIGIT_HOMOGLYPHS token label

theorem alnum_of_spells {token label : Text} (hlabel : isLowerWord label = true)
    (h : Disguise.Spells ASCII_DIGIT_HOMOGLYPHS token label) : isAlnumWord token = true := by
  obtain ⟨hne, hlower⟩ := isLowerWord_iff.mp hlabel
  rw [isAlnumWord, Bool.and_eq_true, bne_iff_ne, List.all_eq_true]
  constructor
  · rintro rfl
    exact hne (List.forall₂_nil_left_iff.mp h)
  · clear hne hlabel
    induction h with
    | nil =>
        intro u hu
        cases hu
    | cons hletter _ ih =>
        obtain ⟨hv, hrest⟩ := List.forall_mem_cons.mp hlower
        refine List.forall_mem_cons.mpr ⟨?_, ih hrest⟩
        rw [Bool.or_eq_true]
        rcases hletter with rfl | hlooks
        · exact Or.inl hv
        · exact Or.inr (homoglyph_lower hlooks).1

theorem tokenFold_eq_some {token found label : Text} :
    tokenFold token = some (found, label) ↔
      found = token ∧ label ∈ BRAND_LABELS ∧ isLowerWord label = true ∧
        Disguises ASCII_DIGIT_HOMOGLYPHS token label := by
  rw [tokenFold.eq_def]
  constructor
  · intro h
    split at h
    · simp only at h
      split at h
      · cases h
      rename_i hfold
      split at h
      · cases h
      rename_i hlower
      split at h
      · cases h
      rename_i hwatched
      cases h
      rw [Bool.not_eq_true', Bool.not_eq_false] at hlower hwatched
      refine ⟨rfl, List.contains_iff_mem.mp hwatched, hlower, ?_⟩
      exact (disguises_iff_fold (honest_of_lower (isLowerWord_iff.mp hlower).2)).mpr ⟨rfl, hfold⟩
    · cases h
  · rintro ⟨rfl, hwatched, hlower, hdisguise⟩
    obtain ⟨hfold, hne⟩ :=
      (disguises_iff_fold (honest_of_lower (isLowerWord_iff.mp hlower).2)).mp hdisguise
    rw [if_pos (alnum_of_spells hlower hdisguise.1)]
    simp only [if_neg hne]
    rw [hfold]
    simp only [hlower, List.contains_iff_mem.mpr hwatched, Bool.not_true, Bool.false_eq_true,
      if_false]

section
variable {P : Platform} {ctx : InspectionContext}

theorem tokenDisguise_of_tokenTier {token label : Text} (h : tokenTier P ctx = some (token, label)) :
    TokenDisguise P ctx token label := by
  obtain ⟨rawLabel, hrawLabel, hlabel⟩ := List.exists_of_findSome?_eq_some h
  obtain ⟨found, hfound, hfold⟩ := List.exists_of_findSome?_eq_some hlabel
  obtain ⟨rfl, hwatched, hlower, hdisguise⟩ := tokenFold_eq_some.mp hfold
  exact ⟨⟨rawLabel, hrawLabel, hfound⟩, hwatched, hlower, hdisguise⟩

theorem tokenTier_isSome {token label : Text} (h : TokenDisguise P ctx token label) :
    (tokenTier P ctx).isSome = true := by
  obtain ⟨rawLabel, hrawLabel, htoken⟩ := h.written
  have hfold := tokenFold_eq_some.mpr ⟨rfl, h.watched, h.alphabetic, h.disguise⟩
  rw [tokenTier, List.findSome?_isSome_iff]
  refine ⟨rawLabel, hrawLabel, ?_⟩
  rw [List.findSome?_isSome_iff]
  exact ⟨token, htoken, by rw [hfold]; rfl⟩

/-- What a finding of the detector says. -/
inductive NamesBrand (P : Platform) (ctx : InspectionContext) : CollectedFinding → Prop
  | domain {raw brand : Text} (disguise : DomainDisguise ctx raw brand) :
      NamesBrand P ctx { code := .brandHomoglyph, detail := domainFoldDetail raw brand }
  | token {token label : Text} (whole : ∀ raw brand, ¬ DomainDisguise ctx raw brand)
      (disguise : TokenDisguise P ctx token label) :
      NamesBrand P ctx { code := .brandHomoglyph, detail := tokenFoldDetail token label }

theorem brandHomoglyph_cases (P : Platform) (ctx : InspectionContext) :
    (∃ finding, brandHomoglyph P ctx = [finding] ∧ ctx.isIp = false ∧ NamesBrand P ctx finding) ∨
      (brandHomoglyph P ctx = [] ∧ (ctx.isIp = true ∨
        ((∀ raw brand, ¬ DomainDisguise ctx raw brand) ∧
          ∀ token label, ¬ TokenDisguise P ctx token label))) := by
  rw [brandHomoglyph.eq_def]
  cases hip : ctx.isIp with
  | true =>
      rw [if_pos rfl]
      exact Or.inr ⟨rfl, Or.inl rfl⟩
  | false =>
      rw [if_neg Bool.false_ne_true]
      cases hdomain : domainTier ctx with
      | some found =>
          obtain ⟨raw, brand⟩ := found
          exact Or.inl ⟨_, rfl, rfl, .domain (domainTier_eq_some.mp hdomain)⟩
      | none =>
          have hwhole : ∀ raw brand, ¬ DomainDisguise ctx raw brand := by
            intro raw brand hdisguise
            rw [domainTier_eq_some.mpr hdisguise] at hdomain
            cases hdomain
          cases htoken : tokenTier P ctx with
          | some found =>
              obtain ⟨token, label⟩ := found
              exact Or.inl ⟨_, rfl, rfl, .token hwhole (tokenDisguise_of_tokenTier htoken)⟩
          | none =>
              refine Or.inr ⟨rfl, Or.inr ⟨hwhole, fun token label hdisguise => ?_⟩⟩
              have hsome := tokenTier_isSome hdisguise
              rw [htoken] at hsome
              cases hsome

/-! ### What cannot be reported -/

theorem significantLabel_subset {brand : Text} {u : CodeUnit} (h : u ∈ significantLabel brand) :
    u ∈ brand := List.takeWhile_subset _ h

theorem brandLabel_honest {label : Text} (h : label ∈ BRAND_LABELS) :
    Honest ASCII_DIGIT_HOMOGLYPHS label := by
  obtain ⟨brand, hbrand, rfl⟩ := List.mem_map.mp h
  exact fun u hu => brand_honest hbrand u (significantLabel_subset hu)

theorem domainDisguise_not_brand {raw brand : Text} (h : DomainDisguise ctx raw brand) :
    raw ∉ BRAND_DOMAINS := fun hmem =>
  not_disguises_of_honest (brand_honest h.watched) (brand_honest hmem) h.disguise

theorem tokenDisguise_not_label {token label : Text} (h : TokenDisguise P ctx token label) :
    token ∉ BRAND_LABELS := fun hmem =>
  not_disguises_of_honest (brandLabel_honest h.watched) (brandLabel_honest hmem) h.disguise

theorem looksLike_iff {v : CodeUnit} :
    (∃ u, ASCII_DIGIT_HOMOGLYPHS u = some v) ↔ v = unit 'o' ∨ v = unit 'l' ∨ v = unit 's' := by
  constructor
  · rintro ⟨u, hu⟩
    unfold ASCII_DIGIT_HOMOGLYPHS at hu
    split at hu
    · exact Or.inl (Option.some.inj hu).symm
    · split at hu
      · exact Or.inr (Or.inl (Option.some.inj hu).symm)
      · split at hu
        · exact Or.inr (Or.inr (Option.some.inj hu).symm)
        · cases hu
  · rintro (rfl | rfl | rfl)
    · exact ⟨unit '0', by decide⟩
    · exact ⟨unit '1', by decide⟩
    · exact ⟨unit '5', by decide⟩

/-- A brand's label has a spelling to report exactly when it has an `o`, an `l` or an `s`. -/
theorem label_reachable_iff {label : Text} (h : label ∈ BRAND_LABELS) :
    (∃ token, Disguises ASCII_DIGIT_HOMOGLYPHS token label) ↔
      unit 'o' ∈ label ∨ unit 'l' ∈ label ∨ unit 's' ∈ label := by
  rw [exists_disguise_iff (brandLabel_honest h)]
  simp only [looksLike_iff]
  constructor
  · rintro ⟨v, hv, rfl | rfl | rfl⟩
    · exact Or.inl hv
    · exact Or.inr (Or.inl hv)
    · exact Or.inr (Or.inr hv)
  · rintro (hv | hv | hv)
    · exact ⟨_, hv, Or.inl rfl⟩
    · exact ⟨_, hv, Or.inr (Or.inl rfl)⟩
    · exact ⟨_, hv, Or.inr (Or.inr rfl)⟩

/-! ### The detectors beside each other -/

/-- Processing for display keeps an ASCII name ASCII when no label of it is an ACE label. -/
def PlainNamesStayPlain (P : Platform) : Prop :=
  ∀ s : Text, (∀ u ∈ s, u.toNat < 128) → ¬ text "xn--" <:+: s → ∀ u ∈ P.toUnicode s, u.toNat < 128

example : PlainNamesStayPlain Platform.ascii := by
  intro s hs _ u hu
  have hunicode : Platform.ascii.toUnicode s = s.map asciiLower := by
    cases s with
    | nil => rfl
    | cons v s => rfl
  rw [hunicode] at hu
  obtain ⟨v, hv, rfl⟩ := List.mem_map.mp hu
  have hsmall := hs v hv
  unfold asciiLower
  split
  · rename_i hupper
    simp only [isUpper, Bool.and_eq_true, decide_eq_true_eq] at hupper
    rw [UInt16.toNat_add]
    have h32 : UInt16.toNat 32 = 32 := rfl
    omega
  · exact hsmall

theorem ascii_of_lowerName {s : Text} (h : isLowerName s = true) :
    ∀ u ∈ s, u.toNat < 128 ∧ u ≠ unit '-' := by
  rw [isLowerName, Bool.and_eq_true, List.all_eq_true] at h
  intro u hu
  have hunit := h.2 u hu
  rw [Bool.or_eq_true, beq_iff_eq] at hunit
  rcases hunit with hlower | rfl
  · simp only [isLower, Bool.and_eq_true, decide_eq_true_eq] at hlower
    refine ⟨by omega, ?_⟩
    rintro rfl
    revert hlower
    decide
  · decide

theorem ascii_of_spells {raw brand : Text} (hbrand : isLowerName brand = true)
    (h : Disguise.Spells ASCII_DIGIT_HOMOGLYPHS raw brand) : ∀ u ∈ raw, u.toNat < 128 ∧ u ≠ unit '-' := by
  have hall := ascii_of_lowerName hbrand
  clear hbrand
  induction h with
  | nil =>
      intro u hu
      cases hu
  | cons hletter _ ih =>
      obtain ⟨hv, hrest⟩ := List.forall_mem_cons.mp hall
      refine List.forall_mem_cons.mpr ⟨?_, ih hrest⟩
      rcases hletter with rfl | hlooks
      · exact hv
      · have hdigit := (homoglyph_lower hlooks).1
        simp only [isDigit, Bool.and_eq_true, decide_eq_true_eq] at hdigit
        refine ⟨by omega, ?_⟩
        rintro rfl
        revert hdigit
        decide

/-- A domain that spells a brand in digits is ASCII and has no ACE label, so it is none that
the homograph detectors look at. -/
theorem not_examined_of_domainDisguise {U : UnicodeData} (hplain : PlainNamesStayPlain P)
    (hlower : ctx.registrableDomainLower = ctx.registrableDomain.map P.toLowerCase) {raw brand : Text}
    (h : DomainDisguise ctx raw brand) (input host : Text) : ¬ Examined P U ctx input host := by
  intro hexamined
  have hraw := h.lower
  rw [hlower, hexamined.domain, Option.map_some, Option.some.injEq] at hraw
  have hunits := ascii_of_spells h.alphabetic h.disguise.1
  have hace : ¬ text "xn--" <:+: raw := fun hwithin =>
    (hunits (unit '-') (hwithin.subset (by decide))).2 rfl
  have hhost : hasNonAscii host = false := by
    rw [hasNonAscii_eq_false, hexamined.unicode, hraw]
    exact hplain raw (fun u hu => (hunits u hu).1) hace
  rw [hexamined.nonAscii] at hhost
  cases hhost

end

end Linklint
