import Linklint.Policy.Axes

/-!
# Low bytes of isolated code points

The detector looks at the low byte of a code point, the attack at the low bytes of
its UTF-16 code units. Within the basic plane these are the same; an astral code
point has a high surrogate, whose low byte is not looked at.
-/

namespace Linklint

def DANGEROUS_LOW_BYTE : List (Nat × String) :=
  [(0x00, "NUL — truncates the string for a C-string resolver"),
   (0x09, "TAB — terminates the host so validator and resolver disagree"),
   (0x0a, "LF — injects a header / smuggles a second protocol"),
   (0x0b, "VT — whitespace a lenient parser strips"),
   (0x0c, "FF — whitespace a lenient parser strips"),
   (0x0d, "CR — injects a header / smuggles a second protocol"),
   (0x20, "SPACE — terminates the host for getaddrinfo"),
   (0x23, "'#' — starts a fragment, discarding the rest"),
   (0x2f, "'/' — ends the authority"),
   (0x3a, "':' — forges a port separator"),
   (0x3f, "'?' — starts a query, discarding the rest"),
   (0x40, "'@' — moves the authority, so the real host changes")]

def MAX_TOKENS : Nat := 3

def isAsciiAlnum (cp : Nat) : Bool :=
  decide (cp < 0x80) && (isDigit (UInt16.ofNat cp) || isAsciiLetter (UInt16.ofNat cp))

/-- `cp.toString(16).toUpperCase().padStart(4, "0")`. -/
def codePointHex (cp : Nat) : Text :=
  let hex := (numeralText 16 cp).map fun u => if isLower u then u - 32 else u
  List.replicate (4 - hex.length) (unit '0') ++ hex

/-- The token of position `i`, when it is reported. -/
def scanAt (name : Text) (cps : List Nat) (i : Nat) : Option Text :=
  match cps[i - 1]?, cps[i]?, cps[i + 1]? with
  | some before, some cp, some after =>
      if i = 0 ∨ cp < 0x80 then none
      else
        match DANGEROUS_LOW_BYTE.lookup (cp % 256) with
        | none => none
        | some gloss =>
            if isAsciiAlnum before && isAsciiAlnum after then
              some (text "U+" ++ codePointHex cp ++ text " in " ++ name ++ text " (low byte "
                ++ text gloss ++ text ")")
            else none
  | _, _, _ => none

/-- `scan`: a component of ASCII characters is not walked. -/
def scanLowBytes (name value : Text) : List Text :=
  if value.any fun u => 0x7f < u.toNat then
    (List.range (codePoints value).length).filterMap (scanAt name (codePoints value))
  else []

def truncationComponents (ctx : InspectionContext) : List (Text × Option Text) :=
  [(text "userinfo", ctx.userinfo), (text "host", some ctx.rawHost), (text "path", some ctx.path),
   (text "query", ctx.query), (text "fragment", ctx.fragment)]

def truncationTokens (ctx : InspectionContext) : List Text :=
  (truncationComponents ctx).flatMap fun (name, value) =>
    ((truthy value).map (scanLowBytes name)).getD []

def lowByteTruncation (ctx : InspectionContext) : List CollectedFinding :=
  let tokens := truncationTokens ctx
  if tokens = [] then []
  else
    let hits := tokens.take MAX_TOKENS
    let more :=
      if hits.length < tokens.length then
        text " (+" ++ decimalText (tokens.length - hits.length) ++ text " more)"
      else []
    [{ code := .lowByteTruncation,
       detail := text "non-ASCII code point wedged between ASCII alphanumerics whose low byte is a "
         ++ text "dangerous ASCII byte: " ++ listText hits ++ more
         ++ text " — a lossy UTF-16-to-byte narrowing materializes that byte, "
         ++ text "and no byte-scan of the input can see it" }]

/-! ## Narrowing -/

def IsDangerous (byte : Nat) : Prop := byte ∈ DANGEROUS_LOW_BYTE.map Prod.fst

instance (byte : Nat) : Decidable (IsDangerous byte) := by
  unfold IsDangerous
  infer_instance

/-- Every code unit cut down to its low byte. -/
def narrow (s : Text) : List Nat := s.map fun u => u.toNat % 256

/-- A non-ASCII code point with an ASCII alphanumeric on either side. -/
structure IsolatedAt (cps : List Nat) (i cp : Nat) : Prop where
  here : cps[i]? = some cp
  nonAscii : 0x80 ≤ cp
  before : 0 < i ∧ ∃ c ∈ cps[i - 1]?, isAsciiAlnum c = true
  after : ∃ c ∈ cps[i + 1]?, isAsciiAlnum c = true

/-- The code units of the code point narrow to a dangerous byte. -/
def Materializes (cp : Nat) : Prop := ∃ byte ∈ narrow (encodeCodePoint cp), IsDangerous byte

/-- The only dangerous byte is that of the high surrogate. -/
def HiddenInSurrogate (cp : Nat) : Prop :=
  0x10000 ≤ cp ∧ IsDangerous ((0xD800 + (cp - 0x10000) / 0x400) % 256) ∧ ¬ IsDangerous (cp % 256)

/-- Each isolated code point is reported exactly when narrowing makes a dangerous byte of
it, and nothing else is. -/
structure NarrowingReported (ctx : InspectionContext) : Prop where
  reports : ∀ name value, (name, some value) ∈ truncationComponents ctx →
    ∀ i cp, IsolatedAt (codePoints value) i cp →
      ((∃ token ∈ scanLowBytes name value, scanAt name (codePoints value) i = some token)
        ↔ Materializes cp)
  fires : lowByteTruncation ctx ≠ [] ↔
    ∃ name value, (name, some value) ∈ truncationComponents ctx ∧
      ∃ i cp, IsolatedAt (codePoints value) i cp ∧ Materializes cp

theorem lookup_isSome (byte : Nat) :
    (DANGEROUS_LOW_BYTE.lookup byte).isSome = true ↔ IsDangerous byte := by
  rw [List.lookup_isSome_iff, IsDangerous, List.mem_map]
  constructor
  · rintro ⟨entry, hmem, heq⟩
    exact ⟨entry, hmem, (beq_iff_eq.mp heq).symm⟩
  · rintro ⟨entry, hmem, rfl⟩
    exact ⟨entry, hmem, beq_self_eq_true _⟩

theorem low_byte_ofNat (n : Nat) : (UInt16.ofNat n).toNat % 256 = n % 256 := by
  rw [UInt16.toNat_ofNat']
  omega

/-- A code point of the basic plane is its own code unit; for any other the low surrogate
keeps the low byte. -/
theorem narrow_encodeCodePoint {cp : Nat} :
    narrow (encodeCodePoint cp)
      = if cp < 0x10000 then [cp % 256]
        else [(0xD800 + (cp - 0x10000) / 0x400) % 256, cp % 256] := by
  unfold encodeCodePoint narrow
  split
  · rw [List.map_singleton, low_byte_ofNat]
  · have hlow : (0xDC00 + (cp - 0x10000) % 0x400) % 256 = cp % 256 := by omega
    rw [List.map_cons, List.map_singleton, low_byte_ofNat, low_byte_ofNat, hlow]

theorem materializes_iff {cp : Nat} :
    Materializes cp ↔ IsDangerous (cp % 256) ∨ HiddenInSurrogate cp := by
  unfold Materializes HiddenInSurrogate
  rw [narrow_encodeCodePoint]
  split
  · rename_i hbasic
    simp only [List.mem_singleton, exists_eq_left]
    constructor
    · exact Or.inl
    · rintro (h | ⟨hastral, _⟩)
      · exact h
      · omega
  · rename_i hastral
    simp only [List.mem_cons, List.not_mem_nil, or_false, exists_eq_or_imp, exists_eq_left]
    constructor
    · rintro (h | h)
      · by_cases hlow : IsDangerous (cp % 256)
        · exact Or.inl hlow
        · exact Or.inr ⟨by omega, h, hlow⟩
      · exact Or.inl h
    · rintro (h | ⟨_, h, _⟩)
      · exact Or.inr h
      · exact Or.inl h

/-- A position is reported exactly when it is isolated and its own low byte is dangerous. -/
theorem scanAt_isSome {name : Text} {cps : List Nat} {i : Nat} :
    (∃ token, scanAt name cps i = some token) ↔
      ∃ cp, IsolatedAt cps i cp ∧ IsDangerous (cp % 256) := by
  constructor
  · rintro ⟨token, htoken⟩
    unfold scanAt at htoken
    split at htoken
    · rename_i before cp after hbefore hhere hafter
      split at htoken
      · cases htoken
      rename_i hguard
      rw [not_or, not_lt] at hguard
      split at htoken
      · cases htoken
      rename_i gloss hgloss
      split at htoken
      · rename_i halnum
        rw [Bool.and_eq_true] at halnum
        refine ⟨cp, ⟨hhere, hguard.2, ⟨by omega, before, hbefore, halnum.1⟩,
          after, hafter, halnum.2⟩, ?_⟩
        rw [← lookup_isSome, hgloss]
        rfl
      · cases htoken
    · cases htoken
  · rintro ⟨cp, ⟨hhere, hnon, ⟨hpos, before, hbefore, halnum⟩, after, hafter, halnum'⟩, hdanger⟩
    obtain ⟨gloss, hgloss⟩ := Option.isSome_iff_exists.mp ((lookup_isSome _).mpr hdanger)
    have hguard : ¬ (i = 0 ∨ cp < 0x80) := by omega
    rw [Option.mem_def] at hbefore hafter
    simp only [scanAt, hbefore, hhere, hafter, hgloss, if_neg hguard, halnum, halnum', Bool.and_self,
      if_true]
    exact ⟨_, rfl⟩

/-- A non-ASCII code point is written with a non-ASCII code unit. -/
theorem exists_unit_of_codePoint {s : Text} {cp : Nat} (h : cp ∈ codePoints s) (hcp : 0x80 ≤ cp) :
    ∃ u ∈ s, 0x7f < u.toNat := by
  induction s using codePoints.induct with
  | case1 => simp [codePoints] at h
  | case2 u =>
      simp only [codePoints, List.mem_singleton] at h
      exact ⟨u, List.mem_singleton_self u, by omega⟩
  | case3 u v rest hpair ih =>
      rw [Bool.and_eq_true] at hpair
      simp only [isHighSurrogate, Bool.and_eq_true, decide_eq_true_eq] at hpair
      exact ⟨u, List.mem_cons_self, by omega⟩
  | case4 u v rest hpair ih =>
      rw [codePoints, if_neg hpair, List.mem_cons] at h
      rcases h with rfl | h
      · exact ⟨u, List.mem_cons_self, by omega⟩
      · obtain ⟨w, hw, hlarge⟩ := ih h
        exact ⟨w, List.mem_cons_of_mem _ hw, hlarge⟩

theorem mem_scanLowBytes {name value token : Text} :
    token ∈ scanLowBytes name value ↔ ∃ i, scanAt name (codePoints value) i = some token := by
  constructor
  · intro h
    unfold scanLowBytes at h
    split at h
    · obtain ⟨i, _, hi⟩ := List.mem_filterMap.mp h
      exact ⟨i, hi⟩
    · cases h
  · rintro ⟨i, hi⟩
    obtain ⟨cp, hisolated, _⟩ := scanAt_isSome.mp ⟨token, hi⟩
    have hlen : i < (codePoints value).length :=
      (List.getElem?_eq_some_iff.mp hisolated.here).1
    have hunit : (value.any fun u => decide (0x7f < u.toNat)) = true := by
      obtain ⟨u, hu, hlarge⟩ :=
        exists_unit_of_codePoint (List.mem_of_getElem? hisolated.here) hisolated.nonAscii
      exact List.any_eq_true.mpr ⟨u, hu, decide_eq_true hlarge⟩
    rw [scanLowBytes, if_pos hunit]
    exact List.mem_filterMap.mpr ⟨i, List.mem_range.mpr hlen, hi⟩

theorem truthy_some (value : Text) :
    truthy (some value) = if value = [] then none else some value := by
  by_cases h : value = [] <;> simp [truthy, Option.filter, h]

theorem scanLowBytes_nil (name : Text) : scanLowBytes name [] = [] := rfl

theorem mem_truncationTokens {ctx : InspectionContext} {token : Text} :
    token ∈ truncationTokens ctx ↔
      ∃ name value, (name, some value) ∈ truncationComponents ctx
        ∧ token ∈ scanLowBytes name value := by
  simp only [truncationTokens, List.mem_flatMap]
  constructor
  · rintro ⟨⟨name, value⟩, hmem, htoken⟩
    cases value with
    | none => cases htoken
    | some value =>
        rw [truthy_some] at htoken
        split at htoken
        · cases htoken
        · exact ⟨name, value, hmem, htoken⟩
  · rintro ⟨name, value, hmem, htoken⟩
    refine ⟨(name, some value), hmem, ?_⟩
    have hne : value ≠ [] := by
      rintro rfl
      simp [scanLowBytes_nil] at htoken
    rwa [truthy_some, if_neg hne]

theorem lowByteTruncation_ne_nil {ctx : InspectionContext} :
    lowByteTruncation ctx ≠ [] ↔ ∃ token, token ∈ truncationTokens ctx := by
  rw [lowByteTruncation]
  dsimp only
  split
  · rename_i hnone
    simp [hnone]
  · rename_i hsome
    simpa using List.exists_mem_of_ne_nil _ hsome

/-- The detector is complete exactly when no isolated code point has its only dangerous
byte in the high surrogate. -/
theorem narrowingReported_iff (ctx : InspectionContext) :
    NarrowingReported ctx ↔
      ∀ name value, (name, some value) ∈ truncationComponents ctx →
        ∀ i cp, IsolatedAt (codePoints value) i cp → ¬ HiddenInSurrogate cp := by
  have hreports : ∀ name value i cp, IsolatedAt (codePoints value) i cp →
      ((∃ token ∈ scanLowBytes name value, scanAt name (codePoints value) i = some token)
        ↔ IsDangerous (cp % 256)) := by
    intro name value i cp hisolated
    constructor
    · rintro ⟨token, _, htoken⟩
      obtain ⟨cp', hisolated', hdanger⟩ := scanAt_isSome.mp ⟨token, htoken⟩
      have hsame := hisolated.here.symm.trans hisolated'.here
      cases hsame
      exact hdanger
    · intro hdanger
      obtain ⟨token, htoken⟩ := scanAt_isSome.mpr ⟨cp, hisolated, hdanger⟩
      exact ⟨token, mem_scanLowBytes.mpr ⟨i, htoken⟩, htoken⟩
  constructor
  · intro h name value hmem i cp hisolated hhidden
    have hmaterial := materializes_iff.mpr (Or.inr hhidden)
    have hdanger := (hreports name value i cp hisolated).mp
      ((h.reports name value hmem i cp hisolated).mpr hmaterial)
    exact hhidden.2.2 hdanger
  · intro hcond
    have hmaterial : ∀ name value, (name, some value) ∈ truncationComponents ctx →
        ∀ i cp, IsolatedAt (codePoints value) i cp →
          (Materializes cp ↔ IsDangerous (cp % 256)) := by
      intro name value hmem i cp hisolated
      rw [materializes_iff, or_iff_left (hcond name value hmem i cp hisolated)]
    refine ⟨fun name value hmem i cp hisolated => ?_, ?_⟩
    · rw [hreports name value i cp hisolated, hmaterial name value hmem i cp hisolated]
    · rw [lowByteTruncation_ne_nil]
      constructor
      · rintro ⟨token, htoken⟩
        obtain ⟨name, value, hmem, htoken⟩ := mem_truncationTokens.mp htoken
        obtain ⟨i, hi⟩ := mem_scanLowBytes.mp htoken
        obtain ⟨cp, hisolated, hdanger⟩ := scanAt_isSome.mp ⟨token, hi⟩
        exact ⟨name, value, hmem, i, cp, hisolated,
          (hmaterial name value hmem i cp hisolated).mpr hdanger⟩
      · rintro ⟨name, value, hmem, i, cp, hisolated, hmat⟩
        have hdanger := (hmaterial name value hmem i cp hisolated).mp hmat
        obtain ⟨token, htoken⟩ := scanAt_isSome.mpr ⟨cp, hisolated, hdanger⟩
        exact ⟨token, mem_truncationTokens.mpr
          ⟨name, value, hmem, mem_scanLowBytes.mpr ⟨i, htoken⟩⟩⟩

/-- U+20001 narrows to `@` and 0x01; the detector sees 0x01 only. -/
theorem at_sign_missed :
    ∃ ctx, parseInput Platform.ascii (text "https://example.com/a𠀁b") (depthRuntime 4)
        = .ok (some ctx) ∧ ¬ NarrowingReported ctx := by
  refine ⟨_, rfl, fun h => ?_⟩
  have hpath := h.reports (text "path") (text "/a𠀁b") (by decide +kernel) 2 0x20001
    ⟨by decide, by decide, by decide, by decide⟩
  have hmaterial : Materializes 0x20001 := ⟨0x40, by decide, by decide⟩
  obtain ⟨token, _, htoken⟩ := hpath.mpr hmaterial
  have hnone : scanAt (text "path") (codePoints (text "/a𠀁b")) 2 = none := by decide
  rw [hnone] at htoken
  cases htoken

end Linklint
