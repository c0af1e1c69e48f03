import Linklint.Detectors.BrandHomoglyph

/-!
# Words spelled with digits

A label is reported when it reads as a word: long enough, led by a letter, spelled
with digits that look like letters, and with more letters than digits.
-/

namespace Linklint

open Disguise

/-- The counters of the loop over a label. -/
structure LabelScan where
  letters : Nat
  digits : Nat
  skeleton : Text
deriving DecidableEq

/-- One character; a digit that looks like no letter ends the loop. -/
def LabelScan.step (scan : LabelScan) (ch : CodeUnit) : Option LabelScan :=
  if isLower ch then
    some { scan with letters := scan.letters + 1, skeleton := scan.skeleton ++ [ch] }
  else
    (ASCII_DIGIT_HOMOGLYPHS ch).map fun mapped =>
      { scan with digits := scan.digits + 1, skeleton := scan.skeleton ++ [mapped] }

def scanLabel (label : Text) : Option LabelScan :=
  label.foldlM LabelScan.step { letters := 0, digits := 0, skeleton := [] }

/-- `/^[a-z]/` -/
def startsWithLower (s : Text) : Bool := s.head?.any isLower

section
variable (P : Platform)

/-- The lowercase label and the word it reads as. -/
def readsAs (raw : Text) : Option (Text × Text) :=
  let label := P.toLowerCase raw
  if label.length < 5 then none
  else if !isAlnumWord label then none
  else if !startsWithLower label then none
  else
    (scanLabel label).bind fun scan =>
      if scan.digits = 0 then none
      else if scan.letters ≤ scan.digits then none
      else some (label, scan.skeleton)

def homoglyphHits (ctx : InspectionContext) : List (Text × Text) :=
  ctx.hostLabels.filterMap (readsAs P)

def asciiHomoglyphDetail (hits : List (Text × Text)) : Text :=
  text "host uses ASCII digit look-alikes for letters — same-script disguise that "
    ++ text "cross-script checks miss: "
    ++ listText (hits.map fun hit =>
        text "'" ++ hit.1 ++ text "' (reads as '" ++ hit.2 ++ text "')")

def asciiHomoglyph (ctx : InspectionContext) : List CollectedFinding :=
  if ctx.isIp ∨ ctx.hostLabels = [] then []
  else if homoglyphHits P ctx = [] then []
  else
    [{ code := .asciiHomoglyph, detail := asciiHomoglyphDetail (homoglyphHits P ctx) }]

end

/-! ### The scan of a label -/

/-- Every character is a letter or looks like one. -/
def LetterShaped (s : Text) : Prop := ∀ u ∈ s, isLower u = true ∨ (ASCII_DIGIT_HOMOGLYPHS u).isSome

/-- The counters after the characters of `s`. -/
def LabelScan.after (scan : LabelScan) (s : Text) : LabelScan where
  letters := scan.letters + s.countP isLower
  digits := scan.digits + s.countP isDigit
  skeleton := scan.skeleton ++ foldAsciiDigitHomoglyphs s

theorem step_lower {scan : LabelScan} {u : CodeUnit} (h : isLower u = true) :
    scan.step u = some (scan.after [u]) := by
  have hdigit := not_digit_of_lower h
  have hlooks := homoglyph_none_of_not_digit hdigit
  rw [LabelScan.step, if_pos h]
  simp [LabelScan.after, foldAsciiDigitHomoglyphs, fold, readLetter_none hlooks, h, hdigit]

theorem not_lower_of_homoglyph {u v : CodeUnit} (h : ASCII_DIGIT_HOMOGLYPHS u = some v) :
    isLower u = false := by
  refine Bool.eq_false_iff.mpr fun hlower => ?_
  rw [(homoglyph_none_of_not_digit (not_digit_of_lower hlower))] at h
  cases h

theorem step_digit {scan : LabelScan} {u v : CodeUnit} (h : ASCII_DIGIT_HOMOGLYPHS u = some v) :
    scan.step u = some (scan.after [u]) := by
  have hlower := not_lower_of_homoglyph h
  have hdigit := (homoglyph_lower h).1
  rw [LabelScan.step, if_neg (Bool.eq_false_iff.mp hlower), h]
  simp [LabelScan.after, foldAsciiDigitHomoglyphs, fold, readLetter_some h, hlower, hdigit]

theorem step_eq_some {scan scan' : LabelScan} {u : CodeUnit} :
    scan.step u = some scan' ↔
      (isLower u = true ∨ (ASCII_DIGIT_HOMOGLYPHS u).isSome) ∧ scan' = scan.after [u] := by
  by_cases hlower : isLower u = true
  · rw [step_lower hlower, Option.some.injEq]
    constructor
    · rintro rfl
      exact ⟨Or.inl hlower, rfl⟩
    · rintro ⟨-, rfl⟩
      rfl
  · cases hlooks : ASCII_DIGIT_HOMOGLYPHS u with
    | none => simp [LabelScan.step, hlower, hlooks]
    | some v =>
        rw [step_digit hlooks, Option.some.injEq]
        constructor
        · rintro rfl
          exact ⟨Or.inr rfl, rfl⟩
        · rintro ⟨-, rfl⟩
          rfl

theorem after_cons (scan : LabelScan) (u : CodeUnit) (s : Text) :
    (scan.after [u]).after s = scan.after (u :: s) := by
  have hcount : ∀ p : CodeUnit → Bool, (u :: s).countP p = [u].countP p + s.countP p := by
    intro p
    rw [← List.countP_append, List.singleton_append]
  simp only [LabelScan.after, LabelScan.mk.injEq, hcount, foldAsciiDigitHomoglyphs, fold,
    List.map_cons, List.map_nil, List.append_assoc, List.singleton_append, and_true]
  omega

/-- The loop ends with the counts of the whole label, when every character is readable. -/
theorem foldlM_step {scan scan' : LabelScan} {s : Text} :
    s.foldlM LabelScan.step scan = some scan' ↔ LetterShaped s ∧ scan' = scan.after s := by
  induction s generalizing scan with
  | nil =>
      have hafter : scan.after [] = scan := by
        simp [LabelScan.after, foldAsciiDigitHomoglyphs, fold]
      rw [hafter, List.foldlM_nil]
      constructor
      · intro h
        cases h
        exact ⟨fun u hu => absurd hu List.not_mem_nil, rfl⟩
      · rintro ⟨-, rfl⟩
        rfl
  | cons u s ih =>
      rw [List.foldlM_cons, Option.bind_eq_bind, Option.bind_eq_some_iff]
      constructor
      · rintro ⟨next, hstep, hrest⟩
        obtain ⟨hu, rfl⟩ := step_eq_some.mp hstep
        obtain ⟨hs, hscan⟩ := ih.mp hrest
        refine ⟨List.forall_mem_cons.mpr ⟨hu, hs⟩, ?_⟩
        rw [hscan, after_cons]
      · rintro ⟨hreadable, hscan⟩
        obtain ⟨hu, hs⟩ := List.forall_mem_cons.mp hreadable
        refine ⟨scan.after [u], step_eq_some.mpr ⟨hu, rfl⟩, ih.mpr ⟨hs, ?_⟩⟩
        rw [hscan, after_cons]

theorem scanLabel_eq_some {label : Text} {scan : LabelScan} :
    scanLabel label = some scan ↔ LetterShaped label ∧ scan.letters = label.countP isLower ∧
      scan.digits = label.countP isDigit ∧ scan.skeleton = foldAsciiDigitHomoglyphs label := by
  rw [scanLabel, foldlM_step]
  refine and_congr_right fun _ => ?_
  cases scan
  simp [LabelScan.after]

/-! ### Labels that read as words -/

structure ReadsAsWord (label word : Text) : Prop where
  long : 5 ≤ label.length
  first : startsWithLower label = true
  alphabetic : ∀ v ∈ word, isLower v = true
  disguise : Disguises ASCII_DIGIT_HOMOGLYPHS label word
  majority : label.countP isDigit < label.countP isLower

theorem letterShaped_iff {s : Text} : LetterShaped s ↔ ∀ v ∈ foldAsciiDigitHomoglyphs s, isLower v = true := by
  constructor
  · intro h v hv
    obtain ⟨u, hu, rfl⟩ := List.mem_map.mp hv
    rcases h u hu with hlower | hlooks
    · rw [readLetter_none (homoglyph_none_of_not_digit (not_digit_of_lower hlower))]
      exact hlower
    · obtain ⟨v, hv'⟩ := Option.isSome_iff_exists.mp hlooks
      rw [readLetter_some hv']
      exact (homoglyph_lower hv').2
  · intro h u hu
    have hread := h _ (List.mem_map_of_mem hu)
    cases hlooks : ASCII_DIGIT_HOMOGLYPHS u with
    | none =>
        rw [readLetter_none hlooks] at hread
        exact Or.inl hread
    | some v => exact Or.inr rfl

theorem fold_ne_iff {s : Text} (h : LetterShaped s) :
    foldAsciiDigitHomoglyphs s ≠ s ↔ s.countP isDigit ≠ 0 := by
  rw [not_iff_not, List.countP_eq_zero]
  constructor
  · intro hfold u hu
    rw [← hfold] at hu
    exact Bool.eq_false_iff.mp (not_digit_of_lower (letterShaped_iff.mp h u hu))
  · intro hnone
    apply fold_honest
    exact fun u hu => homoglyph_none_of_not_digit (Bool.eq_false_iff.mpr (hnone u hu))

theorem alnum_of_letterShaped {s : Text} (hne : s ≠ []) (h : LetterShaped s) : isAlnumWord s = true := by
  rw [isAlnumWord, Bool.and_eq_true, bne_iff_ne, List.all_eq_true]
  refine ⟨hne, fun u hu => ?_⟩
  rw [Bool.or_eq_true]
  rcases h u hu with hlower | hlooks
  · exact Or.inl hlower
  · obtain ⟨v, hv⟩ := Option.isSome_iff_exists.mp hlooks
    exact Or.inr (homoglyph_lower hv).1

theorem readsAs_eq_some {P : Platform} {raw label word : Text} :
    readsAs P raw = some (label, word) ↔ label = P.toLowerCase raw ∧ ReadsAsWord label word := by
  rw [readsAs.eq_def]
  simp only
  constructor
  · intro h
    split at h
    · cases h
    rename_i hlong
    split at h
    · cases h
    split at h
    · cases h
    rename_i hfirst
    rw [Bool.not_eq_true', Bool.not_eq_false] at hfirst
    obtain ⟨scan, hscan, h⟩ := Option.bind_eq_some_iff.mp h
    obtain ⟨hreadable, hletters, hdigits, hskeleton⟩ := scanLabel_eq_some.mp hscan
    split at h
    · cases h
    rename_i hsome
    split at h
    · cases h
    rename_i hmost
    cases h
    rw [hdigits] at hsome hmost
    rw [hletters] at hmost
    have hword : ∀ v ∈ scan.skeleton, isLower v = true := by
      rw [hskeleton]
      exact letterShaped_iff.mp hreadable
    refine ⟨rfl, Nat.le_of_not_lt hlong, hfirst, hword, ?_, Nat.lt_of_not_le hmost⟩
    rw [disguises_iff_fold (honest_of_lower hword)]
    exact ⟨hskeleton.symm, (fold_ne_iff hreadable).mpr hsome⟩
  · rintro ⟨rfl, hword⟩
    obtain ⟨hfold, hne⟩ := (disguises_iff_fold (honest_of_lower hword.alphabetic)).mp hword.disguise
    have hreadable : LetterShaped (P.toLowerCase raw) := by
      rw [letterShaped_iff, hfold]
      exact hword.alphabetic
    have hnonempty : P.toLowerCase raw ≠ [] := by
      intro hempty
      have hlong := hword.long
      rw [hempty] at hlong
      exact absurd hlong (by decide)
    have hscan : scanLabel (P.toLowerCase raw) = some
        { letters := (P.toLowerCase raw).countP isLower
          digits := (P.toLowerCase raw).countP isDigit
          skeleton := word } := scanLabel_eq_some.mpr ⟨hreadable, rfl, rfl, hfold.symm⟩
    rw [if_neg (Nat.not_lt_of_le hword.long), alnum_of_letterShaped hnonempty hreadable, hword.first,
      hscan]
    simp only [Bool.not_true, Bool.false_eq_true, if_false, Option.bind_some]
    rw [if_neg ((fold_ne_iff hreadable).mp hne), if_neg (Nat.not_le_of_lt hword.majority)]

theorem mem_homoglyphHits {P : Platform} {ctx : InspectionContext} {label word : Text} :
    (label, word) ∈ homoglyphHits P ctx ↔
      (∃ raw ∈ ctx.hostLabels, label = P.toLowerCase raw) ∧ ReadsAsWord label word := by
  rw [homoglyphHits, List.mem_filterMap]
  constructor
  · rintro ⟨raw, hraw, hreads⟩
    obtain ⟨hlabel, hword⟩ := readsAs_eq_some.mp hreads
    exact ⟨⟨raw, hraw, hlabel⟩, hword⟩
  · rintro ⟨⟨raw, hraw, hlabel⟩, hword⟩
    exact ⟨raw, hraw, readsAs_eq_some.mpr ⟨hlabel, hword⟩⟩

/-- A label reads as one word at most. -/
theorem ReadsAsWord.unique {label word word' : Text} (h : ReadsAsWord label word)
    (h' : ReadsAsWord label word') : word = word' := by
  rw [← ((disguises_iff_fold (honest_of_lower h.alphabetic)).mp h.disguise).1]
  exact ((disguises_iff_fold (honest_of_lower h'.alphabetic)).mp h'.disguise).1

/-- The labels that are listed stand in the order of the host. -/
theorem hits_sublist (P : Platform) (ctx : InspectionContext) :
    ((homoglyphHits P ctx).map Prod.fst).Sublist (ctx.hostLabels.map P.toLowerCase) := by
  rw [homoglyphHits]
  induction ctx.hostLabels with
  | nil => exact List.Sublist.refl []
  | cons raw labels ih =>
      cases hreads : readsAs P raw with
      | none =>
          rw [List.filterMap_cons_none hreads, List.map_cons]
          exact ih.cons _
      | some hit =>
          obtain ⟨label, word⟩ := hit
          rw [List.filterMap_cons_some hreads, List.map_cons, List.map_cons,
            (readsAs_eq_some.mp hreads).1]
          exact ih.cons_cons _

/-- The detector reports the host exactly when one of its labels reads as a word, and its
one finding lists all of these, in their order, each with its only reading. A whole label
that spells a brand's label is among them unless it is short, starts with a digit or has
no majority of letters. -/
theorem ascii_homoglyph_findings (P : Platform) (ctx : InspectionContext) :
    (asciiHomoglyph P ctx ≠ [] ↔ ctx.isIp = false ∧
      ∃ raw ∈ ctx.hostLabels, ∃ word, ReadsAsWord (P.toLowerCase raw) word) ∧
    (∀ finding ∈ asciiHomoglyph P ctx, ∃ hits,
      finding = { code := .asciiHomoglyph, detail := asciiHomoglyphDetail hits } ∧
      (hits.map Prod.fst).Sublist (ctx.hostLabels.map P.toLowerCase) ∧
      ∀ label word, (label, word) ∈ hits ↔
        (∃ raw ∈ ctx.hostLabels, label = P.toLowerCase raw) ∧ ReadsAsWord label word) ∧
    (asciiHomoglyph P ctx).length ≤ 1 ∧
    (∀ label word word', ReadsAsWord label word → ReadsAsWord label word' → word = word') ∧
    (∀ label, ∀ brand ∈ BRAND_LABELS, isLowerWord brand = true →
      Disguises ASCII_DIGIT_HOMOGLYPHS label brand →
      (ReadsAsWord label brand ↔ 5 ≤ label.length ∧ startsWithLower label = true ∧
        label.countP isDigit < label.countP isLower)) := by
  refine ⟨?_, ?_, ?_, fun _ _ _ => ReadsAsWord.unique, ?_⟩
  · rw [asciiHomoglyph.eq_def]
    by_cases hguard : ctx.isIp = true ∨ ctx.hostLabels = []
    · rw [if_pos hguard]
      refine iff_of_false (fun h => h rfl) ?_
      rintro ⟨hip, raw, hraw, -⟩
      rcases hguard with haddress | hempty
      · rw [hip] at haddress
        cases haddress
      · rw [hempty] at hraw
        cases hraw
    · rw [if_neg hguard]
      obtain ⟨hip, -⟩ := not_or.mp hguard
      rw [Bool.not_eq_true] at hip
      constructor
      · intro h
        have hhits : homoglyphHits P ctx ≠ [] := by
          intro hnone
          rw [if_pos hnone] at h
          exact h rfl
        obtain ⟨⟨label, word⟩, hhit⟩ := List.exists_mem_of_ne_nil _ hhits
        obtain ⟨⟨raw, hraw, rfl⟩, hword⟩ := mem_homoglyphHits.mp hhit
        exact ⟨hip, raw, hraw, word, hword⟩
      · rintro ⟨-, raw, hraw, word, hword⟩
        have hhit := mem_homoglyphHits.mpr ⟨⟨raw, hraw, rfl⟩, hword⟩
        rw [if_neg (List.ne_nil_of_mem hhit)]
        exact List.cons_ne_nil _ _
  · intro finding hfinding
    rw [asciiHomoglyph.eq_def] at hfinding
    split at hfinding
    · cases hfinding
    · split at hfinding
      · cases hfinding
      · rw [List.mem_singleton] at hfinding
        exact ⟨homoglyphHits P ctx, hfinding, hits_sublist P ctx,
          fun _ _ => mem_homoglyphHits⟩
  · rw [asciiHomoglyph.eq_def]
    split
    · exact Nat.zero_le 1
    · split
      · exact Nat.zero_le 1
      · exact Nat.le_refl 1
  · intro label brand _ hbrand hdisguise
    constructor
    · intro h
      exact ⟨h.long, h.first, h.majority⟩
    · rintro ⟨hlong, hfirst, hmajority⟩
      exact ⟨hlong, hfirst, (isLowerWord_iff.mp hbrand).2, hdisguise, hmajority⟩

end Linklint
