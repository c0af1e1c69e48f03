import Linklint.Js.CodecRoundTrip
import Linklint.Resolution.WrapperFormats

/-!
# Proofpoint v3 templates

A template holds the text of a destination with asterisks where characters were
taken out: one asterisk for a character, two and a run code for a run. The
characters themselves follow as base64url, and the decoder puts them back.
-/

namespace Linklint.EmbeddedWrapper

/-! ### Reading a template -/

/-- An asterisk that starts no run: fewer than two units follow, or no second asterisk. -/
def Single (rest : Text) : Prop := rest.length < 2 ∨ rest.head? ≠ some (unit '*')

theorem expandTemplate_literal {u : CodeUnit} (hu : u ≠ unit '*') (rest : Text)
    (replacements : List Text) :
    expandTemplate (u :: rest) replacements = (expandTemplate rest replacements).map (u :: ·) := by
  rw [expandTemplate.eq_def]
  simp only [ne_eq, hu, not_false_eq_true, if_true]

theorem expandTemplate_single {rest : Text} (h : Single rest) (replacements : List Text) :
    expandTemplate (unit '*' :: rest) replacements = match replacements with
      | [] => none
      | character :: more => (expandTemplate rest more).map (character ++ ·) := by
  rw [expandTemplate.eq_def]
  simp only [ne_eq, not_true_eq_false, if_false]
  cases rest with
  | nil => rfl
  | cons v rest =>
      cases rest with
      | nil => rfl
      | cons w rest =>
          have hv : v ≠ unit '*' := by
            rcases h with hlength | hhead
            · simp only [List.length_cons] at hlength
              omega
            · simpa using hhead
          exact if_neg hv

theorem expandTemplate_run (runCode : CodeUnit) (rest : Text) (replacements : List Text) :
    expandTemplate (unit '*' :: unit '*' :: runCode :: rest) replacements =
      if runCode ∈ PROOFPOINT_V3_RUN_CODES then
        let runLength := PROOFPOINT_V3_RUN_CODES.idxOf runCode + 2
        if replacements.length < runLength then none
        else (expandTemplate rest (replacements.drop runLength)).map
          ((replacements.take runLength).flatten ++ ·)
      else none := by
  rw [expandTemplate.eq_def]
  simp only [ne_eq, not_true_eq_false, if_false, if_true, List.contains_iff_mem]

/-- A template is empty or starts with a literal, a single asterisk or a run. -/
@[elab_as_elim]
theorem template_induction {motive : Text → Prop} (nil : motive [])
    (literal : ∀ u rest, u ≠ unit '*' → motive rest → motive (u :: rest))
    (single : ∀ rest, Single rest → motive rest → motive (unit '*' :: rest))
    (run : ∀ runCode rest, motive rest → motive (unit '*' :: unit '*' :: runCode :: rest))
    (template : Text) : motive template := by
  induction h : template.length using Nat.strong_induction_on generalizing template with
  | _ n ih =>
      subst h
      match template with
      | [] => exact nil
      | u :: rest =>
          by_cases hu : u = unit '*'
          · subst hu
            by_cases hsingle : Single rest
            · exact single rest hsingle (ih _ (Nat.lt_succ_self _) rest rfl)
            · match rest, hsingle with
              | [], hsingle => exact absurd (Or.inl (by simp)) hsingle
              | [_], hsingle => exact absurd (Or.inl (by simp)) hsingle
              | v :: runCode :: rest, hsingle =>
                  have hv : v = unit '*' := by
                    by_contra hv
                    exact hsingle (Or.inr (by simpa using hv))
                  subst hv
                  apply run
                  apply ih _ _ rest rfl
                  simp only [List.length_cons]
                  omega
          · exact literal u rest hu (ih _ (Nat.lt_succ_self _) rest rfl)

/-- Every token takes its run of characters, in order, and none is left over. -/
inductive Expands : Text → List Text → Text → Prop
  | done : Expands [] [] []
  | literal {u : CodeUnit} {rest out : Text} {replacements : List Text} (hu : u ≠ unit '*')
      (h : Expands rest replacements out) : Expands (u :: rest) replacements (u :: out)
  | single {rest out character : Text} {replacements : List Text} (hsingle : Single rest)
      (h : Expands rest replacements out) :
      Expands (unit '*' :: rest) (character :: replacements) (character ++ out)
  | run {runCode : CodeUnit} {rest out : Text} {characters replacements : List Text}
      (hcode : runCode ∈ PROOFPOINT_V3_RUN_CODES)
      (hlength : characters.length = PROOFPOINT_V3_RUN_CODES.idxOf runCode + 2)
      (h : Expands rest replacements out) :
      Expands (unit '*' :: unit '*' :: runCode :: rest) (characters ++ replacements)
        (characters.flatten ++ out)

theorem Expands.expandTemplate_eq {template out : Text} {replacements : List Text}
    (h : Expands template replacements out) : expandTemplate template replacements = some out := by
  induction h with
  | done => rw [expandTemplate, if_pos rfl]
  | literal hu _ ih => rw [expandTemplate_literal hu, ih, Option.map_some]
  | single hsingle _ ih => simp only [expandTemplate_single hsingle, ih, Option.map_some]
  | run hcode hlength _ ih =>
      rw [expandTemplate_run, if_pos hcode]
      simp only [← hlength, List.length_append, List.take_left, List.drop_left, ih, Option.map_some]
      rw [if_neg (by omega)]

theorem Expands.of_expandTemplate {template out : Text} {replacements : List Text}
    (h : expandTemplate template replacements = some out) : Expands template replacements out := by
  induction template using template_induction generalizing replacements out with
  | nil =>
      rw [expandTemplate] at h
      split at h
      · rename_i hempty
        cases h
        rw [hempty]
        exact .done
      · cases h
  | literal u rest hu ih =>
      rw [expandTemplate_literal hu] at h
      obtain ⟨out', hout, rfl⟩ := Option.map_eq_some_iff.mp h
      exact .literal hu (ih hout)
  | single rest hsingle ih =>
      rw [expandTemplate_single hsingle] at h
      cases replacements with
      | nil => cases h
      | cons character more =>
          obtain ⟨out', hout, rfl⟩ := Option.map_eq_some_iff.mp h
          exact .single hsingle (ih hout)
  | run runCode rest ih =>
      rw [expandTemplate_run] at h
      split at h
      · rename_i hcode
        simp only [] at h
        split at h
        · cases h
        · rename_i hlong
          obtain ⟨out', hout, rfl⟩ := Option.map_eq_some_iff.mp h
          have hlength : (replacements.take (PROOFPOINT_V3_RUN_CODES.idxOf runCode + 2)).length
              = PROOFPOINT_V3_RUN_CODES.idxOf runCode + 2 := by
            rw [List.length_take]
            omega
          have hrun := Expands.run hcode hlength (ih hout)
          rwa [List.take_append_drop] at hrun
      · cases h

/-- How many characters the tokens of a template take; `none` at a run code nobody knows. -/
def demand : Text → Option Nat
  | [] => some 0
  | u :: rest =>
      if u ≠ unit '*' then demand rest
      else
        let single := (demand rest).map (1 + ·)
        match rest with
        | v :: runCode :: rest' =>
            if v = unit '*' then
              if PROOFPOINT_V3_RUN_CODES.contains runCode then
                (demand rest').map (PROOFPOINT_V3_RUN_CODES.idxOf runCode + 2 + ·)
              else none
            else single
        | _ => single

theorem Expands.demand_eq {template out : Text} {replacements : List Text}
    (h : Expands template replacements out) : demand template = some replacements.length := by
  induction h with
  | done => rfl
  | literal hu _ ih =>
      rw [demand.eq_def]
      simp [hu, ih]
  | @single rest out character replacements hsingle _ ih =>
      rw [demand.eq_def]
      simp only [ne_eq, not_true_eq_false, if_false, ih, List.length_cons]
      match rest, hsingle with
      | [], _ => simp [Nat.add_comm]
      | [_], _ => simp [Nat.add_comm]
      | v :: _ :: _, hsingle =>
          have hv : v ≠ unit '*' := by
            rcases hsingle with hlength | hhead
            · simp only [List.length_cons] at hlength
              omega
            · simpa using hhead
          simp [hv, Nat.add_comm]
  | run hcode hlength _ ih =>
      rw [demand.eq_def]
      simp [hcode, ih, hlength]

/-! ### The path around a template -/

/-- `/v3/__template__;codes!tracking$` -/
def v3Path (written codes tracking : Text) : Text :=
  text "/v3/__" ++ (written ++ (text "__;" ++ (codes ++ unit '!' :: (tracking ++ text "$"))))

/-- The text of replaced characters: canonical base64url of their UTF-8. -/
def characterCodes (characters : List Nat) : Text :=
  base64UrlText (characters.flatMap utf8Bytes)

theorem v3Tail_append {codes tracking : Text} (h : ∀ u ∈ codes, u ∈ BASE64URL_ALPHABET) :
    v3Tail (text "__;" ++ (codes ++ unit '!' :: (tracking ++ text "$"))) = some codes := by
  have hstart : Text.startsWith (text "__;" ++ (codes ++ unit '!' :: (tracking ++ text "$")))
      (text "__;") = true := by
    rw [Text.startsWith, List.isPrefixOf_iff_prefix]
    exact List.prefix_append ..
  have hmark : BASE64URL_ALPHABET.contains (unit '!') = false := by decide +kernel
  have htake : (codes ++ unit '!' :: (tracking ++ text "$")).takeWhile
      (BASE64URL_ALPHABET.contains ·) = codes := by
    rw [List.takeWhile_append_of_pos fun u hu => List.contains_iff_mem.mpr (h u hu),
      List.takeWhile_cons, hmark]
    simp
  have hlast : (tracking ++ text "$").getLast? = some (unit '$') := by
    rw [List.getLast?_append]
    rfl
  have hdrop : (text "__;" ++ (codes ++ unit '!' :: (tracking ++ text "$"))).drop 3
      = codes ++ unit '!' :: (tracking ++ text "$") := rfl
  rw [v3Tail, if_pos hstart]
  simp only [hdrop, htake, List.drop_left, hlast, and_self, if_true]

theorem v3Tail_eq_some {s codes : Text} (h : v3Tail s = some codes) :
    ∃ tracking, s = text "__;" ++ (codes ++ unit '!' :: (tracking ++ text "$")) := by
  rw [v3Tail] at h
  split at h
  · rename_i hstart
    rw [Text.startsWith, List.isPrefixOf_iff_prefix] at hstart
    obtain ⟨rest, rfl⟩ := hstart
    have hdrop : (text "__;" ++ rest).drop 3 = rest := rfl
    simp only [hdrop] at h
    split at h
    · rename_i mark signature hsplit
      split at h
      · rename_i hmark
        cases h
        obtain ⟨rfl, hlast⟩ := hmark
        obtain ⟨tracking, rfl⟩ := List.getLast?_eq_some_iff.mp hlast
        refine ⟨tracking, ?_⟩
        have hrest := List.prefix_iff_eq_append.mp
          (List.takeWhile_prefix (BASE64URL_ALPHABET.contains ·) (l := rest))
        rw [hsplit] at hrest
        exact congrArg (text "__;" ++ ·) hrest.symm
      · cases h
    · cases h
  · cases h

/-- Before the delimiter no tail begins, whatever the template, unless it holds one itself. -/
theorem v3Tail_inside {written : Text} (hsome : written ≠ []) (hfree : ¬ text "__;" <:+: written)
    (rest : Text) : v3Tail (written ++ (text "__;" ++ rest)) = none := by
  rw [v3Tail, if_neg]
  rw [Text.startsWith, List.isPrefixOf_iff_prefix]
  rintro ⟨tail, htail⟩
  have hdelimiter : text "__;" = [unit '_', unit '_', unit ';'] := by decide
  have hdistinct : unit ';' ≠ unit '_' := by decide
  rw [hdelimiter] at htail hfree
  match written, hsome with
  | [u], _ =>
      simp only [List.cons_append, List.nil_append, List.cons.injEq] at htail
      exact hdistinct htail.2.2.1
  | [u, v], _ =>
      simp only [List.cons_append, List.nil_append, List.cons.injEq] at htail
      exact hdistinct htail.2.2.1
  | u :: v :: w :: more, _ =>
      simp only [List.cons_append, List.nil_append, List.cons.injEq] at htail
      obtain ⟨rfl, rfl, rfl, -⟩ := htail
      exact hfree (List.IsPrefix.isInfix ⟨more, rfl⟩)

theorem v3Template_append {written codes tracking : Text} (hsome : written ≠ [])
    (hfree : ¬ text "__;" <:+: written) (hcodes : ∀ u ∈ codes, u ∈ BASE64URL_ALPHABET) :
    v3Template (written ++ (text "__;" ++ (codes ++ unit '!' :: (tracking ++ text "$"))))
      = some (written, codes) := by
  induction written with
  | nil => exact absurd rfl hsome
  | cons u rest ih =>
      rw [List.cons_append, v3Template]
      by_cases hrest : rest = []
      · subst hrest
        rw [List.nil_append, v3Tail_append hcodes]
      · have hfree' : ¬ text "__;" <:+: rest := fun h => hfree (h.trans (List.suffix_cons ..).isInfix)
        rw [v3Tail_inside hrest hfree', ih hrest hfree']
        rfl

theorem v3Template_eq_some {s written codes : Text} (h : v3Template s = some (written, codes)) :
    written ≠ [] ∧ ∃ tracking,
      s = written ++ (text "__;" ++ (codes ++ unit '!' :: (tracking ++ text "$"))) := by
  induction s generalizing written with
  | nil => cases h
  | cons u rest ih =>
      rw [v3Template] at h
      split at h
      · rename_i hfound
        cases h
        obtain ⟨tracking, rfl⟩ := v3Tail_eq_some hfound
        exact ⟨List.cons_ne_nil _ _, tracking, rfl⟩
      · obtain ⟨⟨written', codes'⟩, hfound, hcons⟩ := Option.map_eq_some_iff.mp h
        cases hcons
        obtain ⟨-, tracking, rfl⟩ := ih hfound
        exact ⟨List.cons_ne_nil _ _, tracking, rfl⟩

/-! ### The characters -/

theorem flatMap_utf8Bytes_lt {characters : List Nat}
    (h : ∀ cp ∈ characters, isScalarValue cp = true) :
    ∀ b ∈ characters.flatMap utf8Bytes, b < 256 := by
  intro b hb
  obtain ⟨cp, hcp, hbyte⟩ := List.mem_flatMap.mp hb
  exact utf8Bytes_lt (h cp hcp) b hbyte

/-- The decoder of the platform drops a byte order mark at the start. -/
def withoutMark (characters : List Nat) : List Nat :=
  if characters.head? = some 0xFEFF then characters.tail else characters

theorem decodeBase64UrlCharacters_codes {characters : List Nat}
    (h : ∀ cp ∈ characters, isScalarValue cp = true) :
    decodeBase64UrlCharacters (characterCodes characters)
      = some ((withoutMark characters).map encodeCodePoint) := by
  have hbytes := flatMap_utf8Bytes_lt h
  rw [decodeBase64UrlCharacters, characterCodes, if_neg (base64UrlText_length _)]
  simp only [base64UrlBytes_text hbytes, ne_eq, not_true_eq_false, if_false,
    textDecode, utf8CodePoints_eq_some_iff.mpr ⟨rfl, h⟩, Option.map_some, withoutMark]

theorem decodeBase64UrlCharacters_eq_some {codes : Text} {replacements : List Text}
    (h : decodeBase64UrlCharacters codes = some replacements) :
    ∃ characters, (∀ cp ∈ characters, isScalarValue cp = true) ∧
      codes = characterCodes characters := by
  rw [decodeBase64UrlCharacters] at h
  split at h
  · cases h
  · simp only [] at h
    split at h
    · cases h
    · rename_i hcanonical
      obtain ⟨_, hdecoded, -⟩ := Option.map_eq_some_iff.mp h
      obtain ⟨characters, hcharacters, -⟩ := Option.map_eq_some_iff.mp hdecoded
      obtain ⟨hbytes, hscalars⟩ := utf8CodePoints_eq_some_iff.mp hcharacters
      refine ⟨characters, hscalars, ?_⟩
      rw [characterCodes, ← hbytes]
      exact (not_not.mp hcanonical).symm

/-- The decoder over a path whose template it can tell from the rest. -/
theorem decodeProofpointV3Payload_path {written tracking : Text} {characters : List Nat}
    (hsome : written ≠ []) (hfree : ¬ text "__;" <:+: written)
    (h : ∀ cp ∈ characters, isScalarValue cp = true) :
    decodeProofpointV3Payload (v3Path written (characterCodes characters) tracking)
      = (decodeURIComponent written).bind fun template =>
        expandTemplate template ((withoutMark characters).map encodeCodePoint) := by
  have hstart : Text.startsWith (v3Path written (characterCodes characters) tracking)
      (text "/v3/__") = true := by
    rw [Text.startsWith, List.isPrefixOf_iff_prefix]
    exact List.prefix_append ..
  have hdrop : (v3Path written (characterCodes characters) tracking).drop 6 = written
      ++ (text "__;" ++ (characterCodes characters ++ unit '!' :: (tracking ++ text "$"))) := rfl
  have hcodes : ∀ u ∈ characterCodes characters, u ∈ BASE64URL_ALPHABET :=
    mem_base64UrlText (flatMap_utf8Bytes_lt h)
  rw [decodeProofpointV3Payload, if_pos hstart, hdrop, v3Template_append hsome hfree hcodes]
  simp only [Option.bind_eq_bind, Option.bind_some, decodeBase64UrlCharacters_codes h]

/-! ### Writing a destination -/

/-- A piece of a destination: a unit left as it is, a character percent-encoded, or a run of
characters taken out. -/
inductive Piece where
  | raw (u : CodeUnit)
  | escaped (cp : Nat)
  | replaced (run : List Nat)
deriving DecidableEq

/-- `*`, or `**X` for a run of two and more. -/
def runToken (length : Nat) : Text :=
  if length = 1 then [unit '*']
  else [unit '*', unit '*', PROOFPOINT_V3_RUN_CODES.getD (length - 2) 0]

namespace Piece

/-- What can stand in a template, and how long a run there is a code for. -/
def Valid : Piece → Prop
  | raw u => u ≠ unit '%' ∧ u ≠ unit '*'
  | escaped cp => isScalarValue cp = true ∧ cp ≠ 42
  | replaced run => 1 ≤ run.length ∧ run.length ≤ 65 ∧ ∀ cp ∈ run, isScalarValue cp = true

/-- The part of the destination that stays in the template. -/
def literal : Piece → Text
  | raw u => [u]
  | escaped cp => encodeCodePoint cp
  | replaced _ => []

def characters : Piece → List Nat
  | replaced run => run
  | _ => []

def destination (piece : Piece) : Text := piece.literal ++ piece.characters.flatMap encodeCodePoint

def token : Piece → Text
  | replaced run => runToken run.length
  | piece => piece.literal

def written : Piece → Text
  | escaped cp => percentEscape cp
  | piece => piece.token

theorem literal_or_run (piece : Piece) :
    piece.characters = [] ∨ ∃ run, piece = .replaced run := by
  cases piece with
  | raw u => exact Or.inl rfl
  | escaped cp => exact Or.inl rfl
  | replaced run => exact Or.inr ⟨run, rfl⟩

end Piece

def destination (pieces : List Piece) : Text := pieces.flatMap Piece.destination
def writtenTemplate (pieces : List Piece) : Text := pieces.flatMap Piece.written
def replacedCharacters (pieces : List Piece) : List Nat := pieces.flatMap Piece.characters

/-- The template once it is percent-decoded. -/
def tokens (pieces : List Piece) : Text := pieces.flatMap Piece.token

/-- No single asterisk stands before another token, except as the last but one of two at the end:
elsewhere the two would read as the start of a run. -/
def Readable (pieces : List Piece) : Prop :=
  ∀ before a b after, pieces = before ++ .replaced a :: .replaced b :: after → a.length = 1 →
    b.length = 1 ∧ after = []

theorem Readable.tail {piece : Piece} {rest : List Piece} (h : Readable (piece :: rest)) :
    Readable rest := by
  intro before a b after hrest
  exact h (piece :: before) a b after (by rw [hrest, List.cons_append])

theorem Readable.cons {piece : Piece} {rest : List Piece} (h : Readable rest)
    (hfirst : ∀ a b after, piece = .replaced a → rest = .replaced b :: after → a.length = 1 →
      b.length = 1 ∧ after = []) : Readable (piece :: rest) := by
  intro before a b after hsplit
  cases before with
  | nil =>
      obtain ⟨hpiece, hrest⟩ := List.cons.inj hsplit
      exact hfirst a b after hpiece hrest
  | cons first before =>
      obtain ⟨-, hrest⟩ := List.cons.inj hsplit
      exact h before a b after hrest

theorem runCode_spec {length : Nat} (htwo : 2 ≤ length) (hlast : length ≤ 65) :
    PROOFPOINT_V3_RUN_CODES.getD (length - 2) 0 ∈ PROOFPOINT_V3_RUN_CODES ∧
      PROOFPOINT_V3_RUN_CODES.idxOf (PROOFPOINT_V3_RUN_CODES.getD (length - 2) 0) + 2 = length := by
  obtain ⟨hindex, hmem⟩ := alphabet_digit (show length - 2 < 64 by omega)
  refine ⟨hmem, ?_⟩
  rw [PROOFPOINT_V3_RUN_CODES, hindex]
  omega

theorem asterisk_not_runCode : unit '*' ∉ PROOFPOINT_V3_RUN_CODES := by decide +kernel

theorem percent_not_runCode : unit '%' ∉ PROOFPOINT_V3_RUN_CODES := by decide +kernel

/-- A literal is not empty and holds no asterisk. -/
theorem literal_spec {piece : Piece} (hvalid : piece.Valid) (hliteral : piece.characters = []) :
    ∃ u rest, piece.literal = u :: rest ∧ u ≠ unit '*' ∧ unit '*' ∉ rest ∧
      piece.token = u :: rest := by
  cases piece with
  | raw u => exact ⟨u, [], rfl, hvalid.2, List.not_mem_nil, rfl⟩
  | escaped cp =>
      obtain ⟨hscalar, hstar⟩ := hvalid
      obtain ⟨hle, -⟩ := isScalarValue_iff.mp hscalar
      have hunit (n : Nat) (hn : n < 0x10000) (hne : n ≠ 42) : UInt16.ofNat n ≠ unit '*' := by
        intro heq
        have hval := congrArg UInt16.toNat heq
        rw [UInt16.toNat_ofNat_of_lt' hn] at hval
        exact hne hval
      by_cases hplane : cp < 0x10000
      · refine ⟨UInt16.ofNat cp, [], ?_, hunit cp hplane hstar, List.not_mem_nil, ?_⟩
        · exact if_pos hplane
        · exact if_pos hplane
      · refine ⟨_, _, if_neg hplane, hunit _ (by omega) (by omega), ?_, if_neg hplane⟩
        intro hmem
        exact hunit (0xDC00 + (cp - 0x10000) % 0x400) (by omega) (by omega)
          (List.mem_singleton.mp hmem).symm
  | replaced run =>
      obtain ⟨hone, -⟩ := hvalid
      change run = [] at hliteral
      rw [hliteral] at hone
      exact absurd hone (by simp)

theorem decodeURIComponent_written {piece : Piece} (hvalid : piece.Valid) (rest : Text) :
    decodeURIComponent (piece.written ++ rest)
      = (decodeURIComponent rest).map (piece.token ++ ·) := by
  cases piece with
  | raw u => exact decodeURIComponent_cons hvalid.1 rest
  | escaped cp => exact decodeURIComponent_escape hvalid.1 rest
  | replaced run =>
      obtain ⟨hone, hlast, -⟩ := hvalid
      have hstar : unit '*' ≠ unit '%' := by decide
      simp only [Piece.written, Piece.token, runToken]
      by_cases hsingle : run.length = 1
      · rw [if_pos hsingle]
        exact decodeURIComponent_cons hstar rest
      · rw [if_neg hsingle]
        obtain ⟨hmem, -⟩ := runCode_spec (show 2 ≤ run.length by omega) hlast
        have hcode : PROOFPOINT_V3_RUN_CODES.getD (run.length - 2) 0 ≠ unit '%' := by
          intro heq
          rw [heq] at hmem
          exact percent_not_runCode hmem
        simp only [List.cons_append, List.nil_append, decodeURIComponent_cons hstar,
          decodeURIComponent_cons hcode, Option.map_map]
        rfl

theorem decodeURIComponent_writtenTemplate {pieces : List Piece}
    (hvalid : ∀ piece ∈ pieces, piece.Valid) :
    decodeURIComponent (writtenTemplate pieces) = some (tokens pieces) := by
  induction pieces with
  | nil => rw [writtenTemplate, List.flatMap_nil, decodeURIComponent, tokens, List.flatMap_nil]
  | cons piece rest ih =>
      rw [List.forall_mem_cons] at hvalid
      rw [writtenTemplate, List.flatMap_cons, decodeURIComponent_written hvalid.1,
        ← writtenTemplate, ih hvalid.2]
      rfl

theorem expandTemplate_literals {literal : Text} (h : unit '*' ∉ literal) (rest : Text)
    (replacements : List Text) : expandTemplate (literal ++ rest) replacements
      = (expandTemplate rest replacements).map (literal ++ ·) := by
  induction literal with
  | nil => simp
  | cons u literal ih =>
      rw [List.mem_cons, not_or] at h
      rw [List.cons_append, expandTemplate_literal (Ne.symm h.1), ih h.2, Option.map_map]
      rfl

/-! ### What the decoder makes of it -/

/-- After a single asterisk: the end, a literal, or the last asterisk. -/
theorem single_tokens {rest : List Piece} (hvalid : ∀ piece ∈ rest, piece.Valid)
    (hnext : ∀ b after, rest = .replaced b :: after → b.length = 1 ∧ after = []) :
    Single (tokens rest) := by
  cases rest with
  | nil => exact Or.inl (by simp [tokens])
  | cons next after =>
      rcases next.literal_or_run with hliteral | ⟨run, rfl⟩
      · obtain ⟨v, more, -, hv, -, htoken⟩ :=
          literal_spec (hvalid next (List.mem_cons_self ..)) hliteral
        refine Or.inr ?_
        rw [tokens, List.flatMap_cons, htoken]
        simpa using hv
      · obtain ⟨hrun, rfl⟩ := hnext run after rfl
        exact Or.inl (by simp [tokens, Piece.token, runToken, hrun])

/-- A template whose tokens can be told apart gives the destination back. -/
theorem expandTemplate_tokens {pieces : List Piece} (hvalid : ∀ piece ∈ pieces, piece.Valid)
    (hreadable : Readable pieces) :
    expandTemplate (tokens pieces) ((replacedCharacters pieces).map encodeCodePoint)
      = some (destination pieces) := by
  induction pieces with
  | nil => rfl
  | cons piece rest ih =>
      rw [List.forall_mem_cons] at hvalid
      have hrest := ih hvalid.2 hreadable.tail
      rw [tokens, replacedCharacters, destination, List.flatMap_cons, List.flatMap_cons,
        List.flatMap_cons, ← tokens, ← replacedCharacters, ← destination, List.map_append]
      rcases piece.literal_or_run with hliteral | ⟨run, rfl⟩
      · obtain ⟨u, more, hpiece, hu, hmore, htoken⟩ := literal_spec hvalid.1 hliteral
        have hfree : unit '*' ∉ u :: more := by simp [hu.symm, hmore]
        rw [htoken, hliteral, List.map_nil, List.nil_append, expandTemplate_literals hfree, hrest,
          Piece.destination, hpiece, hliteral]
        simp
      · obtain ⟨hone, hlast, -⟩ := hvalid.1
        simp only [Piece.token, Piece.characters, Piece.destination, Piece.literal,
          List.nil_append, runToken]
        by_cases hsingle : run.length = 1
        · obtain ⟨cp, rfl⟩ := List.length_eq_one_iff.mp hsingle
          have hnext : Single (tokens rest) := single_tokens hvalid.2 fun b after hafter =>
            hreadable [] [cp] b after (by rw [hafter]; rfl) rfl
          rw [if_pos hsingle, List.cons_append, List.nil_append, expandTemplate_single hnext]
          simp [hrest]
        · obtain ⟨hmem, hindex⟩ := runCode_spec (show 2 ≤ run.length by omega) hlast
          have hlength : (run.map encodeCodePoint).length = run.length := List.length_map ..
          rw [if_neg hsingle, List.cons_append, List.cons_append, List.cons_append,
            List.nil_append, expandTemplate_run, if_pos hmem]
          simp only [hindex]
          rw [if_neg (by rw [List.length_append, hlength]; omega), List.take_left' hlength,
            List.drop_left' hlength, hrest, Option.map_some, List.flatMap_def]

/-- How many units of a destination stay in its template. -/
def literalLength (pieces : List Piece) : Nat := (pieces.flatMap Piece.literal).length

theorem literalLength_cons (piece : Piece) (rest : List Piece) :
    literalLength (piece :: rest) = piece.literal.length + literalLength rest := by
  rw [literalLength, literalLength, List.flatMap_cons, List.length_append]

theorem tokens_cons (piece : Piece) (rest : List Piece) :
    tokens (piece :: rest) = piece.token ++ tokens rest := List.flatMap_cons

theorem expandTemplate_run_eq_some {runCode : CodeUnit} {rest out : Text}
    {replacements : List Text}
    (h : expandTemplate (unit '*' :: unit '*' :: runCode :: rest) replacements = some out) :
    runCode ∈ PROOFPOINT_V3_RUN_CODES ∧ ∃ characters more out', replacements = characters ++ more ∧
      characters.length = PROOFPOINT_V3_RUN_CODES.idxOf runCode + 2 ∧
      expandTemplate rest more = some out' ∧ out = characters.flatten ++ out' := by
  rw [expandTemplate_run] at h
  split at h
  · rename_i hcode
    simp only [] at h
    split at h
    · cases h
    · rename_i hlong
      obtain ⟨out', hout, rfl⟩ := Option.map_eq_some_iff.mp h
      refine ⟨hcode, _, _, out', (List.take_append_drop _ replacements).symm, ?_, hout, rfl⟩
      rw [List.length_take]
      omega
  · cases h

theorem expandTemplate_single_eq_some {rest out : Text} {replacements : List Text}
    (hsingle : Single rest) (h : expandTemplate (unit '*' :: rest) replacements = some out) :
    ∃ character more out', replacements = character :: more ∧
      expandTemplate rest more = some out' ∧ out = character ++ out' := by
  rw [expandTemplate_single hsingle] at h
  cases replacements with
  | nil => cases h
  | cons character more =>
      obtain ⟨out', hout, rfl⟩ := Option.map_eq_some_iff.mp h
      exact ⟨character, more, out', rfl, hout, rfl⟩

/-- What stands behind an asterisk that is not the last: another one, or a literal, whose first
unit is then read as a run code. -/
theorem tokens_behind_single {b : List Nat} {after : List Piece}
    (hvalid : ∀ piece ∈ Piece.replaced b :: after, piece.Valid)
    (hmore : ¬(b.length = 1 ∧ after = [])) :
    ∃ v more rest, tokens (.replaced b :: after) = unit '*' :: v :: (more ++ tokens rest) ∧
      rest.length ≤ after.length ∧ (v ≠ unit '*' → unit '*' ∉ more ∧ (∀ piece ∈ rest, piece.Valid) ∧
        literalLength after = more.length + 1 + literalLength rest) := by
  rw [List.forall_mem_cons] at hvalid
  rw [tokens_cons]
  simp only [Piece.token, runToken]
  by_cases hsingle : b.length = 1
  · rw [if_pos hsingle]
    cases after with
    | nil => exact absurd ⟨hsingle, rfl⟩ hmore
    | cons next rest =>
        rw [List.forall_mem_cons] at hvalid
        rw [tokens_cons, literalLength_cons]
        rcases next.literal_or_run with hliteral | ⟨run, rfl⟩
        · obtain ⟨v, more, hnext, -, hfree, htoken⟩ := literal_spec hvalid.2.1 hliteral
          refine ⟨v, more, rest, by rw [htoken]; rfl, Nat.le_succ _, fun _ => ?_⟩
          refine ⟨hfree, hvalid.2.2, ?_⟩
          rw [hnext, List.length_cons]
        · have hstar : ∃ more, Piece.token (.replaced run) = unit '*' :: more := by
            simp only [Piece.token, runToken]
            split
            · exact ⟨_, rfl⟩
            · exact ⟨_, rfl⟩
          obtain ⟨more, hstar⟩ := hstar
          rw [hstar]
          exact ⟨unit '*', more, rest, rfl, Nat.le_succ _, fun h => absurd rfl h⟩
  · rw [if_neg hsingle]
    exact ⟨unit '*', [_], after, rfl, Nat.le_refl _, fun h => absurd rfl h⟩

/-- Whatever comes back is no longer than the destination, and shorter when a single asterisk
was read as the start of a run: the unit after it is lost. -/
theorem length_of_expandTemplate {pieces : List Piece} {replacements : List Text} {out : Text}
    (hvalid : ∀ piece ∈ pieces, piece.Valid)
    (h : expandTemplate (tokens pieces) replacements = some out) :
    out.length ≤ literalLength pieces + replacements.flatten.length ∧
      (out.length = literalLength pieces + replacements.flatten.length → Readable pieces) := by
  induction hn : pieces.length using Nat.strong_induction_on
    generalizing pieces replacements out with
  | _ n ih =>
      subst hn
      cases pieces with
      | nil =>
          rw [tokens, List.flatMap_nil, expandTemplate] at h
          split at h
          · cases h
            refine ⟨Nat.zero_le _, fun _ before a b after hsplit => ?_⟩
            exact absurd hsplit (by simp)
          · cases h
      | cons piece rest =>
          rw [List.forall_mem_cons] at hvalid
          rw [tokens_cons] at h
          rcases piece.literal_or_run with hliteral | ⟨run, rfl⟩
          · obtain ⟨u, more, hpiece, hu, hmore, htoken⟩ := literal_spec hvalid.1 hliteral
            have hfree : unit '*' ∉ u :: more := by simp [hu.symm, hmore]
            rw [htoken, expandTemplate_literals hfree] at h
            obtain ⟨out', hout, rfl⟩ := Option.map_eq_some_iff.mp h
            obtain ⟨hle, heq⟩ := ih _ (Nat.lt_succ_self _) hvalid.2 hout rfl
            rw [literalLength_cons, hpiece, List.length_append]
            refine ⟨by omega, fun hsame => (heq (by omega)).cons fun a b after hrun => ?_⟩
            rw [hrun] at hpiece
            cases hpiece
          · obtain ⟨hone, hlast, -⟩ := hvalid.1
            simp only [Piece.token, runToken] at h
            by_cases hsingle : run.length = 1
            · rw [if_pos hsingle, List.cons_append, List.nil_append] at h
              by_cases hnext : ∀ b after, rest = .replaced b :: after → b.length = 1 ∧ after = []
              · obtain ⟨character, more, out', rfl, hout, rfl⟩ :=
                  expandTemplate_single_eq_some (single_tokens hvalid.2 hnext) h
                obtain ⟨hle, heq⟩ := ih _ (Nat.lt_succ_self _) hvalid.2 hout rfl
                rw [literalLength_cons]
                simp only [Piece.literal, List.length_nil, List.length_append, List.flatten_cons]
                refine ⟨by omega, fun hsame => (heq (by omega)).cons fun a b after _ hrest _ => ?_⟩
                exact hnext b after hrest
              · obtain ⟨b, after, rfl, hlong⟩ : ∃ b after, rest = .replaced b :: after ∧
                    ¬(b.length = 1 ∧ after = []) := by
                  simpa only [not_forall, exists_prop] using hnext
                -- The second asterisk is read as the first of a run token.
                obtain ⟨v, more, rest', htokens, hshort, hliteral⟩ :=
                  tokens_behind_single hvalid.2 hlong
                rw [htokens] at h
                obtain ⟨hcode, characters, reps, out', rfl, -, hout, rfl⟩ :=
                  expandTemplate_run_eq_some h
                have hv : v ≠ unit '*' := by
                  rintro rfl
                  exact asterisk_not_runCode hcode
                obtain ⟨hfree, hvalid', hlength⟩ := hliteral hv
                rw [expandTemplate_literals hfree] at hout
                obtain ⟨out'', hout'', rfl⟩ := Option.map_eq_some_iff.mp hout
                obtain ⟨hle, -⟩ := ih rest'.length (by simp only [List.length_cons]; omega) hvalid'
                  hout'' rfl
                rw [literalLength_cons, literalLength_cons]
                simp only [Piece.literal, List.length_nil, List.length_append, List.flatten_append]
                exact ⟨by omega, by omega⟩
            · rw [if_neg hsingle] at h
              obtain ⟨-, characters, more, out', rfl, -, hout, rfl⟩ := expandTemplate_run_eq_some h
              obtain ⟨hle, heq⟩ := ih _ (Nat.lt_succ_self _) hvalid.2 hout rfl
              rw [literalLength_cons]
              simp only [Piece.literal, List.length_nil, List.length_append, List.flatten_append]
              refine ⟨by omega, fun hsame => (heq (by omega)).cons fun a b after hrun hrest ha => ?_⟩
              cases hrun
              exact absurd ha hsingle

theorem destination_length (pieces : List Piece) :
    (destination pieces).length
      = literalLength pieces + ((replacedCharacters pieces).map encodeCodePoint).flatten.length := by
  induction pieces with
  | nil => rfl
  | cons piece rest ih =>
      have hcharacters : replacedCharacters (piece :: rest)
          = piece.characters ++ replacedCharacters rest := List.flatMap_cons
      rw [destination, List.flatMap_cons, List.length_append, ← destination, ih, literalLength_cons,
        hcharacters, Piece.destination, List.length_append, List.map_append, List.flatten_append,
        List.length_append, List.flatMap_def]
      omega

theorem scalars_replacedCharacters {pieces : List Piece} (hvalid : ∀ piece ∈ pieces, piece.Valid) :
    ∀ cp ∈ replacedCharacters pieces, isScalarValue cp = true := by
  intro cp hcp
  obtain ⟨piece, hpiece, hmem⟩ := List.mem_flatMap.mp hcp
  rcases piece.literal_or_run with hliteral | ⟨run, rfl⟩
  · rw [hliteral] at hmem
    exact absurd hmem List.not_mem_nil
  · exact (hvalid _ hpiece).2.2 cp hmem

theorem writtenTemplate_ne_nil {pieces : List Piece} (hvalid : ∀ piece ∈ pieces, piece.Valid)
    (hsome : pieces ≠ []) : writtenTemplate pieces ≠ [] := by
  intro hempty
  have hdecoded := decodeURIComponent_writtenTemplate hvalid
  rw [hempty, decodeURIComponent] at hdecoded
  have htokens : tokens pieces = [] := (Option.some.inj hdecoded).symm
  cases pieces with
  | nil => exact hsome rfl
  | cons piece rest =>
      rw [tokens_cons] at htokens
      have htoken := (List.append_eq_nil_iff.mp htokens).1
      rcases piece.literal_or_run with hliteral | ⟨run, rfl⟩
      · obtain ⟨u, more, -, -, -, heq⟩ := literal_spec (hvalid _ (List.mem_cons_self ..)) hliteral
        rw [heq] at htoken
        exact List.cons_ne_nil _ _ htoken
      · simp only [Piece.token, runToken] at htoken
        split at htoken
        · exact List.cons_ne_nil _ _ htoken
        · exact List.cons_ne_nil _ _ htoken

/-- A path the decoder answers, cut as it reads it. -/
theorem decodeProofpointV3Payload_eq_some {path out : Text}
    (h : decodeProofpointV3Payload path = some out) :
    ∃ written tracking template characters,
      path = v3Path written (characterCodes characters) tracking ∧ written ≠ [] ∧
        (∀ cp ∈ characters, isScalarValue cp = true) ∧ decodeURIComponent written = some template ∧
        expandTemplate template ((withoutMark characters).map encodeCodePoint) = some out := by
  rw [decodeProofpointV3Payload] at h
  split at h
  · rename_i hstart
    rw [Text.startsWith, List.isPrefixOf_iff_prefix] at hstart
    obtain ⟨rest, rfl⟩ := hstart
    obtain ⟨⟨written, codes⟩, hsplit, h⟩ := Option.bind_eq_some_iff.mp h
    obtain ⟨template, htemplate, h⟩ := Option.bind_eq_some_iff.mp h
    obtain ⟨replacements, hreplacements, h⟩ := Option.bind_eq_some_iff.mp h
    obtain ⟨characters, hscalars, rfl⟩ := decodeBase64UrlCharacters_eq_some hreplacements
    rw [decodeBase64UrlCharacters_codes hscalars] at hreplacements
    cases hreplacements
    obtain ⟨hsome, tracking, hrest⟩ := v3Template_eq_some hsplit
    have hdrop : (text "/v3/__" ++ rest).drop 6 = rest := rfl
    rw [hdrop] at hrest
    exact ⟨written, tracking, template, characters, congrArg (text "/v3/__" ++ ·) hrest, hsome,
      hscalars, htemplate, h⟩
  · cases h

theorem encodeCodePoint_ne_nil (cp : Nat) : encodeCodePoint cp ≠ [] := by
  rw [encodeCodePoint]
  split
  · exact List.cons_ne_nil _ _
  · exact List.cons_ne_nil _ _

theorem decodeURIComponent_ne_nil {written template : Text} (hsome : written ≠ [])
    (h : decodeURIComponent written = some template) : template ≠ [] := by
  cases written with
  | nil => exact absurd rfl hsome
  | cons u rest =>
      rw [decodeURIComponent] at h
      split at h
      · split at h
        · cases h
        · obtain ⟨_, -, rfl⟩ := Option.map_eq_some_iff.mp h
          exact List.append_ne_nil_of_left_ne_nil (encodeCodePoint_ne_nil _) _
      · obtain ⟨_, -, rfl⟩ := Option.map_eq_some_iff.mp h
        exact List.cons_ne_nil _ _

/-- No path decodes to the empty text: every token and every literal leaves something. -/
theorem decodeProofpointV3Payload_ne_nil (path : Text) : decodeProofpointV3Payload path ≠ some [] := by
  intro h
  obtain ⟨written, -, template, characters, -, hsome, -, htemplate, hexpand⟩ :=
    decodeProofpointV3Payload_eq_some h
  have hne := decodeURIComponent_ne_nil hsome htemplate
  have hcharacters : ∀ character ∈ (withoutMark characters).map encodeCodePoint,
      character ≠ [] := by
    intro character hcharacter
    obtain ⟨cp, -, rfl⟩ := List.mem_map.mp hcharacter
    exact encodeCodePoint_ne_nil cp
  generalize (withoutMark characters).map encodeCodePoint = replacements at hexpand hcharacters
  generalize hout : ([] : Text) = out at hexpand
  cases Expands.of_expandTemplate hexpand with
  | done => exact hne rfl
  | literal => cases hout
  | single =>
      exact hcharacters _ (List.mem_cons_self ..) (List.append_eq_nil_iff.mp hout.symm).1
  | @run _ _ _ run _ _ hlength _ =>
      cases run with
      | nil => simp at hlength
      | cons character run =>
          have hfirst := (List.append_eq_nil_iff.mp hout.symm).1
          rw [List.flatten_cons] at hfirst
          exact hcharacters character (by simp) (List.append_eq_nil_iff.mp hfirst).1

/-! ### A writer for every destination -/

/-- Only asterisks are taken out, and neither the delimiter nor a percent sign is left. -/
structure Writes (pieces : List Piece) (d : Text) : Prop where
  valid : ∀ piece ∈ pieces, piece.Valid
  readable : Readable pieces
  free : unit ';' ∉ writtenTemplate pieces
  asterisks : ∀ cp ∈ replacedCharacters pieces, cp = 42
  destination : destination pieces = d

theorem Writes.cons {piece : Piece} {pieces : List Piece} {d : Text} (h : Writes pieces d)
    (hvalid : piece.Valid) (hfree : unit ';' ∉ piece.written)
    (hasterisks : ∀ cp ∈ piece.characters, cp = 42)
    (hfirst : ∀ a b after, piece = .replaced a → pieces = .replaced b :: after → a.length = 1 →
      b.length = 1 ∧ after = []) : Writes (piece :: pieces) (piece.destination ++ d) where
  valid := List.forall_mem_cons.mpr ⟨hvalid, h.valid⟩
  readable := h.readable.cons hfirst
  free := by
    rw [writtenTemplate, List.flatMap_cons, List.mem_append, not_or]
    exact ⟨hfree, h.free⟩
  asterisks := by
    intro cp hcp
    rw [replacedCharacters, List.flatMap_cons, List.mem_append] at hcp
    exact hcp.elim (hasterisks cp) (h.asterisks cp)
  destination := by
    rw [EmbeddedWrapper.destination, List.flatMap_cons, ← EmbeddedWrapper.destination,
      h.destination]

theorem Writes.uncons {piece : Piece} {pieces : List Piece} {d : Text}
    (h : Writes (piece :: pieces) d) : ∃ d', d = piece.destination ++ d' ∧ Writes pieces d' := by
  refine ⟨EmbeddedWrapper.destination pieces, h.destination.symm, ?_⟩
  constructor
  · exact fun other hother => h.valid other (List.mem_cons_of_mem _ hother)
  · exact h.readable.tail
  · exact fun hmem => h.free (List.mem_append_right _ hmem)
  · exact fun cp hcp => h.asterisks cp (List.mem_append_right _ hcp)
  · rfl

theorem runToken_free {length : Nat} (hone : 1 ≤ length) (hlast : length ≤ 65) :
    unit ';' ∉ runToken length := by
  have hcode : unit ';' ∉ PROOFPOINT_V3_RUN_CODES := by decide +kernel
  have hstar : unit ';' ≠ unit '*' := by decide
  rw [runToken]
  split
  · simpa using hstar
  · obtain ⟨hmem, -⟩ := runCode_spec (show 2 ≤ length by omega) hlast
    have hne : unit ';' ≠ PROOFPOINT_V3_RUN_CODES.getD (length - 2) 0 := by
      intro heq
      rw [← heq] at hmem
      exact hcode hmem
    simp only [List.mem_cons, List.not_mem_nil, hstar, hne, or_self, not_false_eq_true]

theorem Writes.cons_run {run : List Nat} {pieces : List Piece} {d : Text} (h : Writes pieces d)
    (hone : 1 ≤ run.length) (hlast : run.length ≤ 65) (hasterisks : ∀ cp ∈ run, cp = 42)
    (hfirst : run.length = 1 → ∀ b after, pieces ≠ .replaced b :: after) :
    Writes (.replaced run :: pieces) (run.flatMap encodeCodePoint ++ d) := by
  apply h.cons
  · refine ⟨hone, hlast, fun cp hcp => ?_⟩
    rw [hasterisks cp hcp]
    decide
  · exact runToken_free hone hlast
  · exact hasterisks
  · rintro a b after ha hpieces hlength
    cases ha
    exact absurd hpieces (hfirst hlength b after)

/-- One more asterisk in front. -/
theorem Writes.cons_asterisk {pieces : List Piece} {d : Text} (h : Writes pieces d) :
    ∃ pieces', Writes pieces' (unit '*' :: d) := by
  have hstar : unit '*' :: d = [42].flatMap encodeCodePoint ++ d := rfl
  by_cases hrun : ∃ run rest, pieces = .replaced run :: rest
  · obtain ⟨run, rest, rfl⟩ := hrun
    obtain ⟨hone, hlast, -⟩ := h.valid _ (List.mem_cons_self ..)
    have hasterisks : ∀ cp ∈ run, cp = 42 := fun cp hcp =>
      h.asterisks cp (List.mem_append_left _ hcp)
    obtain ⟨d', rfl, hrest⟩ := h.uncons
    by_cases hroom : run.length < 65
    · have hlonger : Writes (.replaced (42 :: run) :: rest)
          ((42 :: run).flatMap encodeCodePoint ++ d') := by
        apply hrest.cons_run
        · simp
        · exact hroom
        · exact List.forall_mem_cons.mpr ⟨rfl, hasterisks⟩
        · intro hlength
          rw [List.length_cons] at hlength
          omega
      exact ⟨_, hlonger⟩
    · -- A full run gives up its first character to a new run of two.
      match run, hone, hlast, hasterisks, hroom with
      | cp :: run, _, hlast, hasterisks, hroom =>
          rw [List.forall_mem_cons] at hasterisks
          rw [List.length_cons] at hlast hroom
          have hshorter : Writes (.replaced run :: rest) (run.flatMap encodeCodePoint ++ d') := by
            apply hrest.cons_run
            · omega
            · omega
            · exact hasterisks.2
            · omega
          have htwo : Writes (.replaced [42, cp] :: .replaced run :: rest)
              ([42, cp].flatMap encodeCodePoint ++ (run.flatMap encodeCodePoint ++ d')) := by
            apply hshorter.cons_run
            · simp
            · simp
            · exact List.forall_mem_cons.mpr ⟨rfl, List.forall_mem_singleton.mpr hasterisks.1⟩
            · nofun
          have hsame : unit '*' :: ((Piece.replaced (cp :: run)).destination ++ d')
              = [42, cp].flatMap encodeCodePoint ++ (run.flatMap encodeCodePoint ++ d') := by
            simp only [Piece.destination, Piece.literal, Piece.characters, List.flatMap_cons,
              List.nil_append, List.flatMap_nil, List.append_nil, List.append_assoc]
            rfl
          exact ⟨_, hsame ▸ htwo⟩
  · rw [hstar]
    refine ⟨_, h.cons_run (Nat.le_refl 1) (by decide) ?_ ?_⟩
    · exact fun cp hcp => List.mem_singleton.mp hcp
    · rintro - b after rfl
      exact hrun ⟨b, after, rfl⟩

theorem exists_writes (d : Text) : ∃ pieces, Writes pieces d := by
  induction d with
  | nil => exact ⟨[], by simp, by simp [Readable], List.not_mem_nil, by simp [replacedCharacters], rfl⟩
  | cons u d ih =>
      obtain ⟨pieces, h⟩ := ih
      by_cases hstar : u = unit '*'
      · subst hstar
        exact h.cons_asterisk
      · by_cases hescape : u = unit '%' ∨ u = unit ';'
        · have hsame : (Piece.escaped u.toNat).destination = [u] ∧
              (Piece.escaped u.toNat).Valid ∧ unit ';' ∉ (Piece.escaped u.toNat).written := by
            rcases hescape with rfl | rfl
            · exact ⟨by decide, ⟨by decide, by decide⟩, by decide +kernel⟩
            · exact ⟨by decide, ⟨by decide, by decide⟩, by decide +kernel⟩
          obtain ⟨hdestination, hvalid, hfree⟩ := hsame
          have hcons := h.cons hvalid hfree nofun nofun
          rw [hdestination] at hcons
          exact ⟨_, hcons⟩
        · rw [not_or] at hescape
          have hcons : Writes (.raw u :: pieces) ((Piece.raw u).destination ++ d) := by
            apply h.cons
            · exact ⟨hescape.1, hstar⟩
            · exact fun hmem => hescape.2 (List.mem_singleton.mp hmem).symm
            · nofun
            · nofun
          exact ⟨_, hcons⟩

/-! ### The laws -/

/-- The decoder drops a byte order mark in front of the replacement characters, so nothing is said
of characters that start with one. -/
structure InvertsV3 : Prop where
  /-- Any choice of runs comes back exactly when its tokens can be told apart. -/
  returns : ∀ pieces tracking, (∀ piece ∈ pieces, piece.Valid) →
    ¬ text "__;" <:+: writtenTemplate pieces → (replacedCharacters pieces).head? ≠ some 0xFEFF →
    (decodeProofpointV3Payload (v3Path (writtenTemplate pieces)
        (characterCodes (replacedCharacters pieces)) tracking) = some (destination pieces)
      ↔ pieces ≠ [] ∧ Readable pieces)
  /-- Every destination can be written so. -/
  covers : ∀ d : Text, d ≠ [] → ∃ pieces, (∀ piece ∈ pieces, piece.Valid) ∧
    ¬ text "__;" <:+: writtenTemplate pieces ∧ (replacedCharacters pieces).head? ≠ some 0xFEFF ∧
    pieces ≠ [] ∧ Readable pieces ∧ destination pieces = d
  /-- What comes back used every character once, in order. -/
  consumes : ∀ path out, decodeProofpointV3Payload path = some out →
    ∃ written tracking template characters,
      path = v3Path written (characterCodes characters) tracking ∧
        (∀ cp ∈ characters, isScalarValue cp = true) ∧ decodeURIComponent written = some template ∧
        (characters.head? ≠ some 0xFEFF → Expands template (characters.map encodeCodePoint) out)
  /-- Too few characters, too many, or a run code nobody knows. -/
  mismatched : ∀ written tracking template characters,
    written ≠ [] → ¬ text "__;" <:+: written → decodeURIComponent written = some template →
    (∀ cp ∈ characters, isScalarValue cp = true) → characters.head? ≠ some 0xFEFF →
    demand template ≠ some characters.length →
    decodeProofpointV3Payload (v3Path written (characterCodes characters) tracking) = none
  noncanonical : ∀ rest written codes, v3Template rest = some (written, codes) →
    (∀ bytes : List Nat, (∀ b ∈ bytes, b < 256) → codes ≠ base64UrlText bytes) →
    decodeProofpointV3Payload (text "/v3/__" ++ rest) = none
  notUtf8 : ∀ rest written bytes, (∀ b ∈ bytes, b < 256) →
    v3Template rest = some (written, base64UrlText bytes) →
    (∀ characters : List Nat, (∀ cp ∈ characters, isScalarValue cp = true) →
      bytes ≠ characters.flatMap utf8Bytes) →
    decodeProofpointV3Payload (text "/v3/__" ++ rest) = none

theorem withoutMark_eq {characters : List Nat} (h : characters.head? ≠ some 0xFEFF) :
    withoutMark characters = characters := if_neg h

/-- Codes that encode no text are refused, whatever the template. -/
theorem refused_of_codes {rest written codes : Text} (hsplit : v3Template rest = some (written, codes))
    (hcodes : ∀ characters, (∀ cp ∈ characters, isScalarValue cp = true) →
      codes ≠ characterCodes characters) :
    decodeProofpointV3Payload (text "/v3/__" ++ rest) = none := by
  have hstart : Text.startsWith (text "/v3/__" ++ rest) (text "/v3/__") = true := by
    rw [Text.startsWith, List.isPrefixOf_iff_prefix]
    exact List.prefix_append ..
  have hdrop : (text "/v3/__" ++ rest).drop 6 = rest := rfl
  have hnone : decodeBase64UrlCharacters codes = none := by
    cases h : decodeBase64UrlCharacters codes with
    | none => rfl
    | some replacements =>
        obtain ⟨characters, hscalars, heq⟩ := decodeBase64UrlCharacters_eq_some h
        exact absurd heq (hcodes characters hscalars)
  rw [decodeProofpointV3Payload, if_pos hstart, hdrop, hsplit]
  simp [hnone]

theorem inverts_v3 : InvertsV3 where
  returns := by
    intro pieces tracking hvalid hfree hmark
    have hscalars := scalars_replacedCharacters hvalid
    constructor
    · intro h
      have hpieces : pieces ≠ [] := by
        rintro rfl
        exact decodeProofpointV3Payload_ne_nil _ h
      rw [decodeProofpointV3Payload_path (writtenTemplate_ne_nil hvalid hpieces) hfree hscalars,
        decodeURIComponent_writtenTemplate hvalid, Option.bind_some, withoutMark_eq hmark] at h
      obtain ⟨-, heq⟩ := length_of_expandTemplate hvalid h
      exact ⟨hpieces, heq (destination_length pieces)⟩
    · rintro ⟨hpieces, hreadable⟩
      rw [decodeProofpointV3Payload_path (writtenTemplate_ne_nil hvalid hpieces) hfree hscalars,
        decodeURIComponent_writtenTemplate hvalid, Option.bind_some, withoutMark_eq hmark]
      exact expandTemplate_tokens hvalid hreadable
  covers := by
    intro d hd
    obtain ⟨pieces, h⟩ := exists_writes d
    refine ⟨pieces, h.valid, fun hfence => ?_, fun hmark => ?_, ?_, h.readable, h.destination⟩
    · exact h.free (hfence.subset (by decide))
    · exact absurd (h.asterisks _ (List.mem_of_head? hmark)) (by decide)
    · rintro rfl
      exact hd h.destination.symm
  consumes := by
    intro path out h
    obtain ⟨written, tracking, template, characters, hpath, -, hscalars, htemplate, hexpand⟩ :=
      decodeProofpointV3Payload_eq_some h
    refine ⟨written, tracking, template, characters, hpath, hscalars, htemplate, fun hmark => ?_⟩
    rw [withoutMark_eq hmark] at hexpand
    exact Expands.of_expandTemplate hexpand
  mismatched := by
    intro written tracking template characters hsome hfree htemplate hscalars hmark hdemand
    rw [decodeProofpointV3Payload_path hsome hfree hscalars, htemplate, Option.bind_some,
      withoutMark_eq hmark]
    cases h : expandTemplate template (characters.map encodeCodePoint) with
    | none => rfl
    | some out =>
        have hmet := (Expands.of_expandTemplate h).demand_eq
        rw [List.length_map] at hmet
        exact absurd hmet hdemand
  noncanonical := by
    intro rest written codes hsplit hcodes
    exact refused_of_codes hsplit fun characters hscalars =>
      hcodes _ (flatMap_utf8Bytes_lt hscalars)
  notUtf8 := by
    intro rest written bytes hbytes hsplit hcharacters
    refine refused_of_codes hsplit fun characters hscalars heq => ?_
    have hsame := congrArg base64UrlBytes heq
    rw [base64UrlBytes_text hbytes, characterCodes,
      base64UrlBytes_text (flatMap_utf8Bytes_lt hscalars)] at hsame
    exact hcharacters characters hscalars hsame

/-- Two single asterisks in front of an `A` are a run of two: the `A` is lost, and the destination
that is inspected is another one. -/
theorem adjacent_singles_misread : ∃ pieces tracking, (∀ piece ∈ pieces, piece.Valid) ∧
    (∀ run, .replaced run ∈ pieces → run.length = 1) ∧
    destination pieces = text "http://x/éüAß" ∧
    decodeProofpointV3Payload (v3Path (writtenTemplate pieces)
      (characterCodes (replacedCharacters pieces)) tracking) = some (text "http://x/éüß") := by
  refine ⟨(text "http://x/").map .raw ++ [.replaced [0xE9], .replaced [0xFC], .raw (unit 'A'),
    .replaced [0xDF]], text "!x", ?_, ?_, by decide +kernel, by decide +kernel⟩
  · intro piece hpiece
    rcases List.mem_append.mp hpiece with hraw | hlast
    · obtain ⟨u, hu, rfl⟩ := List.mem_map.mp hraw
      have hfree : unit '%' ∉ text "http://x/" ∧ unit '*' ∉ text "http://x/" := by decide +kernel
      exact ⟨ne_of_mem_of_not_mem hu hfree.1, ne_of_mem_of_not_mem hu hfree.2⟩
    · simp only [List.mem_cons, List.not_mem_nil, or_false] at hlast
      rcases hlast with rfl | rfl | rfl | rfl
      · exact ⟨by decide, by decide, by decide⟩
      · exact ⟨by decide, by decide, by decide⟩
      · exact ⟨by decide, by decide⟩
      · exact ⟨by decide, by decide, by decide⟩
  · intro run hrun
    rcases List.mem_append.mp hrun with hraw | hlast
    · obtain ⟨u, -, hu⟩ := List.mem_map.mp hraw
      cases hu
    · simp only [List.mem_cons, List.not_mem_nil, or_false, Piece.replaced.injEq, reduceCtorEq,
        false_or] at hlast
      rcases hlast with rfl | rfl | rfl
      · rfl
      · rfl
      · rfl

end Linklint.EmbeddedWrapper
