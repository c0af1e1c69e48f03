import Linklint.Platform
import Linklint.Resolution.RedirectChain

/-!
# MIME sniffing

The essence computed from the first bytes of a body, in the order of the signature
tables. For HTML it differs from the standard's table in one row: the comment
marker is matched before `>` only.
-/

namespace Linklint

namespace MimeSniff

open RedirectChain

def asciiBytes (literal : String) : Bytes := literal.toList.map fun c => UInt8.ofNat c.toNat

def WHITESPACE_BYTES : List UInt8 := [0x09, 0x0a, 0x0c, 0x0d, 0x20]

def TAG_TERMINATORS : List UInt8 := [0x20, 0x3e]

structure BinarySignature where
  essence : Text
  /-- `none` is a masked byte. -/
  pattern : List (Option UInt8)

def exactly (essence : String) (pattern : Bytes) : BinarySignature := ⟨text essence, pattern.map some⟩

def BINARY_SIGNATURES : List BinarySignature :=
  [exactly "image/gif" (asciiBytes "GIF87a"),
   exactly "image/gif" (asciiBytes "GIF89a"),
   exactly "image/png" [0x89, 0x50, 0x4e, 0x47, 0x0d, 0x0a, 0x1a, 0x0a],
   exactly "image/jpeg" [0xff, 0xd8, 0xff],
   ⟨text "image/webp", (asciiBytes "RIFF").map some ++ [none, none, none, none]
      ++ (asciiBytes "WEBP").map some⟩,
   exactly "image/bmp" (asciiBytes "BM"),
   exactly "image/vnd.microsoft.icon" [0x00, 0x00, 0x01, 0x00],
   exactly "image/vnd.microsoft.icon" [0x00, 0x00, 0x02, 0x00],
   exactly "application/pdf" (asciiBytes "%PDF-"),
   exactly "application/postscript" (asciiBytes "%!PS-Adobe-"),
   exactly "application/zip" [0x50, 0x4b, 0x03, 0x04],
   exactly "application/gzip" [0x1f, 0x8b, 0x08],
   exactly "application/x-rar-compressed" [0x52, 0x61, 0x72, 0x20, 0x1a, 0x07, 0x00]]

def HTML_TAGS : List Bytes :=
  ["<!DOCTYPE HTML", "<HTML", "<HEAD", "<SCRIPT", "<IFRAME", "<H1", "<DIV", "<FONT", "<TABLE",
   "<A", "<STYLE", "<TITLE", "<B", "<BODY", "<BR", "<P"].map asciiBytes

def COMMENT_MARKER : Bytes := asciiBytes "<!--"

/-- Exact comparison at `offset`, skipping masked bytes. -/
def matchesAt (view : Bytes) (offset : Nat) (pattern : List (Option UInt8)) : Bool :=
  decide (offset + pattern.length ≤ view.length)
    && ((view.drop offset).zip pattern).all fun (actual, expected) => expected.all (actual == ·)

def toLowerAscii (byte : UInt8) : UInt8 := if 0x41 ≤ byte && byte ≤ 0x5a then byte + 0x20 else byte

/-- The offset behind the token, when it is there. -/
def matchTagTokenInsensitive (view : Bytes) (offset : Nat) (token : Bytes) : Option Nat :=
  if view.length < offset + token.length then none
  else if ((view.drop offset).zip token).all fun (actual, expected) =>
      toLowerAscii actual == toLowerAscii expected then
    some (offset + token.length)
  else none

/-- The token is there and one of `terminators` follows it. -/
def matchesTag (terminators : List UInt8) (view : Bytes) (offset : Nat) (token : Bytes) : Bool :=
  match matchTagTokenInsensitive view offset token with
  | none => false
  | some tokenEnd => (view[tokenEnd]?).any terminators.contains

def matchesHtml (view : Bytes) (offset : Nat) : Bool :=
  HTML_TAGS.any (matchesTag TAG_TERMINATORS view offset)
    || matchesTag [0x3e] view offset COMMENT_MARKER

def skipWhitespace (view : Bytes) : Nat := (view.takeWhile WHITESPACE_BYTES.contains).length

def hasBom (view : Bytes) : Bool :=
  matchesAt view 0 [some 0xfe, some 0xff] || matchesAt view 0 [some 0xff, some 0xfe]
    || matchesAt view 0 [some 0xef, some 0xbb, some 0xbf]

def isBinaryDataByte (byte : UInt8) : Bool :=
  byte ≤ 0x08 || byte == 0x0b || (0x0e ≤ byte && byte ≤ 0x1a) || (0x1c ≤ byte && byte ≤ 0x1f)

structure ComputedEssence where
  essence : Text
  rule : Text
deriving DecidableEq

def textOrBinary (view : Bytes) : ComputedEssence :=
  if !hasBom view && view.any isBinaryDataByte then
    ⟨text "application/octet-stream", text "octet-stream"⟩
  else ⟨text "text/plain", text "text-plain"⟩

def computeEssence (view : Bytes) : ComputedEssence :=
  match BINARY_SIGNATURES.find? fun signature => matchesAt view 0 signature.pattern with
  | some signature => ⟨signature.essence, text "signature"⟩
  | none =>
      let offset := skipWhitespace view
      if matchesAt view offset ((asciiBytes "<?xml").map some) then
        ⟨text "text/xml", text "signature"⟩
      else if matchesHtml view offset then ⟨text "text/html", text "signature"⟩
      else textOrBinary view

section
variable (P : Platform)

/-- The part before the first `;`, when it is of the form `type/subtype`. -/
def parseDeclaredEssence (declaredType : Option Text) : Option Text :=
  declaredType.bind fun declared =>
    let essence := P.toLowerCase (Text.cutFirst (unit ';') declared).1.trim
    match essence.split (unit '/') with
    | [type, subtype] =>
        if type ≠ [] ∧ subtype ≠ [] ∧ !essence.any isSpace then some essence else none
    | _ => none

def sniffMimeType (body : Bytes) (declaredType : Option Text) : SniffedMimeType :=
  let computed := computeEssence (body.take MIME_SNIFF_PREFIX_BYTES)
  { declaredEssence := parseDeclaredEssence P declaredType
    computedEssence := computed.essence
    rule := computed.rule }

end

/-! ## The standard's rows -/

/-- What is left of the inspected prefix behind its leading whitespace. -/
def behindWhitespace (body : Bytes) : Bytes :=
  (body.take MIME_SNIFF_PREFIX_BYTES).dropWhile WHITESPACE_BYTES.contains

/-- A case-insensitive pattern and a byte that ends it. -/
def StartsWithTag (terminators : List UInt8) (rest token : Bytes) : Prop :=
  ∃ matched t tail, rest = matched ++ t :: tail
    ∧ matched.map toLowerAscii = token.map toLowerAscii ∧ t ∈ terminators

/-- One of the seventeen patterns, with a tag-terminating byte behind it. -/
def StandardHtml (body : Bytes) : Prop :=
  ∃ token ∈ HTML_TAGS ++ [COMMENT_MARKER], StartsWithTag TAG_TERMINATORS (behindWhitespace body) token

theorem zip_all_lower {xs ys : Bytes} (h : ys.length ≤ xs.length) :
    (xs.zip ys).all (fun (actual, expected) => toLowerAscii actual == toLowerAscii expected) = true
      ↔ (xs.take ys.length).map toLowerAscii = ys.map toLowerAscii := by
  induction ys generalizing xs with
  | nil => simp
  | cons y ys ih =>
      cases xs with
      | nil => simp at h
      | cons x xs =>
          have htail : ys.length ≤ xs.length := by simpa using h
          simp [ih htail]

theorem matchesTag_iff {terminators : List UInt8} {view token : Bytes} {offset : Nat} :
    matchesTag terminators view offset token = true ↔
      StartsWithTag terminators (view.drop offset) token := by
  unfold matchesTag matchTagTokenInsensitive StartsWithTag
  split
  · rename_i hnone
    simp only [Bool.false_eq_true, false_iff]
    rintro ⟨matched, t, tail, hrest, hmatched, -⟩
    have hlen : matched.length = token.length := by simpa using congrArg List.length hmatched
    have htotal := congrArg List.length hrest
    simp only [List.length_drop, List.length_append, List.length_cons] at htotal
    rw [if_neg (by omega), if_pos] at hnone
    · cases hnone
    · rw [zip_all_lower (by rw [List.length_drop]; omega), hrest, ← hlen, List.take_left']
      · exact hmatched
      · rfl
  · rename_i tokenEnd hsome
    split at hsome
    · cases hsome
    rename_i hlen
    split at hsome
    · rename_i hall
      cases hsome
      rw [zip_all_lower (by rw [List.length_drop]; omega)] at hall
      have hnext : view[offset + token.length]? = ((view.drop offset).drop token.length).head? := by
        rw [List.drop_drop, List.head?_drop]
      rw [hnext]
      constructor
      · intro hany
        cases hhead : ((view.drop offset).drop token.length).head? with
        | none =>
            rw [hhead] at hany
            cases hany
        | some t =>
            rw [hhead] at hany
            obtain ⟨tail, htail⟩ := List.head?_eq_some_iff.mp hhead
            refine ⟨(view.drop offset).take token.length, t, tail, ?_, hall, by simpa using hany⟩
            rw [← htail, List.take_append_drop]
      · rintro ⟨matched, t, tail, hrest, hmatched, ht⟩
        have hsame : matched.length = token.length := by simpa using congrArg List.length hmatched
        rw [hrest, ← hsame, List.drop_left', List.head?_cons]
        · simpa using ht
        · rfl
    · cases hsome

theorem drop_skipWhitespace (view : Bytes) :
    view.drop (skipWhitespace view) = view.dropWhile WHITESPACE_BYTES.contains := by
  induction view with
  | nil => rfl
  | cons byte view ih =>
      rw [skipWhitespace, List.takeWhile_cons, List.dropWhile_cons]
      split
      · exact ih
      · rfl

/-- The rows of the program: the comment marker ends with `>`. -/
theorem matchesHtml_iff {view : Bytes} :
    matchesHtml view (skipWhitespace view) = true ↔
      (∃ tag ∈ HTML_TAGS, StartsWithTag TAG_TERMINATORS
          (view.dropWhile WHITESPACE_BYTES.contains) tag)
        ∨ StartsWithTag [0x3e] (view.dropWhile WHITESPACE_BYTES.contains) COMMENT_MARKER := by
  rw [matchesHtml, Bool.or_eq_true, List.any_eq_true, matchesTag_iff, drop_skipWhitespace]
  simp only [matchesTag_iff, drop_skipWhitespace]

/-! ## No other row takes an HTML body -/

/-- A tag and another text that both begin the same bytes begin each other. -/
theorem StartsWithTag.comparable {terminators : List UInt8} {rest token start : Bytes}
    (h : StartsWithTag terminators rest token) (hstart : start <+: rest) :
    token.map toLowerAscii <+: start.map toLowerAscii
      ∨ start.map toLowerAscii <+: token.map toLowerAscii := by
  obtain ⟨matched, t, tail, hrest, hmatched, -⟩ := h
  have hbegins : matched <+: rest := ⟨t :: tail, hrest.symm⟩
  rw [← hmatched]
  exact (List.prefix_or_prefix_of_prefix hbegins hstart).imp (fun h => h.map _) (fun h => h.map _)

theorem starts_of_matchesAt {view start : Bytes} {offset : Nat}
    (h : matchesAt view offset (start.map some) = true) : start <+: view.drop offset := by
  rw [matchesAt, Bool.and_eq_true, decide_eq_true_eq, List.length_map] at h
  obtain ⟨hlen, hall⟩ := h
  have hzip : ∀ (xs ys : Bytes), ys.length ≤ xs.length →
      ((xs.zip (ys.map some)).all fun (actual, expected) => expected.all (actual == ·)) = true →
        ys <+: xs := by
    intro xs ys
    induction ys generalizing xs with
    | nil => exact fun _ _ => List.nil_prefix
    | cons y ys ih =>
        intro hle hxs
        cases xs with
        | nil => simp at hle
        | cons x xs =>
            simp only [List.map_cons, List.zip_cons_cons, List.all_cons, Option.all_some,
              Bool.and_eq_true, beq_iff_eq] at hxs
            rw [List.cons_prefix_cons]
            exact ⟨hxs.1.symm, ih xs (by simpa using hle) hxs.2⟩
  exact hzip _ _ (by rw [List.length_drop]; omega) hall

/-- An HTML pattern and a byte of whitespace begin with bytes that begin no binary signature. -/
def HtmlStart (byte : UInt8) : Prop := byte ∈ 0x3c :: WHITESPACE_BYTES

theorem signature_head {signature : BinarySignature} (h : signature ∈ BINARY_SIGNATURES) :
    ∃ byte, signature.pattern.head? = some (some byte) ∧ ¬ HtmlStart byte := by
  have table : ∀ signature ∈ BINARY_SIGNATURES,
      (signature.pattern.head?.any fun byte =>
        byte.any fun byte => !(0x3c :: WHITESPACE_BYTES).contains byte) = true := by decide
  have hentry := table signature h
  cases hhead : signature.pattern.head? with
  | none =>
      rw [hhead] at hentry
      cases hentry
  | some byte =>
      rw [hhead] at hentry
      cases byte with
      | none => cases hentry
      | some byte => exact ⟨byte, rfl, by simpa [HtmlStart] using hentry⟩

theorem no_signature {byte : UInt8} {view : Bytes} (h : HtmlStart byte) :
    BINARY_SIGNATURES.find? (fun signature => matchesAt (byte :: view) 0 signature.pattern)
      = none := by
  rw [List.find?_eq_none]
  intro signature hmem hmatch
  obtain ⟨first, hfirst, hnot⟩ := signature_head hmem
  obtain ⟨pattern, hpattern⟩ := List.head?_eq_some_iff.mp hfirst
  rw [hpattern, matchesAt, Bool.and_eq_true] at hmatch
  have hsame : byte = first := by
    have hall := hmatch.2
    simp only [List.drop_zero, List.zip_cons_cons, List.all_cons, Option.all_some,
      Bool.and_eq_true, beq_iff_eq] at hall
    exact hall.1
  exact hnot (hsame ▸ h)

theorem lower_eq_lt (byte : UInt8) : toLowerAscii byte = 0x3c ↔ byte = 0x3c := by
  have table : ∀ n < 256, toLowerAscii (UInt8.ofNat n) = 0x3c ↔ UInt8.ofNat n = 0x3c := by
    decide +kernel
  have hbyte := table byte.toNat byte.toNat_lt
  rwa [UInt8.ofNat_toNat] at hbyte

/-- A body whose text begins with a tag is HTML for the signature tables. -/
theorem html_view_head {terminators : List UInt8} {view token : Bytes}
    (htoken : token.head? = some 0x3c)
    (h : StartsWithTag terminators (view.dropWhile WHITESPACE_BYTES.contains) token) :
    ∃ byte rest, view = byte :: rest ∧ HtmlStart byte := by
  obtain ⟨matched, t, tail, hrest, hmatched, -⟩ := h
  cases view with
  | nil => simp at hrest
  | cons byte rest =>
      refine ⟨byte, rest, rfl, ?_⟩
      by_cases hspace : WHITESPACE_BYTES.contains byte = true
      · exact List.mem_cons_of_mem _ (by simpa using hspace)
      · rw [List.dropWhile_cons_of_neg hspace] at hrest
        obtain ⟨tokenTail, rfl⟩ := List.head?_eq_some_iff.mp htoken
        cases matched with
        | nil => simp at hmatched
        | cons m ms =>
            rw [List.cons_append, List.cons.injEq] at hrest
            rw [List.map_cons, List.map_cons, List.cons.injEq] at hmatched
            have hlt : m = 0x3c := (lower_eq_lt m).mp hmatched.1
            rw [hrest.1, hlt]
            exact List.mem_cons_self

theorem token_head {token : Bytes} (h : token ∈ HTML_TAGS ++ [COMMENT_MARKER]) :
    token.head? = some 0x3c := by
  have table : ∀ token ∈ HTML_TAGS ++ [COMMENT_MARKER], token.head? = some 0x3c := by decide
  exact table token h

/-- No text begins both with an HTML pattern and with the XML declaration. -/
theorem not_xml {terminators : List UInt8} {view token : Bytes} {offset : Nat}
    (htoken : token ∈ HTML_TAGS ++ [COMMENT_MARKER])
    (h : StartsWithTag terminators (view.drop offset) token) :
    matchesAt view offset ((asciiBytes "<?xml").map some) = false := by
  have table : ∀ token ∈ HTML_TAGS ++ [COMMENT_MARKER],
      ¬ (token.map toLowerAscii <+: (asciiBytes "<?xml").map toLowerAscii)
        ∧ ¬ ((asciiBytes "<?xml").map toLowerAscii <+: token.map toLowerAscii) := by decide
  rw [Bool.eq_false_iff]
  intro hxml
  obtain ⟨hno, hno'⟩ := table token htoken
  exact (h.comparable (starts_of_matchesAt hxml)).elim hno hno'

theorem signature_not_html {signature : BinarySignature} (h : signature ∈ BINARY_SIGNATURES) :
    signature.essence ≠ text "text/html" := by
  have table : ∀ signature ∈ BINARY_SIGNATURES, signature.essence ≠ text "text/html" := by decide
  exact table signature h

theorem textOrBinary_not_html (view : Bytes) :
    (textOrBinary view).essence ≠ text "text/html" := by
  unfold textOrBinary
  split
  · decide
  · decide

/-- The HTML rows decide, whatever the other rows are. -/
theorem computeEssence_html {view : Bytes} :
    (computeEssence view).essence = text "text/html" ↔
      matchesHtml view (skipWhitespace view) = true := by
  constructor
  · intro h
    unfold computeEssence at h
    split at h
    · rename_i signature hfind
      exact absurd h (signature_not_html (List.mem_of_find?_eq_some hfind))
    dsimp only at h
    split at h
    · exact absurd h (by decide)
    split at h
    · assumption
    · exact absurd h (textOrBinary_not_html view)
  · intro h
    obtain ⟨terminators, token, htoken, htag⟩ : ∃ terminators,
        ∃ token ∈ HTML_TAGS ++ [COMMENT_MARKER],
          StartsWithTag terminators (view.dropWhile WHITESPACE_BYTES.contains) token := by
      rcases matchesHtml_iff.mp h with ⟨tag, hmem, htag⟩ | htag
      · exact ⟨_, tag, List.mem_append_left _ hmem, htag⟩
      · exact ⟨_, COMMENT_MARKER, by simp, htag⟩
    obtain ⟨byte, rest, rfl, hbyte⟩ := html_view_head (token_head htoken) htag
    have hxml : matchesAt (byte :: rest) (skipWhitespace (byte :: rest))
        ((asciiBytes "<?xml").map some) = false :=
      not_xml htoken (by rwa [drop_skipWhitespace])
    simp only [computeEssence, no_signature hbyte, hxml, h, if_true, Bool.false_eq_true, if_false]

/-! ## The row that differs -/

/-- A pattern that matches ends in one place only. -/
theorem StartsWithTag.terminator {ts us : List UInt8} {rest token : Bytes}
    (h : StartsWithTag ts rest token) (h' : StartsWithTag us rest token) : ∃ t ∈ ts, t ∈ us := by
  obtain ⟨matched, t, tail, hrest, hmatched, ht⟩ := h
  obtain ⟨matched', t', tail', hrest', hmatched', ht'⟩ := h'
  have hlen : matched.length = matched'.length := by
    simpa using congrArg List.length (hmatched.trans hmatched'.symm)
  obtain ⟨-, htails⟩ := List.append_inj (hrest.symm.trans hrest') hlen
  cases htails
  exact ⟨t, ht, ht'⟩

theorem startsWithTag_terminators {rest token : Bytes} :
    StartsWithTag TAG_TERMINATORS rest token ↔
      StartsWithTag [0x20] rest token ∨ StartsWithTag [0x3e] rest token := by
  simp only [StartsWithTag, TAG_TERMINATORS, List.mem_cons, List.not_mem_nil, or_false]
  constructor
  · rintro ⟨matched, t, tail, hrest, hmatched, rfl | rfl⟩
    · exact Or.inl ⟨matched, _, tail, hrest, hmatched, rfl⟩
    · exact Or.inr ⟨matched, _, tail, hrest, hmatched, rfl⟩
  · rintro (⟨matched, t, tail, hrest, hmatched, rfl⟩ | ⟨matched, t, tail, hrest, hmatched, rfl⟩)
    · exact ⟨matched, _, tail, hrest, hmatched, Or.inl rfl⟩
    · exact ⟨matched, _, tail, hrest, hmatched, Or.inr rfl⟩

/-- Behind a comment marker and a blank no tag matches. -/
theorem no_tag_in_comment {rest tag : Bytes} (htag : tag ∈ HTML_TAGS)
    (h : StartsWithTag [0x20] rest COMMENT_MARKER) : ¬ StartsWithTag TAG_TERMINATORS rest tag := by
  have table : ∀ tag ∈ HTML_TAGS,
      ¬ (tag.map toLowerAscii <+: COMMENT_MARKER.map toLowerAscii ++ [toLowerAscii 0x20])
        ∧ ¬ (COMMENT_MARKER.map toLowerAscii ++ [toLowerAscii 0x20]
          <+: tag.map toLowerAscii) := by decide
  obtain ⟨matched, t, tail, rfl, hmatched, ht⟩ := h
  rw [List.mem_singleton.mp ht]
  intro hstart
  have hbegins : matched ++ [0x20] <+: matched ++ 0x20 :: tail := ⟨tail, by simp⟩
  have hcomparable := hstart.comparable hbegins
  rw [List.map_append, hmatched] at hcomparable
  exact hcomparable.elim (table tag htag).1 (table tag htag).2

theorem standardHtml_iff {body : Bytes} :
    StandardHtml body ↔
      (∃ tag ∈ HTML_TAGS, StartsWithTag TAG_TERMINATORS (behindWhitespace body) tag)
        ∨ StartsWithTag TAG_TERMINATORS (behindWhitespace body) COMMENT_MARKER := by
  simp only [StandardHtml, List.mem_append, List.mem_singleton, or_and_right, exists_or,
    exists_eq_left]

section
variable (P : Platform)

/-- The computed essence is HTML exactly for the standard's HTML rows. -/
def HtmlAgrees (body : Bytes) (declaredType : Option Text) : Prop :=
  (sniffMimeType P body declaredType).computedEssence = text "text/html" ↔ StandardHtml body

/-- The sniffer agrees with the standard on every body that does not begin with a comment
marker followed by a blank. -/
theorem htmlAgrees_iff (body : Bytes) (declaredType : Option Text) :
    HtmlAgrees P body declaredType ↔
      ¬ StartsWithTag [0x20] (behindWhitespace body) COMMENT_MARKER := by
  have hcode : (sniffMimeType P body declaredType).computedEssence = text "text/html" ↔
      (∃ tag ∈ HTML_TAGS, StartsWithTag TAG_TERMINATORS (behindWhitespace body) tag)
        ∨ StartsWithTag [0x3e] (behindWhitespace body) COMMENT_MARKER :=
    computeEssence_html.trans matchesHtml_iff
  have hmarker : StartsWithTag TAG_TERMINATORS (behindWhitespace body) COMMENT_MARKER ↔ _ :=
    startsWithTag_terminators
  rw [HtmlAgrees, hcode, standardHtml_iff, hmarker]
  constructor
  · intro hagree hcomment
    rcases hagree.mpr (Or.inr (Or.inl hcomment)) with ⟨tag, htag, hstart⟩ | hend
    · exact no_tag_in_comment htag hcomment hstart
    · obtain ⟨t, hblank, hgreater⟩ := hcomment.terminator hend
      rw [List.mem_singleton.mp hblank] at hgreater
      exact absurd hgreater (by decide)
  · intro hno
    rw [or_iff_right hno]

end

/-- A script behind a comment, declared as plain text. -/
theorem comment_not_html :
    ¬ HtmlAgrees Platform.ascii (asciiBytes "<!-- --><script>") (some (text "text/plain")) := by
  intro h
  have hstandard : StandardHtml (asciiBytes "<!-- --><script>") :=
    ⟨COMMENT_MARKER, by simp, asciiBytes "<!--", 0x20, asciiBytes "--><script>", by decide, rfl,
      by decide⟩
  exact absurd (h.mpr hstandard) (by decide)

end MimeSniff

end Linklint
