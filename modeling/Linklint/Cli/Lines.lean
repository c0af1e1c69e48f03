import Linklint.Js.Text
import Mathlib.Data.List.DropRight

/-!
# URLs, one per line

What a file or the standard input gives the command line. Padding goes, but for
the two separators that carry a finding; blank lines and comments are skipped.
-/

namespace Linklint

namespace Cli

/-- What `trim` removes, without the two characters it must not remove here. -/
def isPadding (u : CodeUnit) : Bool := isSpace u && !(u.toNat == 0x2028 || u.toNat == 0x2029)

def trimPreservingSignal (raw : Text) : Text := (raw.dropWhile isPadding).rdropWhile isPadding

/-- The line is neither blank nor a comment. -/
def isUrlLine (line : Text) : Bool := line ≠ [] && line.head? != some (unit '#')

def parseUrlLines (s : Text) : List Text :=
  ((s.split (unit '\n')).map trimPreservingSignal).filter isUrlLine

/-! ### Trimming -/

theorem begins_trimmed (raw : Text) : trimPreservingSignal raw <+: raw.dropWhile isPadding :=
  List.rdropWhile_prefix isPadding _

theorem mem_of_mem_trim {raw : Text} {u : CodeUnit} (h : u ∈ trimPreservingSignal raw) : u ∈ raw :=
  (List.dropWhile_sublist _).subset ((begins_trimmed raw).sublist.subset h)

/-- A text starts without padding when what it is the start of does. -/
theorem dropWhile_of_prefix {s t : Text} (h : s <+: t) (ht : t.dropWhile isPadding = t) :
    s.dropWhile isPadding = s := by
  cases s with
  | nil => rfl
  | cons u s =>
      obtain ⟨rest, rfl⟩ := h
      have hhead := List.head?_dropWhile_not isPadding (u :: s ++ rest)
      rw [ht] at hhead
      have hu : isPadding u = false := by simpa using hhead
      exact List.dropWhile_cons_of_neg (by simp [hu])

theorem trim_trim (raw : Text) :
    trimPreservingSignal (trimPreservingSignal raw) = trimPreservingSignal raw := by
  have hhead : (trimPreservingSignal raw).dropWhile isPadding = trimPreservingSignal raw :=
    dropWhile_of_prefix (begins_trimmed raw) (List.dropWhile_idempotent ..)
  rw [trimPreservingSignal, hhead, trimPreservingSignal, List.rdropWhile_idempotent]

/-- Padding around a trimmed text goes. -/
theorem trim_padded {before url after : Text} (hbefore : ∀ u ∈ before, isPadding u = true)
    (hafter : ∀ u ∈ after, isPadding u = true) (hurl : trimPreservingSignal url = url)
    (hne : url ≠ []) : trimPreservingSignal (before ++ url ++ after) = url := by
  have hstart : url.dropWhile isPadding = url := by
    have hprefix := begins_trimmed url
    rw [hurl] at hprefix
    exact (List.dropWhile_suffix isPadding).sublist.antisymm hprefix.sublist
  have hend : url.rdropWhile isPadding = url := by
    rw [trimPreservingSignal, hstart] at hurl
    exact hurl
  obtain ⟨first, rest, rfl⟩ := List.exists_cons_of_ne_nil hne
  have hfirst : isPadding first = false := by
    have hhead := List.head?_dropWhile_not isPadding (first :: rest)
    rw [hstart] at hhead
    simpa using hhead
  have hdrop : (before ++ (first :: rest) ++ after).dropWhile isPadding = first :: rest ++ after := by
    rw [List.append_assoc, List.dropWhile_append_of_pos hbefore, List.cons_append,
      List.dropWhile_cons_of_neg (by simp [hfirst])]
  have htail : (first :: rest ++ after).rdropWhile isPadding = (first :: rest).rdropWhile isPadding := by
    simp only [List.rdropWhile, List.reverse_append]
    rw [List.dropWhile_append_of_pos fun u hu => hafter u (List.mem_reverse.mp hu)]
  rw [trimPreservingSignal, hdrop, htail, hend]

/-- A comment stays one when it is trimmed. -/
theorem trim_comment {pad : Text} (hpad : ∀ u ∈ pad, isPadding u = true) (body : Text) :
    isUrlLine (trimPreservingSignal (pad ++ unit '#' :: body)) = false := by
  have hhash : isPadding (unit '#') = false := by decide
  have hdrop : (pad ++ unit '#' :: body).dropWhile isPadding = unit '#' :: body := by
    rw [List.dropWhile_append_of_pos hpad, List.dropWhile_cons_of_neg (by simp [hhash])]
  have hprefix := begins_trimmed (pad ++ unit '#' :: body)
  rw [hdrop] at hprefix
  cases htrim : trimPreservingSignal (pad ++ unit '#' :: body) with
  | nil => rfl
  | cons u rest =>
      rw [htrim] at hprefix
      obtain ⟨rfl, -⟩ := List.cons_prefix_cons.mp hprefix
      simp [isUrlLine]

theorem trim_blank {pad : Text} (hpad : ∀ u ∈ pad, isPadding u = true) :
    isUrlLine (trimPreservingSignal pad) = false := by
  have hnil : trimPreservingSignal pad = [] := by
    rw [trimPreservingSignal, List.dropWhile_eq_nil_iff.mpr hpad]
    rfl
  rw [hnil]
  rfl

/-! ### Lines of a file -/

/-- A line that is its own URL. -/
structure CleanLine (url : Text) : Prop where
  no_newline : unit '\n' ∉ url
  no_comment : isUrlLine url = true
  trimmed : trimPreservingSignal url = url

theorem CleanLine.ne_nil {url : Text} (h : CleanLine url) : url ≠ [] := by
  rintro rfl
  exact absurd h.no_comment (by decide)

/-- One line of a file: a URL between padding, a comment after padding, or padding alone. -/
inductive FileLine where
  | url (before address after : Text)
  | comment (pad body : Text)
  | blank (pad : Text)

namespace FileLine

def line : FileLine → Text
  | .url before address after => before ++ address ++ after
  | .comment pad body => pad ++ unit '#' :: body
  | .blank pad => pad

def urls : FileLine → List Text
  | .url _ address _ => [address]
  | _ => []

/-- Padding within the line. -/
def Pad (pad : Text) : Prop := ∀ u ∈ pad, isPadding u = true ∧ u ≠ unit '\n'

def Valid : FileLine → Prop
  | .url before address after => Pad before ∧ CleanLine address ∧ Pad after
  | .comment pad body => Pad pad ∧ unit '\n' ∉ body
  | .blank pad => Pad pad

theorem Pad.padding {pad : Text} (h : Pad pad) : ∀ u ∈ pad, isPadding u = true :=
  fun u hu => (h u hu).1

theorem Pad.no_newline {pad : Text} (h : Pad pad) : unit '\n' ∉ pad :=
  fun hmem => (h _ hmem).2 rfl

theorem Valid.no_newline {fileLine : FileLine} (h : fileLine.Valid) : unit '\n' ∉ fileLine.line := by
  cases fileLine with
  | url before address after =>
      obtain ⟨hbefore, hurl, hafter⟩ := h
      simp [line, hbefore.no_newline, hurl.no_newline, hafter.no_newline]
  | comment pad body =>
      obtain ⟨hpad, hbody⟩ := h
      have hhash : unit '\n' ≠ unit '#' := by decide
      simp [line, hpad.no_newline, hbody, hhash]
  | blank pad => exact Pad.no_newline h

/-- What one line gives. -/
theorem Valid.filter_trim {fileLine : FileLine} (h : fileLine.Valid) :
    [trimPreservingSignal fileLine.line].filter isUrlLine = fileLine.urls := by
  cases fileLine with
  | url before address after =>
      obtain ⟨hbefore, hurl, hafter⟩ := h
      rw [line, trim_padded hbefore.padding hafter.padding hurl.trimmed hurl.ne_nil]
      simp [hurl.no_comment, urls]
  | comment pad body => simp [line, trim_comment h.1.padding, urls]
  | blank pad => simp [line, trim_blank (Pad.padding h), urls]

end FileLine

/-- The text of a file with these lines. -/
def fileText (lines : List FileLine) : Text := Text.join [unit '\n'] (lines.map FileLine.line)

theorem parseUrlLines_fileText {lines : List FileLine} (h : ∀ line ∈ lines, line.Valid) :
    parseUrlLines (fileText lines) = lines.flatMap FileLine.urls := by
  by_cases hne : lines = []
  · rw [hne]
    decide
  · have hsplit : (fileText lines).split (unit '\n') = lines.map FileLine.line := by
      refine List.splitOn_intercalate _ ?_ (by simpa using hne)
      intro line hline
      obtain ⟨fileLine, hmem, rfl⟩ := List.mem_map.mp hline
      exact (h fileLine hmem).no_newline
    rw [parseUrlLines, hsplit, List.map_map]
    clear hsplit hne
    induction lines with
    | nil => rfl
    | cons fileLine lines ih =>
        obtain ⟨hfirst, hrest⟩ := List.forall_mem_cons.mp h
        rw [List.flatMap_cons, ← hfirst.filter_trim, ← ih hrest, ← List.filter_append]
        rfl

theorem cleanLine_of_mem {s url : Text} (h : url ∈ parseUrlLines s) : CleanLine url := by
  obtain ⟨hmem, hline⟩ := List.mem_filter.mp h
  obtain ⟨raw, hraw, rfl⟩ := List.mem_map.mp hmem
  exact ⟨fun hnewline => not_mem_of_mem_split hraw (mem_of_mem_trim hnewline), hline, trim_trim raw⟩

/-- Clean lines are read back as they are. -/
theorem parseUrlLines_join {urls : List Text} (h : ∀ url ∈ urls, CleanLine url) :
    parseUrlLines (Text.join [unit '\n'] urls) = urls := by
  have hlines : fileText (urls.map fun url => .url [] url []) = Text.join [unit '\n'] urls := by
    simp [fileText, FileLine.line, Function.comp_def]
  rw [← hlines, parseUrlLines_fileText]
  · simp [List.flatMap_map, FileLine.urls]
  · intro fileLine hfileLine
    obtain ⟨url, hurl, rfl⟩ := List.mem_map.mp hfileLine
    have hpad : FileLine.Pad [] := fun u hu => absurd hu List.not_mem_nil
    exact ⟨hpad, h url hurl, hpad⟩

end Cli

end Linklint
