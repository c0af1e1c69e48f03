import Linklint.Parse.Decode
import Linklint.Parse.RawTokens
import Linklint.Policy.Axes

/-!
# Control characters

The detector looks for control characters in the input and in what bounded
decoding makes of it. A decoded control character is never decoded away, so a
larger depth finds at least the signals of a smaller one.
-/

namespace Linklint

inductive ControlSignal where
  | crlf | tab | null | control | whitespaceInHost
deriving DecidableEq

inductive EncodingForm where
  | raw | percentEncoded | doubleEncoded
deriving DecidableEq

def ControlSignal.name : ControlSignal → Text
  | .crlf => text "crlf"
  | .tab => text "tab"
  | .null => text "null"
  | .control => text "control"
  | .whitespaceInHost => text "whitespace_in_host"

/-- `SIGNAL_DETAIL` -/
def ControlSignal.detail : ControlSignal → Text
  | .crlf =>
      text "CR/LF — lets a requester smuggle a second protocol (Redis/SMTP/Memcached) on the wire"
  | .tab => text "TAB — terminates the host so validator and resolver disagree"
  | .null => text "NUL — truncates the host for a C-string resolver"
  | .control => text "other C0/DEL control character"
  | .whitespaceInHost =>
      text "whitespace inside the authority — getaddrinfo strips the trailing rubbish"

def EncodingForm.name : EncodingForm → Text
  | .raw => text "raw"
  | .percentEncoded => text "percent-encoded"
  | .doubleEncoded => text "double-encoded"

/-- The signal of a control code point. -/
def classify (code : Nat) : Option ControlSignal :=
  if code = 0x0d ∨ code = 0x0a then some .crlf
  else if code = 0x09 then some .tab
  else if code = 0x00 then some .null
  else if (0x01 ≤ code ∧ code ≤ 0x1f) ∨ code = 0x7f then some .control
  else none

/-- The signals of the characters of a text, in order. -/
def controlsOf (s : Text) : List ControlSignal := (codePoints s).filterMap classify

section
variable (prepared : Text) (runtime : RuntimeConfig) (region : AuthorityRegion)

/-- What the decoded text adds, with the form it was written in. -/
def decodedHits : List (ControlSignal × EncodingForm) :=
  if prepared.includes (unit '%') then
    let decode := boundedDecode prepared runtime.maxDecodeDepth
    if decode.value ≠ prepared then
      let form : EncodingForm := if 2 ≤ decode.passes then .doubleEncoded else .percentEncoded
      (controlsOf decode.value).map fun signal => (signal, form)
    else []
  else []

/-- White space inside an authority that has the shape of a host. -/
def whitespaceHits : List (ControlSignal × EncodingForm) :=
  if ¬ region.isOpaque ∧ region.authority ≠ [] then
    let hostport := (Text.cutLast (unit '@') region.authority).2
    if (hostport.any fun u => u == unit ' ' || u == 9) ∧ hostport.includes (unit '.') ∧
        (hostport.any fun u => isDigit u || isAsciiLetter u) then
      [(.whitespaceInHost, .raw)]
    else []
  else []

/-- Every signal with its form, in the order the scan adds them. -/
def controlHits : List (ControlSignal × EncodingForm) :=
  if prepared = [] then []
  else
    (controlsOf prepared).map (fun signal => (signal, EncodingForm.raw))
      ++ decodedHits prepared runtime ++ whitespaceHits region

def controlSignals : List ControlSignal :=
  ((controlHits prepared runtime region).map Prod.fst).eraseDups

def scanControlChar : List CollectedFinding :=
  let signals := controlSignals prepared runtime region
  let forms := ((controlHits prepared runtime region).map Prod.snd).eraseDups
  if signals = [] then []
  else
    let glossed := Text.join (text "; ")
      (signals.map fun signal => signal.name ++ text " (" ++ signal.detail ++ text ")")
    let formNote := text "[" ++ listText (forms.map EncodingForm.name) ++ text "]"
    [{ code := .controlChar,
       detail := text "URL carries control/whitespace characters used to smuggle a protocol or "
         ++ text "terminate the host " ++ formNote ++ text ": " ++ glossed }]

end

/-! ### Control characters through the passes -/

def isControlUnit (u : CodeUnit) : Bool := (classify u.toNat).isSome

/-- The control characters of a text, in order. -/
def controlUnits (s : Text) : Text := s.filter isControlUnit

theorem classify_printable {code : Nat} (hlow : 0x20 ≤ code) (hdel : code ≠ 0x7f) :
    classify code = none := by
  have h1 : ¬ (code = 0x0d ∨ code = 0x0a) := by omega
  have h2 : ¬ code = 0x09 := by omega
  have h3 : ¬ code = 0x00 := by omega
  have h4 : ¬ ((0x01 ≤ code ∧ code ≤ 0x1f) ∨ code = 0x7f) := by omega
  simp only [classify, if_neg h1, if_neg h2, if_neg h3, if_neg h4]

theorem classify_joined (u v : CodeUnit) :
    classify (0x10000 + (u.toNat - 0xD800) * 0x400 + (v.toNat - 0xDC00)) = none := by
  have hlarge : 0x10000 ≤ 0x10000 + (u.toNat - 0xD800) * 0x400 + (v.toNat - 0xDC00) := by omega
  generalize 0x10000 + (u.toNat - 0xD800) * 0x400 + (v.toNat - 0xDC00) = joined at hlarge
  exact classify_printable (by omega) (by omega)

/-- No surrogate is a control character, so units and code points give the same signals. -/
theorem controlsOf_eq (s : Text) : controlsOf s = s.filterMap fun u => classify u.toNat := by
  rw [controlsOf]
  induction s using codePoints.induct with
  | case1 => rfl
  | case2 u => rfl
  | case3 u v rest hpair ih =>
      obtain ⟨hhigh, hlow⟩ := Bool.and_eq_true_iff.mp hpair
      rw [isHighSurrogate, Bool.and_eq_true, decide_eq_true_eq, decide_eq_true_eq] at hhigh
      rw [isLowSurrogate, Bool.and_eq_true, decide_eq_true_eq, decide_eq_true_eq] at hlow
      have hu : classify u.toNat = none := classify_printable (by omega) (by omega)
      have hv : classify v.toNat = none := classify_printable (by omega) (by omega)
      rw [codePoints, if_pos hpair, List.filterMap_cons_none (classify_joined u v), ih]
      simp only [List.filterMap_cons, hu, hv]
  | case4 u v rest hpair ih =>
      rw [codePoints, if_neg hpair, List.filterMap_cons, ih]
      rfl

theorem controlsOf_controlUnits (s : Text) :
    controlsOf s = (controlUnits s).filterMap fun u => classify u.toNat := by
  rw [controlsOf_eq, controlUnits, List.filterMap_filter]
  apply List.filterMap_congr
  intro u _
  cases hclass : classify u.toNat with
  | none => simp [isControlUnit, hclass]
  | some signal => simp [isControlUnit, hclass]

theorem percentOctet_printable {percent high low : CodeUnit} {octet : Nat} {tail : Text}
    (h : percentOctet [percent, high, low] = some (octet, tail)) :
    isControlUnit percent = false ∧ isControlUnit high = false ∧ isControlUnit low = false := by
  have hdigit (u : CodeUnit) {d : Nat} (hd : digitValue u = some d) : isControlUnit u = false := by
    have hrange : 0x20 ≤ u.toNat ∧ u.toNat ≠ 0x7f := by
      simp only [digitValue, isDigit] at hd
      grind
    rw [isControlUnit, classify_printable hrange.1 hrange.2]
    rfl
  rw [percentOctet] at h
  split at h
  · rename_i hpercent
    obtain ⟨h', hhigh, h⟩ := Option.bind_eq_some_iff.mp h
    obtain ⟨l', hlow, -⟩ := Option.bind_eq_some_iff.mp h
    subst hpercent
    exact ⟨by decide, hdigit high hhigh, hdigit low hlow⟩
  · cases h

/-- A pass adds control characters and takes none away. -/
theorem controlUnits_decodeOnce (s : Text) :
    (controlUnits s).Sublist (controlUnits (decodeOnce s)) := by
  simp only [controlUnits]
  induction s using decodeOnce.induct with
  | case1 percent high low rest octet tail hoctet ih =>
      obtain ⟨hpercent, hhigh, hlow⟩ := percentOctet_printable hoctet
      have hdropped : (percent :: high :: low :: rest).filter isControlUnit =
          rest.filter isControlUnit := by
        simp only [List.filter_cons, hpercent, hhigh, hlow, Bool.false_eq_true, if_false]
      rw [hdropped, decodeOnce, hoctet]
      exact ih.trans ((List.sublist_cons_self _ _).filter isControlUnit)
  | case2 percent high low rest hoctet ih =>
      rw [decodeOnce, hoctet]
      by_cases hcontrol : isControlUnit percent = true
      · rw [List.filter_cons_of_pos hcontrol, List.filter_cons_of_pos hcontrol]
        exact ih.cons_cons percent
      · rw [List.filter_cons_of_neg hcontrol, List.filter_cons_of_neg hcontrol]
        exact ih
  | case3 u rest hshort ih =>
      rw [decodeOnce.eq_2 _ _ hshort]
      by_cases hcontrol : isControlUnit u = true
      · rw [List.filter_cons_of_pos hcontrol, List.filter_cons_of_pos hcontrol]
        exact ih.cons_cons u
      · rw [List.filter_cons_of_neg hcontrol, List.filter_cons_of_neg hcontrol]
        exact ih
  | case4 => exact List.Sublist.refl []

theorem controlUnits_iterate {m n : Nat} (hmn : m ≤ n) (s : Text) :
    (controlUnits (decodeOnce^[m] s)).Sublist (controlUnits (decodeOnce^[n] s)) := by
  induction hmn with
  | refl => exact List.Sublist.refl _
  | step _ ih =>
      rw [Function.iterate_succ_apply']
      exact ih.trans (controlUnits_decodeOnce _)

theorem controlsOf_boundedDecode {depth deeper : Nat} (hdeeper : depth ≤ deeper) (s : Text) :
    (controlsOf (boundedDecode s depth).value).Sublist
      (controlsOf (boundedDecode s deeper).value) := by
  have hpasses := @BoundedFixpoint.passes_mono _ decodeOnce s _ _ _ hdeeper
  simp only [boundedDecode, BoundedFixpoint.value_eq, controlsOf_controlUnits]
  exact (controlUnits_iterate hpasses s).filterMap _

/-! ### The signals of a depth -/

section
variable {prepared : Text} {runtime : RuntimeConfig} {region : AuthorityRegion}

theorem mem_decodedHits {signal : ControlSignal} :
    (signal ∈ (decodedHits prepared runtime).map Prod.fst) ↔
      unit '%' ∈ prepared ∧ (boundedDecode prepared runtime.maxDecodeDepth).value ≠ prepared ∧
        signal ∈ controlsOf (boundedDecode prepared runtime.maxDecodeDepth).value := by
  have hincludes : prepared.includes (unit '%') = true ↔ unit '%' ∈ prepared := by
    simp [Text.includes]
  by_cases hpercent : unit '%' ∈ prepared
  · by_cases hchanged : (boundedDecode prepared runtime.maxDecodeDepth).value ≠ prepared
    · simp [decodedHits, hincludes, hpercent, hchanged, Function.comp_def]
    · simp [decodedHits, hpercent, not_not.mp hchanged]
  · simp [decodedHits, hincludes, hpercent]

theorem mem_controlSignals {signal : ControlSignal} :
    signal ∈ controlSignals prepared runtime region ↔ prepared ≠ [] ∧
      (signal ∈ controlsOf prepared ∨ signal ∈ (decodedHits prepared runtime).map Prod.fst ∨
        signal ∈ (whitespaceHits region).map Prod.fst) := by
  rw [controlSignals, List.mem_eraseDups, controlHits]
  by_cases hempty : prepared = []
  · simp [hempty]
  · rw [if_neg hempty, List.map_append, List.map_append, List.mem_append, List.mem_append,
      List.map_map, or_assoc]
    simp [hempty, Function.comp_def]

/-- A larger depth finds every signal of a smaller one. -/
theorem controlSignals_mono {deeper : Nat} (hdeeper : runtime.maxDecodeDepth ≤ deeper) :
    controlSignals prepared runtime region ⊆
      controlSignals prepared { runtime with maxDecodeDepth := deeper } region := by
  intro signal hsignal
  obtain ⟨hne, hraw | hdecoded | hwhite⟩ := mem_controlSignals.mp hsignal
  · exact mem_controlSignals.mpr ⟨hne, Or.inl hraw⟩
  · obtain ⟨hpercent, -, hfound⟩ := mem_decodedHits.mp hdecoded
    have hdeep := (controlsOf_boundedDecode hdeeper prepared).subset hfound
    apply mem_controlSignals.mpr
    refine ⟨hne, ?_⟩
    by_cases hsame : (boundedDecode prepared deeper).value = prepared
    · rw [hsame] at hdeep
      exact Or.inl hdeep
    · exact Or.inr (Or.inl (mem_decodedHits.mpr ⟨hpercent, hsame, hdeep⟩))
  · exact mem_controlSignals.mpr ⟨hne, Or.inr (Or.inr hwhite)⟩

end

/-- What bounded decoding guarantees at a depth, and to the detector that reads it. -/
structure BoundedDecoding (input : Text) (depth : Nat) : Prop where
  passes : (boundedDecode input depth).passes ≤ depth
  decoded : (boundedDecode input depth).value =
    decodeOnce^[(boundedDecode input depth).passes] input
  changing : ∀ n < (boundedDecode input depth).passes,
    decodeOnce (decodeOnce^[n] input) ≠ decodeOnce^[n] input
  stable : (boundedDecode input depth).truncated = false ↔
    hasPercent (boundedDecode input depth).value = false
  settled : (boundedDecode input depth).truncated = false →
    ∀ deeper, depth ≤ deeper → boundedDecode input deeper = boundedDecode input depth
  shorter : (boundedDecode input depth).value.length ≤ input.length
  kept : ∀ m n, m ≤ n →
    (controlUnits (decodeOnce^[m] input)).Sublist (controlUnits (decodeOnce^[n] input))
  signals : ∀ (runtime : RuntimeConfig) (region : AuthorityRegion) (deeper : Nat),
    runtime.maxDecodeDepth = depth → depth ≤ deeper →
      controlSignals input runtime region ⊆
        controlSignals input { runtime with maxDecodeDepth := deeper } region

/-- A truncated run is one whose value a further pass would change. -/
theorem boundedDecode_truncated (input : Text) (depth : Nat) :
    (boundedDecode input depth).truncated = false ↔
      hasPercent (boundedDecode input depth).value = false := by
  have hvalue := @BoundedFixpoint.value_eq _ decodeOnce input _ depth
  have hbound := @BoundedFixpoint.passes_le _ decodeOnce input _ depth
  have hpasses := @BoundedFixpoint.passes_iff _ decodeOnce input _ depth
  rw [Bool.eq_false_iff, ne_eq, boundedDecode, BoundedFixpoint.truncated_iff, ← decodeOnce_eq_iff]
  constructor
  · intro hstable
    have hlast : ¬ BoundedFixpoint.Changes decodeOnce input
        (BoundedFixpoint.run decodeOnce depth input).passes := by
      intro hchanges
      rcases Nat.lt_or_eq_of_le hbound with hless | heq
      · exact Nat.lt_irrefl _ ((hpasses _).mpr ⟨hless, hchanges⟩)
      · exact hstable (heq ▸ hchanges)
    rw [hvalue]
    exact not_not.mp hlast
  · intro hfixed hchanges
    have hearlier := BoundedFixpoint.changes_mono hbound hchanges
    rw [hvalue] at hfixed
    exact hearlier hfixed

theorem bounded_decoding (input : Text) (depth : Nat) : BoundedDecoding input depth where
  passes := BoundedFixpoint.passes_le depth
  decoded := BoundedFixpoint.value_eq depth
  changing n hn := ((BoundedFixpoint.passes_iff depth n).mp hn).2
  stable := boundedDecode_truncated input depth
  settled hstable _ hdeeper := BoundedFixpoint.run_of_stable hdeeper hstable
  shorter := by
    rw [boundedDecode, BoundedFixpoint.value_eq]
    exact iterate_decodeOnce_length_le _ input
  kept _ _ hmn := controlUnits_iterate hmn input
  signals _ _ _ hdepth hdeeper := controlSignals_mono (hdepth ▸ hdeeper)

end Linklint
