import Linklint.Parse.Decode
import Linklint.Policy.Axes

/-!
# Percent-encoding obfuscation

The detector counts decode passes with the caller's depth. A depth below three
cuts the decoding short, and the detector takes the cut for deep nesting.
-/

namespace Linklint

/-- A regular expression that is a fixed sequence of character classes, at the start of `s`. -/
def startsWithClasses : List String → Text → Bool
  | [], _ => true
  | chars :: classes, u :: rest => (text chars).contains u && startsWithClasses classes rest
  | _ :: _, [] => false

def matchesAny (patterns : List (List String)) (s : Text) : Bool :=
  s.tails.any fun rest => patterns.any fun pattern => startsWithClasses pattern rest

def HEX : String := "0123456789abcdefABCDEF"

def OVERLONG_UTF8 : List (List String) :=
  [["%", "cC", "01", "%", "89aAbB", HEX],
   ["%", "eE", "0", "%", "89", HEX, "%", "89aAbB", HEX],
   ["%", "fF", "0", "%", "8", HEX, "%", "89aAbB", HEX, "%", "89aAbB", HEX]]

def ENCODED_SEPARATOR : List (List String) := [["%", "2", "fF"], ["%", "5", "cC"]]

/-- `/^(?:\.%2e|%2e\.|%2e%2e)$/i`. -/
def isEncodedDoubleDotSegment (segment : Text) : Bool :=
  [text ".%2e", text "%2e.", text "%2e%2e"].contains (segment.map asciiLower)

def TRIPLE_ENCODED : Text := text "triple-encoded (≥3 levels)"

section
variable (ctx : InspectionContext)

/-- The components of the input, joined by blanks. -/
def joinedComponents : Text :=
  Text.join (text " ")
    [ctx.rawHost, ctx.userinfo.getD [], ctx.path, ctx.query.getD [], ctx.fragment.getD []]

/-- Three changing passes, or the depth used up before the text was stable. -/
def nestingSignal : List Text :=
  let all := joinedComponents ctx
  if hasPercent all then
    let decode := boundedDecode all ctx.runtime.maxDecodeDepth
    if 3 ≤ decode.passes ∨ decode.truncated then [TRIPLE_ENCODED] else []
  else []

def encodingSignals : List Text :=
  let all := joinedComponents ctx
  (if hasPercent ctx.rawHost then [text "percent-encoding in host"] else [])
  ++ (if matchesAny [["%", "2", "5"]] all then [text "double-encoded (%25)"] else [])
  ++ nestingSignal ctx
  ++ (if matchesAny OVERLONG_UTF8 all then [text "overlong UTF-8 sequence"] else [])
  ++ (if (percentCodes all).any fun code => code < 0x20 || code == 0x7f then
        [text "encoded control character"]
      else [])
  ++ (if matchesAny ENCODED_SEPARATOR ctx.path then [text "encoded path separator"] else [])
  ++ (if (ctx.path.split (unit '/')).any isEncodedDoubleDotSegment then
        [text "encoded '..' traversal"]
      else [])

def encodingObfuscation : List CollectedFinding :=
  let signals := encodingSignals ctx
  if signals = [] then []
  else
    [{ code := .encodingObfuscation,
       detail := text "percent-encoding obfuscation: " ++ listText signals.eraseDups }]

/-! ## When nesting is reported -/

/-- Three passes after one another each change the components. -/
def TriplyEncoded : Prop := ∀ n < 3, BoundedFixpoint.Changes decodeOnce (joinedComponents ctx) n

/-- The first pass changes the components and the next one does not. -/
def SinglyEncoded : Prop :=
  BoundedFixpoint.Changes decodeOnce (joinedComponents ctx) 0
    ∧ ¬ BoundedFixpoint.Changes decodeOnce (joinedComponents ctx) 1

def withDepth (depth : Nat) : InspectionContext :=
  { ctx with runtime := { ctx.runtime with maxDecodeDepth := depth } }

/-- Nesting is reported only for three levels and, from depth three on, for all of them;
a singly encoded input has no finding at a depth that a higher one does not give. -/
structure NestingReported : Prop where
  sound : TRIPLE_ENCODED ∈ encodingSignals ctx → TriplyEncoded ctx
  complete : 3 ≤ ctx.runtime.maxDecodeDepth → TriplyEncoded ctx →
    TRIPLE_ENCODED ∈ encodingSignals ctx
  lowering : SinglyEncoded ctx → ∀ depth, ctx.runtime.maxDecodeDepth ≤ depth →
    encodingObfuscation ctx ≠ [] → encodingObfuscation (withDepth ctx depth) ≠ []

variable {ctx}

theorem triplyEncoded_iff :
    TriplyEncoded ctx ↔ BoundedFixpoint.Changes decodeOnce (joinedComponents ctx) 2 := by
  constructor
  · exact fun h => h 2 (by decide)
  · exact fun h n hn => BoundedFixpoint.changes_mono (by omega) h

/-- No other signal has the text of the nesting signal. -/
theorem mem_encodingSignals :
    TRIPLE_ENCODED ∈ encodingSignals ctx ↔ TRIPLE_ENCODED ∈ nestingSignal ctx := by
  have hothers : TRIPLE_ENCODED ∉ [text "percent-encoding in host", text "double-encoded (%25)",
      text "overlong UTF-8 sequence", text "encoded control character",
      text "encoded path separator", text "encoded '..' traversal"] := by decide
  simp only [List.mem_cons, List.not_mem_nil, or_false, not_or] at hothers
  obtain ⟨h1, h2, h3, h4, h5, h6⟩ := hothers
  simp only [encodingSignals, List.mem_append, List.mem_ite_nil_right, List.mem_singleton,
    h1, h2, h3, h4, h5, h6, and_false, or_false, false_or]

theorem hasPercent_of_changes {n : Nat}
    (h : BoundedFixpoint.Changes decodeOnce (joinedComponents ctx) n) :
    hasPercent (joinedComponents ctx) = true := by
  by_contra hno
  rw [Bool.not_eq_true] at hno
  exact BoundedFixpoint.not_changes_of_stable (decodeOnce_of_no_percent hno) n h

/-- What the detector reports: three passes within the depth, or one more than the depth. -/
theorem mem_nestingSignal :
    TRIPLE_ENCODED ∈ nestingSignal ctx ↔
      (3 ≤ ctx.runtime.maxDecodeDepth ∧ TriplyEncoded ctx)
        ∨ BoundedFixpoint.Changes decodeOnce (joinedComponents ctx)
            ctx.runtime.maxDecodeDepth := by
  have hpasses : 3 ≤ (boundedDecode (joinedComponents ctx) ctx.runtime.maxDecodeDepth).passes ↔
      3 ≤ ctx.runtime.maxDecodeDepth ∧ TriplyEncoded ctx := by
    rw [triplyEncoded_iff]
    exact BoundedFixpoint.passes_iff _ 2
  have htruncated : (boundedDecode (joinedComponents ctx) ctx.runtime.maxDecodeDepth).truncated
      = true ↔ BoundedFixpoint.Changes decodeOnce (joinedComponents ctx)
        ctx.runtime.maxDecodeDepth := BoundedFixpoint.truncated_iff _
  simp only [nestingSignal, List.mem_ite_nil_right, List.mem_singleton, and_true, hpasses,
    htruncated]
  constructor
  · exact And.right
  · rintro (h | h)
    · exact ⟨hasPercent_of_changes (triplyEncoded_iff.mp h.2), Or.inl h⟩
    · exact ⟨hasPercent_of_changes h, Or.inr h⟩

theorem nestingSignal_eq_nil : nestingSignal ctx = [] ↔ TRIPLE_ENCODED ∉ nestingSignal ctx := by
  simp only [nestingSignal]
  split
  · split <;> simp
  · simp

/-- The depth decides on the nesting signal only. -/
theorem encodingObfuscation_withDepth {depth : Nat}
    (h : nestingSignal ctx = nestingSignal (withDepth ctx depth)) :
    encodingObfuscation (withDepth ctx depth) = encodingObfuscation ctx := by
  have hsignals : encodingSignals (withDepth ctx depth) = encodingSignals ctx := by
    simp only [encodingSignals, ← h]
    rfl
  rw [encodingObfuscation, hsignals]
  rfl

theorem nestingSignal_eq_nil_of_stable (hnot : ¬ TriplyEncoded ctx)
    (hstable : ¬ BoundedFixpoint.Changes decodeOnce (joinedComponents ctx)
      ctx.runtime.maxDecodeDepth) : nestingSignal ctx = [] := by
  rw [nestingSignal_eq_nil, mem_nestingSignal]
  tauto

/-- The nesting claim holds exactly when the components are three levels deep or stable
after as many passes as the depth allows. -/
theorem nestingReported_iff (ctx : InspectionContext) :
    NestingReported ctx ↔
      TriplyEncoded ctx
        ∨ ¬ BoundedFixpoint.Changes decodeOnce (joinedComponents ctx)
            ctx.runtime.maxDecodeDepth := by
  constructor
  · intro h
    by_cases hchanges : BoundedFixpoint.Changes decodeOnce (joinedComponents ctx)
        ctx.runtime.maxDecodeDepth
    · exact Or.inl (h.sound (mem_encodingSignals.mpr (mem_nestingSignal.mpr (Or.inr hchanges))))
    · exact Or.inr hchanges
  · intro hcond
    refine ⟨fun hmem => ?_, fun hdepth htriple => ?_, fun hsingle depth hle hfound => ?_⟩
    · rcases mem_nestingSignal.mp (mem_encodingSignals.mp hmem) with h | h
      · exact h.2
      · exact hcond.resolve_right (not_not.mpr h)
    · exact mem_encodingSignals.mpr (mem_nestingSignal.mpr (Or.inl ⟨hdepth, htriple⟩))
    · have hnot : ¬ TriplyEncoded ctx := fun htriple => hsingle.2 (htriple 1 (by decide))
      have hstable := hcond.resolve_left hnot
      have hlow : nestingSignal ctx = [] := nestingSignal_eq_nil_of_stable hnot hstable
      have hhigh : nestingSignal (withDepth ctx depth) = [] := by
        refine nestingSignal_eq_nil_of_stable hnot fun hchanges => hstable ?_
        exact BoundedFixpoint.changes_mono hle hchanges
      rwa [encodingObfuscation_withDepth (hlow.trans hhigh.symm)]

end

/-- A singly encoded blank is reported as triple encoding at depth zero. -/
theorem blank_misreported :
    ∃ ctx, parseInput Platform.ascii (text "https://example.com/a%20b") (depthRuntime 0)
        = .ok (some ctx) ∧ ¬ NestingReported ctx := by
  refine ⟨_, rfl, fun h => ?_⟩
  have htriple := h.sound (by decide +kernel)
  exact absurd (htriple 1 (by decide)) (by decide +kernel)

end Linklint
