import Linklint.Inspect

/-!
# Failed structural scans

When a scan throws, the skip list should say so. It does on a parsed input and
on an input without any finding; on an unparsed input with a finding neither the
scan nor the lexical layer is named.
-/

namespace Linklint

variable (P : Platform) (bodies : CheckBodies)

/-- The scans that throw on the input. -/
def failedScans (input : Text) (runtime : RuntimeConfig) : List CheckDescriptor :=
  (runScans bodies input runtime).2

/-- Every failed scan is named, or the whole layer is. -/
def FailuresVisible (result : InspectResult) (failed : List CheckDescriptor) : Prop :=
  (∀ scan ∈ failed, lexicalToken scan.id ∈ result.checksSkipped) ∨ LEXICAL ∈ result.checksSkipped

instance (result : InspectResult) (failed : List CheckDescriptor) :
    Decidable (FailuresVisible result failed) :=
  inferInstanceAs (Decidable (_ ∨ _))

theorem lexicalToken_ne_of_bare {token id : Text} (h : unit ':' ∉ token) : lexicalToken id ≠ token := by
  intro heq
  exact h (heq ▸ colon_mem_namespacedToken LEXICAL id)

theorem intakeToken_ne_lexicalToken {rawOptions : HostVal} {token : Text}
    (h : token ∈ intakeTokens rawOptions) (id : Text) : token ≠ lexicalToken id := by
  intro heq
  rcases mem_intake_skipped h with hbare | ⟨key, hkey⟩
  · exact lexicalToken_ne_of_bare (by decide) (heq.symm.trans hbare)
  · rw [hkey, lexicalToken, namespacedToken_inj (by decide) (by decide)] at heq
    exact absurd heq.1 (by decide)

theorem intakeToken_ne_bare {rawOptions : HostVal} {token bare : Text}
    (h : token ∈ intakeTokens rawOptions) (hcolon : unit ':' ∉ bare)
    (hne : UNUSABLE_OPTIONS_TOKEN ≠ bare) : token ≠ bare := by
  rintro rfl
  rcases mem_intake_skipped h with hbare | ⟨key, hkey⟩
  · exact hne hbare.symm
  · exact hcolon (hkey ▸ colon_mem_namespacedToken _ key)

/-- A parsed input names every failed scan. -/
theorem failuresVisible_of_parsed {input : Text} {optionSkipped : List Text}
    {runtime : RuntimeConfig} {late : LateOptions} {ctx : InspectionContext}
    (h : parseInput P input runtime = .ok (some ctx)) :
    FailuresVisible (inspectedResult P bodies input optionSkipped runtime late)
      (failedScans bodies input runtime) := by
  rw [inspectedResult_of_parsed P bodies h]
  left
  intro scan hscan
  simp only [inspectParsed, buildOkResult, List.mem_append, List.mem_map]
  exact Or.inl (Or.inl (Or.inl (Or.inr ⟨scan, hscan, rfl⟩)))

/-- An unparsed input is visible exactly when no scan found anything. -/
theorem failuresVisible_of_unparsed {input : Text} {rawOptions : HostVal}
    {runtime : RuntimeConfig} {late : LateOptions}
    (h : ¬ ∃ ctx, parseInput P input runtime = .ok (some ctx))
    (hfail : failedScans bodies input runtime ≠ []) :
    FailuresVisible (inspectedResult P bodies input (intakeTokens rawOptions) runtime late)
        (failedScans bodies input runtime)
      ↔ (runScans bodies input runtime).1 = [] := by
  obtain ⟨detail, heq⟩ : ∃ detail,
      inspectedResult P bodies input (intakeTokens rawOptions) runtime late
        = buildInvalidResult P input (runScans bodies input runtime).1 detail
          (intakeTokens rawOptions) := inspectedResult_of_unparsed P bodies h
  rw [heq]
  constructor
  · intro hvisible
    by_contra hfindings
    have hskipped : (buildInvalidResult P input (runScans bodies input runtime).1 detail
        (intakeTokens rawOptions)).checksSkipped
          = intakeTokens rawOptions ++ [RESOLUTION, REPUTATION] := by
      simp [buildInvalidResult, hfindings]
    rw [FailuresVisible, hskipped] at hvisible
    rcases hvisible with hnamed | hlayer
    · obtain ⟨scan, hscan⟩ := List.exists_mem_of_ne_nil _ hfail
      have hmem := hnamed scan hscan
      simp only [List.mem_append, List.mem_cons, List.not_mem_nil, or_false] at hmem
      rcases hmem with hmem | hmem | hmem
      · exact intakeToken_ne_lexicalToken hmem scan.id rfl
      · exact lexicalToken_ne_of_bare (by decide) hmem
      · exact lexicalToken_ne_of_bare (by decide) hmem
    · simp only [List.mem_append, List.mem_cons, List.not_mem_nil, or_false] at hlayer
      rcases hlayer with hmem | hmem | hmem
      · exact intakeToken_ne_bare hmem (by decide) (by decide) rfl
      · exact absurd hmem (by decide)
      · exact absurd hmem (by decide)
  · intro hfindings
    right
    simp [buildInvalidResult, hfindings]

/-- Inspection returns, and a failed scan stays visible exactly when the input
parses or no scan found anything. -/
theorem failedScans_visible_iff {rawOptions : HostVal}
    (opts : ReadableOptions P (effectiveOptions rawOptions)) (input : Text)
    (hfail : failedScans bodies input opts.runtime ≠ []) :
    ∃ result, inspect P bodies (.string input) rawOptions = .ok result ∧
      (FailuresVisible result (failedScans bodies input opts.runtime) ↔
        (∃ ctx, parseInput P input opts.runtime = .ok (some ctx))
          ∨ (runScans bodies input opts.runtime).1 = []) := by
  refine ⟨_, inspect_of_readable P bodies input opts, ?_⟩
  by_cases hparsed : ∃ ctx, parseInput P input opts.runtime = .ok (some ctx)
  · obtain ⟨ctx, hctx⟩ := hparsed
    have hvisible : FailuresVisible
        (inspectedResult P bodies input (intakeTokens rawOptions) opts.runtime opts.late)
        (failedScans bodies input opts.runtime) := failuresVisible_of_parsed P bodies hctx
    exact ⟨fun _ => Or.inl ⟨ctx, hctx⟩, fun _ => hvisible⟩
  · rw [failuresVisible_of_unparsed P bodies hparsed hfail]
    exact ⟨Or.inr, fun h => h.resolve_left hparsed⟩

/-- One scan throws; `ambiguous_authority` reports what it reports on a backslash authority. -/
def oneScanThrows : CheckBodies where
  scan c _ :=
    if c.id = text "separator_lookalike" then .error .thrown
    else if c.id = text "ambiguous_authority" then
      .ok [{ code := .ambiguousAuthority, detail := text "backslash authority" }]
    else .ok []
  detector _ _ := .ok []
  axis _ _ := .ok []

theorem failedScans_visible_iff_backslash :
    ∃ result, inspect .ascii oneScanThrows (.string (text "http:\\\\evil.com/")) .undefined = .ok result ∧
      (FailuresVisible result
          (failedScans oneScanThrows (text "http:\\\\evil.com/") (ReadableOptions.empty .ascii).runtime) ↔
        (∃ ctx, parseInput .ascii (text "http:\\\\evil.com/") (ReadableOptions.empty .ascii).runtime
            = .ok (some ctx))
          ∨ (runScans oneScanThrows (text "http:\\\\evil.com/")
              (ReadableOptions.empty .ascii).runtime).1 = []) :=
  failedScans_visible_iff .ascii oneScanThrows (ReadableOptions.empty .ascii) _ (by decide)

/-- `http:\\evil.com/` does not parse and has a finding: the failed scan is nowhere named. -/
theorem failedScan_invisible :
    ∃ result, inspect .ascii oneScanThrows (.string (text "http:\\\\evil.com/")) .undefined = .ok result ∧
      failedScans oneScanThrows (text "http:\\\\evil.com/") (ReadableOptions.empty .ascii).runtime ≠ [] ∧
      ¬ FailuresVisible result
          (failedScans oneScanThrows (text "http:\\\\evil.com/") (ReadableOptions.empty .ascii).runtime) := by
  refine ⟨_, inspect_of_readable .ascii oneScanThrows _ (ReadableOptions.empty .ascii), ?_, ?_⟩
  · decide
  · decide

end Linklint
