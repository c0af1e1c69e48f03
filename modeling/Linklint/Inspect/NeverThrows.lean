import Linklint.Inspect

/-!
# When inspection returns

Intake guards every read it makes; normalization, `agentMode` and the two
configuration probes do not. Inspection returns exactly when those reads do.
-/

namespace Linklint

variable (P : Platform) (bodies : CheckBodies)

/-- The property can be read by this reader. -/
def CanRead (options : HostVal) (reader : Reader) (key : Text) : Prop :=
  ∃ value, options.read reader key = .ok value

/-- The property is a list that can be iterated, or is no list. -/
def CanReadList (options : HostVal) (key : Text) : Prop :=
  ∃ value, options.read .normalize key = .ok value ∧ ∃ items, value.elements = .ok items

/-- The two fields of every suppression rule object can be read. -/
def RulesReadable (options : HostVal) : Prop :=
  ∀ rules entries, options.read .normalize (text "suppressReasons") = .ok rules →
    rules.elements = .ok entries → ∀ rule ∈ entries, rule.isObject = true →
      CanRead rule .normalize (text "code") ∧ CanRead rule .normalize (text "host")

def SCALAR_KEYS : List Text := ["maxDecodeDepth", "idnPolicy", "denyNonStandardPorts"].map text

def LIST_KEYS : List Text :=
  ["idnAllowlist", "suppressReasons", "denyTlds", "allowTlds", "denyHosts", "allowHosts",
    "denySchemes", "allowSchemes", "denyPorts"].map text

/-- Everything normalization reads can be read. -/
structure NormalizeReadable (options : HostVal) : Prop where
  scalars : ∀ key ∈ SCALAR_KEYS, CanRead options .normalize key
  lists : ∀ key ∈ LIST_KEYS, CanReadList options key
  rules : RulesReadable options

/-- Everything that is read after the input has parsed can be read; a probe for policy stops at
the first key that is set. -/
structure LateReadable (options : HostVal) : Prop where
  agentMode : CanRead options .agentMode (text "agentMode")
  policy : ∀ before key after, POLICY_OPTION_KEYS = before ++ key :: after →
    (∀ k ∈ before, options.read .policyConfigured k = .ok .undefined) →
    CanRead options .policyConfigured key
  suppress : CanRead options .suppressConfigured (text "suppressReasons")

/-- The input parses under some configuration, hence under every one. -/
def Parses (input : Text) : Prop := ∃ runtime ctx, parseInput P input runtime = .ok (some ctx)

theorem normalizedList_returns_iff {α : Type} {values : HostVal} {normalize : HostVal → Option α}
    {blank : α → Bool} :
    (∃ list, normalizedList values normalize blank = .ok list)
      ↔ ∃ items, values.elements = .ok items := by
  simp [normalizedList, bind_returns_iff, pure, Except.pure]

theorem normalizeSuppressRule_returns_iff {rule : HostVal} :
    (∃ normalized, normalizeSuppressRule P rule = .ok normalized) ↔
      (rule.isObject = true →
        CanRead rule .normalize (text "code") ∧ CanRead rule .normalize (text "host")) := by
  unfold normalizeSuppressRule CanRead
  by_cases hobj : rule.isObject = true
  · rw [if_pos hobj]
    simp only [bind_returns_iff, hobj, true_implies]
    constructor
    · rintro ⟨code, hcode, host, hhost, -⟩
      exact ⟨⟨code, hcode⟩, host, hhost⟩
    · rintro ⟨⟨code, hcode⟩, host, hhost⟩
      refine ⟨code, hcode, host, hhost, ?_⟩
      cases code with
      | str s =>
          by_cases hblank : s.trim = []
          · exact ⟨none, if_pos hblank⟩
          · exact ⟨_, if_neg hblank⟩
      | _ => exact ⟨none, rfl⟩
  · rw [if_neg hobj]
    simp [hobj, pure, Except.pure]

theorem normalizeSuppressReasons_returns_iff {rules : HostVal} :
    (∃ normalized, normalizeSuppressReasons P rules = .ok normalized) ↔
      ∃ entries, rules.elements = .ok entries ∧ ∀ rule ∈ entries, rule.isObject = true →
        CanRead rule .normalize (text "code") ∧ CanRead rule .normalize (text "host") := by
  simp only [normalizeSuppressReasons, bind_returns_iff]
  constructor
  · rintro ⟨entries, hentries, normalized, hmap, -⟩
    refine ⟨entries, hentries, fun rule hrule => ?_⟩
    exact (normalizeSuppressRule_returns_iff P).mp (mapM_returns_iff.mp ⟨normalized, hmap⟩ rule hrule)
  · rintro ⟨entries, hentries, hrules⟩
    obtain ⟨normalized, hmap⟩ := mapM_returns_iff.mpr
      (fun rule hrule => (normalizeSuppressRule_returns_iff P).mpr (hrules rule hrule))
    exact ⟨entries, hentries, normalized, hmap, _, rfl⟩

theorem readList_returns_iff {α : Type} {options : HostVal} {key : Text}
    {normalize : HostVal → Option α} {blank : α → Bool} :
    (∃ value, options.read .normalize key = .ok value ∧
      ∃ list, normalizedList value normalize blank = .ok list) ↔ CanReadList options key := by
  simp only [normalizedList_returns_iff, CanReadList]

theorem normalizePolicyOptions_returns_iff {options : HostVal} :
    (∃ policy, normalizePolicyOptions P options = .ok policy) ↔
      CanReadList options (text "denyTlds") ∧ CanReadList options (text "allowTlds") ∧
      CanReadList options (text "denyHosts") ∧ CanReadList options (text "allowHosts") ∧
      CanReadList options (text "denySchemes") ∧ CanReadList options (text "allowSchemes") ∧
      CanReadList options (text "denyPorts") ∧
      CanRead options .normalize (text "denyNonStandardPorts") := by
  simp only [normalizePolicyOptions, bind_returns_iff]
  constructor
  · rintro ⟨v₁, h₁, l₁, n₁, v₂, h₂, l₂, n₂, v₃, h₃, l₃, n₃, v₄, h₄, l₄, n₄, v₅, h₅, l₅, n₅,
      v₆, h₆, l₆, n₆, v₇, h₇, l₇, n₇, v₈, h₈, -⟩
    exact ⟨readList_returns_iff.mp ⟨v₁, h₁, l₁, n₁⟩, readList_returns_iff.mp ⟨v₂, h₂, l₂, n₂⟩,
      readList_returns_iff.mp ⟨v₃, h₃, l₃, n₃⟩, readList_returns_iff.mp ⟨v₄, h₄, l₄, n₄⟩,
      readList_returns_iff.mp ⟨v₅, h₅, l₅, n₅⟩, readList_returns_iff.mp ⟨v₆, h₆, l₆, n₆⟩,
      readList_returns_iff.mp ⟨v₇, h₇, l₇, n₇⟩, v₈, h₈⟩
  · rintro ⟨r₁, r₂, r₃, r₄, r₅, r₆, r₇, v₈, h₈⟩
    obtain ⟨v₁, h₁, l₁, n₁⟩ := readList_returns_iff.mpr r₁
    obtain ⟨v₂, h₂, l₂, n₂⟩ := readList_returns_iff.mpr r₂
    obtain ⟨v₃, h₃, l₃, n₃⟩ := readList_returns_iff.mpr r₃
    obtain ⟨v₄, h₄, l₄, n₄⟩ := readList_returns_iff.mpr r₄
    obtain ⟨v₅, h₅, l₅, n₅⟩ := readList_returns_iff.mpr r₅
    obtain ⟨v₆, h₆, l₆, n₆⟩ := readList_returns_iff.mpr r₆
    obtain ⟨v₇, h₇, l₇, n₇⟩ := readList_returns_iff.mpr r₇
    exact ⟨v₁, h₁, l₁, n₁, v₂, h₂, l₂, n₂, v₃, h₃, l₃, n₃, v₄, h₄, l₄, n₄, v₅, h₅, l₅, n₅,
      v₆, h₆, l₆, n₆, v₇, h₇, l₇, n₇, v₈, h₈, _, rfl⟩

theorem normalizeOptions_returns_iff {options : HostVal} :
    (∃ runtime, normalizeOptions P options = .ok runtime) ↔ NormalizeReadable options := by
  simp only [normalizeOptions, bind_returns_iff]
  constructor
  · rintro ⟨raw, hraw, idn, hidn, list, hlist, norm, hnorm, rules, hrules, sup, hsup, policy, hpolicy, -⟩
    obtain ⟨r₁, r₂, r₃, r₄, r₅, r₆, r₇, r₈⟩ :=
      (normalizePolicyOptions_returns_iff P).mp ⟨policy, hpolicy⟩
    obtain ⟨entries, hentries, hfields⟩ := (normalizeSuppressReasons_returns_iff P).mp ⟨sup, hsup⟩
    refine ⟨?_, ?_, ?_⟩
    · simp only [SCALAR_KEYS, List.map_cons, List.map_nil, List.forall_mem_cons]
      exact ⟨⟨raw, hraw⟩, ⟨idn, hidn⟩, r₈, by simp⟩
    · simp only [LIST_KEYS, List.map_cons, List.map_nil, List.forall_mem_cons]
      exact ⟨readList_returns_iff.mp ⟨list, hlist, norm, hnorm⟩, ⟨rules, hrules, entries, hentries⟩,
        r₁, r₂, r₃, r₄, r₅, r₆, r₇, by simp⟩
    · intro rules' entries' hrules' hentries'
      rw [hrules] at hrules'
      cases hrules'
      rw [hentries] at hentries'
      cases hentries'
      exact hfields
  · rintro ⟨hscalars, hlists, hrules⟩
    simp only [SCALAR_KEYS, List.map_cons, List.map_nil, List.forall_mem_cons] at hscalars
    simp only [LIST_KEYS, List.map_cons, List.map_nil, List.forall_mem_cons] at hlists
    obtain ⟨⟨raw, hraw⟩, ⟨idn, hidn⟩, r₈, -⟩ := hscalars
    obtain ⟨hlist, ⟨rules, hread, entries, hentries⟩, r₁, r₂, r₃, r₄, r₅, r₆, r₇, -⟩ := hlists
    obtain ⟨list, hlist, items, hitems⟩ := hlist
    obtain ⟨norm, hnorm⟩ : ∃ norm, normalizedList list (normalizeIdnEntry P) (· = []) = .ok norm :=
      normalizedList_returns_iff.mpr ⟨items, hitems⟩
    obtain ⟨sup, hsup⟩ := (normalizeSuppressReasons_returns_iff P).mpr
      ⟨entries, hentries, hrules rules entries hread hentries⟩
    obtain ⟨policy, hpolicy⟩ := (normalizePolicyOptions_returns_iff P).mpr
      ⟨r₁, r₂, r₃, r₄, r₅, r₆, r₇, r₈⟩
    exact ⟨raw, hraw, idn, hidn, list, hlist, norm, hnorm, rules, hread, sup, hsup, policy, hpolicy,
      _, rfl⟩

/-- The probe returns when every key up to the first one that is set can be read. -/
theorem anyConfigured_returns_iff {options : HostVal} (keys : List Text) :
    (∃ on, anyConfigured options keys = .ok on) ↔
      ∀ before key after, keys = before ++ key :: after →
        (∀ k ∈ before, options.read .policyConfigured k = .ok .undefined) →
        CanRead options .policyConfigured key := by
  induction keys with
  | nil =>
      refine ⟨fun _ before key after h => ?_, fun _ => ⟨false, rfl⟩⟩
      simp at h
  | cons key rest ih =>
      rw [anyConfigured, bind_returns_iff]
      constructor
      · rintro ⟨value, hvalue, hrest⟩ before key' after hsplit hbefore
        cases before with
        | nil =>
            cases hsplit
            exact ⟨value, hvalue⟩
        | cons k before =>
            cases hsplit
            obtain ⟨hk, hbefore⟩ := List.forall_mem_cons.mp hbefore
            rw [hvalue] at hk
            cases hk
            exact ih.mp hrest before key' after rfl hbefore
      · intro h
        obtain ⟨value, hvalue⟩ := h [] key rest rfl (by simp)
        refine ⟨value, hvalue, ?_⟩
        by_cases hund : value.isUndefined = true
        · rw [if_pos hund]
          refine ih.mpr fun before key' after hsplit hbefore => ?_
          have hvalue' : options.read .policyConfigured key = .ok .undefined := by
            cases value <;> first | exact hvalue | cases hund
          exact h (key :: before) key' after (by rw [hsplit]; rfl)
            (List.forall_mem_cons.mpr ⟨hvalue', hbefore⟩)
        · rw [if_neg hund]
          exact ⟨true, rfl⟩

theorem readLateOptions_returns_iff {options : HostVal} :
    (∃ late, readLateOptions options = .ok late) ↔ LateReadable options := by
  simp only [readLateOptions, policyConfigured, suppressConfigured, bind_returns_iff]
  constructor
  · rintro ⟨agent, hagent, on, hon, _, ⟨⟩⟩
    rename_i hsuppress _
    obtain ⟨value, hvalue, -⟩ := bind_eq_ok.mp hsuppress
    exact ⟨⟨agent, hagent⟩, (anyConfigured_returns_iff _).mp ⟨on, hon⟩, value, hvalue⟩
  · rintro ⟨⟨agent, hagent⟩, hpolicy, value, hvalue⟩
    obtain ⟨on, hon⟩ := (anyConfigured_returns_iff _).mpr hpolicy
    refine ⟨agent, hagent, on, hon, !value.isUndefined, ?_, _, rfl⟩
    rw [hvalue]
    rfl

theorem parses_iff {input : Text} (runtime : RuntimeConfig) :
    Parses P input ↔ ∃ ctx, parseInput P input runtime = .ok (some ctx) := by
  constructor
  · rintro ⟨runtime', ctx, h⟩
    rw [parseInput_withRuntime P input runtime', h]
    exact ⟨_, rfl⟩
  · rintro ⟨ctx, h⟩
    exact ⟨runtime, ctx, h⟩

theorem inspectString_returns_iff {input : Text} {intake : OptionIntake} :
    (∃ result, inspectString P bodies input intake = .ok result) ↔
      NormalizeReadable intake.options ∧ (Parses P input → LateReadable intake.options) := by
  rw [inspectString, bind_returns_iff, ← normalizeOptions_returns_iff P, ← readLateOptions_returns_iff]
  constructor
  · rintro ⟨runtime, hruntime, result, hresult⟩
    refine ⟨⟨runtime, hruntime⟩, fun hparses => ?_⟩
    obtain ⟨ctx, hctx⟩ := (parses_iff P runtime).mp hparses
    rw [hctx] at hresult
    obtain ⟨late, hlate, -⟩ := bind_eq_ok.mp hresult
    exact ⟨late, hlate⟩
  · rintro ⟨⟨runtime, hruntime⟩, hlate⟩
    refine ⟨runtime, hruntime, ?_⟩
    cases hp : parseInput P input runtime with
    | error e => exact ⟨_, rfl⟩
    | ok parsed =>
        cases parsed with
        | none => exact ⟨_, rfl⟩
        | some ctx =>
            obtain ⟨late, hlate⟩ := hlate ⟨runtime, ctx, hp⟩
            simp only [hlate, bind, Except.bind]
            exact ⟨_, rfl⟩

/-- The options argument is replaced, or every unguarded read of it for this text succeeds. -/
def Inspectable (rawOptions : HostVal) (s : Text) : Prop :=
  OptionsUnusable (optionsArgument rawOptions) ∨
    (NormalizeReadable (optionsArgument rawOptions) ∧
      (Parses P s → LateReadable (optionsArgument rawOptions)))

theorem inspectText_returns_iff (s : Text) (rawOptions : HostVal) :
    (∃ result, inspect P bodies (.string s) rawOptions = .ok result) ↔ Inspectable P rawOptions s := by
  simp only [inspect, inspectString_returns_iff, Inspectable]
  by_cases hun : OptionsUnusable (optionsArgument rawOptions)
  · rw [intakeOptions_of_unusable hun]
    have hnorm := (normalizeOptions_returns_iff P).mp ⟨_, (ReadableOptions.empty P).normalize_eq⟩
    have hlate := readLateOptions_returns_iff.mp ⟨_, (ReadableOptions.empty P).late_eq⟩
    exact ⟨fun _ => Or.inl hun, fun _ => ⟨hnorm, fun _ => hlate⟩⟩
  · rw [intakeOptions_options hun]
    exact ⟨Or.inr, fun h => h.resolve_left hun⟩

/-- Inspection returns exactly when the input is no string, the options are unusable, or the
unguarded option reads of the run all succeed. -/
theorem inspect_returns_iff (input : InputVal) (rawOptions : HostVal) :
    (∃ result, inspect P bodies input rawOptions = .ok result) ↔
      match input with
      | .nonString _ _ => True
      | .string s =>
          OptionsUnusable (optionsArgument rawOptions) ∨
            (NormalizeReadable (optionsArgument rawOptions) ∧
              (Parses P s → LateReadable (optionsArgument rawOptions))) := by
  cases input with
  | nonString typeName asString => simp [inspect]
  | string s => exact inspectText_returns_iff P bodies s rawOptions

/-- An options object whose `denyTlds` accessor throws. -/
def throwingDenyTlds : HostVal :=
  .object (.ok none) (.ok [text "denyTlds"])
    (fun _ key => if key = text "denyTlds" then .error .thrown else .ok .undefined)

/-- A throwing accessor on a recognized key escapes. -/
theorem inspect_throws_denyTlds :
    inspect .ascii .silent (.string (text "http://example.com/")) throwingDenyTlds
      = .error .thrown := rfl

end Linklint
