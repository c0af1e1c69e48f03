import Linklint.Cli.Run
import Linklint.Inspect.AgentMode
import Linklint.Inspect.NeverThrows
import Linklint.Lib.KeyedIndex

/-!
# What a run of the command line does

Every run ends with an exit code of its own. The URLs may come from a file, the
standard input or the arguments alike, and stricter flags never turn a failing
run into a passing one.
-/

namespace Linklint

namespace Cli

/-! ### Options of the command line are plain data -/

/-- The value can be read to the end. -/
def PlainValue (value : HostVal) : Prop := ∃ items, value.elements = .ok items

theorem plainValue_list (items : List HostVal) : PlainValue (.list items) := by
  refine ⟨items, ?_⟩
  have hmap : (items.map .ok : List (Except Thrown HostVal)).mapM id = .ok items := by
    rw [mapM_eq_ok_iff, List.forall₂_map_left_iff]
    exact List.forall₂_same.mpr fun _ _ => rfl
  exact hmap

/-- Plain data under recognized keys, with no suppression among them. -/
structure PlainFields (fields : List (Text × HostVal)) : Prop where
  values : ∀ field ∈ fields, PlainValue field.2
  keys : ∀ field ∈ fields, field.1 ∈ RECOGNIZED_OPTION_KEYS ∧ field.1 ≠ text "suppressReasons"

section
variable {fields : List (Text × HostVal)}

theorem PlainFields.read (h : PlainFields fields) (reader : Reader) (key : Text) :
    ∃ value, (HostVal.plain fields).read reader key = .ok value ∧ PlainValue value := by
  refine ⟨_, rfl, ?_⟩
  cases hlookup : fields.lookup key with
  | none => exact ⟨[], rfl⟩
  | some value => exact h.values _ (KeyedIndex.mem_of_lookup hlookup)

theorem PlainFields.canRead (h : PlainFields fields) (reader : Reader) (key : Text) :
    CanRead (.plain fields) reader key := by
  obtain ⟨value, hvalue, -⟩ := h.read reader key
  exact ⟨value, hvalue⟩

theorem PlainFields.canReadList (h : PlainFields fields) (key : Text) :
    CanReadList (.plain fields) key := by
  obtain ⟨value, hvalue, items, hitems⟩ := h.read .normalize key
  exact ⟨value, hvalue, items, hitems⟩

theorem PlainFields.no_rules (h : PlainFields fields) : RulesReadable (.plain fields) := by
  intro rules entries hrules hentries
  have hnone : fields.lookup (text "suppressReasons") = none := by
    cases hlookup : fields.lookup (text "suppressReasons") with
    | none => rfl
    | some value => exact absurd rfl (h.keys _ (KeyedIndex.mem_of_lookup hlookup)).2
  have hundefined : (HostVal.plain fields).read .normalize (text "suppressReasons")
      = .ok .undefined := by
    simp [HostVal.plain, HostVal.read, hnone]
  rw [hundefined] at hrules
  cases hrules
  cases hentries
  exact fun rule hrule => absurd hrule List.not_mem_nil

theorem PlainFields.inspectable (P : Platform) (h : PlainFields fields) (url : Text) :
    Inspectable P (.plain fields) url := by
  right
  constructor
  · exact ⟨fun key _ => h.canRead _ key, fun key _ => h.canReadList key, h.no_rules⟩
  · intro _
    exact ⟨h.canRead _ _, fun _ key _ _ _ => h.canRead _ key, h.canRead _ _⟩

/-- No key of the options is dropped at intake. -/
theorem PlainFields.intake (h : PlainFields fields) :
    intakeOptions (.plain fields) = ⟨.plain fields, []⟩ := by
  have hdropped : (fields.map Prod.fst).filter (isDroppedKey (.plain fields)) = [] := by
    rw [List.filter_eq_nil_iff]
    intro key hkey
    obtain ⟨field, hfield, rfl⟩ := List.mem_map.mp hkey
    simp [isDroppedKey, (h.keys field hfield).1]
  simp only [intakeOptions, HostVal.plain, HostVal.isObject, HostVal.ownKeys, if_true]
  rw [← HostVal.plain, hdropped]
  rfl

end

theorem plain_append {fields fields' : List (Text × HostVal)} (h : PlainFields fields)
    (h' : PlainFields fields') : PlainFields (fields ++ fields') where
  values := List.forall_mem_append.mpr ⟨h.values, h'.values⟩
  keys := List.forall_mem_append.mpr ⟨h.keys, h'.keys⟩

theorem plain_optionField (on : Bool) {key : String} {value : HostVal}
    (hkey : text key ∈ RECOGNIZED_OPTION_KEYS ∧ text key ≠ text "suppressReasons")
    (hvalue : PlainValue value) : PlainFields (optionField on key value) := by
  unfold optionField
  split
  · exact ⟨by simpa using hvalue, by simpa using hkey⟩
  · exact ⟨by simp, by simp⟩

theorem plain_optionFields (options : CheckOptions) : PlainFields (optionFields options) := by
  have hscalar : ∀ value : HostVal, value.elements = .ok [] → PlainValue value :=
    fun _ h => ⟨[], h⟩
  unfold optionFields listField
  repeat' apply plain_append
  all_goals first
    | exact plain_optionField _ (by decide) (hscalar _ rfl)
    | exact plain_optionField _ (by decide) (plainValue_list _)

section
variable (world : CliWorld)

/-- Every URL of the command line gets a result. -/
theorem inspectUrl_returns (options : CheckOptions) (url : Text) :
    ∃ result, inspectUrl world options url = .ok result :=
  (inspectText_returns_iff world.platform world.bodies url (inspectOptions options)).mpr
    ((plain_optionFields options).inspectable world.platform url)

theorem runInspections_returns (urls : List Text) (options : CheckOptions) :
    ∃ results, List.Forall₂ (fun url result => inspectUrl world options url = .ok result) urls results ∧
      runInspections world urls options =
        .ok { out := output world options results, err := []
              code := resolveExitCode results options.exitPolicy } := by
  obtain ⟨results, hresults⟩ := mapM_returns_iff.mpr
    (fun url (_ : url ∈ urls) => inspectUrl_returns world options url)
  refine ⟨results, mapM_eq_ok_iff.mp hresults, ?_⟩
  rw [runInspections, hresults]
  rfl

/-! ### How a run ends -/

/-- The options of an invocation that inspects. -/
def ParsedCli.options : ParsedCli → Option CheckOptions
  | .check _ _ options => some options
  | .batch _ options => some options
  | _ => none

/-- How the run of an argument list ends. -/
inductive Ended (argv : List Text) : RunResult → Prop
  | refused {error : UsageError} (hparse : parseCli argv = .error error) :
      Ended argv (usageResult world [text "error: " ++ errorMessage world error])
  | unreadable {cli : ParsedCli} {messages : List Text} (hparse : parseCli argv = .ok cli)
      (hurls : urlsOf world cli = .error messages) : Ended argv (usageResult world messages)
  | help (hparse : parseCli argv = .ok .help) : Ended argv ⟨[world.USAGE], [], 0⟩
  | version (hparse : parseCli argv = .ok .version) : Ended argv ⟨[world.CLI_VERSION], [], 0⟩
  | inspected {cli : ParsedCli} {options : CheckOptions} {urls : List Text}
      {results : List InspectResult} (hparse : parseCli argv = .ok cli)
      (hoptions : cli.options = some options) (hurls : urlsOf world cli = .ok urls)
      (hresults : List.Forall₂ (fun url result => inspectUrl world options url = .ok result) urls
        results) :
      Ended argv ⟨output world options results, [],
        if results.any (failsRun options.exitPolicy) then 1 else 0⟩

theorem runCli_inspects {cli : ParsedCli} {options : CheckOptions}
    (hoptions : cli.options = some options) :
    runCli world cli =
      match urlsOf world cli with
      | .error messages => .ok (usageResult world messages)
      | .ok urls => runInspections world urls options := by
  cases cli with
  | help => cases hoptions
  | version => cases hoptions
  | check urls stdin options' =>
      cases hoptions
      rfl
  | batch file options' =>
      cases hoptions
      rfl

theorem runCli_ended {argv : List Text} {cli : ParsedCli} (hparse : parseCli argv = .ok cli) :
    ∃ r, runCli world cli = .ok r ∧ Ended world argv r := by
  cases hoptions : cli.options with
  | none =>
      cases cli with
      | help => exact ⟨_, rfl, .help hparse⟩
      | version => exact ⟨_, rfl, .version hparse⟩
      | check urls stdin options => cases hoptions
      | batch file options => cases hoptions
  | some options =>
      rw [runCli_inspects world hoptions]
      cases hurls : urlsOf world cli with
      | error messages => exact ⟨_, rfl, .unreadable hparse hurls⟩
      | ok urls =>
          obtain ⟨results, hresults, hrun⟩ := runInspections_returns world urls options
          rw [resolveExitCode_eq] at hrun
          exact ⟨_, hrun, .inspected hparse hoptions hurls hresults⟩

theorem run_ended (argv : List Text) : ∃ r, run world argv = .ok r ∧ Ended world argv r := by
  unfold run
  cases hparse : parseCli argv with
  | error error => exact ⟨_, rfl, .refused hparse⟩
  | ok cli => exact runCli_ended world hparse

/-- Exit code two is a usage error: nothing was inspected, nothing written to the output. -/
theorem Ended.usage {argv : List Text} {r : RunResult} (h : Ended world argv r) :
    r.code ≤ 2 ∧ (r.code = 2 ↔ r.err ≠ []) ∧ (r.code = 2 → r.out = []) := by
  cases h with
  | refused hparse => simp [usageResult]
  | unreadable hparse hurls => simp [usageResult]
  | help hparse => simp
  | version hparse => simp
  | @inspected _ options _ results _ _ _ _ =>
      cases results.any (failsRun options.exitPolicy) <;> simp

/-- What a file, the standard input and the arguments say alike is run alike. -/
theorem run_from_lines {lines : List FileLine} (hlines : ∀ line ∈ lines, line.Valid)
    {urls : List Text} (hurls : lines.flatMap FileLine.urls = urls) (hne : urls ≠ [])
    (hdash : urls ≠ [text "-"]) {options : CheckOptions} (hoptions : options.Valid) :
    (∀ file, file ≠ [] → world.readFile file = .ok (fileText lines) →
      run world (renderCli (.batch file options)) = run world (renderCli (.check urls false options))) ∧
    (world.stdinIsTTY = false → world.readStdin = .ok (fileText lines) →
      run world (renderCli (.check [] true options)) =
        run world (renderCli (.check urls false options))) := by
  have hargs : run world (renderCli (.check urls false options)) = runInspections world urls options := by
    have hvalid : (ParsedCli.check urls false options).Valid :=
      ⟨hoptions, (fun h => by cases h), fun _ => ⟨hne, hdash⟩⟩
    simp only [run, parseCli_renderCli_of_valid hvalid, runCli, urlsOf]
    rfl
  rw [hargs, ← hurls, ← parseUrlLines_fileText hlines]
  constructor
  · intro file hfile hread
    have hvalid : (ParsedCli.batch file options).Valid := ⟨hoptions, hfile⟩
    simp only [run, parseCli_renderCli_of_valid hvalid, runCli, urlsOf, hread]
  · intro htty hread
    have hvalid : (ParsedCli.check [] true options).Valid :=
      ⟨hoptions, fun _ => rfl, (fun h => by cases h)⟩
    simp [run, parseCli_renderCli_of_valid hvalid, runCli, urlsOf, hread, htty]

/-- The second options ask for no less than the first: a lower threshold, no more tolerance of
invalid URLs, agent mode wherever it was on; the output flags are free. -/
structure Stricter (lenient strict : CheckOptions) : Prop where
  failOn : severityRank strict.failOn ≤ severityRank lenient.failOn
  allowInvalid : strict.allowInvalid = true → lenient.allowInvalid = true
  agent : lenient.agent = true → strict.agent = true
  rest : { strict with
    json := lenient.json, offline := lenient.offline, failOn := lenient.failOn
    allowInvalid := lenient.allowInvalid, quiet := lenient.quiet, noColor := lenient.noColor
    agent := lenient.agent } = lenient

/-- The fields both options share. -/
def commonFields (options : CheckOptions) : List (Text × HostVal) :=
  optionFields { options with agent := false }

theorem optionFields_agent (options : CheckOptions) :
    optionFields options = optionField options.agent "agentMode" (.bool true) ++ commonFields options := by
  simp [commonFields, optionFields, optionField]

theorem Stricter.common {lenient strict : CheckOptions} (h : Stricter lenient strict) :
    commonFields strict = commonFields lenient := by
  rw [← h.rest]
  rfl

theorem optionField_key {on : Bool} {key : String} {value : HostVal} :
    ∀ field ∈ optionField on key value, field.1 = text key := by
  unfold optionField
  split <;> simp

theorem commonFields_no_agent (options : CheckOptions) :
    (commonFields options).lookup (text "agentMode") = none := by
  have hkeys : ∀ field ∈ commonFields options, field.1 ≠ text "agentMode" := by
    have hother : ∀ (on : Bool) (key : String) (value : HostVal), text key ≠ text "agentMode" →
        ∀ field ∈ optionField on key value, field.1 ≠ text "agentMode" := by
      intro on key value hkey field hfield
      rw [optionField_key field hfield]
      exact hkey
    simp only [commonFields, optionFields, listField, List.forall_mem_append]
    repeat' apply And.intro
    all_goals first
      | exact hother _ _ _ (by decide)
      | simp [optionField]
  cases hlookup : (commonFields options).lookup (text "agentMode") with
  | none => rfl
  | some value => exact absurd rfl (hkeys _ (KeyedIndex.mem_of_lookup hlookup))

theorem inspectUrl_eq (options : CheckOptions) (url : Text) :
    inspectUrl world options url =
      inspectString world.platform world.bodies url ⟨inspectOptions options, []⟩ := by
  have hintake := (plain_optionFields options).intake
  simp only [inspectUrl, inspect, inspectOptions]
  rw [show optionsArgument (.plain (optionFields options)) = .plain (optionFields options) from rfl,
    hintake]

/-- The agent flag alone sets the options of two runs apart. -/
theorem inspectOptions_agent {lenient strict : CheckOptions} (h : Stricter lenient strict)
    (hlenient : lenient.agent = false) (hstrict : strict.agent = true) :
    SameReads (inspectOptions lenient) (inspectOptions strict) ∧
      (inspectOptions lenient).read .agentMode (text "agentMode") = .ok .undefined ∧
      (inspectOptions strict).read .agentMode (text "agentMode") = .ok (.bool true) := by
  have hl : inspectOptions lenient = .plain (commonFields lenient) := by
    rw [inspectOptions, optionFields_agent, hlenient]
    rfl
  have hs : inspectOptions strict =
      .plain ((text "agentMode", .bool true) :: commonFields lenient) := by
    rw [inspectOptions, optionFields_agent, hstrict, h.common]
    rfl
  rw [hl, hs]
  refine ⟨⟨fun reader key hkey => ?_⟩, ?_, ?_⟩
  · simp [HostVal.plain, HostVal.read, List.lookup_cons, beq_eq_false_iff_ne.mpr hkey]
  · simp [HostVal.plain, HostVal.read, commonFields_no_agent]
  · simp [HostVal.plain, HostVal.read]

theorem failsRun_mono {policy policy' : ExitPolicyOptions}
    (hfailOn : severityRank policy'.failOn ≤ severityRank policy.failOn)
    (hinvalid : policy'.allowInvalid = true → policy.allowInvalid = true)
    {result result' : InspectResult} (hstatus : result'.status = result.status)
    (hseverity : ∀ severity, result.severity = some severity → ∃ severity',
      result'.severity = some severity' ∧ severityRank severity ≤ severityRank severity')
    (h : failsRun policy result = true) : failsRun policy' result' = true := by
  unfold failsRun at h ⊢
  rw [hstatus]
  cases hs : result.status with
  | invalid =>
      simp only [hs] at h ⊢
      cases hallow : policy'.allowInvalid with
      | false => rfl
      | true =>
          rw [hinvalid hallow] at h
          cases h
  | ok =>
      simp only [hs] at h ⊢
      cases hsev : result.severity with
      | none => simp [hsev] at h
      | some severity =>
          obtain ⟨severity', hsev', hrank⟩ := hseverity severity hsev
          simp only [hsev, hsev', decide_eq_true_eq] at h ⊢
          omega

/-- A URL that fails the run under the lenient flags fails it under the strict ones. -/
theorem Stricter.fails {lenient strict : CheckOptions} (h : Stricter lenient strict) {url : Text}
    {result result' : InspectResult} (hresult : inspectUrl world lenient url = .ok result)
    (hresult' : inspectUrl world strict url = .ok result')
    (hfails : failsRun lenient.exitPolicy result = true) :
    failsRun strict.exitPolicy result' = true := by
  by_cases hagent : lenient.agent = strict.agent
  · have hsame : inspectOptions strict = inspectOptions lenient := by
      rw [inspectOptions, inspectOptions, optionFields_agent, optionFields_agent lenient, hagent,
        h.common]
    rw [inspectUrl, hsame, ← inspectUrl, hresult] at hresult'
    cases hresult'
    exact failsRun_mono h.failOn h.allowInvalid rfl (fun s hs => ⟨s, hs, le_refl _⟩) hfails
  · have hlenient : lenient.agent = false := by
      cases hl : lenient.agent with
      | false => rfl
      | true => exact absurd (hl.trans (h.agent hl).symm) hagent
    have hstrict : strict.agent = true := by
      cases hs : strict.agent with
      | true => rfl
      | false => exact absurd (hlenient.trans hs.symm) hagent
    obtain ⟨hreads, hl, hs⟩ := inspectOptions_agent h hlenient hstrict
    rw [inspectUrl_eq] at hresult hresult'
    rcases inspectString_agent world.platform world.bodies url [] hreads hl rfl hs rfl with
      ⟨hthrown, -⟩ | ⟨off, on, hoff, hon, hruns⟩
    · rw [hthrown] at hresult
      cases hresult
    · rw [hresult] at hoff
      rw [hresult'] at hon
      cases hoff
      cases hon
      cases hstatus : result.status with
      | invalid =>
          rw [hruns.unparsed hstatus]
          exact failsRun_mono h.failOn h.allowInvalid rfl (fun s hs => ⟨s, hs, le_refl _⟩) hfails
      | ok =>
          obtain ⟨ctx, -, hextended⟩ := hruns.parsed hstatus
          obtain ⟨p, q, -, -, hle, hp, hq⟩ := hextended.score
          refine failsRun_mono h.failOn h.allowInvalid
            (hextended.status.2.trans hextended.status.1.symm) ?_ hfails
          intro severity hseverity
          rw [hp] at hseverity
          cases hseverity
          exact ⟨_, hq, severityRank_mono hle⟩

theorem Stricter.any_fails {lenient strict : CheckOptions} (h : Stricter lenient strict)
    {urls : List Text} {results results' : List InspectResult}
    (hresults : List.Forall₂ (fun url result => inspectUrl world lenient url = .ok result) urls results)
    (hresults' : List.Forall₂ (fun url result => inspectUrl world strict url = .ok result) urls
      results')
    (hfails : results.any (failsRun lenient.exitPolicy) = true) :
    results'.any (failsRun strict.exitPolicy) = true := by
  induction hresults generalizing results' with
  | nil => simp at hfails
  | @cons url result urls results hurl _ ih =>
      cases hresults' with
      | @cons _ result' _ results' hurl' hrest' =>
          rw [List.any_cons, Bool.or_eq_true] at hfails ⊢
          rcases hfails with hfirst | hrest
          · exact Or.inl (h.fails world hurl hurl' hfirst)
          · exact Or.inr (ih hrest' hrest)

theorem Stricter.runInspections {lenient strict : CheckOptions} (h : Stricter lenient strict)
    (urls : List Text) : ∃ r r', Cli.runInspections world urls lenient = .ok r ∧
      Cli.runInspections world urls strict = .ok r' ∧ r.code ≤ r'.code := by
  obtain ⟨results, hresults, hrun⟩ := runInspections_returns world urls lenient
  obtain ⟨results', hresults', hrun'⟩ := runInspections_returns world urls strict
  refine ⟨_, _, hrun, hrun', ?_⟩
  simp only [resolveExitCode_eq]
  by_cases hfails : results.any (failsRun lenient.exitPolicy) = true
  · rw [h.any_fails world hresults hresults' hfails]
    split <;> simp
  · rw [if_neg hfails]
    exact Nat.zero_le _

/-- The same invocation under other options. -/
def ParsedCli.withOptions (options : CheckOptions) : ParsedCli → ParsedCli
  | .check urls stdin _ => .check urls stdin options
  | .batch file _ => .batch file options
  | cli => cli

theorem urlsOf_withOptions (options : CheckOptions) (cli : ParsedCli) :
    urlsOf world (cli.withOptions options) = urlsOf world cli := by
  cases cli <;> rfl

theorem Stricter.runCli {lenient strict : CheckOptions} (h : Stricter lenient strict)
    (cli : ParsedCli) : ∃ r r', Cli.runCli world (cli.withOptions lenient) = .ok r ∧
      Cli.runCli world (cli.withOptions strict) = .ok r' ∧ r.code ≤ r'.code := by
  cases hinspects : cli.options with
  | none =>
      cases cli with
      | help => exact ⟨_, _, rfl, rfl, le_refl _⟩
      | version => exact ⟨_, _, rfl, rfl, le_refl _⟩
      | check urls stdin options => cases hinspects
      | batch file options => cases hinspects
  | some options =>
      have hsome : ∀ options', (cli.withOptions options').options = some options' := by
        intro options'
        cases cli with
        | help => cases hinspects
        | version => cases hinspects
        | check urls stdin options => rfl
        | batch file options => rfl
      rw [runCli_inspects world (hsome lenient), runCli_inspects world (hsome strict),
        urlsOf_withOptions, urlsOf_withOptions]
      cases urlsOf world cli with
      | error messages => exact ⟨_, _, rfl, rfl, le_refl _⟩
      | ok urls => exact h.runInspections world urls

/-! ### The agent flag -/

def ParsedCli.withAgent : ParsedCli → ParsedCli
  | .check urls stdin options => .check urls stdin { options with agent := true }
  | .batch file options => .batch file { options with agent := true }
  | cli => cli

section
variable (parsed : ParseArgs.Parsed CliOption)

theorem given_cons_agent {o : CliOption} (h : o ≠ .agent) :
    (parsed.cons (.agent, none)).given o = parsed.given o := by
  simp [ParseArgs.Parsed.given, ParseArgs.Parsed.cons, Ne.symm h]

theorem values_cons_agent (o : CliOption) :
    (parsed.cons (.agent, none)).values o = parsed.values o := by
  simp [ParseArgs.Parsed.values, ParseArgs.Parsed.cons]

theorem given_agent : (parsed.cons (.agent, none)).given .agent = true := by
  simp [ParseArgs.Parsed.given, ParseArgs.Parsed.cons]

theorem checkOptions_cons_agent (failOn : Severity) (denyPorts : List Nat) :
    checkOptions (parsed.cons (.agent, none)) failOn denyPorts =
      { checkOptions parsed failOn denyPorts with agent := true } := by
  simp [checkOptions, given_cons_agent, values_cons_agent, given_agent]

theorem readOptions_cons_agent :
    readOptions (parsed.cons (.agent, none)) =
      (readOptions parsed).map fun options => { options with agent := true } := by
  simp only [readOptions, ParseArgs.Parsed.last, screenLists, values_cons_agent,
    checkOptions_cons_agent]
  cases severityOf ((parsed.values .failOn).getLast?.getD (text "high")) with
  | none => rfl
  | some failOn =>
      simp only [bind, Except.bind]
      cases CliOption.lists.forM fun o => (parsed.values o).forM (assertNotJoined o.flag) with
      | error error => rfl
      | ok _ =>
          cases (parsed.values .denyPort).mapM parsePort with
          | error error => rfl
          | ok ports => rfl

theorem readCommand_agent (command : Text) (rest : List Text) (options : CheckOptions) :
    readCommand command rest { options with agent := true } =
      (readCommand command rest options).map ParsedCli.withAgent := by
  unfold readCommand
  split
  · split
    · rfl
    · split <;> rfl
    · rfl
  · rfl

theorem readParsed_cons_agent :
    readParsed (parsed.cons (.agent, none)) = (readParsed parsed).map ParsedCli.withAgent := by
  unfold readParsed
  rw [given_cons_agent parsed (o := .help) (by decide),
    given_cons_agent parsed (o := .version) (by decide), readOptions_cons_agent]
  simp only [ParseArgs.Parsed.cons]
  split
  · rfl
  · split
    · rfl
    · split
      · rfl
      · split
        · rfl
        · cases readOptions parsed with
          | error error => rfl
          | ok options => exact readCommand_agent _ _ options

end

/-- `--agent` before the other arguments. -/
theorem parseCli_agent (argv : List Text) :
    parseCli (CliOption.flag .agent :: argv) = (parseCli argv).map ParsedCli.withAgent := by
  have hfits : ParseArgs.FitsConfig OPTIONS (CliOption.agent, none) := rfl
  have hargs := ParseArgs.parseArgs_cons hfits argv
  rw [parseCli, parseCli, show CliOption.flag .agent = ParseArgs.optionArg OPTIONS (.agent, none) from rfl,
    hargs]
  cases ParseArgs.parseArgs OPTIONS argv with
  | error error => rfl
  | ok parsed => exact readParsed_cons_agent parsed

theorem stricter_agent (options : CheckOptions) : Stricter options { options with agent := true } where
  failOn := le_refl _
  allowInvalid h := h
  agent _ := rfl
  rest := rfl

theorem run_agent (argv : List Text) : ∃ r r', run world argv = .ok r ∧
    run world (CliOption.flag .agent :: argv) = .ok r' ∧ r.code ≤ r'.code := by
  unfold run
  rw [parseCli_agent]
  cases parseCli argv with
  | error error => exact ⟨_, _, rfl, rfl, le_refl _⟩
  | ok cli =>
      cases cli with
      | help => exact ⟨_, _, rfl, rfl, le_refl _⟩
      | version => exact ⟨_, _, rfl, rfl, le_refl _⟩
      | check urls stdin options =>
          exact (stricter_agent options).runCli world (.check urls stdin options)
      | batch file options => exact (stricter_agent options).runCli world (.batch file options)

/-- No run passes for having been asked more strictly: neither `--agent` before the arguments nor
stricter options lower the exit code. -/
theorem stricter_flags :
    (∀ argv, ∃ r r', run world argv = .ok r ∧ run world (CliOption.flag .agent :: argv) = .ok r' ∧
        r.code ≤ r'.code) ∧
      ∀ (lenient strict : CheckOptions) (cli : ParsedCli), Stricter lenient strict →
        ∃ r r', runCli world (cli.withOptions lenient) = .ok r ∧
          runCli world (cli.withOptions strict) = .ok r' ∧ r.code ≤ r'.code :=
  ⟨run_agent world, fun _ _ cli h => h.runCli world cli⟩

end

end Cli

end Linklint
