import Linklint.Schema.Serialize

/-!
# Inspection

The synchronous entry point: option intake, structural scans, parsing, the
detector loop, the policy channel and the result.
-/

namespace Linklint

/-- The input argument; of a non-string the program takes `typeof` and `String(value)`. -/
inductive InputVal where
  | string (s : Text)
  | nonString (typeName : Text) (asString : Except Thrown Text)

/-- `coerceInput(value)` -/
def coerceInput : Except Thrown Text → Text
  | .ok s => s
  | .error _ => []

structure PolicyOutcome where
  findings : List CollectedFinding
  skippedAxes : List Text
  anyAxisRan : Bool

/-- The policy channel: every axis is guarded on its own. -/
def runPolicy (bodies : CheckBodies) (ctx : InspectionContext) : PolicyOutcome :=
  let outcome := GuardedLoop.run (fun axis => bodies.axis axis ctx) POLICY_AXIS_DESCRIPTORS
  { findings := outcome.1
    skippedAxes := outcome.2.map PolicyAxis.id
    anyAxisRan := decide (outcome.2.length < POLICY_AXIS_DESCRIPTORS.length) }

/-- The detectors that are evaluated: the agent-gated ones only in agent mode. -/
def dueDetectors (agentMode : Bool) : List CheckDescriptor :=
  DETECTORS.filter (fun detector => !detector.agentGated || agentMode)

def lexicalToken (id : Text) : Text := namespacedToken LEXICAL id
def policyToken (id : Text) : Text := namespacedToken POLICY id

def scanContext (input : Text) (runtime : RuntimeConfig) : ScanContext where
  input := input
  prepared := prepare input
  runtime := runtime
  authority := authorityRegion (tokenizeRawUrl (prepare input))

def runScans (bodies : CheckBodies) (input : Text) (runtime : RuntimeConfig) :
    List CollectedFinding × List CheckDescriptor :=
  GuardedLoop.run (fun scan => bodies.scan scan (scanContext input runtime)) STRUCTURAL_SCANS

def runDetectors (bodies : CheckBodies) (ctx : InspectionContext) (agentMode : Bool) :
    List CollectedFinding × List CheckDescriptor :=
  GuardedLoop.run (fun detector => bodies.detector detector ctx) (dueDetectors agentMode)

/-- What the run takes from the options after the input has parsed. -/
structure LateOptions where
  agentMode : Bool
  policyOn : Bool
  suppressOn : Bool

def readLateOptions (options : HostVal) : Except Thrown LateOptions := do
  let agentMode ← options.read .agentMode (text "agentMode")
  let policyOn ← policyConfigured options
  let suppressOn ← suppressConfigured options
  return { agentMode := agentMode.isTrue, policyOn, suppressOn }

section
variable (P : Platform) (bodies : CheckBodies)

/-- The result of an input that parsed. -/
def inspectParsed (ctx : InspectionContext) (structural : List CollectedFinding × List CheckDescriptor)
    (optionSkipped : List Text) (late : LateOptions) : InspectResult :=
  let detected := runDetectors bodies ctx late.agentMode
  let policy : PolicyOutcome :=
    if late.policyOn then runPolicy bodies ctx
    else { findings := [], skippedAxes := [], anyAxisRan := false }
  let skipped := optionSkipped ++ structural.2.map (lexicalToken ·.id)
    ++ detected.2.map (lexicalToken ·.id) ++ policy.skippedAxes.map policyToken
  buildOkResult P ctx (structural.1 ++ detected.1) skipped policy.findings policy.anyAxisRan
    ((dueDetectors late.agentMode).any CheckDescriptor.agentGated) late.suppressOn

def inspectString (input : Text) (intake : OptionIntake) : Except Thrown InspectResult := do
  let runtime ← normalizeOptions P intake.options
  let structural := runScans bodies input runtime
  match parseInput P input runtime with
  | .error _ => return buildInvalidResult P input structural.1 none intake.skipped
  | .ok none =>
      return buildInvalidResult P input structural.1
        (describeParseFailure P (tokenizeRawUrl (prepare input))) intake.skipped
  | .ok (some ctx) => do
      let late ← readLateOptions intake.options
      return inspectParsed P bodies ctx structural intake.skipped late

/-- The default parameter value: an `undefined` argument is `{}`. -/
def optionsArgument (rawOptions : HostVal) : HostVal :=
  if rawOptions.isUndefined then HostVal.empty else rawOptions

def inspect (input : InputVal) (rawOptions : HostVal) : Except Thrown InspectResult :=
  let intake := intakeOptions (optionsArgument rawOptions)
  match input with
  | .nonString typeName asString =>
      .ok (buildInvalidResult P (coerceInput asString) []
        (some (text "input is not a string (got " ++ typeName ++ text ")")) intake.skipped)
  | .string s => inspectString P bodies s intake

/-- The options the run reads: the argument itself, or `{}` when it is unusable. -/
def effectiveOptions (rawOptions : HostVal) : HostVal :=
  (intakeOptions (optionsArgument rawOptions)).options

def intakeTokens (rawOptions : HostVal) : List Text :=
  (intakeOptions (optionsArgument rawOptions)).skipped

/-- Options whose recognized keys can all be read, with what they read as. -/
structure ReadableOptions (options : HostVal) where
  runtime : RuntimeConfig
  late : LateOptions
  normalize_eq : normalizeOptions P options = .ok runtime
  late_eq : readLateOptions options = .ok late

/-- No options at all. -/
def ReadableOptions.empty : ReadableOptions P (effectiveOptions .undefined) where
  runtime :=
    { maxDecodeDepth := DEFAULT_MAX_DECODE_DEPTH, idnPolicy := .block, idnAllowlist := []
      suppressReasons := []
      policy :=
        { denyTlds := ⟨false, []⟩, allowTlds := ⟨false, []⟩, denyHosts := ⟨false, []⟩
          allowHosts := ⟨false, []⟩, denySchemes := ⟨false, []⟩, allowSchemes := ⟨false, []⟩
          denyPorts := ⟨false, []⟩, denyNonStandardPorts := false } }
  late := { agentMode := false, policyOn := false, suppressOn := false }
  normalize_eq := rfl
  late_eq := rfl

/-- The result of a string input once every option has been read. -/
def inspectedResult (input : Text) (optionSkipped : List Text) (runtime : RuntimeConfig)
    (late : LateOptions) : InspectResult :=
  let structural := runScans bodies input runtime
  match parseInput P input runtime with
  | .error _ => buildInvalidResult P input structural.1 none optionSkipped
  | .ok none =>
      buildInvalidResult P input structural.1
        (describeParseFailure P (tokenizeRawUrl (prepare input))) optionSkipped
  | .ok (some ctx) => inspectParsed P bodies ctx structural optionSkipped late

/-- With readable options inspection returns, whatever the input and the checks do. -/
theorem inspect_of_readable {rawOptions : HostVal} (input : Text)
    (opts : ReadableOptions P (effectiveOptions rawOptions)) :
    inspect P bodies (.string input) rawOptions
      = .ok (inspectedResult P bodies input (intakeTokens rawOptions) opts.runtime opts.late) := by
  have hnorm : normalizeOptions P (intakeOptions (optionsArgument rawOptions)).options
      = .ok opts.runtime := opts.normalize_eq
  have hlate : readLateOptions (intakeOptions (optionsArgument rawOptions)).options
      = .ok opts.late := opts.late_eq
  simp only [inspect, inspectString, hnorm, hlate, inspectedResult, intakeTokens, bind, Except.bind,
    pure, Except.pure]
  cases parseInput P input opts.runtime with
  | error e => rfl
  | ok parsed => cases parsed <;> rfl

theorem inspectedResult_of_parsed {input : Text} {optionSkipped : List Text}
    {runtime : RuntimeConfig} {late : LateOptions} {ctx : InspectionContext}
    (h : parseInput P input runtime = .ok (some ctx)) :
    inspectedResult P bodies input optionSkipped runtime late
      = inspectParsed P bodies ctx (runScans bodies input runtime) optionSkipped late := by
  rw [inspectedResult, h]

/-- Without a parsed context the result is an invalid one over the scan findings. -/
theorem inspectedResult_of_unparsed {input : Text} {optionSkipped : List Text}
    {runtime : RuntimeConfig} {late : LateOptions}
    (h : ¬ ∃ ctx, parseInput P input runtime = .ok (some ctx)) :
    ∃ detail, inspectedResult P bodies input optionSkipped runtime late
      = buildInvalidResult P input (runScans bodies input runtime).1 detail optionSkipped := by
  unfold inspectedResult
  cases hp : parseInput P input runtime with
  | error e => exact ⟨_, rfl⟩
  | ok parsed =>
      cases parsed with
      | none => exact ⟨_, rfl⟩
      | some ctx => exact False.elim (h ⟨ctx, hp⟩)

end

end Linklint
