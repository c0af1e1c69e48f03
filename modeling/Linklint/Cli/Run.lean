import Linklint.Cli.ArgsRoundTrip
import Linklint.Cli.Lines
import Linklint.Cli.Render
import Linklint.Inspect

/-!
# The command line program

From the arguments to what is written and the exit code: URLs from the
arguments, a file or the standard input, inspected one after another.
-/

namespace Linklint

namespace Cli

structure CliWorld where
  platform : Platform
  bodies : CheckBodies
  /-- `readFileSync(file, "utf8")`, or the message of what it throws -/
  readFile : Text → Except Text Text
  stdinIsTTY : Bool
  /-- `readFileSync(0, "utf8")` -/
  readStdin : Except Text Text
  /-- `JSON.stringify(results, null, 2)` -/
  stringify : List InspectResult → Text
  /-- The message of an error of `parseArgs`. -/
  parseArgsMessage : ParseArgs.Error → Text
  USAGE : Text
  CLI_VERSION : Text

structure RunResult where
  out : List Text
  err : List Text
  code : Nat

/-- `[key, value]` where the flag was set -/
def optionField (on : Bool) (key : String) (value : HostVal) : List (Text × HostVal) :=
  if on then [(text key, value)] else []

def listField (key : String) (values : List Text) : List (Text × HostVal) :=
  optionField (!values.isEmpty) key (.list (values.map .str))

/-- A key is present only when the flag that sets it was given. -/
def optionFields (options : CheckOptions) : List (Text × HostVal) :=
  optionField options.agent "agentMode" (.bool true)
    ++ optionField options.allowIdn "idnPolicy" (.str (text "allow"))
    ++ listField "idnAllowlist" options.idnAllowlist ++ listField "denyTlds" options.denyTlds
    ++ listField "allowTlds" options.allowTlds ++ listField "denyHosts" options.denyHosts
    ++ listField "allowHosts" options.allowHosts ++ listField "allowSchemes" options.allowSchemes
    ++ listField "denySchemes" options.denySchemes
    ++ optionField (!options.denyPorts.isEmpty) "denyPorts"
      (.list (options.denyPorts.map fun port => .num (.ofNat port)))
    ++ optionField options.denyNonStandardPorts "denyNonStandardPorts" (.bool true)

def inspectOptions (options : CheckOptions) : HostVal := .plain (optionFields options)

def CheckOptions.render (options : CheckOptions) : RenderOptions where
  quiet := options.quiet
  noColor := options.noColor

def CheckOptions.exitPolicy (options : CheckOptions) : ExitPolicyOptions where
  failOn := options.failOn
  allowInvalid := options.allowInvalid

section
variable (world : CliWorld)

def inspectUrl (options : CheckOptions) (url : Text) : Except Thrown InspectResult :=
  inspect world.platform world.bodies (.string url) (inspectOptions options)

/-- What is written for the results: one JSON array, or one block for each of them. -/
def output (options : CheckOptions) (results : List InspectResult) : List Text :=
  if options.json then [world.stringify results]
  else results.map fun result => renderResults [result] options.render

def runInspections (urls : List Text) (options : CheckOptions) : Except Thrown RunResult := do
  let results ← urls.mapM (inspectUrl world options)
  return { out := output world options results, err := []
           code := resolveExitCode results options.exitPolicy }

def usageResult (messages : List Text) : RunResult where
  out := []
  err := messages ++ [[], world.USAGE]
  code := 2

def errorMessage : UsageError → Text
  | .parseArgs error => world.parseArgsMessage error
  | .message message => message

/-- The URLs of an invocation, or the messages that say why there are none. -/
def urlsOf : ParsedCli → Except (List Text) (List Text)
  | .batch file _ =>
      match world.readFile file with
      | .error message => .error [text "error: cannot read file: " ++ file, text "  " ++ message]
      | .ok contents => .ok (parseUrlLines contents)
  | .check urls stdin _ =>
      if stdin then
        if world.stdinIsTTY then .error [text "error: no URLs given to check"]
        else
          match world.readStdin with
          | .error message => .error [text "error: cannot read stdin", text "  " ++ message]
          | .ok contents => .ok (parseUrlLines contents)
      else .ok urls
  | .help => .ok []
  | .version => .ok []

def runCli : ParsedCli → Except Thrown RunResult
  | .help => .ok { out := [world.USAGE], err := [], code := 0 }
  | .version => .ok { out := [world.CLI_VERSION], err := [], code := 0 }
  | .check urls stdin options =>
      match urlsOf world (.check urls stdin options) with
      | .error messages => .ok (usageResult world messages)
      | .ok urls => runInspections world urls options
  | .batch file options =>
      match urlsOf world (.batch file options) with
      | .error messages => .ok (usageResult world messages)
      | .ok urls => runInspections world urls options

def run (argv : List Text) : Except Thrown RunResult :=
  match parseCli argv with
  | .error error => .ok (usageResult world [text "error: " ++ errorMessage world error])
  | .ok cli => runCli world cli

end

end Cli

end Linklint
