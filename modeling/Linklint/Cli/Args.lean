import Linklint.Cli.Policy
import Linklint.Js.ParseArgs

/-!
# Arguments of the command line

From a raw argument list to an invocation, or to the usage error. A value that
could never match its axis is refused here, where somebody typed it.
-/

namespace Linklint

namespace Cli

open ParseArgs

inductive CliOption where
  | json
  | offline
  | failOn
  | allowInvalid
  | quiet
  | noColor
  | agent
  | allowIdn
  | idnAllow
  | denyTld
  | allowTld
  | denyHost
  | allowHost
  | allowScheme
  | denyScheme
  | denyPort
  | denyNonStandardPorts
  | help
  | version
deriving DecidableEq

namespace CliOption

def all : List CliOption :=
  [.json, .offline, .failOn, .allowInvalid, .quiet, .noColor, .agent, .allowIdn, .idnAllow, .denyTld,
    .allowTld, .denyHost, .allowHost, .allowScheme, .denyScheme, .denyPort, .denyNonStandardPorts,
    .help, .version]

def name : CliOption → Text
  | .json => text "json"
  | .offline => text "offline"
  | .failOn => text "fail-on"
  | .allowInvalid => text "allow-invalid"
  | .quiet => text "quiet"
  | .noColor => text "no-color"
  | .agent => text "agent"
  | .allowIdn => text "allow-idn"
  | .idnAllow => text "idn-allow"
  | .denyTld => text "deny-tld"
  | .allowTld => text "allow-tld"
  | .denyHost => text "deny-host"
  | .allowHost => text "allow-host"
  | .allowScheme => text "allow-scheme"
  | .denyScheme => text "deny-scheme"
  | .denyPort => text "deny-port"
  | .denyNonStandardPorts => text "deny-non-standard-ports"
  | .help => text "help"
  | .version => text "version"

/-- The flag as it is typed. -/
def flag (o : CliOption) : Text := text "--" ++ o.name

/-- The repeatable flags, in the order they are screened. -/
def lists : List CliOption :=
  [.idnAllow, .denyTld, .allowTld, .denyHost, .allowHost, .allowScheme, .denyScheme, .denyPort]

/-- `type: "string"` -/
def takesValue (o : CliOption) : Bool := o = .failOn || lists.contains o

theorem mem_all (o : CliOption) : o ∈ all := by
  cases o <;> decide

theorem name_injective : Function.Injective name := by
  have hnodup : (all.map name).Nodup := by decide
  intro a b h
  exact List.inj_on_of_nodup_map hnodup (mem_all a) (mem_all b) h

end CliOption

def OPTIONS : OptionsConfig CliOption where
  all := CliOption.all
  name := CliOption.name
  takesValue := CliOption.takesValue
  mem_all := CliOption.mem_all
  name_injective := CliOption.name_injective
  name_ne_nil o := by cases o <;> decide
  name_plain o := by cases o <;> decide

structure CheckOptions where
  json : Bool := false
  offline : Bool := false
  failOn : Severity := .high
  allowInvalid : Bool := false
  quiet : Bool := false
  noColor : Bool := false
  agent : Bool := false
  allowIdn : Bool := false
  idnAllowlist : List Text := []
  denyTlds : List Text := []
  allowTlds : List Text := []
  denyHosts : List Text := []
  allowHosts : List Text := []
  allowSchemes : List Text := []
  denySchemes : List Text := []
  denyPorts : List Nat := []
  denyNonStandardPorts : Bool := false
deriving DecidableEq

inductive ParsedCli where
  | help
  | version
  | check (urls : List Text) (stdin : Bool) (options : CheckOptions)
  | batch (file : Text) (options : CheckOptions)
deriving DecidableEq

/-- A usage error: what `parseArgs` refused, or a message of the program. -/
inductive UsageError where
  | parseArgs (error : ParseArgs.Error)
  | message (message : Text)
deriving DecidableEq

def MAX_PORT : Nat := 65535
def SUGGESTION_LIMIT : Nat := 3

def trimFlagValue (value : Text) : Text := value.trim

/-- `/[,;|\s]/` -/
def isSeparator (u : CodeUnit) : Bool :=
  u == unit ',' || u == unit ';' || u == unit '|' || isSpace u

def SEPARATOR_NAMES : List (CodeUnit × Text) :=
  [(unit ',', text "a comma"), (unit ';', text "a semicolon"), (unit '|', text "a vertical bar"),
    (unit ' ', text "a space"), (unit '\t', text "a tab"), (unit '\n', text "a newline"),
    (unit '\r', text "a carriage return")]

def separatorName (u : CodeUnit) : Text :=
  (SEPARATOR_NAMES.lookup u).getD (text "a whitespace character")

/-- The repeated form to suggest in place of a joined value. -/
def suggestion (flag trimmed : Text) : Text :=
  let parts := (trimmed.splitOnP isSeparator).filter fun part => part ≠ []
  let shown := Text.join (text " ") ((parts.take SUGGESTION_LIMIT).map fun part => flag ++ text " " ++ part)
  if SUGGESTION_LIMIT < parts.length then shown ++ text " ..." else shown

def joinedMessage (flag value : Text) (found : CodeUnit) : Text :=
  let shown := suggestion flag (trimFlagValue value)
  let advice :=
    if shown = [] then text "repeat " ++ flag ++ text " once per value"
    else text "repeat the flag once per value: " ++ shown
  text "invalid " ++ flag ++ text " value: " ++ value ++ text " (" ++ separatorName found
    ++ text " is not a value separator — " ++ advice ++ text ")"

def assertNotJoined (flag value : Text) : Except UsageError Unit :=
  match (trimFlagValue value).find? isSeparator with
  | none => .ok ()
  | some found => .error (.message (joinedMessage flag value found))

def portMessage (rawValue : Text) : Text :=
  text "invalid --deny-port value: " ++ rawValue ++ text " (expected an integer 0-"
    ++ decimalText MAX_PORT ++ text ")"

/-- `/^\d{1,5}$/` -/
def isPortText (value : Text) : Bool := 1 ≤ value.length && value.length ≤ 5 && value.all isDigit

def parsePort (rawValue : Text) : Except UsageError Nat :=
  let value := trimFlagValue rawValue
  if !isPortText value then .error (.message (portMessage rawValue))
  else if MAX_PORT < numeralValue 10 value then .error (.message (portMessage rawValue))
  else .ok (numeralValue 10 value)

def severityName : Severity → Text
  | .info => text "info"
  | .low => text "low"
  | .medium => text "medium"
  | .high => text "high"
  | .critical => text "critical"

/-- The severity of a `--fail-on` value; `none` is `!isSeverity(value)`. -/
def severityOf (value : Text) : Option Severity :=
  SEVERITY_ORDER.find? fun severity => severityName severity == value

section
variable (parsed : ParseArgs.Parsed CliOption)

def checkOptions (failOn : Severity) (denyPorts : List Nat) : CheckOptions where
  json := parsed.given .json
  offline := parsed.given .offline
  failOn
  allowInvalid := parsed.given .allowInvalid
  quiet := parsed.given .quiet
  noColor := parsed.given .noColor
  agent := parsed.given .agent
  allowIdn := parsed.given .allowIdn
  idnAllowlist := parsed.values .idnAllow
  denyTlds := parsed.values .denyTld
  allowTlds := parsed.values .allowTld
  denyHosts := parsed.values .denyHost
  allowHosts := parsed.values .allowHost
  allowSchemes := parsed.values .allowScheme
  denySchemes := parsed.values .denyScheme
  denyPorts
  denyNonStandardPorts := parsed.given .denyNonStandardPorts

/-- Every repeatable flag's values, screened flag by flag. -/
def screenLists : Except UsageError Unit :=
  CliOption.lists.forM fun o => (parsed.values o).forM (assertNotJoined o.flag)

def readOptions : Except UsageError CheckOptions := do
  let failOn := (parsed.last .failOn).getD (text "high")
  match severityOf failOn with
  | none =>
      throw (.message (text "invalid --fail-on value: " ++ failOn
        ++ text " (expected: info|low|medium|high|critical)"))
  | some failOn => do
      screenLists parsed
      let denyPorts ← (parsed.values .denyPort).mapM parsePort
      return checkOptions parsed failOn denyPorts

/-- What is left of the positionals after the command. -/
def readCommand (command : Text) (rest : List Text) (options : CheckOptions) :
    Except UsageError ParsedCli :=
  if command = text "batch" then
    match rest with
    | [] => .error (.message (text "no file given to batch (expected: batch <file>)"))
    | [file] =>
        if file = [] then .error (.message (text "no file given to batch (expected: batch <file>)"))
        else .ok (.batch file options)
    | _ => .error (.message (text "batch takes exactly one file argument"))
  else
    let stdin := decide (rest = [] ∨ rest = [text "-"])
    .ok (.check (if stdin then [] else rest) stdin options)

def readParsed : Except UsageError ParsedCli :=
  if parsed.given .help then .ok .help
  else if parsed.given .version then .ok .version
  else
    match parsed.positionals with
    | [] => .error (.message (text "no command given (expected: check <url...> | batch <file>)"))
    | command :: rest =>
        if command ≠ text "check" ∧ command ≠ text "batch" then
          .error (.message (text "unknown command: " ++ command ++ text " (expected: check | batch)"))
        else do
          let options ← readOptions parsed
          readCommand command rest options

end

def parseCli (argv : List Text) : Except UsageError ParsedCli :=
  match ParseArgs.parseArgs OPTIONS argv with
  | .error error => .error (.parseArgs error)
  | .ok parsed => readParsed parsed

end Cli

end Linklint
