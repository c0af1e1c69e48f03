import Linklint.Cli.Args

/-!
# Rendered results

The lines the command line prints for a result.
-/

namespace Linklint

namespace Cli

structure RenderOptions where
  quiet : Bool
  noColor : Bool

def severityColor : Severity → Text
  | .info => text "32"
  | .low => text "32"
  | .medium => text "33"
  | .high => text "31"
  | .critical => text "35"

def severityLabel : Severity → Text
  | .info => text "INFO"
  | .low => text "LOW"
  | .medium => text "MEDIUM"
  | .high => text "HIGH"
  | .critical => text "CRITICAL"

def ESCAPE : CodeUnit := 0x1B

def colorize (s code : Text) (noColor : Bool) : Text :=
  if noColor then s
  else ESCAPE :: text "[" ++ code ++ text "m" ++ s ++ ESCAPE :: text "[0m"

/-- `n.toFixed(2)` of a number that is not negative -/
def toFixed2 (q : Rat) : Text :=
  let hundredths := ⌊q * 100 + 1 / 2⌋.toNat
  decimalText (hundredths / 100) ++ text "." ++
    [digitUnit (hundredths / 10 % 10), digitUnit (hundredths % 10)]

def formatScore : Option Rat → Text
  | none => text "n/a"
  | some score => toFixed2 score

def componentName : ConfusableComponent → Text
  | .host => text "host"
  | .path => text "path"
  | .query => text "query"

section
variable (result : InspectResult)

def badge (noColor : Bool) : Text :=
  match result.status, result.severity with
  | .ok, some severity => colorize (severityLabel severity) (severityColor severity) noColor
  | _, _ => colorize (text "INVALID") (text "31") noColor

def renderQuiet (noColor : Bool) : Text :=
  badge result noColor ++ text "\t" ++ formatScore result.score ++ text "\t" ++ result.input

def staleLines : List Text :=
  if result.pslSnapshot.stale = some true then
    [text "  ⚠ PSL snapshot (" ++ result.pslSnapshot.date.getD (text "unknown date")
      ++ text ") is stale — registrable-domain reasoning may be outdated"]
  else []

def hostLines (parsed : ParsedUrl) : List Text :=
  (parsed.effectiveHost.toList.map fun host => text "  host:   " ++ host)
    ++ parsed.registrableDomain.toList.map fun domain => text "  domain: " ++ domain

def reasonLine (reason : Reason) : Text :=
  text "    - " ++ text reason.code.name ++ text " (+" ++ toFixed2 reason.weight ++ text ")  "
    ++ reason.detail

def reasonLines : List Text :=
  if result.reasons = [] then
    [text "  reasons: none — no structural anomaly found (not a safety verdict)"]
  else text "  reasons:" :: result.reasons.map reasonLine

def confusableLine (c : Confusable) : Text :=
  text "    - " ++ c.char ++ text " " ++ c.codepoint ++ text " ~ " ++ c.confusableWith ++ text " ("
    ++ componentName c.component ++ text " @" ++ decimalText c.position ++ text ")"

/-- The confusables of an inspected result have no holes. -/
def confusableLines : List Text :=
  if result.confusables = [] then []
  else text "  confusables:" :: (result.confusables.filterMap id).map confusableLine

def renderHuman (noColor : Bool) : Text :=
  let header := badge result noColor ++ text "  " ++ formatScore result.score ++ text "  "
    ++ result.input
  let body :=
    if result.status = .invalid then [text "  not a parseable URL — not checked (do not assume safe)"]
    else result.parsed.toList.flatMap hostLines ++ reasonLines result ++ confusableLines result
  Text.join (text "\n") (header :: (staleLines result ++ body))

end

def renderResults (results : List InspectResult) (options : RenderOptions) : Text :=
  if options.quiet then
    Text.join (text "\n") (results.map fun result => renderQuiet result options.noColor)
  else Text.join (text "\n\n") (results.map fun result => renderHuman result options.noColor)

end Cli

end Linklint
