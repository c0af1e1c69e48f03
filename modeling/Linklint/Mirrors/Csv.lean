import Linklint.Js.Text

/-!
# CSV rows

The reader the two feed parsers share.
-/

namespace Linklint

/-- The first line grown by a code unit. -/
def growLine (u : CodeUnit) : List Text → List Text
  | [] => [[u]]
  | line :: lines => (u :: line) :: lines

def isLineBreak (u : CodeUnit) : Bool := u == 13 || u == 10

/-- `body.split(/\r\n|\r|\n/)` -/
def splitLines : Text → List Text
  | [] => [[]]
  | [u] => if isLineBreak u then [[], []] else [[u]]
  | u :: v :: rest =>
      if u = 13 ∧ v = 10 then [] :: splitLines rest
      else if isLineBreak u then [] :: splitLines (v :: rest)
      else growLine u (splitLines (v :: rest))

/-- Split CSV text into non-empty lines, tolerant of CRLF/CR/LF endings. -/
def splitCsvLines (body : Text) : List Text :=
  (splitLines body).filter fun line => line.trim != []

/-- The state of the row reader: the fields read, the field being read, and the quotes. -/
structure RowState where
  fields : List Text
  field : Text
  inQuotes : Bool

/-- The row reader from a state on. -/
def readRow (state : RowState) : Text → Option (List Text)
  | [] => if state.inQuotes then none else some (state.fields ++ [state.field])
  | c :: rest =>
      if state.inQuotes then
        if c = unit '"' then
          match rest with
          | [] => readRow { state with inQuotes := false } []
          | d :: rest' =>
              if d = unit '"' then readRow { state with field := state.field ++ [unit '"'] } rest'
              else readRow { state with inQuotes := false } (d :: rest')
        else readRow { state with field := state.field ++ [c] } rest
      else if c = unit '"' then readRow { state with inQuotes := true } rest
      else if c = unit ',' then
        readRow { state with fields := state.fields ++ [state.field], field := [] } rest
      else readRow { state with field := state.field ++ [c] } rest

/-- Parse one CSV row; `none` is an unterminated quote. -/
def parseCsvRow (line : Text) : Option (List Text) :=
  readRow { fields := [], field := [], inQuotes := false } line

end Linklint
