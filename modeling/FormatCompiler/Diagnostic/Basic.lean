import FormatCompiler.Diagnostic.Span

/-!
Messages for the user, with their place in a file where they have one, and how they are printed.
-/

namespace FormatCompiler

set_option autoImplicit false

inductive Severity where
  | warning
  | error
  deriving DecidableEq, Repr

structure Diagnostic where
  severity : Severity
  message : String
  note : Option String := none
  help : Option String := none
  span : Option Span := none
  deriving DecidableEq, Repr

def Severity.label : Severity → String
  | .warning => "Warning"
  | .error => "Error"

namespace Terminal

/-- Text in a style of the terminal, unless styles are off. -/
def styled (color : Bool) (style text : String) : String :=
  if color then "\x1b[" ++ style ++ "m" ++ text ++ "\x1b[0m" else text

/-- The style of a severity: bold, and bright yellow or bright red. -/
def severityStyle : Severity → String
  | .warning => "1;93"
  | .error => "1;91"

def bold : String := "1"

def spaces (count : Nat) : String :=
  String.ofList (List.replicate count ' ')

/-- Text moved to the right end of a column. -/
def alignRight (width : Nat) (text : String) : String :=
  spaces (width - text.length) ++ text

end Terminal

open Terminal

/-- The place of a span, its line, and a marker under what it covers. -/
def Span.print (color : Bool) (severity : Severity) (span : Span) : String :=
  let number := Text.showNat span.line
  span.file ++ ":" ++ number ++ ":" ++ Text.showNat (span.offset + 1) ++ "\n" ++
    number ++ " | " ++ span.text ++ "\n" ++
    spaces (number.length + 3 + span.offset) ++
    styled color (severityStyle severity)
      (String.ofList (List.replicate (max span.length 1) '^')) ++ "\n"

namespace Diagnostic

/-- The lines of a note: the first stands behind the label, the others below it. -/
def printNote (width : Nat) (note : String) : String :=
  match (Text.lines note.toList).map String.ofList with
  | [] => ""
  | first :: rest =>
    first ++ "\n" ++ String.join (rest.map fun line => spaces width ++ "  " ++ line ++ "\n")

def print (color : Bool) (diagnostic : Diagnostic) : String :=
  let label := diagnostic.severity.label
  let width := label.length
  let heading := fun text => styled color bold (alignRight width text) ++ ": "
  styled color (severityStyle diagnostic.severity) label ++ ": " ++ diagnostic.message ++ "\n" ++
    (match diagnostic.note with
      | some note => heading "Note" ++ printNote width note
      | none => "") ++
    (match diagnostic.help with
      | some help => heading "Help" ++ help ++ "\n"
      | none => "") ++
    match diagnostic.span with
    | some span =>
      String.join ((Text.lines (span.print color diagnostic.severity).toList).map fun line =>
        spaces (width + 1) ++ " " ++ String.ofList line ++ "\n")
    | none => ""

end Diagnostic

/-- Whether one of some diagnostics is an error. -/
def hasErrors (diagnostics : List Diagnostic) : Bool :=
  diagnostics.any fun diagnostic => diagnostic.severity == .error

end FormatCompiler
