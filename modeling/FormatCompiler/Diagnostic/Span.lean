import FormatCompiler.Text.Basic
import FormatCompiler.Text.Numeral
import FormatCompiler.Text.Utf8

/-!
A stretch of one line of a file, measured in bytes.
-/

namespace FormatCompiler

set_option autoImplicit false

structure Span where
  file : String
  /-- The number of the line, counted from one. -/
  line : Nat
  /-- Where the stretch starts in the line. -/
  offset : Nat
  length : Nat
  text : String
  deriving DecidableEq, Repr

/-- Why there is no such stretch. -/
inductive SpanFault where
  | onNewline
  | manyLines
  | beyondFile
  | lineZero
  | beyondLine
  deriving DecidableEq, Repr

def SpanFault.message : SpanFault → String
  | .onNewline => "Offset cannot be on the newline character"
  | .manyLines => "Multiline spans are not supported"
  | .beyondFile => "The offset exceeds the length of the file"
  | .lineZero => "Line numbers start from 1"
  | .beyondLine => "The span exceeds the length of the line"

namespace Span

/-- A stretch of a line that is given. -/
def ofLine (file : String) (line : Nat) (text : List Char) (offset length : Nat) :
    Except SpanFault Span :=
  if line = 0 then .error .lineZero
  else if Text.Utf8.size text < offset + length then .error .beyondLine
  else .ok { file, line, offset, length, text := String.ofList text }

/-- A stretch of one of some lines; `offset` counts from the first of them, whose number is
`line`. -/
def ofLines (file : String) (line offset length : Nat) : List (List Char) → Except SpanFault Span
  | [] => .error .beyondFile
  | text :: rest =>
    let size := Text.Utf8.size text
    if size = offset then .error .onNewline
    else if size < offset then ofLines file (line + 1) (offset - size - 1) length rest
    else if size < offset + length then .error .manyLines
    else ofLine file line text offset length

/-- A stretch of a file; `offset` counts from its start. -/
def ofContent (file : String) (content : List Char) (offset length : Nat) : Except SpanFault Span :=
  ofLines file 1 offset length (Text.splitFeeds [] content)

/-- The text of a stretch, if it starts and ends between characters. -/
def covered? (span : Span) : Option (List Char) :=
  Text.Utf8.slice span.offset span.length span.text.toList

end Span

end FormatCompiler
