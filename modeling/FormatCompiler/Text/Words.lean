/-!
The words of a row. Words stand between spaces, tabs and line feeds. Single quotes keep everything;
double quotes keep everything but a backslash before a character that means something inside them;
outside quotes a backslash keeps the next character. A `#` where a word could start begins a comment.
The one way to fail is a quote that is never closed.
-/

namespace FormatCompiler.Text

set_option autoImplicit false

/-- Where a scan of a row stands. -/
inductive Scan where
  /-- Between words. -/
  | between
  /-- After a backslash that starts a word. -/
  | startEscape
  /-- In a word, outside quotes. -/
  | bare
  /-- After a backslash inside a word. -/
  | bareEscape
  | single
  | double
  /-- After a backslash inside double quotes. -/
  | doubleEscape
  | comment
  deriving DecidableEq, Repr

/-- Space, tab or line feed. -/
def isGap (c : Char) : Bool :=
  c == ' ' || c == '\t' || c == '\n'

/-- The characters that lose a backslash before them inside double quotes. -/
def isDoubleSpecial (c : Char) : Bool :=
  c == '$' || c == '`' || c == '"' || c == '\\'

/-- Continues a scan. The word under way is held in reverse. -/
def scanWords : Scan → List Char → List Char → Option (List (List Char))
  | .between, _, [] => some []
  | .between, word, c :: rest =>
    if c = '\'' then scanWords .single word rest
    else if c = '"' then scanWords .double word rest
    else if c = '\\' then scanWords .startEscape word rest
    else if isGap c then scanWords .between word rest
    else if c = '#' then scanWords .comment word rest
    else scanWords .bare (c :: word) rest
  | .startEscape, word, [] => some [('\\' :: word).reverse]
  | .startEscape, word, c :: rest =>
    if c = '\n' then scanWords .between word rest else scanWords .bare (c :: word) rest
  | .bare, word, [] => some [word.reverse]
  | .bare, word, c :: rest =>
    if c = '\'' then scanWords .single word rest
    else if c = '"' then scanWords .double word rest
    else if c = '\\' then scanWords .bareEscape word rest
    else if isGap c then (scanWords .between [] rest).map (word.reverse :: ·)
    else scanWords .bare (c :: word) rest
  | .bareEscape, word, [] => some [('\\' :: word).reverse]
  | .bareEscape, word, c :: rest =>
    if c = '\n' then scanWords .bare word rest else scanWords .bare (c :: word) rest
  | .single, _, [] => none
  | .single, word, c :: rest =>
    if c = '\'' then scanWords .bare word rest else scanWords .single (c :: word) rest
  | .double, _, [] => none
  | .double, word, c :: rest =>
    if c = '"' then scanWords .bare word rest
    else if c = '\\' then scanWords .doubleEscape word rest
    else scanWords .double (c :: word) rest
  | .doubleEscape, _, [] => none
  | .doubleEscape, word, c :: rest =>
    if c = '\n' then scanWords .double word rest
    else if isDoubleSpecial c then scanWords .double (c :: word) rest
    else scanWords .double (c :: '\\' :: word) rest
  | .comment, _, [] => some []
  | .comment, word, c :: rest =>
    if c = '\n' then scanWords .between word rest else scanWords .comment word rest

/-- The words of a row, or nothing when a quote is left open. -/
def words (row : List Char) : Option (List (List Char)) :=
  scanWords .between [] row

end FormatCompiler.Text
