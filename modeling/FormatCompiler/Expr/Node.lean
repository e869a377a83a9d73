/-!
The bare structure of an expression's text: groups in parentheses, each a tag of letters and its
parts, where a part is a group, a quoted string or an atom. Space, tab and line ends may stand
between any two tokens. A text that has no such structure is reported by the place where reading
could not go on.
-/

namespace FormatCompiler.Expr

set_option autoImplicit false

/-- Space, tab, carriage return or line feed. -/
def isSpace (c : Char) : Bool :=
  c == ' ' || c == '\t' || c == '\r' || c == '\n'

def isTagLetter (c : Char) : Bool :=
  ('a' ≤ c && c ≤ 'z') || ('A' ≤ c && c ≤ 'Z')

def isAtomChar (c : Char) : Bool :=
  !(isSpace c || c == '(' || c == ')' || c == '"')

/-- The length of the string that `text` begins with, up to and with its closing quote. The opening
quote is not part of `text`. -/
def quotedLength : List Char → Option Nat
  | [] => none
  | '"' :: _ => some 1
  | '\\' :: _ :: rest => (quotedLength rest).map (· + 2)
  | _ :: rest => (quotedLength rest).map (· + 1)

/-- What stands at one place of a text. -/
inductive Token where
  /-- An opening parenthesis with the tag behind it. -/
  | opening (tag : List Char)
  | closing
  /-- A string, with its quotes. -/
  | quoted (source : List Char)
  | atom (source : List Char)
  /-- The text ends. -/
  | finish
  /-- No token can be read; reading got as far as where `left` is left of the text. -/
  | stuck (left : List Char)
  deriving DecidableEq, Repr

/-- A token, what is left of the text where it starts, and its length. -/
structure Lexeme where
  token : Token
  start : List Char
  length : Nat
  deriving DecidableEq, Repr

/-- The token a text starts with; the text does not start with a space. -/
def lexeme : List Char → Lexeme
  | [] => ⟨.finish, [], 0⟩
  | '(' :: rest =>
    let spaces := rest.takeWhile isSpace
    let inner := rest.dropWhile isSpace
    let tag := inner.takeWhile isTagLetter
    if tag.isEmpty then ⟨.stuck inner, '(' :: rest, 0⟩
    else ⟨.opening tag, '(' :: rest, 1 + spaces.length + tag.length⟩
  | ')' :: rest => ⟨.closing, ')' :: rest, 1⟩
  | '"' :: rest =>
    match quotedLength rest with
    | some length => ⟨.quoted ('"' :: rest.take length), '"' :: rest, length + 1⟩
    | none => ⟨.stuck ('"' :: rest), '"' :: rest, 0⟩
  | c :: rest =>
    let source := (c :: rest).takeWhile isAtomChar
    ⟨.atom source, c :: rest, source.length⟩

/-- The tokens of a text after its first `skip` characters. The list ends with `finish`, or with
`stuck` where no token can be read. -/
def lexemes (skip : Nat) : List Char → List Lexeme
  | [] => [⟨.finish, [], 0⟩]
  | c :: rest =>
    match skip with
    | skip + 1 => lexemes skip rest
    | 0 =>
      if isSpace c then lexemes 0 rest
      else
        let next := lexeme (c :: rest)
        match next.token with
        | .stuck _ => [next]
        | _ => next :: lexemes (next.length - 1) rest

/-- A part of an expression's text, with the text itself. -/
inductive Node where
  | group (source tag : List Char) (parts : List Node)
  | quoted (source : List Char)
  | atom (source : List Char)
  deriving Repr

def Node.source : Node → List Char
  | .group source _ _ => source
  | .quoted source => source
  | .atom source => source

/-- A group whose closing parenthesis is still to come; its parts are held in reverse. -/
structure Frame where
  start : List Char
  tag : List Char
  parts : List Node
  deriving Repr

/-- The group of a frame that closes where `after` is left. -/
def Frame.close (frame : Frame) (after : List Char) : Node :=
  .group (frame.start.take (frame.start.length - after.length)) frame.tag frame.parts.reverse

/-- How far the tokens read so far have got. -/
inductive Progress where
  | start
  | inside (frame : Frame) (outer : List Frame)
  | complete (node : Node)
  deriving Repr

/-- Puts a part into the innermost open group. -/
def Frame.add (frame : Frame) (part : Node) : Frame :=
  { frame with parts := part :: frame.parts }

/-- Reads one more token, or nothing when it cannot stand where it does. -/
def Progress.next (progress : Progress) (lexeme : Lexeme) : Option Progress :=
  match progress, lexeme.token with
  | .start, .opening tag => some (.inside ⟨lexeme.start, tag, []⟩ [])
  | .inside frame outer, .opening tag => some (.inside ⟨lexeme.start, tag, []⟩ (frame :: outer))
  | .inside frame outer, .quoted source => some (.inside (frame.add (.quoted source)) outer)
  | .inside frame outer, .atom source => some (.inside (frame.add (.atom source)) outer)
  | .inside frame [], .closing => some (.complete (frame.close (lexeme.start.drop 1)))
  | .inside frame (parent :: outer), .closing =>
    some (.inside (parent.add (frame.close (lexeme.start.drop 1))) outer)
  | .complete node, .finish => some (.complete node)
  | _, _ => none

/-- What is left of the text where reading stops before a token. Behind a complete group only the
end is looked for; elsewhere reading goes into the token as far as it can. -/
def Progress.stop (progress : Progress) (lexeme : Lexeme) : List Char :=
  match progress, lexeme.token with
  | .complete _, _ => lexeme.start
  | _, .stuck left => left
  | _, _ => lexeme.start

/-- Reads the tokens to the end. On failure, what is left of the text where reading stopped. -/
def Progress.run (progress : Progress) : List Lexeme → Except (List Char) Node
  | [] =>
    match progress with
    | .complete node => .ok node
    | _ => .error []
  | lexeme :: rest =>
    match progress.next lexeme with
    | some progress => progress.run rest
    | none => .error (progress.stop lexeme)

/-- The structure of a text that is one group, or what is left of it where reading stopped. -/
def Node.read (text : List Char) : Except (List Char) Node :=
  Progress.start.run (lexemes 0 text)

end FormatCompiler.Expr
