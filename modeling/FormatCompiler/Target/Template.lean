import FormatCompiler.Code
import FormatCompiler.Target.Dialect

/-!
Generated code with its reads set apart. The steps around the reads are made of fixed words and of
expressions; how a read is worded is left to the dialect.
-/

namespace FormatCompiler

set_option autoImplicit false

/-- What is read and kept, as a value of an enum if one is given. -/
structure Kept where
  enumName : Option String
  read : Read
  deriving DecidableEq, Repr

def Kept.text (dialect : Dialect) (kept : Kept) : String :=
  dialect.value kept.enumName kept.read

/-- A step of generated code, with what is read on it set apart. -/
inductive Slot where
  /-- A step that reads nothing. -/
  | plain (step : Step)
  /-- A line that keeps what is read. -/
  | keep (before : String) (kept : Kept) (after : String)
  deriving DecidableEq, Repr

namespace Slot

def step (dialect : Dialect) : Slot → Step
  | .plain step => step
  | .keep before kept after => .line (before ++ kept.text dialect ++ after)

/-- A line that reads nothing. -/
def line (text : String) : Slot := .plain (.line text)

def blank : Slot := .plain .blank

end Slot

abbrev Template := List Slot

namespace Template

/-- The code of a template, in the words of a dialect. -/
def code (dialect : Dialect) (template : Template) : Code :=
  template.map (Slot.step dialect)

/-- Code that reads nothing. -/
def plain (code : Code) : Template :=
  code.map Slot.plain

def block (body : Template) : Template :=
  .plain .indent :: body ++ [.plain .dedent]

/-- A line that opens a block of one line. -/
def branch (head : String) (body : Slot) : Template :=
  .line head :: block [body]

/-- A read at another position of the stream, if one is given, between lines that note the position
before and go back to it. -/
def away (leave : String) (seek : Option String) (read : Slot) (back : String) : Template :=
  .line leave :: seek.toList.map Slot.line ++ [read, .line back]

/-- The cases of a switch that have a value. Each is a line below a head, which is made of a word
that opens it and of the value; the word is another one from the second case on. -/
def arms (head : String → Expr → String) (line : SwitchCase → Slot) (later opening : String) :
    List SwitchCase → Template
  | [] => []
  | case :: rest =>
    match case.value with
    | none => arms head line later opening rest
    | some value => branch (head opening value) (line case) ++ arms head line later later rest

end Template

end FormatCompiler
