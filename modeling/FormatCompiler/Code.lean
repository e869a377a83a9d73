/-!
The layout of generated text: lines, empty lines, and the steps in and out between them. The margin
of a line is one unit for each level; the level is a byte, and no step out goes below zero. A part
may count its levels by itself, from the one it starts at: what is behind it is not moved by it.
-/

namespace FormatCompiler

set_option autoImplicit false

inductive Step where
  /-- A line behind the margin. -/
  | line (text : String)
  /-- A line with nothing on it, not even the margin. -/
  | blank
  | indent
  | dedent
  /-- Sets the level aside. -/
  | enter
  /-- Takes up the level that was set aside last. -/
  | leave
  deriving DecidableEq, Repr

abbrev Code := List Step

namespace Code

def lines (texts : List String) : Code :=
  texts.map Step.line

/-- Some code, one level further in. -/
def block (body : Code) : Code :=
  .indent :: body ++ [.dedent]

/-- Some code that counts its levels by itself. -/
def apart (body : Code) : Code :=
  .enter :: body ++ [.leave]

/-- A line that opens a block of one line. -/
def branch (head body : String) : Code :=
  .line head :: block [.line body]

/-- An empty line, if a condition holds. -/
def blankIf (wanted : Bool) : Code :=
  if wanted then [.blank] else []

/-- A line for each entry, with a mark behind every entry but the last. -/
def separated (mark : String) : List String → Code
  | [] => []
  | [last] => [.line last]
  | entry :: rest => .line (entry ++ mark) :: separated mark rest

def margin (unit : String) (level : UInt8) : String :=
  String.join (List.replicate level.toNat unit)

/-- The level that lines are at, and the levels set aside, the last one first. -/
structure Levels where
  here : UInt8
  aside : List UInt8
  deriving DecidableEq, Repr

def Levels.start : Levels := ⟨0, []⟩

/-- The levels after a step. -/
def advance (levels : Levels) : Step → Levels
  | .line _ => levels
  | .blank => levels
  | .indent => { levels with here := levels.here + 1 }
  | .dedent => { levels with here := if levels.here = 0 then 0 else levels.here - 1 }
  | .enter => { levels with aside := levels.here :: levels.aside }
  | .leave =>
    match levels.aside with
    | [] => levels
    | level :: others => ⟨level, others⟩

/-- What a step writes at a level. -/
def written (unit : String) (level : UInt8) : Step → String
  | .line text => margin unit level ++ text ++ "\n"
  | .blank => "\n"
  | .indent => ""
  | .dedent => ""
  | .enter => ""
  | .leave => ""

/-- What each step writes, from some levels on. -/
def writtenFrom (unit : String) (levels : Levels) : Code → List String
  | [] => []
  | step :: rest => written unit levels.here step :: writtenFrom unit (advance levels step) rest

/-- The text of some code, with margins made of `unit`. -/
def render (unit : String) (code : Code) : String :=
  String.join (writtenFrom unit .start code)

end Code

end FormatCompiler
