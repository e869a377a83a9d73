/-!
Paths as text, with pieces between slashes. Empty pieces and pieces `.` name nothing, except a `.`
that a relative path starts with.
-/

namespace FormatCompiler.Path

set_option autoImplicit false

def isAbsolute (path : String) : Bool :=
  path.toList.head? == some '/'

/-- Cuts a text at every slash. The piece under way is held in reverse. -/
def cut (piece : List Char) : List Char → List String
  | [] => [String.ofList piece.reverse]
  | c :: rest =>
    if c = '/' then String.ofList piece.reverse :: cut [] rest else cut (c :: piece) rest

def pieces (path : String) : List String :=
  cut [] path.toList

/-- Puts a path under another; an absolute path stands alone. -/
def join (base path : String) : String :=
  if isAbsolute path || base.isEmpty then path
  else if base.toList.getLast? == some '/' then base ++ path
  else base ++ "/" ++ path

/-- Drops the pieces that name nothing from the end of a path. Pieces are held in reverse. -/
def dropIdle : List String → List String
  | [] => []
  | [piece] => if piece = "" then [] else [piece]
  | piece :: next :: rest =>
    if piece = "" ∨ piece = "." then dropIdle (next :: rest) else piece :: next :: rest

theorem dropIdle_length (pieces : List String) : (dropIdle pieces).length ≤ pieces.length := by
  fun_induction dropIdle pieces <;> simp_all
  omega

/-- The path that some pieces, held in reverse, spell out. -/
def spell (absolute : Bool) (pieces : List String) : String :=
  match pieces with
  | [] => if absolute then "/" else ""
  | _ => String.intercalate "/" pieces.reverse

/-- The paths above one whose pieces are given in reverse, from the nearest to the farthest. -/
def above (absolute : Bool) (pieces : List String) : List String :=
  match pieces with
  | [] => []
  | _ :: outer => spell absolute (dropIdle outer) :: above absolute (dropIdle outer)
termination_by pieces.length
decreasing_by
  have shorter := dropIdle_length outer
  simp
  omega

/-- The directories a path lies in, from the nearest to the farthest. -/
def ancestors (path : String) : List String :=
  above (isAbsolute path) (dropIdle (pieces path).reverse)

/-- The directory a path lies in. The root and the empty path lie in none. -/
def parent (path : String) : Option String :=
  (ancestors path).head?

/-- The part of a file name before its last dot; a dot at the start does not count. -/
def stem (file : String) : String :=
  if file = ".." then file
  else
    let reversed := file.toList.reverse
    match reversed.dropWhile (· != '.') with
    | '.' :: c :: rest => String.ofList (c :: rest).reverse
    | _ => file

/-- The last piece of a path written with slashes or backslashes. -/
def lastPiece (path : String) : String :=
  String.ofList (path.toList.reverse.takeWhile fun c => c != '/' && c != '\\').reverse

end FormatCompiler.Path
