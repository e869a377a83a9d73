import FormatCompiler.Text.Letter

/-!
Identifiers in another case style. An identifier is cut into words at every character that is no
letter or number, before an upper-case letter that follows a lower-case one, and before the last
letter of an upper-case run that a lower-case letter follows.
-/

namespace FormatCompiler.Text

set_option autoImplicit false

/-- The case of the letters of a word so far; digits leave it as it is. -/
inductive WordCase where
  | unknown
  | lower
  | upper
  deriving DecidableEq, Repr

/-- Cuts a run of letters and numbers into words. The word under way is held in reverse. -/
def splitHumps (seen : WordCase) (word : List Char) : List Char → List (List Char)
  | [] => []
  | [c] => [(c :: word).reverse]
  | c :: next :: rest =>
    let now := if isLower c then .lower else if isUpper c then .upper else seen
    if now = .lower ∧ isUpper next then
      (c :: word).reverse :: splitHumps .unknown [] (next :: rest)
    else if seen = .upper ∧ isUpper c ∧ isLower next then
      word.reverse :: splitHumps .unknown [c] (next :: rest)
    else splitHumps now (c :: word) (next :: rest)

/-- The runs of letters and numbers of a text. The run under way is held in reverse. -/
def splitRuns (run : List Char) : List Char → List (List Char)
  | [] => [run.reverse]
  | c :: rest => if isAlphanumeric c then splitRuns (c :: run) rest else run.reverse :: splitRuns [] rest

def caseWords (text : List Char) : List (List Char) :=
  (splitRuns [] text).flatMap (splitHumps .unknown [])

/-- Lower case; a capital sigma that ends the word takes its final form. -/
def lowerWord : List Char → List Char
  | [] => []
  | ['Σ'] => ['ς']
  | c :: rest => toLower c ++ lowerWord rest

def upperWord (word : List Char) : List Char :=
  word.flatMap toUpper

def capitalWord : List Char → List Char
  | [] => []
  | c :: rest => toUpper c ++ lowerWord rest

/-- Every word capitalised, with nothing between: `my_format` is `MyFormat`. -/
def upperCamel (text : List Char) : List Char :=
  (caseWords text).flatMap capitalWord

/-- Every word in upper case, with underscores between: `fileKind` is `FILE_KIND`. -/
def shoutySnake (text : List Char) : List Char :=
  List.intercalate ['_'] ((caseWords text).map upperWord)

end FormatCompiler.Text
