/-!
Texts as lists of characters: the blanks around them, their lines, and how they stand between double
quotes, with a backslash before every quote and backslash.
-/

namespace FormatCompiler.Text

set_option autoImplicit false

/-! ### Blanks -/

/-- The characters with the Unicode property White_Space. -/
def isBlank (c : Char) : Bool :=
  let n := c.toNat
  (9 ≤ n && n ≤ 13) || n == 0x20 || n == 0x85 || n == 0xA0 || n == 0x1680 ||
    (0x2000 ≤ n && n ≤ 0x200A) || n == 0x2028 || n == 0x2029 || n == 0x202F || n == 0x205F ||
    n == 0x3000

def trimStart (text : List Char) : List Char :=
  text.dropWhile isBlank

def trimEnd (text : List Char) : List Char :=
  (text.reverse.dropWhile isBlank).reverse

def trim (text : List Char) : List Char :=
  trimEnd (trimStart text)

/-- The first run of characters that are not blank. -/
def firstWord (text : List Char) : List Char :=
  (trimStart text).takeWhile fun c => !isBlank c

/-- The text with every blank taken out. -/
def compact (text : List Char) : List Char :=
  text.filter fun c => !isBlank c

/-! ### Lines

A line ends at a line feed, and a carriage return just before the feed belongs to the end of the
line. A text that ends with a feed has no further, empty line. -/

/-- Cuts a text at every line feed; the feeds are dropped. There is always a last piece. -/
def splitFeeds (line : List Char) : List Char → List (List Char)
  | [] => [line.reverse]
  | c :: rest => if c = '\n' then line.reverse :: splitFeeds [] rest else splitFeeds (c :: line) rest

/-- A line without the carriage return that stood before its feed. -/
def dropReturn (line : List Char) : List Char :=
  match line.reverse with
  | '\r' :: rest => rest.reverse
  | _ => line

/-- Only a line that a feed ended loses a carriage return, and an empty last piece is no line. -/
def endLines : List (List Char) → List (List Char)
  | [] => []
  | [last] => if last.isEmpty then [] else [last]
  | line :: rest => dropReturn line :: endLines rest

def lines (text : List Char) : List (List Char) :=
  endLines (splitFeeds [] text)

/-! ### Quotes -/

/-- A backslash goes before a quote and before a backslash. -/
def escape : List Char → List Char
  | [] => []
  | c :: rest => if c = '"' ∨ c = '\\' then '\\' :: c :: escape rest else c :: escape rest

/-- Drops each backslash and keeps the character after it as it is. -/
def unescape : List Char → List Char
  | [] => []
  | ['\\'] => []
  | '\\' :: c :: rest => c :: unescape rest
  | c :: rest => c :: unescape rest

def quote (text : List Char) : List Char :=
  '"' :: (escape text ++ ['"'])

end FormatCompiler.Text
