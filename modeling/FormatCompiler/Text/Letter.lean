import FormatCompiler.Text.LetterTable

/-!
Letters and their case, in all of Unicode.
-/

namespace FormatCompiler.Text

set_option autoImplicit false

def isAlphanumeric (c : Char) : Bool :=
  if c.toNat < 128 then c.isAlphanum
  else LetterTable.alphanumeric.any fun (first, last) => first ≤ c.toNat && c.toNat ≤ last

/-- Whether a code point is one of those a span holds. -/
def inSpan (code first last step : Nat) : Bool :=
  first ≤ code && code ≤ last && (code - first) % step == 0

def isUpper (c : Char) : Bool :=
  if c.toNat < 128 then c.isUpper
  else LetterTable.upper.any fun (first, last, step) => inSpan c.toNat first last step

def isLower (c : Char) : Bool :=
  if c.toNat < 128 then c.isLower
  else LetterTable.lower.any fun (first, last, step) => inSpan c.toNat first last step

/-- The other case of a character, by the entries for one character and for several. -/
def changeCase (single : List (Nat × Nat × Nat × Int)) (many : List (Nat × List Nat)) (c : Char) :
    List Char :=
  match many.lookup c.toNat with
  | some codes => codes.map Char.ofNat
  | none =>
    match single.find? fun (first, last, step, _) => inSpan c.toNat first last step with
    | some (_, _, _, shift) => [Char.ofNat (c.toNat + shift).toNat]
    | none => [c]

def toUpper (c : Char) : List Char :=
  if c.toNat < 128 then [c.toUpper]
  else changeCase LetterTable.toUpper LetterTable.toUpperMany c

def toLower (c : Char) : List Char :=
  if c.toNat < 128 then [c.toLower]
  else changeCase LetterTable.toLower LetterTable.toLowerMany c

end FormatCompiler.Text
