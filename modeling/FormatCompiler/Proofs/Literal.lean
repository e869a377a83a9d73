import Mathlib.Algebra.Group.Nat.Defs
import FormatCompiler.Proofs.Utf8
import FormatCompiler.Target.Basic
import FormatCompiler.Text.Numeral

/-!
How the languages of the targets read text between double quotes. Each language says what a
character means by what is behind it: itself, other bytes together with some of the next characters,
or that the text is no literal. Bytes that are written in another way are always fewer than the
bytes of how they are written. So a literal has the value that stands between its quotes only if
every character of it means itself.
-/

namespace FormatCompiler

set_option autoImplicit false

namespace Literal

open Text.Utf8 (encode size size_append size_cons length_encode)

/-! ### Reading by rules -/

/-- What a character inside quotes means. -/
inductive Piece where
  | self
  /-- The bytes that the character and the next ones stand for. -/
  | coded (bytes : List UInt8) (more : Nat)
  /-- The text is no literal, or more than a literal. -/
  | broken
  deriving DecidableEq, Repr

/-- The rules of a language inside quotes. -/
structure Rules where
  piece : Char → List Char → Piece
  shorter : ∀ {c : Char} {rest : List Char} {bytes : List UInt8} {more : Nat},
    piece c rest = .coded bytes more → bytes.length < size (c :: rest.take more)

namespace Rules

/-- The value of what is read up to a quote, and the text behind the quote. The first `skip`
characters belong to what was read before. -/
def readFrom (rules : Rules) : Nat → List Char → Option (List UInt8 × List Char)
  | _, [] => none
  | skip + 1, _ :: rest => rules.readFrom skip rest
  | 0, c :: rest =>
    if c = '"' then some ([], rest)
    else
      match rules.piece c rest with
      | .self => (rules.readFrom 0 rest).map (Prod.map (String.utf8EncodeChar c ++ ·) id)
      | .coded bytes more => (rules.readFrom more rest).map (Prod.map (bytes ++ ·) id)
      | .broken => none

/-- Every character of a text means itself, if a quote and some more text are behind it. -/
def Verbatim (rules : Rules) (after : List Char) : List Char → Prop
  | [] => True
  | c :: rest =>
    c ≠ '"' ∧ rules.piece c (rest ++ '"' :: after) = .self ∧ rules.Verbatim after rest

end Rules

theorem length_le_size (text : List Char) : text.length ≤ size text := by
  induction text with
  | nil => exact Nat.le_refl 0
  | cons c rest ih =>
    have positive := Char.utf8Size_pos c
    rw [List.length_cons, size_cons]
    omega

namespace Rules

variable {rules : Rules}

/-- What is read is at least as long as its value, and as long only where it is its value. -/
theorem verbatim_of_readFrom {skip : Nat} {text after : List Char} {bytes : List UInt8}
    (read : rules.readFrom skip text = some (bytes, after)) :
    ∃ inside, text.drop skip = inside ++ '"' :: after ∧ bytes.length ≤ size inside ∧
      (bytes.length = size inside → rules.Verbatim after inside) := by
  induction text generalizing skip bytes with
  | nil => cases skip <;> cases read
  | cons c rest ih =>
    cases skip with
    | succ skip =>
      rw [List.drop_succ_cons]
      exact ih read
    | zero =>
      rw [readFrom] at read
      split at read
      · next quote =>
        obtain ⟨rfl, rfl⟩ := Prod.mk.inj (Option.some.inj read)
        exact ⟨[], by rw [quote]; rfl, Nat.le_refl 0, fun _ => trivial⟩
      · next other =>
        split at read
        · next meaning =>
          obtain ⟨⟨found, behind⟩, inner, same⟩ := Option.map_eq_some_iff.mp read
          obtain ⟨rfl, rfl⟩ := Prod.mk.inj same
          obtain ⟨inside, rfl, bounded, exact⟩ := ih inner
          refine ⟨c :: inside, rfl, ?_, ?_⟩
          · rw [List.length_append, String.length_utf8EncodeChar, size_cons]
            omega
          · intro full
            rw [List.length_append, String.length_utf8EncodeChar, size_cons] at full
            exact ⟨other, meaning, exact (by omega)⟩
        · next first more meaning =>
          obtain ⟨⟨found, behind⟩, inner, same⟩ := Option.map_eq_some_iff.mp read
          obtain ⟨rfl, rfl⟩ := Prod.mk.inj same
          obtain ⟨inside, split, bounded, -⟩ := ih inner
          have shorter := rules.shorter meaning
          have total : size (c :: rest.take more ++ inside) =
              size (c :: rest.take more) + size inside := size_append _ _
          refine ⟨c :: rest.take more ++ inside, ?_, ?_, ?_⟩
          · rw [List.drop_zero, List.append_assoc, ← split, List.cons_append,
              List.take_append_drop]
          · rw [List.length_append]
            omega
          · intro full
            rw [List.length_append] at full
            omega
        · cases read

theorem readFrom_of_verbatim {after text : List Char} (verbatim : rules.Verbatim after text) :
    rules.readFrom 0 (text ++ '"' :: after) = some (encode text, after) := by
  induction text with
  | nil => rfl
  | cons c rest ih =>
    obtain ⟨other, meaning, verbatim⟩ := verbatim
    rw [List.cons_append, readFrom, if_neg other, meaning, ih verbatim]
    rfl

/-- Text between quotes is read as itself just when all of it means itself. -/
theorem readFrom_eq_iff {after text : List Char} :
    rules.readFrom 0 (text ++ '"' :: after) = some (encode text, after) ↔
      rules.Verbatim after text := by
  constructor
  · intro read
    obtain ⟨inside, split, -, exact⟩ := verbatim_of_readFrom read
    obtain rfl := List.append_cancel_right split
    exact exact (length_encode _)
  · exact readFrom_of_verbatim

end Rules

/-! ### Escapes -/

/-- Reads what is behind a backslash: the bytes it stands for, and how many characters it takes. -/
abbrev Escape := List Char → Option (List UInt8 × Nat)

/-- The numeral that a text starts with, of at most so many digits. -/
def numeral (base most : Nat) (text : List Char) : List Char :=
  (text.take most).takeWhile fun c => (Text.digitValue base c).isSome

/-- A number in digits, for the bytes it has as a code. -/
def code (base least most : Nat) (bytes : Nat → Option (List UInt8)) : Escape := fun text =>
  let found := numeral base most text
  if found.length < least then none
  else ((Text.readDigits base 0 found).bind bytes).map fun bytes => (bytes, found.length)

def byte (code : Nat) : Option (List UInt8) :=
  if code < 256 then some [code.toUInt8] else none

/-- A code point in UTF-8, also where it is half a surrogate pair. -/
def point (code : Nat) : Option (List UInt8) :=
  let tail (bits : Nat) : UInt8 := (0x80 + bits % 64).toUInt8
  if code < 0x80 then some [code.toUInt8]
  else if code < 0x800 then some [(0xC0 + code / 64).toUInt8, tail code]
  else if code < 0x10000 then some [(0xE0 + code / 4096).toUInt8, tail (code / 64), tail code]
  else if code < 0x110000 then
    some [(0xF0 + code / 262144).toUInt8, tail (code / 4096), tail (code / 64), tail code]
  else none

/-- A character in UTF-8, by its code. -/
def scalar (code : Nat) : Option (List UInt8) :=
  if 0xD800 ≤ code ∧ code < 0xE000 then none else point code

/-- Characters that stand for a byte each. -/
def marked (marks : List (Char × UInt8)) : Escape
  | [] => none
  | c :: _ => (marks.lookup c).map fun byte => ([byte], 1)

/-- An escape behind the letter that says its kind. -/
def kind (letter : Char) (escape : Escape) : Escape
  | [] => none
  | c :: rest =>
    if c = letter then (escape rest).map fun (bytes, more) => (bytes, more + 1) else none

/-- An escape with a closing brace. -/
def closed (escape : Escape) : Escape := fun text =>
  (escape text).bind fun (bytes, more) =>
    if (text.drop more).head? = some '\x7d' then some (bytes, more + 1) else none

/-- The end of a line, for some bytes. -/
def lineEnd (bytes : List UInt8) : Escape
  | '\r' :: '\n' :: _ => some (bytes, 2)
  | '\r' :: _ => some (bytes, 1)
  | '\n' :: _ => some (bytes, 1)
  | _ => none

/-- The first of some escapes that reads a text. -/
def either (escapes : List Escape) : Escape := fun text =>
  escapes.findSome? fun escape => escape text

def controls : List (Char × UInt8) :=
  [('a', 7), ('b', 8), ('f', 12), ('n', 10), ('r', 13), ('t', 9), ('v', 11)]

def signs : List (Char × UInt8) :=
  [('\\', 92), ('"', 34), ('\'', 39)]

/-- A number of any length. -/
def longCode (bytes : Nat → Option (List UInt8)) : Escape := fun text =>
  code 16 1 text.length bytes text

namespace Cpp

/-- The escapes of C++17, which has no trigraphs. A line that ends in a backslash goes on in the
next. -/
def escape : Escape :=
  either [marked (('?', 63) :: controls ++ signs), code 8 1 3 byte, kind 'x' (longCode byte),
    kind 'u' (code 16 4 4 scalar), kind 'U' (code 16 8 8 scalar), lineEnd []]

end Cpp

namespace Lua

def isSpace (c : Char) : Bool :=
  [' ', '\t', '\n', '\x0b', '\x0c', '\r'].contains c

/-- The line feed may also come first where two characters end a line. -/
def lineBreak : Escape
  | '\n' :: '\r' :: _ => some ([10], 2)
  | text => lineEnd [10] text

def escape : Escape :=
  either [marked (controls ++ signs), code 10 1 3 byte, kind 'x' (code 16 2 2 byte),
    kind 'u' (kind '\x7b' (closed (longCode point))),
    kind 'z' fun text => some ([], (text.takeWhile isSpace).length), lineBreak]

end Lua

namespace Python

/-- A character by its name. -/
def named (names : List Char → Option Char) : Escape
  | 'N' :: '\x7b' :: rest =>
    let name := rest.takeWhile fun c => !(['\x7d', '"', '\\'].contains c)
    if name ≠ [] ∧ (rest.drop name.length).head? = some '\x7d' then
      (names name).map fun c => (String.utf8EncodeChar c, name.length + 3)
    else none
  | _ => none

def escape (names : List Char → Option Char) : Escape :=
  either [marked (controls ++ signs), code 8 1 3 point, kind 'x' (code 16 2 2 point),
    kind 'u' (code 16 4 4 point), kind 'U' (code 16 8 8 point), named names, lineEnd []]

/-- The characters that make a backslash before them an escape. -/
def escapes : List Char :=
  (controls ++ signs).map Prod.fst ++
    ['0', '1', '2', '3', '4', '5', '6', '7', 'x', 'u', 'U', 'N', '\n', '\r']

end Python

namespace Ruby

def marks : List (Char × UInt8) := controls ++ [('e', 27), ('s', 32)]

def octal : Escape := code 8 1 3 fun code => byte (code % 256)

def ascii (c : Char) : Option (List UInt8 × Nat) :=
  if c.toNat < 128 then some ([c.toNat.toUInt8], 1) else none

/-- What stands for one byte and is neither a control nor a meta character. -/
def single : Escape :=
  either [marked marks, octal, kind 'x' (code 16 1 2 byte), fun text => text.head?.bind ascii]

/-- An inner escape whose bytes are changed. -/
def changed (count : Nat) (change : UInt8 → UInt8) (inner : Option (List UInt8 × Nat)) :
    Option (List UInt8 × Nat) :=
  inner.map fun (bytes, more) => (bytes.map change, more + count)

/-- Control and meta characters, which may be one another. -/
def control : Escape
  | 'M' :: '-' :: '\\' :: rest =>
    changed 3 (· ||| 0x80) ((control rest).or (single rest))
  | 'C' :: '-' :: '\\' :: rest =>
    changed 3 (· &&& 0x9F) ((control rest).or (single rest))
  | 'c' :: '\\' :: rest => changed 2 (· &&& 0x9F) ((control rest).or (single rest))
  | 'M' :: '-' :: c :: _ => changed 2 (· ||| 0x80) (ascii c)
  | 'C' :: '-' :: c :: _ =>
    if c = '?' then some ([0x7F], 3) else changed 2 (· &&& 0x9F) (ascii c)
  | 'c' :: c :: _ => if c = '?' then some ([0x7F], 2) else changed 1 (· &&& 0x9F) (ascii c)
  | _ => none

/-- The character of a code between braces, if there is a code. -/
def character (digits : List Char) : Option (List UInt8) :=
  if digits = [] then some []
  else if digits.length ≤ 6 then (Text.readDigits 16 0 digits).bind scalar
  else none

/-- Codes between braces with blanks between them. The digits are those of the code that is
read. -/
def codes (digits : List Char) : Escape
  | [] => none
  | c :: rest =>
    if c = '\x7d' then (character digits).map fun bytes => (bytes, 1)
    else if Lua.isSpace c then
      (character digits).bind fun first =>
        (codes [] rest).map fun (bytes, more) => (first ++ bytes, more + 1)
    else (codes (digits ++ [c]) rest).map fun (bytes, more) => (bytes, more + 1)

/-- A backslash before any other character is left out. -/
def other : Escape
  | [] => none
  | c :: _ =>
    if ['x', 'u', 'M', 'C', 'c'].contains c then none else some (String.utf8EncodeChar c, 1)

def escape : Escape :=
  either [marked marks, octal, kind 'x' (code 16 1 2 byte), kind 'u' (kind '\x7b' (codes [])),
    kind 'u' (code 16 4 4 scalar), control, lineEnd [], other]

/-- What a name starts with. -/
def isNameStart (c : Char) : Bool :=
  c.toNat ≥ 128 || c == '_' || c.isAlpha

/-- Global variables whose names are signs. -/
def signGlobals : List Char :=
  ['~', '*', '$', '?', '!', '@', '/', '\\', ';', ',', '.', '=', ':', '<', '>', '"', '&', '\x60',
    '\'', '+']

def startsName (text : List Char) : Bool :=
  text.head?.any isNameStart

/-- Whether a `#` before a text puts in a value: that of an expression between braces, or that of
an instance, class or global variable. -/
def putsIn : List Char → Bool
  | [] => false
  | c :: rest =>
    if c = '\x7b' then true
    else if c = '@' then
      if rest.head? = some '@' then startsName rest.tail else startsName rest
    else if c = '$' then
      if rest.head? = some '-' then startsName rest.tail
      else rest.head?.any fun c => isNameStart c || c.isDigit || signGlobals.contains c
    else false

end Ruby

/-! ### Escapes are longer than what they stand for -/

/-- The backslash comes on top of the characters that an escape takes. -/
def Short (escape : Escape) : Prop :=
  ∀ text bytes more, escape text = some (bytes, more) → bytes.length ≤ size (text.take more)

/-- An escape of characters that are there, and as many as the bytes it stands for. -/
def Counted (escape : Escape) : Prop :=
  ∀ text bytes more, escape text = some (bytes, more) → bytes.length ≤ more ∧ more ≤ text.length

theorem Counted.short {escape : Escape} (counted : Counted escape) : Short escape := by
  intro text bytes more read
  obtain ⟨fewer, inside⟩ := counted text bytes more read
  have taken := length_le_size (text.take more)
  rw [List.length_take] at taken
  omega

theorem Short.either {escapes : List Escape} (short : ∀ escape ∈ escapes, Short escape) :
    Short (either escapes) := by
  intro text bytes more read
  obtain ⟨escape, member, found⟩ := List.exists_of_findSome?_eq_some read
  exact short escape member text bytes more found

theorem Counted.either {escapes : List Escape} (counted : ∀ escape ∈ escapes, Counted escape) :
    Counted (either escapes) := by
  intro text bytes more read
  obtain ⟨escape, member, found⟩ := List.exists_of_findSome?_eq_some read
  exact counted escape member text bytes more found

theorem Counted.kind {escape : Escape} (counted : Counted escape) (letter : Char) :
    Counted (kind letter escape) := by
  intro text bytes more read
  cases text with
  | nil => cases read
  | cons c rest =>
    rw [Literal.kind] at read
    split at read
    · obtain ⟨⟨found, count⟩, inner, same⟩ := Option.map_eq_some_iff.mp read
      obtain ⟨rfl, rfl⟩ := Prod.mk.inj same
      obtain ⟨fewer, inside⟩ := counted rest found count inner
      rw [List.length_cons]
      omega
    · cases read

theorem lt_length_of_head {text : List Char} {count : Nat} {c : Char}
    (next : (text.drop count).head? = some c) : count < text.length := by
  apply Nat.lt_of_not_le
  intro past
  rw [List.drop_eq_nil_of_le past] at next
  cases next

theorem Counted.closed {escape : Escape} (counted : Counted escape) : Counted (closed escape) := by
  intro text bytes more read
  obtain ⟨⟨found, count⟩, inner, rest⟩ := Option.bind_eq_some_iff.mp read
  dsimp only at rest
  split at rest
  · next brace =>
    obtain ⟨rfl, rfl⟩ := Prod.mk.inj (Option.some.inj rest)
    obtain ⟨fewer, inside⟩ := counted text found count inner
    have left := lt_length_of_head brace
    omega
  · cases rest

theorem counted_marked (marks : List (Char × UInt8)) : Counted (marked marks) := by
  intro text bytes more read
  cases text with
  | nil => cases read
  | cons c rest =>
    obtain ⟨value, -, same⟩ := Option.map_eq_some_iff.mp read
    obtain ⟨rfl, rfl⟩ := Prod.mk.inj same
    exact ⟨Nat.le_refl 1, Nat.succ_pos _⟩

theorem counted_lineEnd {bytes : List UInt8} (short : bytes.length ≤ 1) :
    Counted (lineEnd bytes) := by
  intro text found more read
  unfold lineEnd at read
  split at read
  · obtain ⟨rfl, rfl⟩ := Prod.mk.inj (Option.some.inj read)
    simp only [List.length_cons]
    omega
  · obtain ⟨rfl, rfl⟩ := Prod.mk.inj (Option.some.inj read)
    simp only [List.length_cons]
    omega
  · obtain ⟨rfl, rfl⟩ := Prod.mk.inj (Option.some.inj read)
    simp only [List.length_cons]
    omega
  · cases read

/-! ### Codes -/

theorem digitValue_lt {base digit : Nat} {c : Char} (found : Text.digitValue base c = some digit) :
    digit < base := by
  simpa using (Option.filter_eq_some_iff.mp found).2

theorem readDigits_lt {base value result : Nat} {text : List Char}
    (read : Text.readDigits base value text = some result) :
    result < (value + 1) * base ^ text.length := by
  induction text generalizing value with
  | nil =>
    obtain rfl := Option.some.inj read
    rw [List.length_nil, Nat.pow_zero]
    omega
  | cons c rest ih =>
    obtain ⟨digit, found, read⟩ := Option.bind_eq_some_iff.mp read
    have small := digitValue_lt found
    calc result < (value * base + digit + 1) * base ^ rest.length := ih read
      _ ≤ ((value + 1) * base) * base ^ rest.length := by
        apply Nat.mul_le_mul_right
        rw [Nat.add_mul]
        omega
      _ = (value + 1) * base ^ (c :: rest).length := by
        rw [List.length_cons, Nat.pow_succ', Nat.mul_assoc]

/-- Bytes of a code that are no more than its digits. -/
def Fits (bytes : Nat → Option (List UInt8)) : Prop :=
  ∀ code count found, code < 16 ^ (count + 1) → bytes code = some found → found.length ≤ count + 1

theorem fits_byte : Fits byte := by
  intro code count found small read
  unfold byte at read
  split at read
  · obtain rfl := Option.some.inj read
    exact Nat.succ_le_succ (Nat.zero_le count)
  · cases read

theorem fits_point : Fits point := by
  intro code count found small read
  -- a code of one, two or three digits is below the first code of a longer form
  have least : ∀ bound, 16 ^ (bound + 1) ≤ code → bound + 1 ≤ count := by
    intro bound large
    apply Nat.le_of_not_lt
    intro few
    have grown : 16 ^ (count + 1) ≤ 16 ^ (bound + 1) := Nat.pow_le_pow_right (by omega) (by omega)
    omega
  have two := least 0
  have three := least 1
  have four := least 2
  unfold point at read
  split at read
  · obtain rfl := Option.some.inj read
    simp only [List.length_cons, List.length_nil]
    omega
  · split at read
    · obtain rfl := Option.some.inj read
      simp only [List.length_cons, List.length_nil]
      omega
    · split at read
      · obtain rfl := Option.some.inj read
        simp only [List.length_cons, List.length_nil]
        omega
      · split at read
        · obtain rfl := Option.some.inj read
          simp only [List.length_cons, List.length_nil]
          omega
        · cases read

theorem fits_scalar : Fits scalar := by
  intro code count found small read
  unfold scalar at read
  split at read
  · cases read
  · exact fits_point code count found small read

theorem length_numeral_le (base most : Nat) (text : List Char) :
    (numeral base most text).length ≤ text.length := by
  have first : (numeral base most text).length ≤ (text.take most).length :=
    (List.takeWhile_prefix _).length_le
  exact Nat.le_trans first (List.take_prefix most text).length_le

theorem Fits.length_le {bytes : Nat → Option (List UInt8)} (fits : Fits bytes) {base : Nat}
    (small : base ≤ 16) {digits : List Char} (inhabited : digits ≠ []) {found : List UInt8}
    (read : (Text.readDigits base 0 digits).bind bytes = some found) :
    found.length ≤ digits.length := by
  obtain ⟨value, number, coded⟩ := Option.bind_eq_some_iff.mp read
  obtain ⟨count, length⟩ := Nat.exists_eq_add_one.mpr (List.length_pos_iff.mpr inhabited)
  have bounded : value < 16 ^ (count + 1) := by
    have below := readDigits_lt number
    rw [Nat.zero_add, Nat.one_mul, length] at below
    exact Nat.lt_of_lt_of_le below (Nat.pow_le_pow_left small _)
  rw [length]
  exact fits value count found bounded coded

theorem Fits.counted {bytes : Nat → Option (List UInt8)} (fits : Fits bytes) {base least : Nat}
    (small : base ≤ 16) (positive : 0 < least) (most : Nat) :
    Counted (code base least most bytes) := by
  intro text found more read
  unfold code at read
  dsimp only at read
  split at read
  · cases read
  · next enough =>
    obtain ⟨value, coded, same⟩ := Option.map_eq_some_iff.mp read
    obtain ⟨rfl, rfl⟩ := Prod.mk.inj same
    have inhabited : numeral base most text ≠ [] := by
      intro none
      rw [none, List.length_nil] at enough
      omega
    exact ⟨fits.length_le small inhabited coded, length_numeral_le base most text⟩

theorem Fits.counted_longCode {bytes : Nat → Option (List UInt8)} (fits : Fits bytes) :
    Counted (longCode bytes) := fun text =>
  fits.counted (Nat.le_refl 16) Nat.one_pos text.length text

/-! ### The languages -/

theorem Cpp.short_escape : Short escape := by
  apply Counted.short
  apply Counted.either
  simp only [List.forall_mem_cons, List.not_mem_nil, false_implies, implies_true, and_true]
  refine ⟨counted_marked _, fits_byte.counted (by decide) (by decide) 3,
    fits_byte.counted_longCode.kind 'x', ?_, ?_, counted_lineEnd (by decide)⟩
  · exact (fits_scalar.counted (by decide) (by decide) 4).kind 'u'
  · exact (fits_scalar.counted (by decide) (by decide) 8).kind 'U'

theorem Lua.counted_lineBreak : Counted lineBreak := by
  intro text bytes more read
  unfold lineBreak at read
  split at read
  · obtain ⟨rfl, rfl⟩ := Prod.mk.inj (Option.some.inj read)
    simp only [List.length_cons, List.length_nil]
    omega
  · exact counted_lineEnd (by decide) _ bytes more read

theorem Lua.counted_gap : Counted fun text => some ([], (text.takeWhile isSpace).length) := by
  intro text bytes more read
  obtain ⟨rfl, rfl⟩ := Prod.mk.inj (Option.some.inj read)
  exact ⟨Nat.zero_le _, (List.takeWhile_prefix _).length_le⟩

theorem Lua.short_escape : Short escape := by
  apply Counted.short
  apply Counted.either
  simp only [List.forall_mem_cons, List.not_mem_nil, false_implies, implies_true, and_true]
  refine ⟨counted_marked _, fits_byte.counted (by decide) (by decide) 3, ?_, ?_,
    counted_gap.kind 'z', counted_lineBreak⟩
  · exact (fits_byte.counted (by decide) (by decide) 2).kind 'x'
  · exact (fits_point.counted_longCode.closed.kind '\x7b').kind 'u'

theorem Python.counted_named (names : List Char → Option Char) : Counted (named names) := by
  intro text bytes more read
  unfold named at read
  split at read
  · next rest =>
    dsimp only at read
    split at read
    · next closes =>
      obtain ⟨c, -, same⟩ := Option.map_eq_some_iff.mp read
      obtain ⟨rfl, rfl⟩ := Prod.mk.inj same
      have name := List.length_pos_iff.mpr closes.1
      have left := lt_length_of_head closes.2
      have four := Char.utf8Size_le_four c
      rw [String.length_utf8EncodeChar, List.length_cons, List.length_cons]
      omega
    · cases read
  · cases read

theorem Python.short_escape (names : List Char → Option Char) : Short (escape names) := by
  apply Counted.short
  apply Counted.either
  simp only [List.forall_mem_cons, List.not_mem_nil, false_implies, implies_true, and_true]
  refine ⟨counted_marked _, fits_point.counted (by decide) (by decide) 3, ?_, ?_, ?_,
    counted_named names, counted_lineEnd (by decide)⟩
  · exact (fits_point.counted (by decide) (by decide) 2).kind 'x'
  · exact (fits_point.counted (by decide) (by decide) 4).kind 'u'
  · exact (fits_point.counted (by decide) (by decide) 8).kind 'U'

namespace Ruby

theorem counted_octal : Counted octal := by
  have fits : Fits fun code => byte (code % 256) := by
    intro code count found small read
    exact fits_byte (code % 256) count found (Nat.lt_of_le_of_lt (Nat.mod_le code 256) small) read
  exact fits.counted (by decide) (by decide) 3

theorem counted_hex : Counted (kind 'x' (code 16 1 2 byte)) :=
  (fits_byte.counted (by decide) (by decide) 2).kind 'x'

theorem eq_of_ascii {c : Char} {bytes : List UInt8} {more : Nat}
    (read : ascii c = some (bytes, more)) : bytes.length = 1 ∧ more = 1 := by
  unfold ascii at read
  split at read
  · obtain ⟨rfl, rfl⟩ := Prod.mk.inj (Option.some.inj read)
    exact ⟨rfl, rfl⟩
  · cases read

theorem counted_single : Counted single := by
  apply Counted.either
  simp only [List.forall_mem_cons, List.not_mem_nil, false_implies, implies_true, and_true]
  refine ⟨counted_marked _, counted_octal, counted_hex, ?_⟩
  intro text bytes more read
  cases text with
  | nil => cases read
  | cons c rest =>
    obtain ⟨length, rfl⟩ := eq_of_ascii read
    exact ⟨Nat.le_of_eq length, Nat.succ_pos _⟩

theorem eq_of_changed {count more : Nat} {change : UInt8 → UInt8} {bytes : List UInt8}
    {inner : Option (List UInt8 × Nat)} (read : changed count change inner = some (bytes, more)) :
    ∃ found taken, inner = some (found, taken) ∧ bytes.length = found.length ∧
      more = taken + count := by
  obtain ⟨⟨found, taken⟩, inner, same⟩ := Option.map_eq_some_iff.mp read
  obtain ⟨rfl, rfl⟩ := Prod.mk.inj same
  exact ⟨found, taken, inner, List.length_map _, rfl⟩

theorem counted_control : Counted control := by
  have nested : ∀ {rest : List Char} {count more : Nat} {change : UInt8 → UInt8}
      {bytes : List UInt8},
      (∀ bytes more, control rest = some (bytes, more) →
        bytes.length ≤ more ∧ more ≤ rest.length) →
      changed count change ((control rest).or (single rest)) = some (bytes, more) →
        bytes.length ≤ more ∧ more ≤ rest.length + count := by
    intro rest count more change bytes ih read
    obtain ⟨found, taken, inner, length, rfl⟩ := eq_of_changed read
    have counted : found.length ≤ taken ∧ taken ≤ rest.length := by
      rcases Option.or_eq_some_iff.mp inner with own | ⟨-, other⟩
      · exact ih found taken own
      · exact counted_single rest found taken other
    omega
  have plain : ∀ {c : Char} {count more : Nat} {change : UInt8 → UInt8} {bytes : List UInt8},
      changed count change (ascii c) = some (bytes, more) →
        bytes.length ≤ more ∧ more = count + 1 := by
    intro c count more change bytes read
    obtain ⟨found, taken, inner, length, rfl⟩ := eq_of_changed read
    obtain ⟨one, rfl⟩ := eq_of_ascii inner
    omega
  intro text
  fun_induction control text with
  | case1 rest ih | case2 rest ih | case3 rest ih =>
    intro bytes more read
    have counted := nested ih read
    exact counted
  | case4 c rest | case6 c rest | case8 c rest =>
    intro bytes more read
    obtain ⟨fewer, rfl⟩ := plain read
    exact ⟨fewer, by simp only [List.length_cons]; omega⟩
  | case5 | case7 =>
    intro bytes more read
    obtain ⟨rfl, rfl⟩ := Prod.mk.inj (Option.some.inj read)
    simp only [List.length_cons, List.length_nil]
    omega
  | case9 =>
    intro bytes more read
    cases read

theorem length_character {digits : List Char} {bytes : List UInt8}
    (read : character digits = some bytes) : bytes.length ≤ digits.length := by
  unfold character at read
  split at read
  · obtain rfl := Option.some.inj read
    exact Nat.zero_le _
  · next inhabited =>
    split at read
    · exact fits_scalar.length_le (Nat.le_refl 16) inhabited read
    · cases read

theorem counted_codes {digits text : List Char} {bytes : List UInt8} {more : Nat}
    (read : codes digits text = some (bytes, more)) :
    bytes.length ≤ digits.length + more ∧ more ≤ text.length := by
  induction text generalizing digits bytes more with
  | nil => cases read
  | cons c rest ih =>
    rw [codes] at read
    split at read
    · obtain ⟨found, last, same⟩ := Option.map_eq_some_iff.mp read
      obtain ⟨rfl, rfl⟩ := Prod.mk.inj same
      have short := length_character last
      rw [List.length_cons]
      omega
    · split at read
      · obtain ⟨first, found, read⟩ := Option.bind_eq_some_iff.mp read
        obtain ⟨⟨others, taken⟩, inner, same⟩ := Option.map_eq_some_iff.mp read
        obtain ⟨rfl, rfl⟩ := Prod.mk.inj same
        have short := length_character found
        have rest := ih inner
        rw [List.length_nil] at rest
        rw [List.length_append, List.length_cons]
        omega
      · obtain ⟨⟨found, taken⟩, inner, same⟩ := Option.map_eq_some_iff.mp read
        obtain ⟨rfl, rfl⟩ := Prod.mk.inj same
        have rest := ih inner
        rw [List.length_append, List.length_singleton] at rest
        rw [List.length_cons]
        omega

theorem short_other : Short other := by
  intro text bytes more read
  cases text with
  | nil => cases read
  | cons c rest =>
    rw [other] at read
    split at read
    · cases read
    · obtain ⟨rfl, rfl⟩ := Prod.mk.inj (Option.some.inj read)
      rw [String.length_utf8EncodeChar]
      exact Nat.le_refl _

theorem short_escape : Short escape := by
  have braced : Counted (codes []) := by
    intro text bytes more read
    have counted := counted_codes read
    rwa [List.length_nil, Nat.zero_add] at counted
  apply Short.either
  simp only [List.forall_mem_cons, List.not_mem_nil, false_implies, implies_true, and_true]
  refine ⟨(counted_marked _).short, counted_octal.short, counted_hex.short,
    ((braced.kind '\x7b').kind 'u').short, ?_, counted_control.short,
    (counted_lineEnd (by decide)).short, short_other⟩
  exact ((fits_scalar.counted (by decide) (by decide) 4).kind 'u').short

end Ruby

/-- What a backslash means where every one starts an escape. -/
def escaped (escape : Escape) (rest : List Char) : Piece :=
  match escape rest with
  | some (bytes, more) => .coded bytes more
  | none => .broken

theorem shorter_of_escaped {escape : Escape} (short : Short escape) {rest : List Char}
    {bytes : List UInt8} {more : Nat} (meaning : escaped escape rest = .coded bytes more) :
    bytes.length < size ('\\' :: rest.take more) := by
  unfold escaped at meaning
  split at meaning
  · next found =>
    obtain ⟨rfl, rfl⟩ := Piece.coded.inj meaning
    have bounded := short _ _ _ found
    rw [size_cons]
    exact Nat.lt_of_le_of_lt bounded (Nat.lt_add_of_pos_left (Char.utf8Size_pos _))
  · cases meaning

theorem escaped_ne_self (escape : Escape) (rest : List Char) : escaped escape rest ≠ .self := by
  unfold escaped
  split <;> simp

/-- Rules by which a literal ends before the line does. -/
def lineRules (escape : Escape) (short : Short escape) : Rules where
  piece c rest :=
    if c = '\\' then escaped escape rest
    else if c = '\n' ∨ c = '\r' then .broken
    else .self
  shorter := by
    intro c rest bytes more meaning
    split at meaning
    · next slash =>
      rw [slash]
      exact shorter_of_escaped short meaning
    · split at meaning <;> cases meaning

/-- A backslash stays where no escape starts with it, and no text has the character zero. -/
def pythonRules (names : List Char → Option Char) : Rules where
  piece c rest :=
    if c = '\\' then
      if rest.head?.any Python.escapes.contains then escaped (Python.escape names) rest else .self
    else if c = '\n' ∨ c = '\r' ∨ c = '\x00' then .broken
    else .self
  shorter := by
    intro c rest bytes more meaning
    split at meaning
    · next slash =>
      split at meaning
      · rw [slash]
        exact shorter_of_escaped (Python.short_escape names) meaning
      · cases meaning
    · split at meaning <;> cases meaning

/-- A literal goes on over lines, which all end in a line feed alone, and values are put in. -/
def rubyRules : Rules where
  piece c rest :=
    if c = '\\' then escaped Ruby.escape rest
    else if c = '\r' ∧ rest.head? = some '\n' then .coded [10] 1
    else if c = '#' ∧ Ruby.putsIn rest then .broken
    else .self
  shorter := by
    intro c rest bytes more meaning
    split at meaning
    · next slash =>
      rw [slash]
      exact shorter_of_escaped Ruby.short_escape meaning
    · split at meaning
      · next feed =>
        obtain ⟨rfl, rfl⟩ := Piece.coded.inj meaning
        obtain ⟨rfl, next⟩ := feed
        obtain ⟨after, rfl⟩ := List.head?_eq_some_iff.mp next
        change 1 < size ['\r', '\n']
        decide
      · split at meaning <;> cases meaning

end Literal

/-- The rules of a target for literals. One of the languages has names for characters. -/
def Target.rules (names : List Char → Option Char) : Target → Literal.Rules
  | .cppStl => Literal.lineRules Literal.Cpp.escape Literal.Cpp.short_escape
  | .python => Literal.pythonRules names
  | .ruby => Literal.rubyRules
  | .lua | .wiresharkLua => Literal.lineRules Literal.Lua.escape Literal.Lua.short_escape

/-- The bytes of a literal that a text starts with, and the text behind it. Where three quotes open
a literal it is one of another kind. -/
def Target.literal? (names : List Char → Option Char) (target : Target) :
    List Char → Option (List UInt8 × List Char)
  | '"' :: text =>
    if target = .python ∧ text.take 2 = ['"', '"'] then none
    else (target.rules names).readFrom 0 text
  | _ => none

end FormatCompiler
