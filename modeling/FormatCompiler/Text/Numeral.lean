/-!
Integers as text. A numeral is read with an optional sign, and only when its value fits the range
asked for; it is written in decimal without leading zeros.
-/

namespace FormatCompiler.Text

set_option autoImplicit false

/-- The value of a digit below `base`; letters in either case follow nine. -/
def digitValue (base : Nat) (c : Char) : Option Nat :=
  let value :=
    if '0' ≤ c ∧ c ≤ '9' then some (c.toNat - '0'.toNat)
    else if 'a' ≤ c ∧ c ≤ 'z' then some (c.toNat - 'a'.toNat + 10)
    else if 'A' ≤ c ∧ c ≤ 'Z' then some (c.toNat - 'A'.toNat + 10)
    else none
  value.filter (· < base)

/-- The value of a run of digits after `value`. -/
def readDigits (base value : Nat) : List Char → Option Nat
  | [] => some value
  | c :: rest => (digitValue base c).bind fun digit => readDigits base (value * base + digit) rest

/-- At least one digit, and nothing else. -/
def readMagnitude (base : Nat) : List Char → Option Nat
  | [] => none
  | text => readDigits base 0 text

/-- An unsigned numeral below `bound`; a plus sign may stand before it. -/
def readNat (base bound : Nat) (text : List Char) : Option Nat :=
  let magnitude :=
    match text with
    | '+' :: rest => readMagnitude base rest
    | _ => readMagnitude base text
  magnitude.filter (· < bound)

/-- A count: an unsigned numeral of at most 64 bits. -/
def readCount (text : List Char) : Option Nat :=
  readNat 10 UInt64.size text

/-- A signed decimal numeral, whatever its size. -/
def readInt (text : List Char) : Option Int :=
  match text with
  | '+' :: rest => (readMagnitude 10 rest).map Int.ofNat
  | '-' :: rest => (readMagnitude 10 rest).map fun magnitude => -Int.ofNat magnitude
  | _ => (readMagnitude 10 text).map Int.ofNat

/-- Whether a number is one of the 64-bit signed integers. -/
def fitsInt64 (value : Int) : Bool :=
  Int64.minValue.toInt ≤ value && value ≤ Int64.maxValue.toInt

def readInt64 (text : List Char) : Option Int64 :=
  ((readInt text).filter fitsInt64).map Int64.ofInt

/-- A byte, in decimal or, after `0x` or `0X`, in hexadecimal. -/
def readByte (text : List Char) : Option UInt8 :=
  let value :=
    match text with
    | '0' :: 'x' :: rest => readNat 16 256 rest
    | '0' :: 'X' :: rest => readNat 16 256 rest
    | _ => readNat 10 256 text
  value.map Nat.toUInt8

def showNat (value : Nat) : String :=
  String.ofList (Nat.toDigits 10 value)

def showInt (value : Int) : String :=
  match value with
  | .ofNat magnitude => showNat magnitude
  | .negSucc magnitude => "-" ++ showNat (magnitude + 1)

def showInt64 (value : Int64) : String :=
  showInt value.toInt

end FormatCompiler.Text
