/-!
Base64 with the standard alphabet. Padding is required, and the bits of the last symbol that carry
no data must be zero. Decoding says which byte of the input is at fault.
-/

namespace FormatCompiler.Text.Base64

set_option autoImplicit false

/-- Why bytes are not Base64. -/
inductive Fault where
  /-- A byte that is no symbol, or padding out of place. -/
  | invalidByte (position : Nat) (byte : UInt8)
  /-- A lone symbol after the last full group. -/
  | invalidLength (length : Nat)
  /-- A last symbol with data bits beyond the last byte. -/
  | invalidLastSymbol (position : Nat) (byte : UInt8)
  /-- A last group that padding does not fill up. -/
  | invalidPadding
  deriving DecidableEq, Repr

/-- The padding byte `=`. -/
def pad : UInt8 := 61

/-- The symbol of a value below 64. -/
def symbol (value : Nat) : UInt8 :=
  if value < 26 then (65 + value).toUInt8
  else if value < 52 then (97 + (value - 26)).toUInt8
  else if value < 62 then (48 + (value - 52)).toUInt8
  else if value = 62 then 43
  else 47

/-- The value of a symbol. -/
def value? (byte : UInt8) : Option Nat :=
  if 65 ≤ byte ∧ byte ≤ 90 then some (byte.toNat - 65)
  else if 97 ≤ byte ∧ byte ≤ 122 then some (byte.toNat - 97 + 26)
  else if 48 ≤ byte ∧ byte ≤ 57 then some (byte.toNat - 48 + 52)
  else if byte = 43 then some 62
  else if byte = 47 then some 63
  else none

def encode : List UInt8 → List UInt8
  | [] => []
  | [a] => [symbol (a.toNat / 4), symbol (a.toNat % 4 * 16), pad, pad]
  | [a, b] =>
    [symbol (a.toNat / 4), symbol (a.toNat % 4 * 16 + b.toNat / 16), symbol (b.toNat % 16 * 4), pad]
  | a :: b :: c :: rest =>
    symbol (a.toNat / 4) :: symbol (a.toNat % 4 * 16 + b.toNat / 16) ::
      symbol (b.toNat % 16 * 4 + c.toNat / 64) :: symbol (c.toNat % 64) :: encode rest

/-- The value of the symbol at `position`. -/
def valueAt (position : Nat) (byte : UInt8) : Except Fault Nat :=
  match value? byte with
  | some value => .ok value
  | none => .error (.invalidByte position byte)

/-- The three bytes of four symbols. -/
def join (w x y z : Nat) : List UInt8 :=
  [(w * 4 + x / 16).toUInt8, (x % 16 * 16 + y / 4).toUInt8, (y % 4 * 64 + z).toUInt8]

/-- The symbols and the padding of the last group, which starts at `start`. `found` holds the
values so far, `pads` counts the padding and `firstPad` is its offset in the group. -/
def lastGroup (start offset : Nat) (found : List (Nat × UInt8)) (pads firstPad : Nat) :
    List UInt8 → Except Fault (List (Nat × UInt8) × Nat)
  | [] => .ok (found, pads)
  | byte :: rest =>
    if byte = pad then
      if offset < 2 then .error (.invalidByte (start + offset) byte)
      else
        lastGroup start (offset + 1) found (pads + 1) (if pads = 0 then offset else firstPad) rest
    else if 0 < pads then .error (.invalidByte (start + firstPad) pad)
    else
      match value? byte with
      | none => .error (.invalidByte (start + offset) byte)
      | some value => lastGroup start (offset + 1) (found ++ [(value, byte)]) pads firstPad rest

/-- The bytes of the last group, once its symbols and padding are known. -/
def closeGroup (start : Nat) (found : List (Nat × UInt8)) (pads : Nat) : Except Fault (List UInt8) :=
  if found.length < 2 then .error (.invalidLength (start + found.length))
  else if (pads + found.length) % 4 ≠ 0 then .error .invalidPadding
  else
    match found with
    | [(w, _), (x, last)] =>
      if x % 16 ≠ 0 then .error (.invalidLastSymbol (start + 1) last)
      else .ok [(w * 4 + x / 16).toUInt8]
    | [(w, _), (x, _), (y, last)] =>
      if y % 4 ≠ 0 then .error (.invalidLastSymbol (start + 2) last)
      else .ok [(w * 4 + x / 16).toUInt8, (x % 16 * 16 + y / 4).toUInt8]
    | [(w, _), (x, _), (y, _), (z, _)] => .ok (join w x y z)
    | _ => .error .invalidPadding

/-- Decodes the groups from `start` on, after the bytes of `done`, held in reverse. A group that
is not the last holds symbols only. -/
def decodeFrom (start : Nat) (done : List UInt8) : List UInt8 → Except Fault (List UInt8)
  | a :: b :: c :: d :: e :: rest => do
    let w ← valueAt start a
    let x ← valueAt (start + 1) b
    let y ← valueAt (start + 2) c
    let z ← valueAt (start + 3) d
    decodeFrom (start + 4) ((join w x y z).reverse ++ done) (e :: rest)
  | [] => .ok done.reverse
  | group => do
    let (found, pads) ← lastGroup start 0 [] 0 0 group
    let bytes ← closeGroup start found pads
    return done.reverse ++ bytes

/-- A stray byte after the last full group is reported before anything else. -/
def strayByte (input : List UInt8) : Option Fault :=
  if input.length % 4 = 1 then
    match input.getLast? with
    | some last =>
      if last ≠ pad ∧ value? last = none then some (.invalidByte (input.length - 1) last) else none
    | none => none
  else none

def decode (input : List UInt8) : Except Fault (List UInt8) :=
  match strayByte input with
  | some fault => .error fault
  | none => decodeFrom 0 [] input

end FormatCompiler.Text.Base64
