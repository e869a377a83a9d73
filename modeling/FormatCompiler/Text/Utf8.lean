/-!
UTF-8. Decoding stops at the first byte that cannot be part of a well-formed sequence and says
where the sequence began and how many of its bytes were good.
-/

namespace FormatCompiler.Text.Utf8

set_option autoImplicit false

/-- Why bytes are not UTF-8. Positions are those of a sequence's first byte. -/
inductive Fault where
  /-- The first `length` bytes of a sequence cannot be continued by what follows. -/
  | invalid (position length : Nat)
  /-- The bytes end inside a sequence. -/
  | incomplete (position : Nat)
  deriving DecidableEq, Repr

def encode (text : List Char) : List UInt8 :=
  text.flatMap String.utf8EncodeChar

/-- The number of bytes of a text. -/
def size (text : List Char) : Nat :=
  text.foldr (fun c size => c.utf8Size + size) 0

def isTail (b : UInt8) : Bool :=
  0x80 ≤ b && b ≤ 0xBF

/-- The second bytes that may follow a first byte of a three-byte sequence. -/
def isSecondOfThree (a b : UInt8) : Bool :=
  (a == 0xE0 && 0xA0 ≤ b && b ≤ 0xBF) || (0xE1 ≤ a && a ≤ 0xEC && isTail b) ||
    (a == 0xED && 0x80 ≤ b && b ≤ 0x9F) || (0xEE ≤ a && a ≤ 0xEF && isTail b)

/-- The second bytes that may follow a first byte of a four-byte sequence. -/
def isSecondOfFour (a b : UInt8) : Bool :=
  (a == 0xF0 && 0x90 ≤ b && b ≤ 0xBF) || (0xF1 ≤ a && a ≤ 0xF3 && isTail b) ||
    (a == 0xF4 && 0x80 ≤ b && b ≤ 0x8F)

/-- The character whose sequence has these payload bits. -/
def character (bits : Nat) : Char :=
  Char.ofNat bits

/-- Decodes the bytes from `position` on, after the characters of `done`, held in reverse. -/
def decodeFrom (position : Nat) (done : List Char) : List UInt8 → Except Fault (List Char)
  | [] => .ok done.reverse
  | a :: rest =>
    if a < 0x80 then decodeFrom (position + 1) (character a.toNat :: done) rest
    else if 0xC2 ≤ a ∧ a ≤ 0xDF then
      match rest with
      | [] => .error (.incomplete position)
      | b :: rest =>
        if isTail b then
          decodeFrom (position + 2)
            (character ((a.toNat - 0xC0) * 64 + (b.toNat - 0x80)) :: done) rest
        else .error (.invalid position 1)
    else if 0xE0 ≤ a ∧ a ≤ 0xEF then
      match rest with
      | [] => .error (.incomplete position)
      | b :: rest =>
        if isSecondOfThree a b then
          match rest with
          | [] => .error (.incomplete position)
          | c :: rest =>
            if isTail c then
              decodeFrom (position + 3)
                (character ((a.toNat - 0xE0) * 4096 + (b.toNat - 0x80) * 64 + (c.toNat - 0x80)) ::
                  done) rest
            else .error (.invalid position 2)
        else .error (.invalid position 1)
    else if 0xF0 ≤ a ∧ a ≤ 0xF4 then
      match rest with
      | [] => .error (.incomplete position)
      | b :: rest =>
        if isSecondOfFour a b then
          match rest with
          | [] => .error (.incomplete position)
          | c :: rest =>
            if isTail c then
              match rest with
              | [] => .error (.incomplete position)
              | d :: rest =>
                if isTail d then
                  decodeFrom (position + 4)
                    (character ((a.toNat - 0xF0) * 262144 + (b.toNat - 0x80) * 4096 +
                      (c.toNat - 0x80) * 64 + (d.toNat - 0x80)) :: done) rest
                else .error (.invalid position 3)
            else .error (.invalid position 2)
        else .error (.invalid position 1)
    else .error (.invalid position 1)

def decode (bytes : List UInt8) : Except Fault (List Char) :=
  decodeFrom 0 [] bytes

/-- The characters that start `skip` bytes in, or nothing when a character straddles that point. -/
def dropBytes : Nat → List Char → Option (List Char)
  | 0, text => some text
  | _ + 1, [] => none
  | skip + 1, c :: rest =>
    if c.utf8Size ≤ skip + 1 then dropBytes (skip + 1 - c.utf8Size) rest else none

/-- The characters that make up exactly the first `length` bytes, if some do. -/
def takeBytes : Nat → List Char → Option (List Char)
  | 0, _ => some []
  | _ + 1, [] => none
  | length + 1, c :: rest =>
    if c.utf8Size ≤ length + 1 then (takeBytes (length + 1 - c.utf8Size) rest).map (c :: ·)
    else none

/-- The `length` bytes from `start` on, when both ends fall between characters. -/
def slice (start length : Nat) (text : List Char) : Option (List Char) :=
  (dropBytes start text).bind (takeBytes length)

end FormatCompiler.Text.Utf8
