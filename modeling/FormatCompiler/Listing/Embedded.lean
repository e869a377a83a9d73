import FormatCompiler.Listing.Reader
import FormatCompiler.Text.Base64

/-!
A structure nested in another is a whole format of its own. It is declared as a type whose name
carries the listing of that format in Base64, behind a mark.
-/

namespace FormatCompiler

set_option autoImplicit false

/-- What marks a type name that carries a format. -/
def TypeRef.scopeMark : String := "__scope_b64__:"

/-- The type that carries a format. -/
def TypeRef.embed (format : Format) : TypeRef :=
  .named (scopeMark ++ String.ofList
    ((Text.Base64.encode (Text.Utf8.encode (Listing.write format))).map fun byte =>
      Char.ofNat byte.toNat))

/-- The text behind the mark of a type that carries a format. -/
def TypeRef.payload? : TypeRef → Option String
  | .primitive _ => none
  | .named name =>
    ((Name.dropPrefix scopeMark.toList name.toList).filter (!·.isEmpty)).map String.ofList

namespace Listing

def Malformed.message (fault : Malformed) : String :=
  "line " ++ Text.showNat fault.line ++ ": " ++ fault.fault.message

/-- Why a payload does not carry a format. -/
inductive PayloadFault where
  | base64 (fault : Text.Base64.Fault)
  | utf8 (fault : Text.Utf8.Fault)
  | listing (fault : Malformed)
  deriving DecidableEq, Repr

def PayloadFault.message : PayloadFault → String
  | .base64 (.invalidByte position byte) =>
    "Invalid symbol " ++ Text.showNat byte.toNat ++ ", offset " ++ Text.showNat position ++ "."
  | .base64 (.invalidLength length) => "Invalid input length: " ++ Text.showNat length
  | .base64 (.invalidLastSymbol position byte) =>
    "Invalid last symbol " ++ Text.showNat byte.toNat ++ ", offset " ++ Text.showNat position ++ "."
  | .base64 .invalidPadding => "Invalid padding"
  | .utf8 (.invalid position length) =>
    "invalid utf-8 sequence of " ++ Text.showNat length ++ " bytes from index " ++
      Text.showNat position
  | .utf8 (.incomplete position) =>
    "incomplete utf-8 byte sequence from index " ++ Text.showNat position
  | .listing fault => fault.message

/-- A declared structure whose payload is at fault. -/
structure BadScope where
  name : String
  fault : PayloadFault
  deriving DecidableEq, Repr

def BadScope.message (bad : BadScope) : String :=
  "invalid embedded scope " ++ bad.name ++ ": " ++ bad.fault.message

/-- The format a payload carries. Blanks in the payload do not count. -/
def readPayload (payload : List Char) : Except PayloadFault Format := do
  let bytes ← (Text.Base64.decode (Text.Utf8.encode (Text.compact payload))).mapError .base64
  let text ← (Text.Utf8.decode bytes).mapError .utf8
  (read text).mapError .listing

/-- The format of the structure called `name`. -/
def unembed (name payload : String) : Except BadScope Format :=
  (readPayload payload.toList).mapError fun fault => { name, fault }

end Listing

end FormatCompiler
