import FormatCompiler.Expr.Basic

/-!
Descriptions of binary formats: the fields of a structure in the order they are read, the values
computed or read on demand, the enums and the types it declares, and the checks on what was read.
-/

namespace FormatCompiler

set_option autoImplicit false

inductive ByteOrder where
  | little
  | big
  deriving DecidableEq, Repr

/-- The types a field is read as without looking further. -/
inductive Primitive where
  | u1
  | u2
  | u4
  | u8
  | s1
  | s2
  | s4
  | s8
  | f4
  | f8
  | str
  | bytes
  deriving DecidableEq, Repr

/-- How often a field is read. -/
inductive Repetition where
  | once
  /-- Up to the end of the stream. -/
  | toEnd
  /-- As often as an expression says. -/
  | times
  /-- Until an expression holds of the item just read. -/
  | stopWhen
  deriving DecidableEq, Repr

/-- A primitive or the name of a declared type. -/
inductive TypeRef where
  | primitive (type : Primitive)
  | named (name : String)
  deriving DecidableEq, Repr

structure TypeDecl where
  name : String
  type : TypeRef
  deriving DecidableEq, Repr

/-- One case of a switch; the case without a value is the fallback. -/
structure SwitchCase where
  value : Option Expr
  type : TypeRef
  deriving DecidableEq, Repr

/-- A change of the bytes of a field after they are read. -/
inductive Transform where
  | xor (key : UInt8)
  deriving DecidableEq, Repr

/-- A field of the sequence. -/
structure Field where
  id : String
  type : TypeRef
  order : Option ByteOrder := none
  size : Option Expr := none
  enumName : Option String := none
  encoding : Option String := none
  condition : Option Expr := none
  repetition : Repetition := .once
  repeatExpr : Option Expr := none
  switchOn : Option Expr := none
  cases : List SwitchCase := []
  transform : Option Transform := none
  deriving DecidableEq, Repr

structure EnumValue where
  value : Int64
  name : String
  deriving DecidableEq, Repr

structure EnumDecl where
  name : String
  values : List EnumValue
  deriving DecidableEq, Repr

/-- How a value is read on demand, and from where. -/
structure ParseRule where
  type : TypeRef
  order : Option ByteOrder := none
  position : Option Expr := none
  size : Option Expr := none
  encoding : Option String := none
  deriving DecidableEq, Repr

inductive InstanceBody where
  | value (expr : Expr)
  | parse (rule : ParseRule)
  deriving DecidableEq, Repr

/-- A value evaluated when it is first asked for. -/
structure Instance where
  id : String
  body : InstanceBody
  deriving DecidableEq, Repr

/-- A condition on a field, checked once the sequence is read. -/
structure Validation where
  target : String
  condition : Expr
  message : String
  deriving DecidableEq, Repr

structure Format where
  name : String
  order : ByteOrder
  imports : List String := []
  types : List TypeDecl := []
  fields : List Field := []
  enums : List EnumDecl := []
  instances : List Instance := []
  validations : List Validation := []
  deriving DecidableEq, Repr

namespace ByteOrder

def word : ByteOrder → String
  | .little => "le"
  | .big => "be"

def ofWord? (word : String) : Option ByteOrder :=
  if word = "le" then some .little else if word = "be" then some .big else none

end ByteOrder

namespace Primitive

def all : List Primitive :=
  [.u1, .u2, .u4, .u8, .s1, .s2, .s4, .s8, .f4, .f8, .str, .bytes]

def word : Primitive → String
  | .u1 => "u1"
  | .u2 => "u2"
  | .u4 => "u4"
  | .u8 => "u8"
  | .s1 => "s1"
  | .s2 => "s2"
  | .s4 => "s4"
  | .s8 => "s8"
  | .f4 => "f4"
  | .f8 => "f8"
  | .str => "str"
  | .bytes => "bytes"

def ofWord? (word : String) : Option Primitive :=
  all.find? fun type => type.word == word

def isInteger : Primitive → Bool
  | .u1 | .u2 | .u4 | .u8 | .s1 | .s2 | .s4 | .s8 => true
  | .f4 | .f8 | .str | .bytes => false

/-- Whether byte order makes no difference because there is one byte. -/
def isSingleByte : Primitive → Bool
  | .u1 | .s1 => true
  | _ => false

/-- How wide the storage of a type is; text and bytes are wider than every number. -/
def rank : Primitive → Nat
  | .u1 | .s1 => 1
  | .u2 | .s2 => 2
  | .u4 | .s4 | .f4 => 4
  | .u8 | .s8 | .f8 => 8
  | .str | .bytes => 100

end Primitive

namespace Repetition

def word : Repetition → String
  | .once => "none"
  | .toEnd => "eos"
  | .times => "expr"
  | .stopWhen => "until"

def ofWord? (word : String) : Option Repetition :=
  if word = "none" then some .once
  else if word = "eos" then some .toEnd
  else if word = "expr" then some .times
  else if word = "until" then some .stopWhen
  else none

/-- Whether the repetition is governed by an expression. -/
def takesExpr : Repetition → Bool
  | .once | .toEnd => false
  | .times | .stopWhen => true

end Repetition

def TypeRef.primitive? : TypeRef → Option Primitive
  | .primitive type => some type
  | .named _ => none

/-- The fallback of a switch. -/
def Field.fallback (field : Field) : Option SwitchCase :=
  field.cases.find? fun case => case.value.isNone

/-- The rule of an instance that is read rather than computed. -/
def Instance.rule? (inst : Instance) : Option ParseRule :=
  match inst.body with
  | .value _ => none
  | .parse rule => some rule

def Format.field? (format : Format) (id : String) : Option Field :=
  format.fields.find? fun field => field.id == id

def Format.instance? (format : Format) (id : String) : Option Instance :=
  format.instances.find? fun inst => inst.id == id

end FormatCompiler
