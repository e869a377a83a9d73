import FormatCompiler.Format.Basic
import FormatCompiler.Text.Basic

/-!
Writing a format as a listing: a header, the name and the byte order, then the sections, each with
a count of its rows, and an end mark. Every optional field is written out. A row is a line of cells
with a space between two of them; a cell is a bare word or a quoted text.
-/

namespace FormatCompiler.Listing

set_option autoImplicit false

inductive Cell where
  | bare (word : String)
  | quoted (text : String)
  deriving DecidableEq, Repr

/-- The word a reader finds in a cell. -/
def Cell.content : Cell → String
  | .bare word => word
  | .quoted text => text

def Cell.text : Cell → List Char
  | .bare word => word.toList
  | .quoted text => Text.quote text.toList

abbrev Row := List Cell

def Row.text : Row → List Char
  | [] => []
  | [cell] => cell.text
  | cell :: rest => cell.text ++ ' ' :: Row.text rest

/-- The first line of every listing. -/
def header : String := "KSIR1"

/-- The last line of every listing. -/
def endMark : String := "end"

/-- What stands for an absent field. -/
def absent : String := "none"

/-- What stands for the value of a fallback case. -/
def otherwise : String := "else"

def exprCell (expr : Expr) : Cell :=
  .quoted (String.ofList expr.text)

def optionalExpr : Option Expr → Cell
  | some expr => exprCell expr
  | none => .quoted absent

def optionalText : Option String → Cell
  | some text => .quoted text
  | none => .quoted absent

def optionalOrder : Option ByteOrder → Cell
  | some order => .bare order.word
  | none => .bare absent

def count (number : Nat) : Cell :=
  .bare (Text.showNat number)

def typeCells : TypeRef → Row
  | .primitive type => [.bare "primitive", .quoted type.word]
  | .named name => [.bare "user", .quoted name]

def importRow (name : String) : Row :=
  [.bare "import", .quoted name]

def typeRow (decl : TypeDecl) : Row :=
  [.bare "type", .quoted decl.name] ++ typeCells decl.type

def caseCells (case : SwitchCase) : Row :=
  (match case.value with
    | some value => exprCell value
    | none => .quoted otherwise) :: typeCells case.type

def transformCells : Option Transform → Row
  | some (.xor key) => [.bare "xor_const", count key.toNat]
  | none => [.bare absent]

def fieldRow (field : Field) : Row :=
  [.bare "attr", .quoted field.id] ++ typeCells field.type ++
    [optionalOrder field.order, optionalExpr field.size, optionalText field.enumName,
      optionalText field.encoding, optionalExpr field.condition,
      .bare field.repetition.word, optionalExpr field.repeatExpr,
      optionalExpr field.switchOn, count field.cases.length] ++
    field.cases.flatMap caseCells ++ transformCells field.transform

def enumValueRow (value : EnumValue) : Row :=
  [.bare "enum_value", .bare (Text.showInt64 value.value), .quoted value.name]

def enumRows (decl : EnumDecl) : List Row :=
  [.bare "enum", .quoted decl.name, count decl.values.length] :: decl.values.map enumValueRow

def instanceRow (inst : Instance) : Row :=
  [.bare "instance", .quoted inst.id] ++
    match inst.body with
    | .value expr => [.bare "value", exprCell expr]
    | .parse rule =>
      [.bare "parse"] ++ typeCells rule.type ++
        [optionalOrder rule.order, optionalExpr rule.position, optionalExpr rule.size,
          optionalText rule.encoding]

def validationRow (validation : Validation) : Row :=
  [.bare "validation", .quoted validation.target, exprCell validation.condition,
    .quoted validation.message]

/-- The row that opens a section. -/
def sectionRow (name : String) (size : Nat) : Row :=
  [.bare name, count size]

def rows (format : Format) : List Row :=
  [[.bare header], [.bare "name", .quoted format.name],
    [.bare "default_endian", .bare format.order.word]] ++
  sectionRow "imports" format.imports.length :: format.imports.map importRow ++
  sectionRow "types" format.types.length :: format.types.map typeRow ++
  sectionRow "attrs" format.fields.length :: format.fields.map fieldRow ++
  sectionRow "enums" format.enums.length :: format.enums.flatMap enumRows ++
  sectionRow "instances" format.instances.length :: format.instances.map instanceRow ++
  sectionRow "validations" format.validations.length :: format.validations.map validationRow ++
  [[.bare endMark]]

/-- The listing of a format; every row ends with a line feed. -/
def write (format : Format) : List Char :=
  (rows format).flatMap fun row => row.text ++ ['\n']

end FormatCompiler.Listing
